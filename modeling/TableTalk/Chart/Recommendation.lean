import TableTalk.Chart.Basic
import TableTalk.Table.Category
/-!
# Charts of raw data

The first row tells what role each column can play in a chart: a finite number or a text that spells
one is numeric, a text that looks like a date is a date, all else is a category. The first column of
each role then gives at most three charts, the best one first. A pie comes with its slices.
-/

namespace TableTalk

/-- The columns of each role, in the order of the row. -/
structure Roles where
  numeric : List String
  categorical : List String
  date : List String
deriving DecidableEq, Repr

inductive Role where
  | numeric
  | categorical
  | date
deriving DecidableEq, Repr

structure Recommendation where
  chart : Chart
  score : Nat
  /-- The slices of a pie. -/
  slices : Option (List Row)

namespace Roles

def role (v : Json) : Role :=
  if v.figure?.any Float.isFinite then .numeric
  else match v with
    | .str s => if looksDated s then .date else .categorical
    | _ => .categorical

def ofRow (first : Row) : Roles where
  numeric := (first.cells.filter fun c => role c.2 = .numeric).map Prod.fst
  categorical := (first.cells.filter fun c => role c.2 = .categorical).map Prod.fst
  date := (first.cells.filter fun c => role c.2 = .date).map Prod.fst

def toJson (r : Roles) : Json :=
  let texts (cs : List String) : Json := .arr (cs.map .str)
  .obj [("numeric", texts r.numeric), ("categorical", texts r.categorical), ("date", texts r.date)]

end Roles

namespace Recommendation

def toJson (r : Recommendation) : Json :=
  .obj (r.chart.members ++ [("score", .int r.score)]
    ++ (r.slices.map fun rows => ("data", rowsJson rows)).toList)

/-- The figures of a column by category, each taken for the number that `num` makes of it. A cell
without a figure counts as zero. -/
def sliceSums {α : Type} [Add α] [OfNat α 0] (num : Float → α) (rows : List Row)
    (category value : String) : List (String × α) :=
  totals (rows.map fun r => (r.category category, ((r.figure? value).map num).getD 0))

def sliceTotals (rows : List Row) (category value : String) : List (String × Float) :=
  sliceSums id rows category value

/-- One row for each category. -/
def slicesOf (rows : List Row) (category value : String) : List Row :=
  (sliceTotals rows category value).map fun (name, total) =>
    Row.ofMembers [(category, .str name), (value, .ofFloat total)]

def overTime (x y : String) : Recommendation := ⟨⟨.line, x, y, s!"{y} over {x}"⟩, 10, none⟩

def byCategory (x y : String) : Recommendation := ⟨⟨.bar, x, y, s!"{y} by {x}"⟩, 9, none⟩

def share (rows : List Row) (x y : String) : Recommendation :=
  ⟨⟨.pie, x, y, s!"Distribution of {y}"⟩, 8, some (slicesOf rows x y)⟩

/-- The charts of a column of numbers by a date and by a category, the best one first. -/
def ofColumns (rows : List Row) (number date category : Option String) : List Recommendation :=
  number.toList.flatMap fun y =>
    (date.toList.map fun x => overTime x y)
    ++ category.toList.flatMap fun x => [byCategory x y, share rows x y]

/-- The roles of the columns of some rows, if there are rows, and the charts. -/
def ofRows? : List Row → Option (Roles × List Recommendation)
  | [] => none
  | first :: rest =>
    let roles := Roles.ofRow first
    some (roles, ofColumns (first :: rest) roles.numeric.head? roles.date.head?
      roles.categorical.head?)

end Recommendation

end TableTalk
