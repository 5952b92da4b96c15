import TableTalk.Store.Selection
/-!
# Tables of a store's own

Some tables have no records until a selection asks for them. They have hidden columns besides the
others. A condition that a column be equal to a value can be what the records are made for; of
several such conditions on one column the last one counts, and it may not be looked at again
(`OwnTable.answered`). Conditions that are decided by the values that columns are asked to have
(`Plan.decided`) are looked at first of all, and no records are made if one of them does not hold.
-/

namespace TableTalk

open Sql

structure OwnTable where
  columns : List Column
  hidden : List Column
  /-- Of the columns that are asked for, those that all records are taken to answer. -/
  answered : List Nat → List Nat
  /-- The records for the values that columns are asked to have, if some columns are looked at. -/
  records : (Nat → Option Cell) → (Nat → Bool) → Except Fault (List Record)
  /-- Whether making the records opens the part of a store for tables that do not last. -/
  opens : (Nat → Option Cell) → Bool := fun _ => false

/-- A value as written. -/
def Sql.Expr.constant? : Expr Ref → Option Cell
  | .text s => some (.text s)
  | .truth b => some (.truth b)
  | _ => none

/-- Whether a column is compared with something, other than to differ from it. -/
def Sql.Expr.comparesColumn : Expr Ref → Bool
  | .compare .ne _ _ => false
  | .compare _ (.column _) _ => true
  | _ => false

/-- The column and the value that a condition asks to be equal. -/
def Sql.Expr.asked? : Expr Ref → Option (Nat × Cell)
  | .compare .eq (.column (.cell i _)) e => e.constant?.map fun c => (i, c)
  | _ => none

namespace Plan

/-- The values that columns are asked to have, those of the last conditions first. -/
def asked (p : Plan) : List (Nat × Cell) := (p.conditions.filterMap Expr.asked?).reverse

/-- Whether a condition is decided once columns are asked to have values. A column without a type
decides only what it is compared with. -/
def decided (asked : List (Nat × Cell)) (e : Expr Ref) : Bool :=
  e.names.all fun
    | .cell i type => (type.isSome || e.comparesColumn) && (asked.lookup i).isSome
    | .rowId => false

/-- The values that are asked for as a record of some columns. -/
def askedRecord (asked : List (Nat × Cell)) (columns : List Column) : Record :=
  ⟨0, columns.mapIdx fun i c =>
    match asked.lookup i, c.type with
    | some v, some type => type.store v
    | some v, none => v
    | none, _ => .null⟩

/-- Conditions, the last first, without the first ones that ask for some columns and without others
that are decided. -/
def open_ (asked : List (Nat × Cell)) (answered seen : List Nat) : List (Expr Ref) → List (Expr Ref)
  | [] => []
  | e :: es =>
    match e.asked? with
    | some (i, _) =>
      if i ∈ seen then
        if decided asked e then open_ asked answered seen es
        else e :: open_ asked answered seen es
      else if i ∈ answered then open_ asked answered (i :: seen) es
      else e :: open_ asked answered (i :: seen) es
    | none =>
      if decided asked e then open_ asked answered seen es
      else e :: open_ asked answered seen es

end Plan

/-- Whether a plan looks at a column. -/
def Plan.looksAt (p : Plan) (i : Nat) : Bool :=
  let es := p.items ++ p.conditions ++ p.groupBy.toList ++ (p.orderBy.map Prod.fst).toList
  (es.flatMap Expr.names).any fun
    | .cell j _ => j == i
    | .rowId => false

namespace OwnTable

/-- The columns that name the number of a record. -/
def numbers : List Column := Scope.numberNames.map fun n => ⟨n, some .integer⟩

/-- The plan of a selection, and whether the conditions that are decided hold. -/
def plan (t : OwnTable) (q : Select) : Except Fault (Plan × Bool) := do
  let hidden := t.hidden ++ numbers
  let p ← Scope.plan ⟨t.columns, hidden, false⟩ q
  let possible ← Expr.allHold (Plan.askedRecord p.asked (t.columns ++ hidden))
    (p.conditions.filter (Plan.decided p.asked))
  .ok (p, possible)

/-- Whether a selection opens the part of a store for tables that do not last. -/
def opensFor (t : OwnTable) (q : Select) : Bool :=
  match t.plan q with
  | .ok (p, possible) => possible && t.opens (p.asked.lookup ·)
  | .error _ => false

/-- The result of a selection as a table with a name. -/
def select (t : OwnTable) (q : Select) (name : String) : Except Fault Table := do
  let (p, possible) ← t.plan q
  let asked := p.asked
  let answered := t.answered (asked.map Prod.fst).eraseDups
  let rest : Plan :=
    { p with conditions := (Plan.open_ asked answered [] p.conditions.reverse).reverse }
  let made ← if possible then t.records (asked.lookup ·) rest.looksAt else .ok []
  let rs := made.map fun r =>
    { r with cells := r.cells ++ List.replicate numbers.length (.int r.number) }
  let records ← rest.run rs
  .ok ⟨name, p.columns, records⟩

end OwnTable

end TableTalk
