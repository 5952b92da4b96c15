import TableTalk.Json.Printer
import TableTalk.Table.Profile
/-!
# Figures and categories

A cell counts as a figure if it is a number or a text that spells one, and as a category it is known
by its text, a missing cell like a null one. `totals` adds up figures by category, the categories in
order of first occurrence. It works over any numbers that can be added, so that what holds of exact
sums can be said apart from rounding.
-/

namespace TableTalk

/-- The number that a cell is or spells. -/
def Json.figure? : Json → Option Float
  | .str s => numberText? s
  | v => v.number

/-- The text by which a cell is told apart as a category. -/
def Json.category : Option Json → String
  | some (.str s) => s
  | some v => v.compact
  | none => "null"

namespace Row

def figure? (r : Row) (column : String) : Option Float := (r.get? column).bind Json.figure?

def category (r : Row) (column : String) : String := Json.category (r.get? column)

end Row

section Totals

variable {α : Type} [Add α] [OfNat α 0]

/-- Adds a value to the total of its category, starting from zero for a new one. -/
def addTotal (category : String) (value : α) : List (String × α) → List (String × α)
  | [] => [(category, 0 + value)]
  | (c, total) :: rest =>
    if c = category then (c, total + value) :: rest else (c, total) :: addTotal category value rest

/-- The total of each category, in order of first occurrence. -/
def totals (values : List (String × α)) : List (String × α) :=
  values.foldl (fun acc v => addTotal v.1 v.2 acc) []

/-- The sum from left to right. -/
def sumOf (values : List α) : α := values.foldl (· + ·) 0

end Totals

/-- The first of the largest totals. -/
def largest? {α : Type} [LT α] [DecidableRel (LT.lt (α := α))] :
    List (String × α) → Option (String × α)
  | [] => none
  | t :: ts => some (ts.foldl (fun best t => if best.2 < t.2 then t else best) t)

end TableTalk
