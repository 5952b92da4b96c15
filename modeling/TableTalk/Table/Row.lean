import TableTalk.Json.Basic
/-!
# Rows

A row is one uploaded record: values under column names in the order of the source, no name twice.
`Row.ofMembers` builds it by keyed insertion, and `Row.get?` looks a cell up.
-/

namespace TableTalk

structure Row where
  cells : List (String × Json)
  nodup : (cells.map Prod.fst).Nodup

namespace Row

@[ext] theorem ext {r s : Row} (h : r.cells = s.cells) : r = s := by
  cases r; cases s; simp_all

def empty : Row := ⟨[], by simp⟩

/-- The row of some members; a repeated name keeps its place and takes the later value. -/
def ofMembers (members : List (String × Json)) : Row :=
  ⟨setMembers members, nodup_setMembers members⟩

def insert (r : Row) (name : String) (value : Json) : Row :=
  ⟨setMember name value r.cells, nodup_setMember r.nodup⟩

def keys (r : Row) : List String := r.cells.map Prod.fst

def get? (r : Row) (name : String) : Option Json := r.cells.lookup name

def toJson (r : Row) : Json := .obj r.cells

def ofJson? : Json → Option Row
  | .obj members => some (ofMembers members)
  | _ => none

end Row

/-- The rows as one JSON array. -/
def rowsJson (rows : List Row) : Json := .arr (rows.map Row.toJson)

end TableTalk
