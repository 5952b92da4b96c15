/-!
# Column schemas

The type of each column of a data set, in the order in which the columns came up. Inserting a name
that is there already changes its type and keeps its place. The columns of one type keep the order
of the schema.
-/

namespace TableTalk

inductive ColumnType where
  | number
  | date
  | text
  | unknown
deriving DecidableEq, Repr

namespace ColumnType

def name : ColumnType → String
  | number => "number"
  | date => "date"
  | text => "text"
  | unknown => "unknown"

def all : List ColumnType := [number, date, text, unknown]

def ofName? (s : String) : Option ColumnType := all.find? fun t => t.name == s

end ColumnType

structure Schema where
  /-- The columns in order of first insertion. -/
  columns : List String
  /-- The type of each column. -/
  types : List (String × ColumnType)
deriving DecidableEq, Repr

namespace Schema

def empty : Schema := ⟨[], []⟩

/-- Sets the type of a name among typed names. -/
def retype (name : String) (type : ColumnType) :
    List (String × ColumnType) → List (String × ColumnType)
  | [] => [(name, type)]
  | (n, t) :: rest => if n = name then (n, type) :: rest else (n, t) :: retype name type rest

def contains (s : Schema) (name : String) : Bool := s.types.any (·.1 == name)

def insert (s : Schema) (name : String) (type : ColumnType) : Schema where
  columns := if s.contains name then s.columns else s.columns ++ [name]
  types := retype name type s.types

def ofPairs (pairs : List (String × ColumnType)) : Schema :=
  pairs.foldl (fun s p => s.insert p.1 p.2) empty

def type? (s : Schema) (name : String) : Option ColumnType := s.types.lookup name

def size (s : Schema) : Nat := s.columns.length

def isEmpty (s : Schema) : Bool := s.columns.isEmpty

/-- The columns with their types, in order. -/
def toList (s : Schema) : List (String × ColumnType) :=
  s.columns.map fun c => (c, (s.type? c).getD .unknown)

/-- The columns of one type, in order. -/
def columnsOf (s : Schema) (type : ColumnType) : List String :=
  (s.toList.filter fun p => p.2 = type).map Prod.fst

end Schema

end TableTalk
