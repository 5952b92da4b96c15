import TableTalk.Store.Cell
import TableTalk.Store.Fault
import TableTalk.Table.Row
/-!
# Stored tables

A table has columns, declared with a type or not, and records with a cell for each. Loading rows
makes a table with the columns of the first row: a later row has nothing where it lacks one of them,
and what it has besides is left out. No rows make a table with a single column and no records. Names
are told apart without regard to the case of ASCII letters. Loading takes two steps, to make the
table and to put the records in (`Store.loading`); `Store.load` is its result as a whole.
-/

namespace TableTalk

structure Column where
  name : String
  type : Option Declared
deriving DecidableEq, Repr

structure Table where
  name : String
  columns : List Column
  records : List (List Cell)

/-- The tables of one store. -/
structure Store where
  tables : List Table
  /-- Whether the part for tables that do not last is open. It has none, but a query can look. -/
  opened : Bool := false

namespace Table

/-- The columns that rows give a table. -/
def columnsOf : List Row → List Column
  | [] => [⟨"id", some .integer⟩]
  | first :: _ => first.cells.map fun (name, value) => ⟨name, some (.ofCell (some value))⟩

/-- A row as it is kept under some columns. -/
def record (columns : List Column) (row : Row) : List Cell :=
  columns.map fun c =>
    let cell := Cell.ofJson (row.get? c.name)
    match c.type with
    | some type => type.store cell
    | none => cell

def ofRows (name : String) (rows : List Row) : Table :=
  let columns := columnsOf rows
  ⟨name, columns, rows.map (record columns)⟩

/-- A cell as a value of a result: whole numbers of a column of booleans are truth values. -/
def value (c : Column) (cell : Cell) : Json :=
  match c.type, cell with
  | some .boolean, .int n => .bool (n != 0)
  | _, cell => cell.toJson

/-- The records as rows. -/
def rows (t : Table) : List Row :=
  t.records.map fun cells =>
    Row.ofMembers ((t.columns.zip cells).map fun (c, cell) => (c.name, value c cell))

end Table

namespace Store

def empty : Store := { tables := [] }

/-- The table with a name. -/
def table? (s : Store) (name : String) : Option Table :=
  s.tables.find? fun t => Text.sameAscii t.name name

/-- The start of the statement that makes a table, up to its columns. -/
def creation (name : String) : String :=
  "CREATE TABLE " ++ String.ofList (Sql.enclose '"' name) ++ " ("

/-- A column in the statement that makes a table. The one of a table without rows has no quotes. -/
def columnText (c : Column) : String :=
  match c.type with
  | some .integer => c.name ++ " " ++ Declared.integer.name
  | type => String.ofList (Sql.enclose '"' c.name) ++ " " ++ ((type.map Declared.name).getD "")

/-- The statement that makes a table. -/
def statement (name : String) (columns : List Column) : String :=
  creation name ++ String.intercalate ", " (columns.map columnText) ++ ")"

/-- Names that a store keeps to itself. -/
def reserved (name : String) : Bool :=
  Text.sameAscii (String.ofList (name.toList.take 7)) "sqlite_"

/-- A quoted name that is never closed, since a text ends at U+0000. -/
def unclosed (name before statement : String) : StoreError :=
  .refusedAt (.unrecognized
    (String.ofList ('"' :: (Sql.double '"' name.toList).takeWhile (· != '\x00'))))
    statement before.utf8ByteSize

/-- The columns that a table may have. -/
def columnLimit : Nat := 2000

/-- The first column that cannot be made, `before` being the statement up to it. -/
def columnFault? (name statement before : String) (seen : List String) :
    List Column → Option StoreError
  | [] => none
  | c :: rest =>
    if c.name.contains '\x00' then some (unclosed c.name before statement)
    else if columnLimit ≤ seen.length then some (.refused (.tooManyColumns name))
    else if seen.any (Text.sameAscii c.name) then some (.refused (.duplicateColumn c.name))
    else columnFault? name statement (before ++ columnText c ++ ", ") (c.name :: seen) rest

/-- Why a table with some columns cannot be made. -/
def fault? (s : Store) (name : String) (columns : List Column) : Option StoreError :=
  let statement := statement name columns
  if Text.isBlank name then some .blankName
  else if name.contains '\x00' then some (unclosed name "CREATE TABLE " statement)
  else if reserved name then some (.refused (.reservedName name))
  else if (s.table? name).isSome then
    some (.refusedAt (.tableExists name) statement "CREATE TABLE ".utf8ByteSize)
  else if columns.isEmpty then
    some (.refusedAt (.unexpected ")") statement (creation name).utf8ByteSize)
  else columnFault? name statement (creation name) [] columns

/-- The store with a new table for some rows. -/
def load (s : Store) (name : String) (rows : List Row) : Except StoreError Store :=
  match s.fault? name (Table.columnsOf rows) with
  | some e => .error e
  | none => .ok { s with tables := s.tables ++ [Table.ofRows name rows] }

/-- The store with a new table that has no records. -/
def create (s : Store) (name : String) (columns : List Column) : Except StoreError Store :=
  match s.fault? name columns with
  | some e => .error e
  | none => .ok { s with tables := s.tables ++ [⟨name, columns, []⟩] }

/-- The store with records of some width behind those of the table with a name. -/
def insert (s : Store) (name : String) (width : Nat) (records : List (List Cell)) :
    Except StoreError Store :=
  match s.table? name with
  | none => .error (.refused (.noTable name))
  | some t =>
    if width = t.columns.length then
      .ok { s with tables := s.tables.map fun u =>
        if Text.sameAscii u.name name then { u with records := u.records ++ records } else u }
    else .error (.refused (.valueCount t.name t.columns.length width))

/-- The store that a load leaves behind, and why it is refused if it is. The table is made before
the records are put in, and stays if they are not. -/
def loading (s : Store) (name : String) (rows : List Row) : Store × Option StoreError :=
  let columns := Table.columnsOf rows
  match s.create name columns with
  | .error e => (s, some e)
  | .ok made =>
    if rows.isEmpty then (made, none)
    else
      match made.insert name columns.length (rows.map (Table.record columns)) with
      | .error e => (made, some e)
      | .ok filled => (filled, none)

end Store

end TableTalk
