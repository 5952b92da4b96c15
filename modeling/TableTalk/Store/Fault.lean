import TableTalk.Sql.Parser
/-!
# What can be wrong with a statement

A store refuses a statement for one of these reasons. Some have a place, the token that gave rise to
them; they are reported with the text of the statement and the number of bytes in front of that
token.
-/

namespace TableTalk

open Sql

inductive Fault where
  /-- A name that the store keeps to itself. -/
  | reservedName (name : String)
  | tableExists (name : String)
  | duplicateColumn (name : String)
  | unrecognized (spelling : String)
  | unexpected (spelling : String)
  | incomplete
  | noTable (name : String)
  /-- Tables are kept for good or not; nothing else has this name. -/
  | noLifetime (name : String)
  /-- A table that needs to be told what it is about. -/
  | unusable (table : String)
  /-- A table of words without a text. -/
  | noText
  /-- A selection with a name that selects from itself. -/
  | circular (name : String)
  /-- A name that is no column, and how often it stands in front of the place that is reported. -/
  | noColumn (name : String) (before : Nat)
  /-- A function of many rows in a condition on one row. -/
  | misplaced (function : AggregateFunction)
  | malformedDocument
  /-- A text that leads nowhere in any document. -/
  | badPath (path : String)
  | tooManyColumns (table : String)
  /-- Records that do not go with the columns of a table. -/
  | valueCount (table : String) (columns values : Nat)
  /-- Conditions that make too deep a tree. -/
  | tooDeep
  /-- A pattern that is too long. -/
  | longPattern
  /-- A bucket that starts in front of the calendar. -/
  | beforeCalendar
deriving DecidableEq, Repr

def Fault.text : Fault → String
  | reservedName name => "object name reserved for internal use: " ++ name
  | tableExists name => "table " ++ String.ofList (enclose '"' name) ++ " already exists"
  | duplicateColumn name => "duplicate column name: " ++ name
  | unrecognized spelling => "unrecognized token: \"" ++ spelling ++ "\""
  | unexpected spelling => "near \"" ++ spelling ++ "\": syntax error"
  | incomplete => "incomplete input"
  | noTable name => "no such table: " ++ name
  | noLifetime name => "unknown database " ++ String.ofList (enclose '\'' name)
  | unusable table => "invalid arguments to " ++ table ++ " constructor"
  | noText => "SQL logic error"
  | circular name => "circular reference: " ++ name
  | noColumn name _ => "no such column: " ++ name
  | misplaced function => "misuse of aggregate: " ++ aggregateSpelling function ++ "()"
  | malformedDocument => "malformed JSON"
  | badPath path => "bad JSON path: " ++ String.ofList (enclose '\'' path)
  | tooManyColumns table => "too many columns on " ++ table
  | valueCount table columns values =>
    s!"table {table} has {columns} columns but {values} values were supplied"
  | tooDeep => s!"Expression tree is too large (maximum depth {Select.depthLimit})"
  | longPattern => "LIKE or GLOB pattern too complex"
  | beforeCalendar => "unwinding panic"

inductive StoreError where
  | blankName
  | refused (fault : Fault)
  /-- A fault with its place in the statement. -/
  | refusedAt (fault : Fault) (statement : String) (offset : Nat)
deriving DecidableEq, Repr

def StoreError.message : StoreError → String
  | blankName => "table name must not be empty"
  | refused fault => fault.text
  | refusedAt fault statement offset => s!"{fault.text} in {statement} at offset {offset}"

end TableTalk
