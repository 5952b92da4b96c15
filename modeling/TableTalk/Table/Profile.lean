import TableTalk.Calendar.Reading
import TableTalk.Decimal.Reading
import TableTalk.Table.Row
import TableTalk.Table.Schema
/-!
# Profiling rows

The columns of a row set are the keys of its rows in order of first occurrence. The type of a column
is decided by the cell of the first sample row alone: a finite number or a text that spells one is a
number, a text that starts as a date and is a timestamp is a date, other cells are text, and a
missing or null cell leaves the column unknown.
-/

namespace TableTalk

/-- A text as a finite number, blanks around it ignored. -/
def numberText? (s : String) : Option Float :=
  (Decimal.readNumber? (Text.trimChars s.toList)).filter Float.isFinite

/-- A JSON number as a double. -/
def Json.number : Json → Option Float
  | .int n => some (Float.ofInt n)
  | .double x => some x
  | _ => none

namespace Profile

/-- The elements of `xs` that are not in `seen`, each once, in order of first occurrence. -/
def fresh (seen : List String) : List String → List String
  | [] => []
  | x :: xs => if x ∈ seen then fresh seen xs else x :: fresh (x :: seen) xs

/-- The keys of all rows in order of first occurrence. -/
def columnNames (rows : List Row) : List String := fresh [] (rows.flatMap Row.keys)

def textType (s : String) : ColumnType :=
  if (numberText? s).isSome then .number
  else if looksDated s then .date
  else .text

def numberType (x : Float) : ColumnType := if x.isFinite then .number else .text

/-- The type that one cell gives its column. -/
def cellType : Json → ColumnType
  | .null => .unknown
  | .int n => numberType (Float.ofInt n)
  | .double x => numberType x
  | .str s => textType s
  | .bool _ => .text
  | .arr _ => .text
  | .obj _ => .text

/-- The type of a column in the first row of a sample. -/
def columnType (sample : List Row) (column : String) : ColumnType :=
  match sample with
  | [] => .unknown
  | first :: _ => ((first.get? column).map cellType).getD .unknown

/-- Types for known columns. -/
def ofColumns (columns : List String) (sample : List Row) : Schema :=
  Schema.ofPairs (columns.map fun c => (c, columnType sample c))

/-- Columns of all rows, typed by the first `size` rows. -/
def ofSample (rows : List Row) (size : Nat) : Schema :=
  ofColumns (columnNames rows) (rows.take size)

/-- Columns of all rows, typed by the first row. -/
def ofRows (rows : List Row) : Schema := ofColumns (columnNames rows) rows

end Profile

end TableTalk
