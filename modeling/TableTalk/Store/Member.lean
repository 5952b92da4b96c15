import TableTalk.Document.Parser
import TableTalk.Document.Path
import TableTalk.Store.Cell
import TableTalk.Store.Fault
/-!
# Members of documents

A query takes parts out of documents by their paths (`Cell.member`). A part is a cell: numbers keep
their kind, strings lose their escapes, and arrays and objects become compact text again. Nothing
stands for a part that is not there.
-/

namespace TableTalk

-- powers are those of the core library, whatever else is imported
attribute [local instance (high)] instPowNat

/-- A number of 64 bits, of which the upper half is negative. -/
def Cell.ofWord (n : Nat) : Cell := .int (Int.bmod n (2 ^ (64 : Nat)))

/-- A part of a document as a cell. A hexadecimal number can have too many digits. -/
def Document.cell : Document → Except Fault Cell
  | null => .ok .null
  | bool b => .ok (.int (if b then 1 else 0))
  | number spelling => .ok (.literal (String.ofList spelling))
  | hexadecimal negative digits =>
    match word? digits with
    | some n => .ok (.ofWord (if negative then 2 ^ (64 : Nat) - n else n))
    | none => .error .malformedDocument
  | text spelling => .ok (.ofCodes ((Spelling.codes spelling).filter (· != Spelling.unknown)))
  | d => .ok (.text d.compact)

/-- The part of a document at a path. -/
def Cell.member (document path : Cell) : Except Fault Cell :=
  match document, path with
  | null, _ => .ok null
  | _, null => .ok null
  | d, p =>
    match Document.parse? d.shown with
    | none => .error .malformedDocument
    | some d =>
      match d.part p.shown with
      | .found _ d => d.cell
      | .missing => .ok null
      | .badPath => .error (.badPath p.shown)

end TableTalk
