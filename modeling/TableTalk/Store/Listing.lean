import TableTalk.Document.Binary
import TableTalk.Store.Member
import TableTalk.Store.OwnTable
/-!
# Listings of documents

`json_each` lists the items or members of a document, and `json_tree` the document and all that is
in it, what stands in front coming first. The document is asked for in one hidden column and a part
to start from in another; without a document there is nothing to list. Each part has the place that
it has in the binary form of the document, the path that leads to it and the path of what it is in.
-/

namespace TableTalk

/-- What a listing says of a part of a document. -/
structure Part where
  /-- The position of an item or the name of a member. -/
  key : Cell
  value : Document
  place : Nat
  /-- The place of what it is in. -/
  parent : Cell
  path : List Char
  /-- The path of what it is in. -/
  outer : List Char

namespace Document

/-- The kind of a value as a word. -/
def kind : Document → String
  | null => "null"
  | bool b => if b then "true" else "false"
  | number s => if s.any fun c => c == '.' || c == 'e' || c == 'E' then "real" else "integer"
  | hexadecimal .. => "integer"
  | text _ => "text"
  | arr _ => "array"
  | obj _ => "object"

def isContainer : Document → Bool
  | arr _ => true
  | obj _ => true
  | _ => false

end Document

namespace Listing

open Document (bytesOf framed)

/-- The step to an item. -/
def itemStep (position : Nat) : List Char := '[' :: Nat.toDigits 10 position ++ [']']

/-- The step to a member, whose name stands between quotes unless it has letters and digits only. -/
def memberStep (name : List Char) : List Char :=
  if !name.isEmpty && name.all Char.isAlphanum then '.' :: name else '.' :: '"' :: name ++ ['"']

/-- The text of a name. -/
def nameCell (name : List Char) : Cell := ((Document.text name).cell.toOption).getD .null

mutual

/-- The parts in a value whose content starts at a place, in depth or not. `owner` is the place of
the value. -/
def inside (deep : Bool) (path : List Char) (owner start : Nat) : Document → List Part
  | .arr items => items_ deep path owner start 0 items
  | .obj members => members_ deep path owner start members
  | _ => []

def items_ (deep : Bool) (path : List Char) (owner start position : Nat) :
    List Document → List Part
  | [] => []
  | d :: rest =>
    let there := path ++ itemStep position
    ⟨.int position, d, start, if deep then .int owner else .null, there, path⟩
      :: (if deep then inside deep there start (d.inside start) d else [])
      ++ items_ deep path owner (start + d.bytes) (position + 1) rest

def members_ (deep : Bool) (path : List Char) (owner start : Nat) :
    List (List Char × Document) → List Part
  | [] => []
  | (n, d) :: rest =>
    let there := path ++ memberStep n
    let place := start + framed (bytesOf n)
    ⟨nameCell n, d, start, if deep then .int owner else .null, there, path⟩
      :: (if deep then inside deep there start (d.inside place) d else [])
      ++ members_ deep path owner (place + d.bytes) rest

end

/-- The path of what a part is in, given the path and the place of the part: the longest start of
the path, of `n` characters at most, that leads to a value whose first item or member stands at that
place; the dollar sign if there is none. -/
def outerPath (d : Document) (place : Nat) (path : List Char) : Nat → List Char
  | 0 => path.take 1
  | n + 1 =>
    let outer := path.take (n + 1)
    let leads : Bool := match d.walk (outer.drop 1) with
      | .found route e => e.inside (d.placeOf 0 0 route).2 == place
      | _ => false
    let next := path[n + 1]?
    if (next == some '[' || next == some '.') && leads then outer
    else outerPath d place path n

/-- The position or the name that a path ends with, behind the path of what the part is in. -/
def lastStep : List Char → Cell
  | [] => .null
  | '[' :: cs => .int ((Decimal.digitsValue (cs.takeWhile Char.isDigit) : Nat))
  | _ :: '"' :: cs => .text (String.ofList cs.dropLast)
  | _ :: cs => .text (String.ofList cs)

/-- The parts of a document from the end of a path on. -/
def parts (deep : Bool) (d : Document) (path : List Char) : Except Fault (List Part) :=
  match path with
  | '$' :: steps =>
    match d.walk steps with
    | .badPath => .error (.badPath (String.ofList path))
    | .missing => .ok []
    | .found route e =>
      let (name, place) := d.placeOf 0 0 route
      if deep then
        let outer := outerPath d name path (path.length - 1)
        .ok (⟨lastStep (path.drop outer.length), e, name, .null, path, outer⟩
          :: inside deep path name (e.inside place) e)
      else if e.isContainer then .ok (inside deep path name (e.inside place) e)
      else .ok [⟨.null, e, name, .null, path, path⟩]
  | _ => .error (.badPath (String.ofList path))

def columns : List Column :=
  ["key", "value", "type", "atom", "id", "parent", "fullkey", "path"].map fun n => ⟨n, none⟩

def hidden : List Column := [⟨"json", some .unnamed⟩, ⟨"root", some .unnamed⟩]

/-- What a listing says of a part as a record. A value that is not looked at may be malformed. -/
def record (json root : String) (looked : Nat → Bool) (number : Nat) (p : Part) :
    Except Fault Record := do
  let value ← if looked 1 || looked 3 then p.value.cell else .ok .null
  .ok ⟨number, [p.key, value, .text p.value.kind, if p.value.isContainer then .null else value,
    .int p.place, p.parent, .text (String.ofList p.path), .text (String.ofList p.outer),
    .text json, .text root]⟩

/-- The listing of the document that is asked for. -/
def records (deep : Bool) (asked : Nat → Option Cell) (looked : Nat → Bool) :
    Except Fault (List Record) :=
  match asked 8 with
  | none => .ok []
  | some json =>
    match Document.parse? json.shown with
    | none => .error .malformedDocument
    | some d => do
      let root := ((asked 9).map Cell.shown).getD "$"
      let ps ← parts deep d root.toList
      ps.zipIdx.mapM fun (p, i) => record json.shown root looked i p

/-- The table of the listings. A part can only be asked for together with the document. -/
def table (deep : Bool) : OwnTable :=
  ⟨columns, hidden, fun asked => if 8 ∈ asked then asked.filter fun i => i = 8 ∨ i = 9 else [],
    records deep, fun _ => false⟩

end Listing

end TableTalk
