import TableTalk.Intent.Decode
import TableTalk.Json.Parser
import TableTalk.Source.Basic
/-!
# Data sources in a directory

The data set of an id is the file of that name in one directory, an array of rows or an object with
`rows` and an `owner`. An id is part of a file name and never a path: it has letters, digits and a
few marks only, and no dot in front. A data set is read as a whole, so one item that is no object
makes all of it unusable.
-/

namespace TableTalk

/-- What stands under a name in a directory. -/
inductive Entry where
  | absent
  | unreadable (problem : String)
  | file (bytes : ByteArray)

namespace Directory

def idChar (c : Char) : Bool := c.isAlphanum || c == '-' || c == '_' || c == '.'

def validId (id : String) : Bool :=
  match id.toList with
  | [] => false
  | c :: cs => c != '.' && (c :: cs).all idChar

def fileName (id : String) : String := id ++ ".json"

/-- The items as rows, or the place of the first one that is none. -/
def rowsFrom (index : Nat) : List Json → Except Nat (List Row)
  | [] => .ok []
  | v :: vs =>
    match Row.ofJson? v with
    | none => .error index
    | some r => (rowsFrom (index + 1) vs).map (r :: ·)

/-- The parts of a document met so far. -/
structure Document where
  owner : Option String
  items : Option (List Json)

/-- Reads the members of a document in their order. -/
def readMembers (d : Document) : List (String × Json) → Except DecodeError Document
  | [] => .ok d
  | (name, v) :: rest =>
    if name = "owner" then do
      let owner ← Decode.text? v
      readMembers { d with owner } rest
    else if name = "rows" then
      match v with
      | .arr items => readMembers { d with items := some items } rest
      | v => .error (.wrongType v "a sequence")
    else readMembers d rest

/-- The owner and the items of a value. -/
def parts : Json → Except String (Option String × List Json)
  | .arr items => .ok (none, items)
  | .obj members =>
    match readMembers ⟨none, none⟩ members with
    | .error e => .error e.message
    | .ok ⟨_, none⟩ => .error (DecodeError.missingField "rows").message
    | .ok ⟨owner, some items⟩ => .ok (owner, items)
  | _ => .error "expected an array of rows or an object with \"rows\""

/-- The data set that a text spells. -/
def parse (text : String) : Except String Dataset := do
  match Json.read? text with
  | none => .error "malformed JSON"
  | some v =>
    let (owner, items) ← parts v
    match rowsFrom 0 items with
    | .error index => .error s!"row {index} is not an object"
    | .ok rows => .ok ⟨owner, rows⟩

/-- The data set in the entry of an id. -/
def ofEntry (id : String) : Entry → Except SourceError Dataset
  | .absent => .error (.notFound id)
  | .unreadable problem => .error (.unreadable (fileName id) problem)
  | .file bytes =>
    match String.fromUTF8? bytes with
    | none => .error (.unreadable (fileName id) "InvalidData")
    | some text => (parse text).mapError (.malformed (fileName id))

/-- The data sets of a directory whose entries can be read by name. -/
def source {m : Type → Type} [Monad m] (read : String → m Entry) : Source m := fun id =>
  if validId id then do
    let entry ← read (fileName id)
    pure (ofEntry id entry)
  else pure (.error (.notFound id))

end Directory

end TableTalk
