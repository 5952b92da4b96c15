import TableTalk.Document.Basic
/-!
# Documents in binary form

A store keeps a document as bytes: each value is its kind and the number of bytes of its content,
and the content. Numbers and strings have their spelling as content, arrays their items, and objects
the name and the value of each member in turn. The place of a value is the number of bytes in front
of it.
-/

namespace TableTalk.Document

-- powers and sums are those of the core library, whatever else is imported
attribute [local instance (high)] instPowNat Zero.ofOfNat0

/-- Bytes in front of a content of some bytes. -/
def header (content : Nat) : Nat :=
  if content ≤ 11 then 1
  else if content < 2 ^ (8 : Nat) then 2
  else if content < 2 ^ (16 : Nat) then 3
  else 5

def bytesOf (cs : List Char) : Nat := (cs.map fun c => c.utf8Size).sum

/-- Bytes of a content with what stands in front of it. -/
def framed (content : Nat) : Nat := header content + content

mutual

/-- Bytes of the content of a value. -/
def content : Document → Nat
  | null => 0
  | bool _ => 0
  | number s => bytesOf s
  | hexadecimal negative digits => digits.length + (if negative then 3 else 2)
  | text s => bytesOf s
  | arr items => itemBytes items
  | obj members => memberBytes members

def itemBytes : List Document → Nat
  | [] => 0
  | d :: rest => framed d.content + itemBytes rest

def memberBytes : List (List Char × Document) → Nat
  | [] => 0
  | (n, d) :: rest => framed (bytesOf n) + framed d.content + memberBytes rest

end

/-- Bytes of a value. -/
def bytes (d : Document) : Nat := framed d.content

/-- The place of the first item or member of a value. -/
def inside (d : Document) (place : Nat) : Nat := place + header d.content

/-- The place of an item or of the name of a member at a position, and that of its value. -/
def child? (d : Document) (place position : Nat) : Option (Nat × Nat × Document) :=
  match d with
  | arr items => (items[position]?).map fun item =>
    let there := d.inside place + itemBytes (items.take position)
    (there, there, item)
  | obj members => (members[position]?).map fun (n, v) =>
    let there := d.inside place + memberBytes (members.take position)
    (there, there + framed (bytesOf n), v)
  | _ => none

/-- The place of the part at the end of some positions: that of its name, if it has one, and that of
its value. -/
def placeOf (d : Document) (name place : Nat) : List Nat → Nat × Nat
  | [] => (name, place)
  | position :: rest =>
    match d.child? place position with
    | some (name, place, d) => placeOf d name place rest
    | none => (name, place)

end TableTalk.Document
