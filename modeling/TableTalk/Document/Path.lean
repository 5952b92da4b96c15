import TableTalk.Decimal.Reading
import TableTalk.Document.Basic
/-!
# Paths in documents

A path goes from a document to a part of it: a point and a name lead to a member, and brackets with
a number to an item, counted from the front or, behind a number sign, from the end. A path starts
with a dollar sign. What starts otherwise is a number, an index in brackets or the name of a member
(`rooted`). Where there is no such part the rest of the path is not looked at.
-/

namespace TableTalk.Document

-- powers are those of the core library, whatever else is imported
attribute [local instance (high)] instPowNat

/-- Where a path leads. -/
inductive Target where
  /-- A part, and the positions of the items and members that lead to it. -/
  | found (route : List Nat) (d : Document)
  | missing
  /-- The text is no path. -/
  | badPath

/-- The steps of a path or of one of its short forms. -/
def rooted (path : List Char) : List Char :=
  match path with
  | '$' :: rest => rest
  | cs =>
    if cs.all Char.isDigit then '[' :: cs ++ [']']
    else if cs.head? = some '[' ∧ cs.getLast? = some ']' ∧ 3 ≤ cs.length then cs
    else '.' :: '"' :: cs ++ ['"']

/-- Code points up to the first U+0000. -/
def ended (codes : List Nat) : List Nat := codes.takeWhile (· != 0)

/-- The position of the first member with a name, and its value. -/
def member? (name : List Nat) (members : List (List Char × Document)) : Option (Nat × Document) :=
  (members.zipIdx.find? fun (m, _) => ended (Spelling.codes m.1) == ended name).map
    fun (m, i) => (i, m.2)

/-- A number of 32 bits, and what follows it. -/
def index (cs : List Char) : Nat × List Char :=
  let (ds, rest) := Decimal.spanDigits cs
  (Decimal.digitsValue ds % 2 ^ (32 : Nat), rest)

/-- What an index in brackets stands for in an array of a size, behind the opening bracket: an item
or none, and what follows the closing bracket. -/
def item? (size : Nat) (cs : List Char) : Option (Option Nat × List Char) :=
  match cs with
  | '#' :: ']' :: rest => some (some size, rest)
  | '#' :: '-' :: cs =>
    match cs.head?.any Char.isDigit, index cs with
    | true, (n, rest) =>
      if size < n then some (none, rest)
      else match rest with
        | ']' :: rest => some (some (size - n), rest)
        | _ => none
    | false, _ => none
  | cs =>
    match cs.head?.any Char.isDigit, index cs with
    | true, (n, ']' :: rest) => some (some n, rest)
    | _, _ => none

/-- The target of a part that is reached by one more step in front. -/
def Target.behind (position : Nat) : Target → Target
  | found route d => found (position :: route) d
  | t => t

/-- The part of a document at the end of some steps, `fuel` being more than their number. -/
def follow (fuel : Nat) (steps : List Char) (d : Document) : Target :=
  let onMember (name : List Nat) (rest : List Char) (next : List Char → Document → Target) :
      Target :=
    match d with
    | obj ms =>
      match member? name ms with
      | some (n, d) => (next rest d).behind n
      | none => .missing
    | _ => .missing
  match fuel with
  | 0 => .badPath
  | fuel + 1 =>
    match steps with
    | [] => .found [] d
    | '.' :: '"' :: cs =>
      let name := cs.takeWhile (· != '"')
      match cs.drop name.length with
      | [] => .badPath
      | _ :: rest => onMember (Spelling.codes name) rest (follow fuel)
    | '.' :: cs =>
      let name := cs.takeWhile fun c => c != '.' && c != '['
      if name.isEmpty then .badPath
      else onMember (name.map Char.toNat) (cs.drop name.length) (follow fuel)
    | '[' :: cs =>
      match d with
      | arr items =>
        match item? items.length cs with
        | none => .badPath
        | some (none, _) => .missing
        | some (some n, rest) =>
          match items[n]? with
          | some d => (follow fuel rest d).behind n
          | none => .missing
      | _ => .missing
    | _ => .badPath

/-- The part of a document at the end of some steps. -/
def walk (d : Document) (steps : List Char) : Target := follow (steps.length + 1) steps d

/-- The part of a document at a path. -/
def part (d : Document) (path : String) : Target := d.walk (rooted path.toList)

end TableTalk.Document
