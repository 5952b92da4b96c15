import TableTalk.Text.Alphanumeric
import TableTalk.Text.Blank
/-!
# Environment files

An environment file has lines `NAME=value`. Text between quotes may go on over several lines, a name
behind a dollar sign stands for the value that it has by then, and a comment starts at a number sign
that has a blank in front. `Dotenv.extended` adds the names of a file to an environment that lacks
them; the first line that cannot be read ends the file, and so does one that is no text.
-/

namespace TableTalk

/-- Names with their values. -/
abbrev Environment := List (String × String)

namespace Dotenv

/-- Where a character stands in a line. -/
inductive Place where
  | complete
  | escape
  | blank
  | single
  | singleEscape
  | double
  | doubleEscape
deriving DecidableEq, Repr

/-- The place behind a character that stands between quotes of no kind. -/
def Place.ofChar (c : Char) : Place :=
  if c = '\\' then .escape
  else if c = '"' then .double
  else if c = '\'' then .single
  else .complete

/-- The place behind a character; a number sign behind a blank never comes here. -/
def Place.next (p : Place) (c : Char) : Place :=
  match p with
  | complete => if Text.blank c && c != '\n' && c != '\r' then blank else ofChar c
  | blank => ofChar c
  | escape => complete
  | double => if c = '\\' then doubleEscape else if c = '"' then complete else double
  | doubleEscape => double
  | single => if c = '\\' then singleEscape else if c = '\'' then complete else single
  | singleEscape => single

/-- What becomes of a physical line. -/
inductive Scan where
  /-- A comment starts behind this text. -/
  | comment (text : List Char)
  | place (p : Place)

/-- Follows the places of a line, the text in front of it being kept in reverse. -/
def scan (p : Place) (before : List Char) : List Char → Scan
  | [] => .place p
  | c :: cs =>
    if p = .blank ∧ c = '#' then .comment before.reverse else scan (p.next c) (c :: before) cs

/-- A physical line with its end. -/
def takeLine (cs : List Char) : List Char × List Char :=
  let line := cs.takeWhile (· != '\n')
  match cs.drop line.length with
  | c :: rest => (line ++ [c], rest)
  | [] => (line, [])

def withoutEnd (cs : List Char) : List Char :=
  match cs.reverse with
  | '\n' :: '\r' :: rest => rest.reverse
  | '\n' :: rest => rest.reverse
  | _ => cs

/-- The next logical line, if there is one and it is complete, and what follows it. -/
def logicalLine (fuel : Nat) (p : Place) (sofar cs : List Char) : Option (List Char × List Char) :=
  match fuel, cs with
  | 0, _ => none
  | _, [] => none
  | fuel + 1, cs =>
    let (line, rest) := takeLine cs
    let all := sofar ++ line
    if (Text.trimStart all).head? = some '#' then some ([], rest)
    else match scan p [] line with
      | .comment text => some (sofar ++ text, rest)
      | .place .complete => some (withoutEnd all, rest)
      | .place p => logicalLine fuel p all rest

def nameStart (c : Char) : Bool := c.isAlpha || c == '_'

def nameChar (c : Char) : Bool := c.isAlphanum || c == '_' || c == '.'

/-- A name and what follows it and the blanks behind it. -/
def name? (cs : List Char) : Option (String × List Char) :=
  if cs.head?.any nameStart then
    some (String.ofList (cs.takeWhile nameChar), Text.trimStart (cs.dropWhile nameChar))
  else none

/-- How a dollar sign goes on. -/
inductive Reference where
  | none
  | bare
  | braced
deriving DecidableEq, Repr

/-- A value while it is read. -/
structure Draft where
  output : List Char := []
  single : Bool := false
  double : Bool := false
  escaped : Bool := false
  ended : Bool := false
  reference : Reference := .none
  name : List Char := []

namespace Draft

def push (d : Draft) (c : Char) : Draft := { d with output := d.output ++ [c] }

/-- Puts the value of the name in place of the reference. -/
def resolve (env : Environment) (d : Draft) : Draft :=
  { d with
    output := d.output ++ ((env.lookup (String.ofList d.name)).getD "").toList
    name := [] }

/-- A character behind a dollar sign. -/
def refer (env : Environment) (d : Draft) (c : Char) : Draft :=
  if Text.alphanumeric c then { d with name := d.name ++ [c] }
  else match d.reference with
    | .none => d
    | .bare =>
      if c = '\x7b' ∧ d.name = [] then { d with reference := .braced }
      else if c = '$' then { d.resolve env with reference := .bare }
      else { (d.resolve env).push c with reference := .none }
    | .braced =>
      if c = '\x7d' then { d.resolve env with reference := .none }
      else { d with name := d.name ++ [c] }

/-- Reads a character that is not escaped and stands in no single quotes and in no reference. -/
def plain (d : Draft) (c : Char) : Draft :=
  if c = '$' then { d with reference := .bare }
  else if c = '\\' then { d with escaped := true }
  else if d.double then if c = '"' then { d with double := false } else d.push c
  else if c = '\'' then { d with single := true }
  else if c = '"' then { d with double := true }
  else if c = ' ' ∨ c = '\t' then { d with ended := true }
  else d.push c

/-- The character of an escape. -/
def unescaped? (c : Char) : Option Char :=
  if c = 'n' then some '\n'
  else if c ∈ ['\\', '\'', '"', '$', ' '] then some c
  else none

/-- Reads the rest of a value. -/
def read (env : Environment) (d : Draft) : List Char → Option Draft
  | [] => some d
  | c :: cs =>
    if d.ended then
      if c = ' ' ∨ c = '\t' then read env d cs else if c = '#' then some d else none
    else if d.escaped then do
      let c ← unescaped? c
      read env { d.push c with escaped := false } cs
    else if d.single then
      read env (if c = '\'' then { d with single := false } else d.push c) cs
    else if d.reference = .none then read env (d.plain c) cs
    else read env (d.refer env c) cs

end Draft

/-- The value that a text spells, names resolved in an environment. -/
def value? (env : Environment) (cs : List Char) : Option String := do
  let d ← Draft.read env {} cs
  if d.reference = .braced ∨ d.single ∨ d.double then none
  else some (String.ofList (d.resolve env).output)

/-- The value behind an equals sign. -/
def assigned? (env : Environment) : List Char → Option String
  | '=' :: rest =>
    match Text.trimStart rest with
    | [] => some ""
    | '#' :: _ => some ""
    | rest => value? env rest
  | _ => none

/-- What a logical line says: nothing, or a name and a value. -/
def line? (env : Environment) (cs : List Char) : Option (Option (String × String)) :=
  match Text.trimStart (Text.trimEnd cs) with
  | [] => some none
  | '#' :: _ => some none
  | cs => do
    let (name, rest) ← name? cs
    if name = "export" ∧ rest.head? ≠ some '=' then do
      let (name, rest) ← name? rest
      let v ← assigned? env rest
      some (some (name, v))
    else do
      let v ← assigned? env rest
      some (some (name, v))

/-- An environment with the names of a file that it lacks. -/
def extendedChars (fuel : Nat) (env : Environment) (cs : List Char) : Environment :=
  match fuel with
  | 0 => env
  | fuel + 1 =>
    match logicalLine (cs.length + 1) .complete [] cs with
    | none => env
    | some (line, rest) =>
      match line? env line with
      | none => env
      | some none => extendedChars fuel env rest
      | some (some (name, v)) =>
        extendedChars fuel (if (env.lookup name).isSome then env else env ++ [(name, v)]) rest

/-- The bytes of a first line, with its end. -/
def lineBytes (bytes : List UInt8) : List UInt8 :=
  let line := bytes.takeWhile (· != 10)
  bytes.take (line.length + 1)

/-- The text of a file up to the first line that is none. -/
def textLines (fuel : Nat) (bytes : List UInt8) : List Char :=
  match fuel, bytes with
  | fuel + 1, b :: bs =>
    let line := lineBytes (b :: bs)
    match String.fromUTF8? ⟨line.toArray⟩ with
    | some text => text.toList ++ textLines fuel ((b :: bs).drop line.length)
    | none => []
  | _, _ => []

def extended (env : Environment) (file : ByteArray) : Environment :=
  let cs := match textLines file.size file.toList with
    | '\ufeff' :: rest => rest
    | cs => cs
  extendedChars (cs.length + 1) env cs

end Dotenv

end TableTalk
