import TableTalk.Json.Parser
import TableTalk.Text.Blank
/-!
# Settings in INI

`Ini.read?` reads a file of headings in brackets and of keys with values, which are all texts. Keys
in front of the first heading stand at the top. A heading that comes again starts its section anew.
A comment takes a whole line, from the first character on.
-/

namespace TableTalk

/-- What a file says, in order. -/
inductive Ini where
  | heading (name : String)
  | entry (key value : String)
deriving DecidableEq, Repr

namespace Ini

/-- The text of an escape behind its backslash, and what follows it. -/
def escape? : List Char → Option (List Char × List Char)
  | [] => none
  | '0' :: rest => some (['\x00'], rest)
  | 'a' :: rest => some (['\x07'], rest)
  | 'b' :: rest => some (['\x08'], rest)
  | 't' :: rest => some (['\t'], rest)
  | 'r' :: rest => some (['\r'], rest)
  | 'n' :: rest => some (['\n'], rest)
  | '\n' :: rest => some ([], rest)
  | 'x' :: rest =>
    let ds := match rest.take 4 with
      | '+' :: ds => ds
      | ds => ds
    if rest.length < 4 then none else (Json.scalar? ds).map fun c => ([c], rest.drop 4)
  | c :: rest => some ([c], rest)

/-- A text up to a character at which it stops. The end of a file may stop it as well. -/
def textTo? (stop : Char → Bool) (orEnd : Bool) (fuel : Nat) (cs : List Char) :
    Option (List Char × List Char) :=
  match fuel, cs with
  | 0, _ => none
  | _, [] => if orEnd then some ([], []) else none
  | fuel + 1, '\\' :: rest => do
    let (s, rest) ← escape? rest
    let (t, rest) ← textTo? stop orEnd fuel rest
    some (s ++ t, rest)
  | fuel + 1, c :: rest =>
    if stop c then some ([], c :: rest)
    else (textTo? stop orEnd fuel rest).map fun (t, rest) => (c :: t, rest)

def lineEnd (c : Char) : Bool := c == '\n' || c == '\r'

def line? (cs : List Char) : Option (List Char × List Char) :=
  textTo? lineEnd true (cs.length + 1) cs

/-- A value: what stands between quotes in front, and the rest of the line. -/
def value? (cs : List Char) : Option (String × List Char) := do
  let cs := cs.dropWhile fun c => Text.blank c && !lineEnd c
  let (quoted, rest) ← match cs with
    | c :: rest =>
      if c == '"' || c == '\'' then
        (textTo? (· == c) false (rest.length + 1) rest).map fun (s, rest) => (s, rest.drop 1)
      else some ([], cs)
    | [] => some ([], [])
  let (s, rest) ← line? rest
  some (String.ofList (Text.trimChars (quoted ++ s)), rest)

def heading? (cs : List Char) : Option (Ini × List Char) :=
  (textTo? (· == ']') false (cs.length + 1) cs).map fun (s, rest) =>
    (heading (String.ofList (Text.trimChars s)), rest.drop 1)

/-- A key, which may go on over several lines, and its value. -/
def entry? (cs : List Char) : Option (Ini × List Char) := do
  let (k, rest) ← textTo? (fun c => c == '=' || c == ':') false (cs.length + 1) cs
  let k := Text.trimChars k
  if k.isEmpty then none
  else do
    let (v, rest) ← value? (rest.drop 1)
    some (entry (String.ofList k) v, rest)

/-- What a file says. `first` tells whether a line begins here. -/
def parts? (fuel : Nat) (first : Bool) (cs : List Char) : Option (List Ini) :=
  match fuel with
  | 0 => none
  | fuel + 1 =>
    let blanks := cs.takeWhile Text.blank
    let first := blanks.getLast?.elim first (· == '\n')
    match cs.drop blanks.length with
    | [] => some []
    | c :: rest =>
      if c == ';' || c == '#' then
        if first then parts? fuel true ((rest.dropWhile (· != '\n')).drop 1) else none
      else do
        let (p, rest) ← if c == '[' then heading? rest else entry? (c :: rest)
        let ps ← parts? fuel false rest
        some (p :: ps)

/-- The members of an object with what stands under a heading, or at the top. -/
def collect : List Ini → Option String → List (String × Json) → List (String × Json)
  | [], _, ms => ms
  | heading n :: ps, _, ms => collect ps (some n) (setMember n (.obj []) ms)
  | entry k v :: ps, none, ms => collect ps none (setMember k (.str v) ms)
  | entry k v :: ps, some n, ms =>
    let inner := match ms.lookup n with
      | some (.obj inner) => inner
      | _ => []
    collect ps (some n) (setMember n (.obj (setMember k (.str v) inner)) ms)

/-- The object that a file spells. -/
def read? (s : String) : Option Json :=
  let cs := s.toList
  (parts? (cs.length + 1) true cs).map fun ps => .obj (collect ps none [])

end Ini

end TableTalk
