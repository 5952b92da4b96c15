import TableTalk.Decimal.Text
import TableTalk.Json.Parser
import TableTalk.Text.Blank
/-!
# Settings files

`Toml.read?` reads a settings file in TOML: tables under headers, dotted keys, arrays, inline
tables, texts in four kinds of quotes, numbers and dates. The result is an object; a date becomes a
text. Values are nested up to a depth, and a key has no more parts than that. While a file is read,
each table knows whether a header or a dotted key made it, since that decides what may still be
added to it.
-/

namespace TableTalk

-- powers are those of the core library, whatever else is imported
attribute [local instance (high)] instPowNat

/-- A part of a settings file while it is read. -/
inductive Toml where
  | value (v : Json)
  /-- The tables of an array that is built by headers. -/
  | tables (items : List (List (String × Toml)))
  /-- A table; `implicit` if no header has opened it, `dotted` if a dotted key has made it. -/
  | table (implicit dotted : Bool) (members : List (String × Toml))

namespace Toml

mutual

def toJson : Toml → Json
  | value v => v
  | tables items => .arr (itemsJson items)
  | table _ _ members => .obj (membersJson members)

def itemsJson : List (List (String × Toml)) → List Json
  | [] => []
  | members :: rest => .obj (membersJson members) :: itemsJson rest

def membersJson : List (String × Toml) → List (String × Json)
  | [] => []
  | (k, t) :: rest => (k, t.toJson) :: membersJson rest

end

abbrev Members := List (String × Toml)

/-- Changes the table at the end of a path, making tables on the way. A dotted path leads through no
table that a header has opened, and no path leads through a value. The change is told whether the
table was made by a dotted key. -/
def within (dotted : Bool) (change : Bool → Members → Option Members) :
    List String → Bool → Members → Option Members
  | [], made, ms => change made ms
  | k :: ks, _, ms =>
    match ms.lookup k with
    | none => (within dotted change ks dotted []).map fun inner =>
        ms ++ [(k, table true dotted inner)]
    | some (value _) => none
    | some (tables items) =>
      match items.getLast? with
      | none => none
      | some last => (within dotted change ks false last).map fun inner =>
          setMember k (tables (items.dropLast ++ [inner])) ms
    | some (table implicit made inner) =>
      if dotted && !implicit then none
      else (within dotted change ks made inner).map fun inner =>
        setMember k (table implicit made inner) ms

/-- Puts a value under a dotted key. -/
def insert (path : List String) (key : String) (v : Json) (ms : Members) : Option Members :=
  within true (fun made ms =>
    if (!path.isEmpty && !made) || (ms.lookup key).isSome then none
    else some (ms ++ [(key, value v)])) path false ms

/-- Opens a table by a header. -/
def openTable (path : List String) (key : String) (ms : Members) : Option Members :=
  within false (fun _ ms =>
    match ms.lookup key with
    | none => some (ms ++ [(key, table false false [])])
    | some (table true false inner) => some (setMember key (table false false inner) ms)
    | some _ => none) path false ms

/-- Opens the next table of an array by a header. -/
def openItem (path : List String) (key : String) (ms : Members) : Option Members :=
  within false (fun _ ms =>
    match ms.lookup key with
    | none => some (ms ++ [(key, tables [[]])])
    | some (tables items) => some (setMember key (tables (items ++ [[]])) ms)
    | some _ => none) path false ms

/-! Text -/

def blank (c : Char) : Bool := c == ' ' || c == '\t'

def skip (cs : List Char) : List Char := cs.dropWhile blank

/-- Characters that stand nowhere in a file but in line ends. -/
def control (c : Char) : Bool := (c.toNat < 32 && c != '\t') || c.toNat == 127

def newline? : List Char → Option (List Char)
  | '\n' :: rest => some rest
  | '\r' :: '\n' :: rest => some rest
  | _ => none

/-- What follows a comment, if one stands here. -/
def comment : List Char → List Char
  | '#' :: rest => rest.dropWhile (!control ·)
  | cs => cs

/-- What follows the end of a line, blanks and a comment in front of it. -/
def lineEnd? (cs : List Char) : Option (List Char) :=
  match comment (skip cs) with
  | [] => some []
  | rest => newline? rest

/-- Blanks, line ends and comments. -/
def gap (fuel : Nat) (cs : List Char) : Option (List Char) :=
  match fuel with
  | 0 => some cs
  | fuel + 1 =>
    match comment (skip cs) with
    | [] => some []
    | rest =>
      match newline? rest with
      | some rest => gap fuel rest
      | none => if (skip cs).head? == some '#' then none else some rest

/-- The character of an escape behind its backslash, and what follows it. -/
def escape? : List Char → Option (Char × List Char)
  | 'b' :: rest => some ('\x08', rest)
  | 't' :: rest => some ('\t', rest)
  | 'n' :: rest => some ('\n', rest)
  | 'f' :: rest => some ('\x0c', rest)
  | 'r' :: rest => some ('\r', rest)
  | '"' :: rest => some ('"', rest)
  | '\\' :: rest => some ('\\', rest)
  | 'u' :: rest =>
    if rest.length < 4 then none else (Json.scalar? (rest.take 4)).map fun c => (c, rest.drop 4)
  | 'U' :: rest =>
    if rest.length < 8 then none else (Json.scalar? (rest.take 8)).map fun c => (c, rest.drop 8)
  | _ => none

/-- A text in double quotes behind the first one. -/
def basic? (fuel : Nat) (cs : List Char) : Option (List Char × List Char) :=
  match fuel, cs with
  | 0, _ => none
  | _, [] => none
  | _, '"' :: rest => some ([], rest)
  | fuel + 1, '\\' :: rest => do
    let (c, rest) ← escape? rest
    let (s, rest) ← basic? fuel rest
    some (c :: s, rest)
  | fuel + 1, c :: rest =>
    if control c then none
    else (basic? fuel rest).map fun (s, rest) => (c :: s, rest)

/-- A text in single quotes behind the first one. -/
def literal? (cs : List Char) : Option (List Char × List Char) :=
  let s := cs.takeWhile fun c => c != '\'' && !control c
  match cs.drop s.length with
  | '\'' :: rest => some (s, rest)
  | _ => none

/-- Quotes that end a text of several lines: three, and up to two that belong to the text. -/
def closing? (quote : Char) (cs : List Char) : Option (List Char × List Char) :=
  let n := (cs.takeWhile (· == quote)).length
  if n < 3 then none
  else
    let own := min (n - 3) 2
    some (List.replicate own quote, cs.drop (3 + own))

/-- What follows blanks and line ends. -/
def behindLines : List Char → List Char
  | '\r' :: '\n' :: rest => behindLines rest
  | '\n' :: rest => behindLines rest
  | c :: rest => if blank c then behindLines rest else c :: rest
  | [] => []

/-- What follows a line end and the blanks and line ends behind it, if a line ends here. -/
def folded? (cs : List Char) : Option (List Char) := (newline? (skip cs)).map behindLines

/-- A text of several lines behind its opening quotes. -/
def multiline? (quote : Char) (fuel : Nat) (cs : List Char) : Option (List Char × List Char) :=
  match fuel with
  | 0 => none
  | fuel + 1 =>
    match closing? quote cs with
    | some done => some done
    | none =>
      match newline? cs with
      | some rest => (multiline? quote fuel rest).map fun (s, rest) => ('\n' :: s, rest)
      | none =>
        match cs with
        | [] => none
        | c :: rest =>
          if c = '\\' && quote = '"' then
            match folded? rest with
            | some rest => multiline? quote fuel rest
            | none => do
              let (c, rest) ← escape? rest
              let (s, rest) ← multiline? quote fuel rest
              some (c :: s, rest)
          else if control c then none
          else (multiline? quote fuel rest).map fun (s, rest) => (c :: s, rest)

/-- A text of several lines loses a line end in front of it. -/
def opened (cs : List Char) : List Char := (newline? cs).getD cs

def text? : List Char → Option (List Char × List Char)
  | '"' :: '"' :: '"' :: rest => multiline? '"' (rest.length + 1) (opened rest)
  | '\'' :: '\'' :: '\'' :: rest => multiline? '\'' (rest.length + 1) (opened rest)
  | '"' :: rest => basic? (rest.length + 1) rest
  | '\'' :: rest => literal? rest
  | _ => none

/-! Keys -/

def keyChar (c : Char) : Bool := c.isAlphanum || c == '_' || c == '-'

def simpleKey? : List Char → Option (String × List Char)
  | '"' :: rest => (basic? (rest.length + 1) rest).map fun (s, rest) => (String.ofList s, rest)
  | '\'' :: rest => (literal? rest).map fun (s, rest) => (String.ofList s, rest)
  | cs =>
    match cs.takeWhile keyChar with
    | [] => none
    | s => some (String.ofList s, cs.dropWhile keyChar)

/-- The depth up to which values are nested, and the number of parts of a key. -/
def depthLimit : Nat := 79

/-- The parts of a dotted key, those in front of the last and the last; no more than a number. -/
def parts? (count : Nat) (cs : List Char) : Option (List String × String × List Char) :=
  match count with
  | 0 => none
  | count + 1 => do
    let (k, rest) ← simpleKey? (skip cs)
    match skip rest with
    | '.' :: rest => do
      let (path, last, rest) ← parts? count rest
      some (k :: path, last, rest)
    | rest => some ([], k, rest)

def key? (cs : List Char) : Option (List String × String × List Char) := parts? depthLimit cs

/-! Numbers and dates -/

/-- Digits with single underscores between them, and the digits alone. -/
def digits? (digit : Char → Bool) : List Char → Option (List Char)
  | [] => none
  | [c] => if digit c then some [c] else none
  | c :: '_' :: rest =>
    if digit c then (digits? digit rest).map (c :: ·) else none
  | c :: d :: rest => if digit c then (digits? digit (d :: rest)).map (c :: ·) else none

/-- A whole number without a sign and without zeros in front. -/
def whole? (cs : List Char) : Option (List Char) :=
  match digits? Char.isDigit cs with
  | some ['0'] => some ['0']
  | some ('0' :: _) => none
  | ds => ds

def inRange (n : Int) : Bool := decide (-(2 ^ (63 : Nat)) ≤ n) && decide (n < 2 ^ (63 : Nat))

/-- Digits of a base behind its prefix. -/
def based? (base : Nat) (cs : List Char) : Option Int := do
  let digit (c : Char) : Bool := (Json.hexValue? c).any (· < base)
  let ds ← digits? digit cs
  let n : Int := (ds.foldl (fun n c => base * n + (Json.hexValue? c).getD 0) 0 : Nat)
  if inRange n then some n else none

def int? : List Char → Option Int
  | '0' :: 'x' :: rest => based? 16 rest
  | '0' :: 'o' :: rest => based? 8 rest
  | '0' :: 'b' :: rest => based? 2 rest
  | cs => do
    let (negative, rest) := Decimal.takeSign cs
    let ds ← whole? rest
    let n : Int := Decimal.digitsValue ds
    let n := if negative then -n else n
    if inRange n then some n else none

/-- The exponent of a number, with its letter. -/
def exponent? : List Char → Option (List Char)
  | [] => some []
  | c :: rest =>
    if c == 'e' || c == 'E' then
      let sign := rest.takeWhile fun c => c == '+' || c == '-'
      if sign.length ≤ 1 then
        (digits? Char.isDigit (rest.drop sign.length)).map fun ds => 'e' :: sign ++ ds
      else none
    else none

/-- A number with a fraction, an exponent or both. -/
def float? (cs : List Char) : Option Float := do
  let (negative, rest) := Decimal.takeSign cs
  if rest = "inf".toList then some (Decimal.signed negative (1 / 0))
  else if rest = "nan".toList then some (Decimal.signed negative (0 / 0))
  else do
    let mark (c : Char) : Bool := c == 'e' || c == 'E'
    let front := rest.takeWhile fun c => !mark c && c != '.'
    let ds ← whole? front
    let behind := rest.drop front.length
    let fraction ← match behind with
      | [] => none
      | '.' :: more => (digits? Char.isDigit (more.takeWhile fun c => !mark c)).map ('.' :: ·)
      | _ => some []
    let e ← exponent? (behind.dropWhile fun c => !mark c)
    let x ← Decimal.readNumber? (ds ++ fraction ++ e)
    let x := Decimal.signed negative x
    if x == 1 / 0 then none else some x

/-- A number of some digits between bounds, as text. -/
def field? (size low high : Nat) (cs : List Char) : Option (List Char × List Char) :=
  let ds := cs.take size
  let n := Decimal.digitsValue ds
  if ds.length = size ∧ ds.all Char.isDigit ∧ low ≤ n ∧ n ≤ high then some (ds, cs.drop size)
  else none

def mark? (c : Char) : List Char → Option (List Char)
  | d :: rest => if c = d then some rest else none
  | [] => none

def daysIn (year month : Nat) : Nat :=
  if month = 2 then
    if year % 4 = 0 ∧ (year % 100 ≠ 0 ∨ year % 400 = 0) then 29 else 28
  else if month = 4 ∨ month = 6 ∨ month = 9 ∨ month = 11 then 30 else 31

def date? (cs : List Char) : Option (List Char × List Char) := do
  let (y, rest) ← field? 4 0 9999 cs
  let rest ← mark? '-' rest
  let (m, rest) ← field? 2 1 12 rest
  let rest ← mark? '-' rest
  let (d, rest) ← field? 2 1 (daysIn (Decimal.digitsValue y) (Decimal.digitsValue m)) rest
  some (y ++ '-' :: m ++ '-' :: d, rest)

/-- The digits behind a second: nine at most, no zeros at the end. -/
def fraction? : List Char → Option (List Char × List Char)
  | '.' :: rest =>
    match rest.takeWhile Char.isDigit with
    | [] => none
    | ds =>
      let kept := Text.dropWhileEnd (· == '0') (ds.take 9)
      some (if kept.isEmpty then [] else '.' :: kept, rest.drop ds.length)
  | cs => some ([], cs)

def time? (cs : List Char) : Option (List Char × List Char) := do
  let (h, rest) ← field? 2 0 23 cs
  let rest ← mark? ':' rest
  let (m, rest) ← field? 2 0 59 rest
  let rest ← mark? ':' rest
  let (s, rest) ← field? 2 0 60 rest
  let (f, rest) ← fraction? rest
  some (h ++ ':' :: m ++ ':' :: s ++ f, rest)

/-- An offset from universal time, if there is one. None at all is never negative. -/
def offset? : List Char → Option (List Char)
  | [] => some []
  | ['Z'] => some ['Z']
  | ['z'] => some ['Z']
  | c :: rest =>
    if c == '+' || c == '-' then do
      let (h, rest) ← field? 2 0 23 rest
      let rest ← mark? ':' rest
      let (m, rest) ← field? 2 0 59 rest
      let sign := if (h ++ m).all (· == '0') then '+' else c
      if rest.isEmpty then some (sign :: h ++ ':' :: m) else none
    else none

/-- A date, a time or both, in the common form. -/
def moment? (cs : List Char) : Option (List Char) :=
  match date? cs with
  | some (d, []) => some d
  | some (d, c :: rest) =>
    if c == 'T' || c == 't' || c == ' ' then do
      let (t, rest) ← time? rest
      let o ← offset? rest
      some (d ++ 'T' :: t ++ o)
    else none
  | none =>
    match time? cs with
    | some (t, []) => some t
    | _ => none

def wordChar (c : Char) : Bool :=
  c.isAlphanum || c == '+' || c == '-' || c == '_' || c == '.' || c == ':'

/-- A word, which is longer by one blank if it is a date with a time behind. -/
def word (cs : List Char) : List Char × List Char :=
  let w := cs.takeWhile wordChar
  let rest := cs.drop w.length
  match date? w, rest with
  | some (_, []), ' ' :: d :: more =>
    if d.isDigit then
      let t := (d :: more).takeWhile wordChar
      (w ++ ' ' :: t, (d :: more).drop t.length)
    else (w, rest)
  | _, _ => (w, rest)

/-- A truth value, a date or a number. -/
def plain? (cs : List Char) : Option Json :=
  if cs = "true".toList then some (.bool true)
  else if cs = "false".toList then some (.bool false)
  else match moment? cs with
    | some s => some (.str (String.ofList s))
    | none =>
      match int? cs with
      | some n => some (.int n)
      | none => (float? cs).map .double

/-! Values -/

mutual

/-- A value. `fuel` bounds the number of steps and `depth` the nesting. -/
def value? (fuel depth : Nat) (cs : List Char) : Option (Json × List Char) :=
  match fuel with
  | 0 => none
  | fuel + 1 =>
    match cs with
    | '[' :: rest =>
      if depth = 0 then none
      else (items? fuel (depth - 1) rest).map fun (vs, rest) => (.arr vs, rest)
    | '\x7b' :: rest =>
      if depth = 0 then none
      else match skip rest with
        | '\x7d' :: rest => some (.obj [], rest)
        | rest =>
          (inline? fuel (depth - 1) [] rest).map fun (ms, rest) => (.obj (membersJson ms), rest)
    | '"' :: _ => (text? cs).map fun (s, rest) => (.str (String.ofList s), rest)
    | '\'' :: _ => (text? cs).map fun (s, rest) => (.str (String.ofList s), rest)
    | cs =>
      let (w, rest) := word cs
      (plain? w).map fun v => (v, rest)

/-- The items of an array up to its closing bracket. -/
def items? (fuel depth : Nat) (cs : List Char) : Option (List Json × List Char) :=
  match fuel with
  | 0 => none
  | fuel + 1 => do
    match ← gap cs.length cs with
    | ']' :: rest => some ([], rest)
    | rest => do
      let (v, rest) ← value? fuel depth rest
      match ← gap rest.length rest with
      | ',' :: rest => do
        let (vs, rest) ← items? fuel depth rest
        some (v :: vs, rest)
      | ']' :: rest => some ([v], rest)
      | _ => none

/-- The members of an inline table up to its closing brace. -/
def inline? (fuel depth : Nat) (ms : Members) (cs : List Char) :
    Option (Members × List Char) :=
  match fuel with
  | 0 => none
  | fuel + 1 => do
    let (path, key, rest) ← key? cs
    let rest ← mark? '=' (skip rest)
    let (v, rest) ← value? fuel depth (skip rest)
    let ms ← insert path key v ms
    match skip rest with
    | ',' :: rest => inline? fuel depth ms rest
    | '\x7d' :: rest => some (ms, rest)
    | _ => none

end

/-- Puts a value under a key of the table that was opened last. -/
def insertAt (header : List String) (path : List String) (key : String) (v : Json) (ms : Members) :
    Option Members :=
  within false (fun _ ms => insert path key v ms) header false ms

/-- The lines of a file. -/
def lines? (fuel : Nat) (header : List String) (ms : Members) (cs : List Char) : Option Members :=
  match fuel with
  | 0 => none
  | fuel + 1 =>
    match skip cs with
    | [] => some ms
    | '[' :: '[' :: rest => do
      let (path, key, rest) ← key? rest
      let rest ← mark? ']' (skip rest)
      let rest ← mark? ']' rest
      let rest ← lineEnd? rest
      let ms ← openItem path key ms
      lines? fuel (path ++ [key]) ms rest
    | '[' :: rest => do
      let (path, key, rest) ← key? rest
      let rest ← mark? ']' (skip rest)
      let rest ← lineEnd? rest
      let ms ← openTable path key ms
      lines? fuel (path ++ [key]) ms rest
    | rest =>
      match lineEnd? rest with
      | some rest => lines? fuel header ms rest
      | none => do
        let (path, key, rest) ← key? rest
        let rest ← mark? '=' (skip rest)
        let (v, rest) ← value? (2 * rest.length + 2) depthLimit (skip rest)
        let rest ← lineEnd? rest
        let ms ← insertAt header path key v ms
        lines? fuel header ms rest

/-- The object that a file spells. -/
def read? (s : String) : Option Json :=
  let cs := match s.toList with
    | '\ufeff' :: rest => rest
    | cs => cs
  (lines? (cs.length + 1) [] [] cs).map fun ms => .obj (membersJson ms)

end Toml

end TableTalk
