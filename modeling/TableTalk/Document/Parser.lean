import TableTalk.Document.Basic
import TableTalk.Json.Parser
import TableTalk.Text.Blank
/-!
# Reading documents

`Document.parse?` reads a text as a document. Beyond JSON it takes comments and more kinds of
blanks, names without quotes, strings between single quotes and with more escapes, a comma behind
the last item, hexadecimal numbers, a plus sign, a point without digits on one side, and the names
of numbers that are none. Values are nested `depthLimit` deep at most. The character U+0000 ends the
text.
-/

namespace TableTalk.Document

def depthLimit : Nat := 1000

def blank (c : Char) : Bool :=
  let n := c.toNat
  (9 ≤ n && n ≤ 13) || n == 0x20 || n == 0xA0 || n == 0x1680 || (0x2000 ≤ n && n ≤ 0x200A)
    || n == 0x2028 || n == 0x2029 || n == 0x202F || n == 0x205F || n == 0x3000 || n == 0xFEFF

/-- What follows a comment that ends with a star and a slash. -/
def behindBlock? : List Char → Option (List Char)
  | [] => none
  | '*' :: '/' :: rest => some rest
  | _ :: rest => behindBlock? rest

/-- What follows a comment that ends with the line. -/
def behindLine (cs : List Char) : List Char := (cs.dropWhile (!Spelling.lineEnd ·)).drop 1

/-- What follows blanks and comments, `fuel` comments at most. -/
def gap (fuel : Nat) (cs : List Char) : List Char :=
  match fuel, cs.dropWhile blank with
  | fuel + 1, '/' :: '*' :: rest =>
    match behindBlock? rest with
    | some rest => gap fuel rest
    | none => '/' :: '*' :: rest
  | fuel + 1, '/' :: '/' :: rest => gap fuel (behindLine rest)
  | _, rest => rest

def skip (cs : List Char) : List Char := gap cs.length cs

def hexChar (c : Char) : Bool := (Json.hexValue? c).isSome

/-- Characters that may stand behind a backslash alone. -/
def escapable (c : Char) : Bool := (Spelling.letter? c).isSome || Spelling.lineEnd c

/-- The spelling of a string up to its closing quote, and what follows the quote. -/
def body? (quote : Char) : List Char → Option (List Char × List Char)
  | [] => none
  | '\\' :: 'u' :: a :: b :: c :: d :: rest =>
    if [a, b, c, d].all hexChar then
      (body? quote rest).map fun (s, rest) => ('\\' :: 'u' :: a :: b :: c :: d :: s, rest)
    else none
  | '\\' :: 'x' :: a :: b :: rest =>
    if hexChar a && hexChar b then
      (body? quote rest).map fun (s, rest) => ('\\' :: 'x' :: a :: b :: s, rest)
    else none
  | '\\' :: '\r' :: '\n' :: rest =>
    (body? quote rest).map fun (s, rest) => ('\\' :: '\r' :: '\n' :: s, rest)
  | '\\' :: c :: rest =>
    if escapable c then (body? quote rest).map fun (s, rest) => ('\\' :: c :: s, rest) else none
  | c :: rest =>
    if c = quote then some ([], rest)
    else if c.toNat < 0x20 || c == '\\' then none
    else (body? quote rest).map fun (s, rest) => (c :: s, rest)

/-- Whether a word ends in front of a text. -/
def ends (cs : List Char) : Bool := !cs.head?.any Char.isAlphanum

/-- What follows a word at the start of a text, if the word ends there. -/
def behindWord? (word : String) (cs : List Char) : Option (List Char) :=
  (Text.behind? word.toList cs).filter ends

/-- What follows a name at the start of a text in any case. -/
def behindName? (name : String) (cs : List Char) : Option (List Char) :=
  if (cs.take name.length).map Char.toLower = name.toList then some (cs.drop name.length) else none

def infinite (negative : Bool) : Document := number (signed negative "9e999".toList)

/-- A value that has a name. -/
def named? (cs : List Char) : Option (Document × List Char) :=
  let word (w : String) (d : Document) : Option (Document × List Char) :=
    (behindWord? w cs).map fun rest => (d, rest)
  let name (n : String) (d : Document) : Option (Document × List Char) :=
    ((behindName? n cs).filter ends).map fun rest => (d, rest)
  (word "true" (bool true)).or <| (word "false" (bool false)).or <| (word "null" null).or <|
    (name "inf" (infinite false)).or <| (name "infinity" (infinite false)).or <|
    (name "nan" null).or <| (name "qnan" null).or (name "snan" null)

/-- The exponent at the start of a text as written; there may be none. -/
def exponent (cs : List Char) : List Char :=
  match cs with
  | c :: rest =>
    if c == 'e' || c == 'E' then
      let sign := match rest with
        | '+' :: _ => ['+']
        | '-' :: _ => ['-']
        | _ => []
      match (rest.drop sign.length).takeWhile Char.isDigit with
      | [] => []
      | ds => c :: sign ++ ds
    else []
  | [] => []

/-- An unsigned decimal with digits on one side of its point at least. -/
def decimal? (cs : List Char) : Option (List Char × List Char) :=
  let whole := cs.takeWhile Char.isDigit
  let rest := cs.drop whole.length
  let fraction := match rest with
    | '.' :: rest => '.' :: rest.takeWhile Char.isDigit
    | _ => []
  let e := exponent (rest.drop fraction.length)
  if whole.isEmpty && fraction.length < 2 then none
  else if whole.head? == some '0' && 1 < whole.length then none
  else some (whole ++ fraction ++ e, (rest.drop fraction.length).drop e.length)

/-- Hexadecimal digits behind their mark. -/
def hexDigits? (cs : List Char) : Option (List Char × List Char) :=
  match cs with
  | '0' :: x :: rest =>
    match rest.takeWhile hexChar with
    | [] => none
    | ds => if x == 'x' || x == 'X' then some (ds, rest.drop ds.length) else none
  | _ => none

/-- A number without its sign. -/
def unsigned? (negative : Bool) (cs : List Char) : Option (Document × List Char) :=
  match hexDigits? cs with
  | some (ds, rest) => some (hexadecimal negative ds, rest)
  | none => (decimal? cs).map fun (s, rest) => (number (signed negative s), rest)

/-- What follows the name of the infinite behind a sign. -/
def behindInfinite? (cs : List Char) : Option (List Char) :=
  (behindName? "infinity" cs).or (behindName? "inf" cs)

def number? (cs : List Char) : Option (Document × List Char) :=
  let behindSign (negative : Bool) (cs : List Char) : Option (Document × List Char) :=
    match behindInfinite? cs with
    | some rest => some (infinite negative, rest)
    | none => unsigned? negative cs
  match cs with
  | '-' :: rest => behindSign true rest
  | '+' :: rest => behindSign false rest
  | cs => unsigned? false cs

def nameStart (c : Char) : Bool := c.isAlpha || c == '$' || c == '_' || 128 ≤ c.toNat

def nameChar (c : Char) : Bool := (nameStart c || c.isDigit) && !blank c

/-- The rest of a name without quotes, and what follows it. -/
def nameRest : List Char → List Char × List Char
  | '\\' :: 'u' :: a :: b :: c :: d :: rest =>
    if [a, b, c, d].all hexChar then
      let (s, rest) := nameRest rest
      ('\\' :: 'u' :: a :: b :: c :: d :: s, rest)
    else ([], '\\' :: 'u' :: a :: b :: c :: d :: rest)
  | c :: rest =>
    if nameChar c then
      let (s, rest) := nameRest rest
      (c :: s, rest)
    else ([], c :: rest)
  | [] => ([], [])

/-- The name of a member. A name without quotes is not that of a value. -/
def name? (cs : List Char) : Option (List Char × List Char) :=
  match cs with
  | '"' :: rest => body? '"' rest
  | '\'' :: rest => body? '\'' rest
  | cs =>
    if cs.head?.any Char.isDigit || (named? cs).isSome then none
    else match nameRest cs with
      | ([], _) => none
      | r => some r

mutual

/-- A value at the start of a text. `fuel` bounds the number of steps and `depth` the nesting. -/
def value? (fuel depth : Nat) (cs : List Char) : Option (Document × List Char) :=
  match fuel with
  | 0 => none
  | fuel + 1 =>
    match skip cs with
    | '[' :: rest =>
      if depth = 0 then none
      else (items? fuel (depth - 1) rest).map fun (ds, rest) => (arr ds, rest)
    | '\x7b' :: rest =>
      if depth = 0 then none
      else (members? fuel (depth - 1) rest).map fun (ms, rest) => (obj ms, rest)
    | '"' :: rest => (body? '"' rest).map fun (s, rest) => (text s, rest)
    | '\'' :: rest => (body? '\'' rest).map fun (s, rest) => (text s, rest)
    | rest => (named? rest).or (number? rest)

/-- The items of an array up to its closing bracket. -/
def items? (fuel depth : Nat) (cs : List Char) : Option (List Document × List Char) :=
  match fuel with
  | 0 => none
  | fuel + 1 =>
    match skip cs with
    | ']' :: rest => some ([], rest)
    | rest => do
      let (d, rest) ← value? fuel depth rest
      match skip rest with
      | ',' :: rest =>
        let (ds, rest) ← items? fuel depth rest
        some (d :: ds, rest)
      | ']' :: rest => some ([d], rest)
      | _ => none

/-- The members of an object up to its closing brace. -/
def members? (fuel depth : Nat) (cs : List Char) :
    Option (List (List Char × Document) × List Char) :=
  match fuel with
  | 0 => none
  | fuel + 1 =>
    match skip cs with
    | '\x7d' :: rest => some ([], rest)
    | rest => do
      let (n, rest) ← name? rest
      match skip rest with
      | ':' :: rest =>
        let (d, rest) ← value? fuel depth rest
        match skip rest with
        | ',' :: rest =>
          let (ms, rest) ← members? fuel depth rest
          some ((n, d) :: ms, rest)
        | '\x7d' :: rest => some ([(n, d)], rest)
        | _ => none
      | _ => none

end

/-- A whole text as a document. -/
def parse? (s : String) : Option Document :=
  let cs := s.toList.takeWhile (· != '\x00')
  match value? (2 * cs.length + 2) depthLimit cs with
  | some (d, rest) => if (skip rest).isEmpty then some d else none
  | none => none

end TableTalk.Document
