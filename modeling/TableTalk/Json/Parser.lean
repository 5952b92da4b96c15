import TableTalk.Json.Number
/-!
# Reading JSON text

`Json.value?` takes one value off a text, `Json.parse?` reads a whole text. Blanks are the space,
the tab, the line feed and the carriage return. A string holds no raw control character and no half
of a surrogate pair, and values are nested less than `Json.depthLimit` deep.
-/

namespace TableTalk.Json

def depthLimit : Nat := 128

def blank (c : Char) : Bool := c == ' ' || c == '\t' || c == '\n' || c == '\r'

def skip (cs : List Char) : List Char := cs.dropWhile blank

def hexValue? (c : Char) : Option Nat :=
  if '0' ≤ c ∧ c ≤ '9' then some (c.toNat - '0'.toNat)
  else if 'a' ≤ c ∧ c ≤ 'f' then some (c.toNat - 'a'.toNat + 10)
  else if 'A' ≤ c ∧ c ≤ 'F' then some (c.toNat - 'A'.toNat + 10)
  else none

/-- The character that some hexadecimal digits name. -/
def scalar? (digits : List Char) : Option Char := do
  let ds ← digits.mapM hexValue?
  let n := ds.foldl (fun n d => 16 * n + d) 0
  if n < 0xD800 ∨ (0xE000 ≤ n ∧ n < 0x110000) then some (Char.ofNat n) else none

/-- Four hexadecimal digits as a code unit. -/
def unit? (a b c d : Char) : Option Nat := do
  let a ← hexValue? a
  let b ← hexValue? b
  let c ← hexValue? c
  let d ← hexValue? d
  some (4096 * a + 256 * b + 16 * c + d)

/-- The character of an escape of one letter. -/
def escaped? : Char → Option Char
  | '"' => some '"'
  | '\\' => some '\\'
  | '/' => some '/'
  | 'b' => some '\x08'
  | 'f' => some '\x0c'
  | 'n' => some '\n'
  | 'r' => some '\r'
  | 't' => some '\t'
  | _ => none

/-- The character of a pair of surrogates. -/
def pair? (high low : Nat) : Option Char :=
  if 0xDC00 ≤ low ∧ low ≤ 0xDFFF then
    some (Char.ofNat (0x10000 + (high - 0xD800) * 1024 + (low - 0xDC00)))
  else none

/-- The characters of a string up to its closing quote, and what follows the quote. -/
def stringBody? : List Char → Option (List Char × List Char)
  | [] => none
  | '"' :: rest => some ([], rest)
  | '\\' :: 'u' :: a :: b :: c :: d :: rest => do
    let u ← unit? a b c d
    if 0xD800 ≤ u ∧ u ≤ 0xDBFF then
      match rest with
      | '\\' :: 'u' :: a :: b :: c :: d :: rest => do
        let low ← unit? a b c d
        let ch ← pair? u low
        let (cs, rest) ← stringBody? rest
        some (ch :: cs, rest)
      | _ => none
    else if 0xDC00 ≤ u ∧ u ≤ 0xDFFF then none
    else do
      let (cs, rest) ← stringBody? rest
      some (Char.ofNat u :: cs, rest)
  | '\\' :: e :: rest => do
    let ch ← escaped? e
    let (cs, rest) ← stringBody? rest
    some (ch :: cs, rest)
  | c :: rest =>
    if c.toNat < 0x20 || c == '\\' then none
    else do
      let (cs, rest) ← stringBody? rest
      some (c :: cs, rest)

/-- A string that starts with its opening quote. -/
def string? : List Char → Option (String × List Char)
  | '"' :: cs => (stringBody? cs).map fun (s, rest) => (String.ofList s, rest)
  | _ => none

mutual

/-- A value at the start of a text. `fuel` bounds the number of steps and `depth` the nesting. -/
def value? (fuel depth : Nat) (cs : List Char) : Option (Json × List Char) :=
  match fuel with
  | 0 => none
  | fuel + 1 =>
    match skip cs with
    | 'n' :: 'u' :: 'l' :: 'l' :: rest => some (null, rest)
    | 't' :: 'r' :: 'u' :: 'e' :: rest => some (bool true, rest)
    | 'f' :: 'a' :: 'l' :: 's' :: 'e' :: rest => some (bool false, rest)
    | '"' :: rest => (stringBody? rest).map fun (s, rest) => (str (String.ofList s), rest)
    | '[' :: rest =>
      if depth ≤ 1 then none
      else match skip rest with
        | ']' :: rest => some (arr [], rest)
        | rest => (items? fuel (depth - 1) rest).map fun (vs, rest) => (arr vs, rest)
    | '{' :: rest =>
      if depth ≤ 1 then none
      else match skip rest with
        | '}' :: rest => some (obj [], rest)
        | rest => (members? fuel (depth - 1) rest).map fun (ms, rest) => (obj ms, rest)
    | rest => number? rest

/-- The items of an array up to its closing bracket. -/
def items? (fuel depth : Nat) (cs : List Char) : Option (List Json × List Char) :=
  match fuel with
  | 0 => none
  | fuel + 1 => do
    let (v, rest) ← value? fuel depth cs
    match skip rest with
    | ',' :: rest =>
      let (vs, rest) ← items? fuel depth rest
      some (v :: vs, rest)
    | ']' :: rest => some ([v], rest)
    | _ => none

/-- The members of an object up to its closing brace. -/
def members? (fuel depth : Nat) (cs : List Char) : Option (List (String × Json) × List Char) :=
  match fuel with
  | 0 => none
  | fuel + 1 => do
    let (k, rest) ← string? (skip cs)
    match skip rest with
    | ':' :: rest =>
      let (v, rest) ← value? fuel depth rest
      match skip rest with
      | ',' :: rest =>
        let (ms, rest) ← members? fuel depth rest
        some ((k, v) :: ms, rest)
      | '}' :: rest => some ([(k, v)], rest)
      | _ => none
    | _ => none

end

/-- Steps enough for any text: no two in a row leave the text as it is. -/
def steps (cs : List Char) : Nat := 2 * cs.length + 2

/-- One value at the start of a text and what follows it. -/
def first? (cs : List Char) : Option (Json × List Char) := value? (steps cs) depthLimit cs

/-- A whole text as one value, names repeated as written. -/
def parse? (text : String) : Option Json :=
  match first? text.toList with
  | some (v, rest) => if (skip rest).isEmpty then some v else none
  | none => none

/-- A whole text as one value, repeated names merged. -/
def read? (text : String) : Option Json := (parse? text).map merge

end TableTalk.Json
