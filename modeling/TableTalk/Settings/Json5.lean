import TableTalk.Decimal.Reading
import TableTalk.Document.Parser
import TableTalk.Text.Alphanumeric
/-!
# Settings in JSON5

`Json5.read?` reads a text with the freedoms of JSON5: comments, keys without quotes, strings in
single quotes and over several lines, a comma behind the last item, numbers with a plus sign, with a
bare point or in hexadecimal digits, the infinite and no number at all. Blanks and comments are
those of documents (`Document.skip`). A whole number has 64 bits, and 32 without a sign if its
digits are hexadecimal.
-/

namespace TableTalk.Json5

-- powers are those of the core library, whatever else is imported
attribute [local instance (high)] instPowNat

open Document (skip)

/-- The characters of an escape behind its backslash, none if a line goes on, and what follows. -/
def escape? : List Char → Option (List Char × List Char)
  | [] => none
  | '0' :: rest => some (['\x00'], rest)
  | 'b' :: rest => some (['\x08'], rest)
  | 'f' :: rest => some (['\x0c'], rest)
  | 'n' :: rest => some (['\n'], rest)
  | 'r' :: rest => some (['\r'], rest)
  | 't' :: rest => some (['\t'], rest)
  | 'v' :: rest => some (['\x0b'], rest)
  | 'x' :: a :: b :: rest => (Json.scalar? [a, b]).map fun c => ([c], rest)
  | 'u' :: a :: b :: c :: d :: rest => do
    let u ← Json.unit? a b c d
    match rest with
    | '\\' :: 'u' :: e :: f :: g :: h :: behind =>
      if 0xD800 ≤ u ∧ u ≤ 0xDBFF then do
        let low ← Json.unit? e f g h
        let c ← Json.pair? u low
        some ([c], behind)
      else (Json.scalar? [a, b, c, d]).map fun c => ([c], rest)
    | rest => (Json.scalar? [a, b, c, d]).map fun c => ([c], rest)
  | '\r' :: '\n' :: rest => some ([], rest)
  | c :: rest =>
    if Spelling.lineEnd c then some ([], rest)
    else if c.isDigit || c == 'x' || c == 'u' then none
    else some ([c], rest)

/-- A string up to its closing quote, and what follows the quote. -/
def body? (quote : Char) (fuel : Nat) (cs : List Char) : Option (List Char × List Char) :=
  match fuel, cs with
  | 0, _ => none
  | _, [] => none
  | fuel + 1, '\\' :: rest => do
    let (s, rest) ← escape? rest
    let (t, rest) ← body? quote fuel rest
    some (s ++ t, rest)
  | fuel + 1, c :: rest =>
    if c = quote then some ([], rest)
    else if Spelling.lineEnd c then none
    else (body? quote fuel rest).map fun (t, rest) => (c :: t, rest)

def nameStart (c : Char) : Bool :=
  c.isAlpha || c == '$' || c == '_' || (128 ≤ c.toNat && Text.alphanumeric c)

/-- Beyond letters, a name holds digits, marks that combine, joiners and signs that connect. -/
def nameChar (c : Char) : Bool :=
  let n := c.toNat
  nameStart c || c.isDigit || (0x300 ≤ n && n < 0x370) || n == 0x200C || n == 0x200D || n == 0x203F
    || n == 0x2040 || n == 0x2054

/-- A key without quotes at the start of a text, and what follows it. -/
def name? (fuel : Nat) (first : Bool) (cs : List Char) : Option (List Char × List Char) :=
  match fuel, cs with
  | fuel + 1, '\\' :: 'u' :: rest => do
    let (s, rest) ← escape? ('u' :: rest)
    let (t, rest) ← name? fuel false rest
    some (s ++ t, rest)
  | fuel + 1, c :: rest =>
    if if first then nameStart c else nameChar c then
      (name? fuel false rest).map fun (t, rest) => (c :: t, rest)
    else if first then none
    else some ([], c :: rest)
  | _, cs => if first then none else some ([], cs)

def key? : List Char → Option (List Char × List Char)
  | '"' :: rest => body? '"' (rest.length + 1) rest
  | '\'' :: rest => body? '\'' (rest.length + 1) rest
  | cs => name? (cs.length + 1) true cs

/-- Decimal digits, a point and an exponent perhaps, behind a sign. -/
def decimal? (sign cs : List Char) : Option (Json × List Char) := do
  let (spelling, rest) ← Document.decimal? cs
  if spelling.all Char.isDigit then
    let n : Int := Decimal.digitsValue spelling
    let n := if sign = ['-'] then -n else n
    if -(2 ^ (63 : Nat)) ≤ n ∧ n < 2 ^ (63 : Nat) then some (.int n, rest) else none
  else do
    let x ← Decimal.readNumber? (sign ++ spelling)
    if x.isFinite then some (.double x, rest) else none

/-- A number. Of the numbers in hexadecimal digits and the infinite ones, few take a sign. -/
def number? (cs : List Char) : Option (Json × List Char) :=
  let sign := (cs.take 1).filter fun c => c == '+' || c == '-'
  let behind := cs.drop sign.length
  let negative := sign = ['-']
  match Text.behind? "Infinity".toList behind, Text.behind? "NaN".toList behind with
  | some rest, _ =>
    if sign = ['+'] then none else some (.double (Decimal.signed negative (1 / 0)), rest)
  | none, some rest => if sign = ['+'] then none else some (.double (0 / 0), rest)
  | none, none =>
    match Document.hexDigits? behind with
    | none => decimal? sign behind
    | some (ds, rest) =>
      let n := ds.foldl (fun n d => 16 * n + (Json.hexValue? d).getD 0) 0
      if sign = [] ∧ n < 2 ^ (32 : Nat) then some (.int n, rest) else none

/-- A value that has a name, or a number. -/
def plain? (cs : List Char) : Option (Json × List Char) :=
  let named (name : String) (v : Json) : Option (Json × List Char) :=
    (Text.behind? name.toList cs).map fun rest => (v, rest)
  (named "null" .null).or <| (named "true" (.bool true)).or <| (named "false" (.bool false)).or <|
    number? cs

mutual

def value? (fuel : Nat) (cs : List Char) : Option (Json × List Char) :=
  match fuel with
  | 0 => none
  | fuel + 1 =>
    match skip cs with
    | '[' :: rest =>
      match skip rest with
      | ']' :: rest => some (.arr [], rest)
      | rest => (items? fuel rest).map fun (vs, rest) => (.arr vs, rest)
    | '\x7b' :: rest =>
      match skip rest with
      | '\x7d' :: rest => some (.obj [], rest)
      | rest => (members? fuel rest).map fun (ms, rest) => (.obj (setMembers ms), rest)
    | '"' :: rest =>
      (body? '"' (rest.length + 1) rest).map fun (s, rest) => (.str (String.ofList s), rest)
    | '\'' :: rest =>
      (body? '\'' (rest.length + 1) rest).map fun (s, rest) => (.str (String.ofList s), rest)
    | rest => plain? rest

/-- The items of an array up to its closing bracket, one at least. -/
def items? (fuel : Nat) (cs : List Char) : Option (List Json × List Char) :=
  match fuel with
  | 0 => none
  | fuel + 1 => do
    let (v, rest) ← value? fuel cs
    match skip rest with
    | ']' :: rest => some ([v], rest)
    | ',' :: rest =>
      match skip rest with
      | ']' :: rest => some ([v], rest)
      | rest => (items? fuel rest).map fun (vs, rest) => (v :: vs, rest)
    | _ => none

/-- The members of an object up to its closing brace, one at least. -/
def members? (fuel : Nat) (cs : List Char) : Option (List (String × Json) × List Char) :=
  match fuel with
  | 0 => none
  | fuel + 1 => do
    let (k, rest) ← key? (skip cs)
    let k := String.ofList k
    match skip rest with
    | ':' :: rest => do
      let (v, rest) ← value? fuel rest
      match skip rest with
      | '\x7d' :: rest => some ([(k, v)], rest)
      | ',' :: rest =>
        match skip rest with
        | '\x7d' :: rest => some ([(k, v)], rest)
        | rest => (members? fuel rest).map fun (ms, rest) => ((k, v) :: ms, rest)
      | _ => none
    | _ => none

end

/-- The value that a text spells. -/
def read? (s : String) : Option Json :=
  let cs := s.toList
  match value? (2 * cs.length + 2) cs with
  | some (v, rest) => if (skip rest).isEmpty then some v else none
  | none => none

end TableTalk.Json5
