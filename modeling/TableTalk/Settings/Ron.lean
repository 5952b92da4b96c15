import TableTalk.Decimal.Reading
import TableTalk.Json.Parser
import TableTalk.Text.Blank
/-!
# Settings in RON

`Ron.read?` reads values in object notation: structures `name(key: value)` and tuples, whose names
say nothing, maps, lists, optional values, characters, strings with escapes or raw ones, and
numbers. A name alone is no value at all, like `None` and `()`. Keys of a map are texts.

Comments nest if they stand between a slash with a star and a star with a slash. A file may begin
with the extensions that it enables; of these one lets `Some` stand without brackets.
-/

namespace TableTalk.Ron

-- powers are those of the core library, whatever else is imported
attribute [local instance (high)] instPowNat

/-! Blanks -/

def blank (c : Char) : Bool := c == ' ' || c == '\t' || c == '\n' || c == '\r'

/-- What follows a comment of some levels. -/
def behindBlock? : Nat → List Char → Option (List Char)
  | 0, cs => some cs
  | _, [] => none
  | level, '/' :: '*' :: rest => behindBlock? (level + 1) rest
  | level + 1, '*' :: '/' :: rest => behindBlock? level rest
  | level, _ :: rest => behindBlock? level rest

/-- What follows blanks and comments. -/
def gap? (fuel : Nat) (cs : List Char) : Option (List Char) :=
  match fuel, cs.dropWhile blank with
  | fuel + 1, '/' :: '/' :: rest => gap? fuel (rest.dropWhile (· != '\n'))
  | fuel + 1, '/' :: '*' :: rest => (behindBlock? 1 rest).bind (gap? fuel)
  | _, '/' :: _ => none
  | _, rest => some rest

def skip? (cs : List Char) : Option (List Char) := gap? (cs.length + 1) cs

/-- What follows a comma and the blanks on both sides of it, and whether there is one. -/
def comma? (cs : List Char) : Option (Bool × List Char) := do
  match ← skip? cs with
  | ',' :: rest => (skip? rest).map fun rest => (true, rest)
  | rest => some (false, rest)

/-! Names -/

def nameStart (c : Char) : Bool := c.isAlpha || c == '_'

def nameChar (c : Char) : Bool := c.isAlphanum || c == '_'

/-- Characters of a name behind `r#`. -/
def rawChar (c : Char) : Bool := nameChar c || c == '.' || c == '+' || c == '-'

/-- A name at the start of a text, and what follows it. -/
def name? : List Char → Option (List Char × List Char)
  | ['r'] => none
  | 'r' :: '"' :: _ => none
  | 'r' :: '#' :: rest =>
    match rest.takeWhile rawChar with
    | [] => none
    | s => some (s, rest.drop s.length)
  | cs =>
    if cs.head?.any nameStart then some (cs.takeWhile nameChar, cs.dropWhile nameChar) else none

/-- What follows a word at the start of a text, if the word ends there. -/
def behindWord? (word : String) (cs : List Char) : Option (List Char) :=
  (Text.behind? word.toList cs).filter (!·.head?.any nameChar)

/-! Numbers -/

def intChar (c : Char) : Bool := (Json.hexValue? c).isSome || c == '_'

def floatChar (c : Char) : Bool :=
  c.isDigit || c == 'e' || c == 'E' || c == '.' || c == '+' || c == '-' || c == '_'

/-- The digits of a base, underscores between them, and what follows. -/
def digits? (base : Nat) (cs : List Char) : Option (Nat × List Char) :=
  let ds := cs.takeWhile intChar
  match ds.head? with
  | none => none
  | some '_' => none
  | some _ => do
    let ds := ds.filter (· != '_')
    let vs ← ds.mapM Json.hexValue?
    if vs.all (· < base) then
      some (vs.foldl (fun n d => base * n + d) 0, cs.dropWhile intChar)
    else none

/-- A whole number without a sign. -/
def natural? : List Char → Option (Nat × List Char)
  | '0' :: 'x' :: rest => digits? 16 rest
  | '0' :: 'b' :: rest => digits? 2 rest
  | '0' :: 'o' :: rest => digits? 8 rest
  | cs => digits? 10 cs

/-- A whole number of 64 bits, signed if it has a sign. -/
def int? (cs : List Char) : Option (Int × List Char) :=
  match cs with
  | '-' :: rest => do
    let (n, rest) ← natural? rest
    if n ≤ 2 ^ (63 : Nat) then some (-(n : Int), rest) else none
  | '+' :: rest => do
    let (n, rest) ← natural? rest
    if n < 2 ^ (63 : Nat) then some ((n : Int), rest) else none
  | cs => do
    let (n, rest) ← natural? cs
    if n < 2 ^ (64 : Nat) then some ((n : Int), rest) else none

/-- The names of the infinite and of no number, with and without a sign. -/
def special? (cs : List Char) : Option (Float × List Char) :=
  let (negative, behind) := Decimal.takeSign cs
  ((behindWord? "inf" behind).map fun rest => (Decimal.signed negative (1 / 0), rest)).or
    ((behindWord? "NaN" behind).map fun rest => (Decimal.signed negative (0 / 0), rest))

def float? (cs : List Char) : Option (Float × List Char) :=
  match special? cs with
  | some r => some r
  | none => (Decimal.readNumber? (cs.takeWhile floatChar)).map fun x => (x, cs.dropWhile floatChar)

/-- A number: a whole one, unless more characters of a fraction stand here. -/
def number? (cs : List Char) : Option (Json × List Char) :=
  let behind := (Decimal.takeSign cs).2
  let fraction := (behind.takeWhile intChar).length < (behind.takeWhile floatChar).length
  let whole := if fraction then none else int? cs
  match whole with
  | some (n, rest) => some (if n < 2 ^ (63 : Nat) then .int n else .double (Float.ofInt n), rest)
  | none => (float? cs).map fun (x, rest) => (.double x, rest)

/-! Text -/

/-- The digits of an escape in braces: one to six. -/
def braced? (cs : List Char) : Option (Char × List Char) :=
  let ds := (cs.take 6).takeWhile (· != '\x7d')
  match cs.drop ds.length with
  | '\x7d' :: rest => if ds.isEmpty then none else (Json.scalar? ds).map fun c => (c, rest)
  | _ => none

/-- The character of an escape behind its backslash, and what follows it. -/
def escape? : List Char → Option (Char × List Char)
  | '\'' :: rest => some ('\'', rest)
  | '"' :: rest => some ('"', rest)
  | '\\' :: rest => some ('\\', rest)
  | 'n' :: rest => some ('\n', rest)
  | 'r' :: rest => some ('\r', rest)
  | 't' :: rest => some ('\t', rest)
  | '0' :: rest => some ('\x00', rest)
  | 'x' :: a :: b :: rest => (Json.scalar? [a, b]).map fun c => (c, rest)
  | 'u' :: '\x7b' :: rest => braced? rest
  | _ => none

/-- A string behind its opening quote. -/
def body? (fuel : Nat) (cs : List Char) : Option (List Char × List Char) :=
  match fuel, cs with
  | 0, _ => none
  | _, [] => none
  | _, '"' :: rest => some ([], rest)
  | fuel + 1, '\\' :: rest => do
    let (c, rest) ← escape? rest
    let (s, rest) ← body? fuel rest
    some (c :: s, rest)
  | fuel + 1, c :: rest => (body? fuel rest).map fun (s, rest) => (c :: s, rest)

/-- A text up to some characters, and what follows them. -/
def upTo? (mark : List Char) : List Char → Option (List Char × List Char)
  | [] => none
  | c :: cs =>
    match Text.behind? mark (c :: cs) with
    | some rest => some ([], rest)
    | none => (upTo? mark cs).map fun (s, rest) => (c :: s, rest)

/-- A raw string behind its letter: quotes with the same number of signs on both sides. -/
def raw? (cs : List Char) : Option (List Char × List Char) :=
  let signs := cs.takeWhile (· == '#')
  match cs.drop signs.length with
  | '"' :: rest => upTo? ('"' :: signs) rest
  | _ => none

/-- A character behind its opening quote. -/
def char? : List Char → Option (Char × List Char)
  | '\\' :: rest =>
    match escape? rest with
    | some (c, '\'' :: rest) => some (c, rest)
    | _ => none
  | '\'' :: _ => none
  | c :: '\'' :: rest => some (c, rest)
  | _ => none

/-! Values -/

/-- Whether the fields of a structure stand here, behind a bracket, and not those of a tuple. -/
def fielded? (cs : List Char) : Option Bool :=
  match name? cs with
  | none => some false
  | some (_, rest) => do
    match ← skip? rest with
    | [] => none
    | c :: _ => some (c == ':')

/-- The text that a value is as a key. -/
def keyOf? : Json → Option String
  | .str s => some s
  | _ => none

/-- The depth up to which values are nested. -/
def depthLimit : Nat := 128

mutual

/-- A value. `bare` allows `Some` without brackets, `fuel` bounds the steps, `depth` the nesting. -/
def value? (bare : Bool) (fuel depth : Nat) (cs : List Char) : Option (Json × List Char) :=
  match fuel with
  | 0 => none
  | fuel + 1 =>
    match behindWord? "true" cs, behindWord? "false" cs, behindWord? "Some" cs,
        behindWord? "None" cs, Text.behind? "()".toList cs with
    | some rest, _, _, _, _ => some (.bool true, rest)
    | _, some rest, _, _, _ => some (.bool false, rest)
    | _, _, some rest, _, _ => optional? bare fuel depth rest
    | _, _, _, some rest, _ => some (.null, rest)
    | _, _, _, _, some rest => some (.null, rest)
    | _, _, _, _, _ =>
      match name? cs with
      | some (s, rest) =>
        if s = "inf".toList ∨ s = "NaN".toList then number? cs
        else do
          match ← skip? rest with
          | '(' :: rest => structure? bare fuel depth rest
          | rest => some (.null, rest)
      | none =>
        match cs with
        | '(' :: rest => structure? bare fuel depth rest
        | '[' :: rest => (items? bare fuel depth ']' rest).map fun (vs, rest) => (.arr vs, rest)
        | '\x7b' :: rest =>
          (entries? bare fuel depth rest).map fun (ms, rest) => (.obj (setMembers ms), rest)
        | '"' :: rest =>
          (body? (rest.length + 1) rest).map fun (s, rest) => (.str (String.ofList s), rest)
        | 'r' :: rest => (raw? rest).map fun (s, rest) => (.str (String.ofList s), rest)
        | '\'' :: rest => (char? rest).map fun (c, rest) => (.str (String.ofList [c]), rest)
        | c :: _ => if c.isDigit || c == '+' || c == '-' || c == '.' then number? cs else none
        | [] => none

/-- What stands behind `Some`. -/
def optional? (bare : Bool) (fuel depth : Nat) (cs : List Char) : Option (Json × List Char) :=
  match fuel, depth with
  | 0, _ => none
  | _, 0 => none
  | fuel + 1, depth + 1 => do
    match ← skip? cs with
    | '(' :: rest => do
      let rest ← skip? rest
      let (v, rest) ← value? bare fuel depth rest
      match ← comma? rest with
      | (_, ')' :: rest) => some (v, rest)
      | _ => none
    | rest => if bare then value? bare fuel depth rest else none

/-- A structure or a tuple behind its bracket. -/
def structure? (bare : Bool) (fuel depth : Nat) (cs : List Char) : Option (Json × List Char) :=
  match fuel with
  | 0 => none
  | fuel + 1 => do
    let cs ← skip? cs
    if ← fielded? cs then
      (fields? bare fuel depth cs).map fun (ms, rest) => (.obj (setMembers ms), rest)
    else (items? bare fuel depth ')' cs).map fun (vs, rest) => (.arr vs, rest)

/-- The items of a list or a tuple up to its closing bracket. -/
def items? (bare : Bool) (fuel depth : Nat) (close : Char) (cs : List Char) :
    Option (List Json × List Char) :=
  match fuel with
  | 0 => none
  | fuel + 1 => do
    match ← skip? cs, depth with
    | [], _ => none
    | c :: rest, depth =>
      if c = close then some ([], rest)
      else match depth with
        | 0 => none
        | inner + 1 => do
          let (v, rest) ← value? bare fuel inner (c :: rest)
          match ← comma? rest with
          | (true, rest) =>
            (items? bare fuel depth close rest).map fun (vs, rest) => (v :: vs, rest)
          | (false, c :: rest) => if c = close then some ([v], rest) else none
          | (false, []) => none

/-- The fields of a structure up to its closing bracket. -/
def fields? (bare : Bool) (fuel depth : Nat) (cs : List Char) :
    Option (List (String × Json) × List Char) :=
  match fuel with
  | 0 => none
  | fuel + 1 => do
    match ← skip? cs with
    | ')' :: rest => some ([], rest)
    | rest => do
      let (k, rest) ← name? rest
      member? bare fuel depth (String.ofList k) ')' rest

/-- The entries of a map up to its closing brace. -/
def entries? (bare : Bool) (fuel depth : Nat) (cs : List Char) :
    Option (List (String × Json) × List Char) :=
  match fuel, depth with
  | 0, _ => none
  | fuel + 1, depth => do
    match ← skip? cs with
    | '\x7d' :: rest => some ([], rest)
    | rest => do
      let (k, rest) ← value? bare fuel (depth - 1) rest
      let k ← keyOf? k
      member? bare fuel depth k '\x7d' rest

/-- The value behind a key, and the members that follow it. -/
def member? (bare : Bool) (fuel depth : Nat) (k : String) (close : Char) (cs : List Char) :
    Option (List (String × Json) × List Char) :=
  match fuel, depth with
  | 0, _ => none
  | _, 0 => none
  | fuel + 1, depth + 1 => do
    match ← skip? cs with
    | ':' :: rest => do
      let rest ← skip? rest
      let (v, rest) ← value? bare fuel depth rest
      match ← comma? rest with
      | (true, rest) =>
        let more ← if close = ')' then fields? bare fuel (depth + 1) rest
          else entries? bare fuel (depth + 1) rest
        some ((k, v) :: more.1, more.2)
      | (false, c :: rest) => if c = close then some ([(k, v)], rest) else none
      | (false, []) => none
    | _ => none

end

/-! Files -/

def extensions : List String := ["unwrap_newtypes", "implicit_some", "unwrap_variant_newtypes"]

/-- What follows some words with blanks behind each. -/
def behindWords? : List String → List Char → Option (List Char)
  | [], cs => some cs
  | w :: ws, cs => do
    let rest ← Text.behind? w.toList cs
    let rest ← skip? rest
    behindWords? ws rest

/-- Names of extensions with commas between them. -/
def enabled? (fuel : Nat) (cs : List Char) : Option (List String × List Char) :=
  match fuel with
  | 0 => none
  | fuel + 1 => do
    let (s, rest) ← name? cs
    let s := String.ofList s
    if s ∈ extensions then
      match ← comma? rest with
      | (true, rest) =>
        if rest.head?.any nameChar then
          (enabled? fuel rest).map fun (ss, rest) => (s :: ss, rest)
        else some ([s], rest)
      | (false, rest) => some ([s], rest)
    else none

/-- The extensions that a file enables at its start, and what follows them. -/
def attributes? (fuel : Nat) (cs : List Char) : Option (List String × List Char) :=
  match fuel, cs with
  | fuel + 1, '#' :: _ => do
    let rest ← behindWords? ["#", "!", "[", "enable", "("] cs
    let (ss, rest) ← enabled? rest.length rest
    let rest ← skip? rest
    let rest ← behindWords? [")", "]"] rest
    let (more, rest) ← attributes? fuel rest
    some (ss ++ more, rest)
  | _, cs => some ([], cs)

/-- The value that a text spells. -/
def read? (s : String) : Option Json := do
  let cs ← skip? s.toList
  let (names, cs) ← attributes? cs.length cs
  let (v, rest) ← value? (names.contains "implicit_some") (8 * cs.length + 8) depthLimit cs
  match ← skip? rest with
  | [] => some v
  | _ => none

end TableTalk.Ron
