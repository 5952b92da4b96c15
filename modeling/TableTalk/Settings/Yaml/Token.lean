import TableTalk.Settings.Yaml.Scalar
/-!
# Tokens of YAML

`Token.all?` takes a text apart. Indentation becomes tokens that open and close lists and tables, so
that what follows need not look at columns. What may turn out to be a key is kept as a `Candidate`:
if a colon follows on the same line, the token of a key is put in front of it afterwards.
-/

namespace TableTalk.Yaml

-- powers are those of the core library, whatever else is imported
attribute [local instance (high)] instPowNat

inductive Token where
  | version
  | handle (name expansion : String)
  | documentStart
  | documentEnd
  | list
  | table
  /-- The end of a list or a table that indentation made. -/
  | blockEnd
  | flowList
  | flowListEnd
  | flowTable
  | flowTableEnd
  | item
  | comma
  | key
  | value
  | alias (name : String)
  | anchor (name : String)
  | tag (handle suffix : String)
  | text (plain : Bool) (s : String)
deriving DecidableEq, Repr

/-- What a key may begin with. -/
structure Candidate where
  /-- The number of characters that are left from here on. -/
  left : Nat
  line : Nat
  column : Nat
  /-- Whether nothing but a key may stand here. -/
  required : Bool
  /-- The number of tokens in front of it. -/
  place : Nat

/-- A level of indentation. -/
structure Level where
  /-- The column of the level around it. -/
  outer : Int
  /-- Whether a list or a table ends with it. -/
  block : Bool

/-- A text that is taken apart. -/
structure Scanner where
  here : Cursor
  /-- The tokens with their columns. -/
  tokens : Array (Nat × Token) := #[]
  indent : Int := -1
  levels : List Level := []
  /-- Whether a key may begin here. -/
  keyAllowed : Bool := true
  /-- What may be a key, outside of brackets and in each pair of them, the innermost first. -/
  keys : List (Option Candidate) := [none]
  /-- Whether the innermost braces hold a table. -/
  inTable : Bool := false
  /-- For each list in brackets, whether a table of one entry is open in it. -/
  single : List Bool := []
  /-- How many characters are left where a colon needs no blank behind it. -/
  adjacent : Nat := 0

namespace Scanner

/-- Whether brackets or braces are open. -/
def flow (s : Scanner) : Bool := decide (1 < s.keys.length)

def push (s : Scanner) (column : Nat) (t : Token) : Scanner :=
  { s with tokens := s.tokens.push (column, t) }

/-- Puts a token in front of others. -/
def insert (s : Scanner) (place column : Nat) (t : Token) : Scanner :=
  { s with tokens := (s.tokens.take place).push (column, t) ++ s.tokens.drop place }

def goto (s : Scanner) (c : Cursor) : Scanner := { s with here := c }

def allowKey (s : Scanner) (allowed : Bool) : Scanner := { s with keyAllowed := allowed }

/-- Opens a level at a column, if it is a new one. Its token stands in front of a place. -/
def roll (s : Scanner) (column : Nat) (place : Nat) (t : Token) : Scanner :=
  if s.flow then s
  else
    let s : Scanner := match s.levels with
      | ⟨outer, false⟩ :: rest =>
        if s.indent ≤ column then { s with indent := outer, levels := rest } else s
      | _ => s
    if s.indent < column then
      let s : Scanner := { s with levels := ⟨s.indent, true⟩ :: s.levels, indent := column }
      s.insert place column t
    else s

/-- Closes the levels behind a column. -/
def unroll (column : Int) : List Level → Scanner → Scanner
  | [], s => s
  | ⟨outer, block⟩ :: rest, s =>
    if s.flow || s.indent ≤ column then s
    else
      let s := { s with indent := outer, levels := rest }
      unroll column rest (if block then s.push s.here.column .blockEnd else s)

/-- Asks for one more column in what follows. -/
def rollColumn (s : Scanner) : Scanner :=
  match s.levels with
  | ⟨_, true⟩ :: _ =>
    if s.flow then s
    else { s with levels := ⟨s.indent, false⟩ :: s.levels, indent := s.indent + 1 }
  | _ => s

/-- Asks for it no longer. -/
def unrollColumns : List Level → Scanner → Scanner
  | ⟨outer, false⟩ :: rest, s => unrollColumns rest { s with indent := outer, levels := rest }
  | _, s => s

def settled (s : Scanner) : Scanner := unrollColumns s.levels s

/-- Remembers that a key may begin here. -/
def noteKey (s : Scanner) : Scanner :=
  if s.keyAllowed then
    let c := s.here
    let required := !s.flow && s.indent == c.column && s.levels.head?.any Level.block
    { s with keys := some ⟨c.left, c.line, c.column, required, s.tokens.size⟩ :: s.keys.drop 1 }
  else s

/-- What began behind the last key is no key. -/
def dropKey? (s : Scanner) : Option Scanner :=
  match s.keys with
  | some k :: rest => if k.required then none else some { s with keys := none :: rest }
  | _ => some s

/-- Outside of brackets, a key is short and ends on its line. -/
def dropOldKey? (s : Scanner) : Option Scanner :=
  match s.flow, s.keys with
  | false, some k :: _ =>
    if k.line < s.here.line ∨ s.here.left + 1024 < k.left then s.dropKey? else some s
  | _, _ => some s

/-- Ends a table of one entry in a list in brackets. -/
def endSingle (s : Scanner) : Scanner :=
  match s.single with
  | true :: rest =>
    { s with inTable := false, single := false :: rest }.push s.here.column .flowTableEnd
  | _ => s

/-! Blanks -/

/-- Goes on to the next token. -/
def toToken? (fuel : Nat) (s : Scanner) : Option Scanner :=
  match fuel with
  | 0 => none
  | fuel + 1 =>
    let c := s.here
    if c.char = '\t' ∧ !s.levels.isEmpty ∧ c.leading ∧ c.column < s.indent then do
      let c ← c.toLineEnd?
      if ends c.char then toToken? fuel (s.goto c) else none
    else if isBlank c.char then toToken? fuel (s.goto c.skipBlank)
    else if isBreak c.char then
      toToken? fuel ((s.goto c.skipBreak).allowKey (s.keyAllowed || !s.flow))
    else if c.char = '#' then toToken? fuel (s.goto c.skipLine)
    else some s

/-- Blanks, breaks and comments behind a question mark, one at least and no tabs. -/
def keyGap (fuel : Nat) (s : Scanner) : Scanner :=
  match fuel with
  | 0 => s
  | fuel + 1 =>
    let c := s.here
    if c.char = ' ' then keyGap fuel (s.goto c.skipBlank)
    else if isBreak c.char then
      keyGap fuel ((s.goto c.skipBreak).allowKey (s.keyAllowed || !s.flow))
    else if c.char = '#' then keyGap fuel (s.goto c.skipLine)
    else s

/-! Documents and directives -/

/-- Ends all that indentation has opened. -/
def closed? (s : Scanner) : Option Scanner :=
  ((unroll (-1) s.levels s).dropKey?).map (·.allowKey false)

def document? (t : Token) (s : Scanner) : Option Scanner := do
  let s ← s.closed?
  some ((s.push s.here.column t).goto s.here.skip.skip.skip)

def numeral? (c : Cursor) : Option Cursor :=
  let (ds, c) := c.takeWhile Char.isDigit
  if ds.isEmpty ∨ 9 < ds.length then none else some c

/-- The version of a directive. -/
def version? (c : Cursor) : Option Cursor := do
  let c ← numeral? (c.skipBlanks isBlank)
  if c.char = '.' then numeral? c.skip else none

def isUri (c : Char) : Bool :=
  c.isAlphanum || c == '-' || "#;/?:@&=+$,_.!~*'()[]%".toList.contains c

def isTag (c : Char) : Bool := isUri c && !isFlow c && c != '!'

/-- A byte of an escape behind its percent sign, and what follows it. -/
def escapedByte? : List Char → Option (Nat × List Char)
  | '%' :: a :: b :: rest => do
    let a ← Json.hexValue? a
    let b ← Json.hexValue? b
    some (16 * a + b, rest)
  | _ => none

/-- The number of bytes of the character that begins with a byte. -/
def width? (byte : Nat) : Option Nat :=
  if byte < 0x80 then some 1
  else if 0xC0 ≤ byte ∧ byte < 0xE0 then some 2
  else if 0xE0 ≤ byte ∧ byte < 0xF0 then some 3
  else if 0xF0 ≤ byte ∧ byte < 0xF8 then some 4
  else none

def escapedBytes? : Nat → List Char → Option (List Nat)
  | 0, _ => some []
  | n + 1, cs => do
    let (b, rest) ← escapedByte? cs
    let bs ← escapedBytes? n rest
    some (b :: bs)

/-- A character that is spelled by its bytes, and the number of them. -/
def escaped? (cs : List Char) : Option (Char × Nat) := do
  let (b, _) ← escapedByte? cs
  let n ← width? b
  let bs ← escapedBytes? n cs
  if (bs.drop 1).all fun b => 0x80 ≤ b && b < 0xC0 then
    let first := if n = 1 then b else b % 2 ^ (7 - n)
    let code := (bs.drop 1).foldl (fun code b => 64 * code + b % 64) first
    if code < 0xD800 ∨ (0xE000 ≤ code ∧ code < 0x110000) then some (Char.ofNat code, n) else none
  else none

/-- Characters of a tag, some of them escaped. -/
def uri? (p : Char → Bool) (fuel : Nat) (c : Cursor) : Option (List Char × Cursor) :=
  match fuel with
  | 0 => none
  | fuel + 1 =>
    if !p c.char then some ([], c)
    else if c.char = '%' then do
      let (ch, n) ← escaped? c.rest
      let (cs, c) ← uri? p fuel (Nat.repeat Cursor.skip (3 * n) c)
      some (ch :: cs, c)
    else (uri? p fuel c.skip).map fun (cs, behind) => (c.char :: cs, behind)

/-- A handle between exclamation marks, or what stands in front of a tag. -/
def handle? (directive : Bool) (c : Cursor) : Option (List Char × Cursor) :=
  if c.char ≠ '!' then none
  else
    let (cs, c) := c.skip.takeWhile isWord
    if c.char = '!' then some ('!' :: cs ++ ['!'], c.skip)
    else if directive && !cs.isEmpty then none
    else some ('!' :: cs, c)

/-- The expansion that a directive gives to a handle. -/
def expansion? (c : Cursor) : Option (String × String × Cursor) := do
  let (h, c) ← handle? true (c.skipBlanks isBlank)
  let c := c.skipBlanks isBlank
  let (first, c) ←
    if c.char = '!' then some (['!'], c.skip)
    else if !isTag c.char then none
    else if c.char = '%' then do
      let (ch, n) ← escaped? c.rest
      some ([ch], Nat.repeat Cursor.skip (3 * n) c)
    else some ([c.char], c.skip)
  let (cs, c) ← uri? isUri (c.left + 1) c
  if gaps c.char then some (String.ofList h, String.ofList (first ++ cs), c) else none

/-- A directive; those that are not known say nothing. -/
def directive? (s : Scanner) : Option Scanner := do
  let s ← s.closed?
  let (name, c) := s.here.skip.takeWhile isWord
  if name.isEmpty ∨ !gaps c.char then none
  else
    let (t, c) ←
      if name = "YAML".toList then (version? c).map fun c => (.version, c)
      else if name = "TAG".toList then (expansion? c).map fun (h, e, c) => (.handle h e, c)
      else some (.handle "" "", c.skipLine)
    let c ← c.toLineEnd?
    if ends c.char then some ((s.push s.here.column t).goto c.skipBreak) else none

/-! Properties of nodes -/

/-- An anchor or an alias behind its sign. -/
def anchor? (make : String → Token) (s : Scanner) : Option Scanner :=
  let s := s.noteKey.allowKey false
  let (name, c) := s.here.skip.takeWhile fun c => !gaps c && !isFlow c && c != '\ufeff'
  if name.isEmpty then none
  else some ((s.push s.here.column (make (String.ofList name))).goto c)

/-- A tag with the handle in front of it. -/
def tagged? (c : Cursor) : Option (List Char × List Char × Cursor) :=
  if c.ahead 1 = '<' then do
    let (suffix, c) ← uri? isUri (c.left + 1) c.skip.skip
    if c.char = '>' then some ([], suffix, c.skip) else none
  else do
    let (h, c) ← handle? false c
    let (suffix, behind) ← uri? isTag (c.left + 1) c
    if 2 ≤ h.length ∧ h.getLast? = some '!' then
      if suffix.isEmpty then none else some (h, suffix, behind)
    else
      match h.drop 1 ++ suffix with
      | [] => some ([], ['!'], behind)
      | suffix => some (['!'], suffix, behind)

def tag? (s : Scanner) : Option Scanner := do
  let s := s.noteKey.allowKey false
  let (h, suffix, c) ← tagged? s.here
  if gaps c.char || (s.flow && isFlow c.char) then
    some ((s.push s.here.column (.tag (String.ofList h) (String.ofList suffix))).goto c)
  else none

/-! Lists and tables -/

/-- The number of brackets that may be open at once. -/
def flowLimit : Nat := 255

def openFlow? (t : Token) (s : Scanner) : Option Scanner := do
  let s := s.noteKey.rollColumn
  if flowLimit < s.keys.length then none
  else
    let table : Bool := t = .flowTable
    let c ← s.here.skip.toLineEnd?
    let opened := { s with
      here := c
      keys := none :: s.keys
      keyAllowed := true
      inTable := s.inTable || table
      single := if table then s.single else false :: s.single }
    some (opened.push s.here.column t)

def closeFlow? (t : Token) (s : Scanner) : Option Scanner := do
  let s ← s.dropKey?
  let s := { s with keys := if s.flow then s.keys.drop 1 else s.keys, keyAllowed := false }
  let s := if t = .flowListEnd then { s.endSingle with single := s.single.drop 1 } else s
  let c ← s.here.skip.toLineEnd?
  let s := if s.flow then { s with adjacent := c.left } else s
  some ((s.push s.here.column t).goto c)

def comma? (s : Scanner) : Option Scanner := do
  let s ← s.dropKey?
  let s := (s.allowKey true).endSingle
  let c ← s.here.skip.toLineEnd?
  some ((s.push s.here.column .comma).goto c)

/-- Whether the last token is a property that no entry of its column may follow. -/
def misplaced (s : Scanner) : Bool :=
  match s.tokens.back? with
  | some (0, .anchor _) => s.here.column == 0 && decide (-1 < s.indent)
  | some (0, .tag ..) => s.here.column == 0 && decide (-1 < s.indent)
  | _ => false

/-- An entry of a list behind a hyphen. -/
def item? (s : Scanner) : Option Scanner := do
  if s.flow || !s.keyAllowed || s.misplaced then none
  else
    let s := (s.roll s.here.column s.tokens.size .list).goto s.here.skip
    let c ← s.here.toLineEnd?
    let tabs := (s.here.rest.takeWhile isBlank).contains '\t'
    if tabs && c.char == '-' && gaps (c.ahead 1) then none
    else
      let s := s.goto c
      let s := if isBreak c.char || isFlow c.char then s.rollColumn else s
      let s ← s.dropKey?
      some ((s.allowKey true).push c.column .item)

/-- A key behind a question mark. -/
def key? (s : Scanner) : Option Scanner := do
  let c := s.here
  if !s.flow && !s.keyAllowed then none
  else
    let s := if s.flow then { s with inTable := true } else s.roll c.column s.tokens.size .table
    let s ← s.dropKey?
    let s := keyGap (c.left + 1) ((s.allowKey !s.flow).goto c.skip)
    if s.here.char = '\t' ∨ s.here.left + 1 = c.left then none
    else some (s.push c.column .key)

/-- The place behind a colon. A tab there stands in front of no word. -/
def behindColon? (c : Cursor) : Option Cursor :=
  let behind := c.skip
  if behind.char ≠ '\t' then some behind
  else do
    let c ← behind.toLineEnd?
    let spaces := (behind.rest.takeWhile isBlank).contains ' '
    if !spaces && (c.char == '-' || isWord c.char) then none else some c

/-- A value behind a colon. -/
def value? (s : Scanner) : Option Scanner := do
  let start := s.here
  let implicit := !s.single.isEmpty && !s.inTable
  let s := if implicit then { s with single := true :: s.single.drop 1 } else s
  let c ← behindColon? start
  let s := s.goto c
  match s.keys.head?.bind id with
  | some k =>
    if implicit && k.line < start.line then none
    else
      let s := s.insert k.place k.column .key
      let s := if implicit then s.insert k.place c.column .flowTable else s
      let s := (s.roll k.column k.place .table).rollColumn
      let s := { s with keys := none :: s.keys.drop 1, keyAllowed := false }
      some (s.push start.column .value)
  | none =>
    let s := if implicit then s.push c.column .flowTable else s
    if !s.flow && !s.keyAllowed then none
    else
      let s := if s.flow then s else s.roll start.column s.tokens.size .table
      some ((s.rollColumn.allowKey !s.flow).push start.column .value)

/-! Texts -/

def block? (literal : Bool) (s : Scanner) : Option Scanner := do
  let s := (s.noteKey.allowKey true)
  let column := s.here.column
  let s := (s.goto s.here.skip).settled
  let (text, c) ← Yaml.block? literal s.indent s.here
  some ((s.push column (.text false (String.ofList text))).goto c)

/-- Whether a text in quotes may end here. -/
def quotedEnds (s : Scanner) (line : Nat) (c : Cursor) : Bool :=
  ends c.char
    || (s.flow && (c.char == ',' || c.char == '\x7d' || c.char == ']' || c.char == ':'))
    || (!s.flow && c.char == ':' && line == c.line)

def quoted? (s : Scanner) : Option Scanner := do
  let s := s.noteKey.allowKey false
  let start := s.here
  let (d, c) ← Yaml.quoted? start.char s.indent (start.left + 1) {} start.skip
  let c ← c.skip.toLineEnd?
  if s.quotedEnds start.line c then do
    let s ← (s.goto c).toToken? (c.left + 1)
    let s := { s with adjacent := s.here.left }
    some (s.push start.column (.text false (String.ofList d.toText)))
  else none

def plain? (s : Scanner) : Option Scanner := do
  let s := (s.noteKey.allowKey false).settled
  let start := s.here
  let indent := s.indent + 1
  if s.flow && decide (start.column < indent) then none
  else
    let (d, c) ← Yaml.plain? s.flow indent (start.left + 1) {} start
    if d.text.isEmpty then none
    else
      let s := if c.leading then s.allowKey true else s
      some ((s.push start.column (.text true (String.ofList d.toText))).goto c)

/-! All tokens -/

/-- Takes the next token, which begins here. -/
def step? (s : Scanner) : Option Scanner :=
  let c := s.here
  let behind := c.ahead 1
  if c.column = 0 ∧ c.char = '%' then s.directive?
  else if c.marked '-' then s.document? .documentStart
  else if c.marked '.' then do
    let s ← s.document? .documentEnd
    let c ← s.here.toLineEnd?
    if ends c.char then some (s.goto c) else none
  else if c.column < s.indent then none
  else match c.char with
    | '[' => s.openFlow? .flowList
    | '\x7b' => s.openFlow? .flowTable
    | ']' => s.closeFlow? .flowListEnd
    | '\x7d' => s.closeFlow? .flowTableEnd
    | ',' => s.comma?
    | '*' => s.anchor? .alias
    | '&' => s.anchor? .anchor
    | '!' => s.tag?
    | '\'' => s.quoted?
    | '"' => s.quoted?
    | '@' => none
    | '%' => none
    | '\x60' => none
    | '-' => if gaps behind then s.item? else s.plain?
    | '?' => if gaps behind then s.key? else s.plain?
    | ':' =>
      if gaps behind || (s.flow && (isFlow behind || c.left == s.adjacent)) then s.value?
      else s.plain?
    | '|' => if s.flow then s.plain? else s.block? true
    | '>' => if s.flow then s.plain? else s.block? false
    | _ => s.plain?

/-- Takes all tokens. -/
def run? (fuel : Nat) (s : Scanner) : Option Scanner :=
  match fuel with
  | 0 => none
  | fuel + 1 => do
    let s ← s.toToken? (s.here.left + 1)
    let s ← s.dropOldKey?
    let s := unroll s.here.column s.levels s
    if s.here.rest.isEmpty then
      if s.keys.any fun k => k.any Candidate.required then none else s.closed?
    else do
      let s ← s.step?
      run? fuel s

end Scanner

/-- The tokens of a text. The character U+0000 ends it. -/
def Token.all? (text : String) : Option (List Token) :=
  let cs := text.toList.takeWhile (· != '\x00')
  let s : Scanner := { here := .ofList cs }
  (s.run? (cs.length + 2)).map fun s => s.tokens.toList.map Prod.snd

end TableTalk.Yaml
