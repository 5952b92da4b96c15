import TableTalk.Json.Parser
import TableTalk.Settings.Yaml.Cursor
/-!
# Texts in YAML

A text is plain, stands between quotes or is a block behind a bar or an angle. Plain and quoted
texts may go on over several lines: a line break becomes a blank, and of several in a row the first
is lost (`Draft.join`). A block keeps its lines, or folds them likewise, and its header says what
becomes of the breaks at its end.
-/

namespace TableTalk.Yaml

/-- Text while it is read. Blanks and breaks behind it wait until more follows. -/
structure Draft where
  /-- What has been read, in reverse. -/
  text : List Char := []
  /-- Blanks behind it on its line, in reverse. -/
  blanks : List Char := []
  /-- Whether its line has ended. -/
  broken : Bool := false
  /-- The breaks behind that of its line. -/
  breaks : Nat := 0

namespace Draft

def push (d : Draft) (ch : Char) : Draft := { d with text := ch :: d.text }

def pushAll (d : Draft) (cs : List Char) : Draft := { d with text := cs.reverse ++ d.text }

/-- Puts what waits in front of what follows, on the same line or behind blanks on another. -/
def join (d : Draft) (leading : Bool) : Draft :=
  if !leading then { d with text := d.blanks ++ d.text, blanks := [] }
  else
    let gap := if d.broken && d.breaks = 0 then [' '] else List.replicate d.breaks '\n'
    { d with text := gap ++ d.text, broken := false, breaks := 0 }

/-- A break behind the text or behind other breaks. -/
def break_ (d : Draft) (leading : Bool) : Draft :=
  if leading then { d with breaks := d.breaks + 1 } else { d with blanks := [], broken := true }

def toText (d : Draft) : List Char := d.text.reverse

end Draft

/-! Plain texts -/

/-- Whether a character of a plain text stands here. -/
def Cursor.plain (flow : Bool) (c : Cursor) : Bool :=
  !gaps c.char
    && !(c.char == ':' && (gaps (c.ahead 1) || (flow && isFlow (c.ahead 1))))
    && !(flow && isFlow c.char)

/-- Blanks and breaks behind a part of a plain text. -/
def plainGap? (indent : Int) (fuel : Nat) (d : Draft) (c : Cursor) : Option (Draft × Cursor) :=
  match fuel with
  | 0 => none
  | fuel + 1 =>
    if isBlank c.char then
      if !c.leading then plainGap? indent fuel { d with blanks := c.char :: d.blanks } c.skipBlank
      else if c.column < indent ∧ c.char = '\t' then do
        let c ← c.toLineEnd?
        if isBreak c.char then plainGap? indent fuel d c else none
      else plainGap? indent fuel d c.skipBlank
    else if isBreak c.char then plainGap? indent fuel (d.break_ c.leading) c.skipBreak
    else some (d, c)

/-- The characters of a plain text up to a blank or its end. -/
def plainRun (flow : Bool) (fuel : Nat) (d : Draft) (c : Cursor) : Draft × Cursor :=
  match fuel with
  | 0 => (d, c)
  | fuel + 1 => if c.plain flow then plainRun flow fuel (d.push c.char) c.skip else (d, c)

/-- A plain text whose lines stand behind a column. -/
def plain? (flow : Bool) (indent : Int) (fuel : Nat) (d : Draft) (c : Cursor) :
    Option (Draft × Cursor) :=
  match fuel with
  | 0 => none
  | fuel + 1 =>
    if c.atDocument || c.char == '#' then some (d, c)
    else if flow && c.char == '-' && isFlow (c.ahead 1) then none
    else
      let (d, c) := if c.plain flow then
        plainRun flow (c.left + 1) (d.join c.leading) c else (d, c)
      if isBlank c.char || isBreak c.char then do
        let (d, c) ← plainGap? indent (c.left + 1) d c
        if !flow && c.column < indent then some (d, c) else plain? flow indent fuel d c
      else some (d, c)

/-! Quoted texts -/

/-- The character of an escape behind its backslash, and the number of its characters. -/
def escape? (cs : List Char) : Option (Char × Nat) :=
  let digits (n : Nat) : Option (Char × Nat) :=
    if cs.length ≤ n then none
    else (Json.scalar? ((cs.drop 1).take n)).map fun c => (c, n + 1)
  match cs.head? with
  | none => none
  | some '0' => some ('\x00', 1)
  | some 'a' => some ('\x07', 1)
  | some 'b' => some ('\x08', 1)
  | some 't' => some ('\t', 1)
  | some '\t' => some ('\t', 1)
  | some 'n' => some ('\n', 1)
  | some 'v' => some ('\x0b', 1)
  | some 'f' => some ('\x0c', 1)
  | some 'r' => some ('\r', 1)
  | some 'e' => some ('\x1b', 1)
  | some 'N' => some ('\u0085', 1)
  | some '_' => some ('\u00a0', 1)
  | some 'L' => some ('\u2028', 1)
  | some 'P' => some ('\u2029', 1)
  | some 'x' => digits 2
  | some 'u' => digits 4
  | some 'U' => digits 8
  | some c => if c ∈ [' ', '"', '/', '\\'] then some (c, 1) else none

/-- The characters of a quoted text up to a blank, a break or its closing quote. The result tells
whether a line goes on behind a backslash. -/
def quotedRun? (quote : Char) (fuel : Nat) (d : Draft) (c : Cursor) :
    Option (Draft × Cursor × Bool) :=
  match fuel with
  | 0 => none
  | fuel + 1 =>
    if gaps c.char then some (d, c, false)
    else if c.char = quote then
      if quote = '\'' ∧ c.ahead 1 = '\'' then quotedRun? quote fuel (d.push '\'') c.skip.skip
      else some (d, c, false)
    else if quote = '"' ∧ c.char = '\\' then
      if isBreak (c.ahead 1) then some (d, c.skip.skipBreak, true)
      else do
        let (ch, size) ← escape? (c.rest.drop 1)
        quotedRun? quote fuel (d.push ch) (Nat.repeat Cursor.skip (size + 1) c)
    else quotedRun? quote fuel (d.push c.char) c.skip

/-- Blanks and breaks in a quoted text. `leading` tells whether a line begins here. -/
def quotedGap? (indent : Int) (fuel : Nat) (leading : Bool) (d : Draft) (c : Cursor) :
    Option (Draft × Cursor × Bool) :=
  match fuel with
  | 0 => none
  | fuel + 1 =>
    if isBlank c.char then
      if !leading then
        quotedGap? indent fuel false { d with blanks := c.char :: d.blanks } c.skipBlank
      else if c.char = '\t' ∧ c.column < indent then none
      else quotedGap? indent fuel true d c.skipBlank
    else if isBreak c.char then quotedGap? indent fuel true (d.break_ leading) c.skipBreak
    else some (d, c, leading)

/-- A text behind its opening quote up to the closing one. -/
def quoted? (quote : Char) (indent : Int) (fuel : Nat) (d : Draft) (c : Cursor) :
    Option (Draft × Cursor) :=
  match fuel with
  | 0 => none
  | fuel + 1 =>
    if c.atDocument || c.rest.isEmpty || c.column < indent then none
    else do
      let (d, c, leading) ← quotedRun? quote (c.left + 1) d c
      if c.char = quote then some (d, c)
      else do
        let (d, c, leading) ← quotedGap? indent (c.left + 1) leading d c
        quoted? quote indent fuel (d.join leading) c

/-! Blocks -/

/-- What becomes of the breaks at the end of a block: one is left, none or all. -/
inductive Chomping where
  | clip
  | strip
  | keep
deriving DecidableEq, Repr

def Chomping.ofChar? (c : Char) : Option Chomping :=
  if c = '+' then some keep else if c = '-' then some strip else none

/-- A digit for the indentation of a block; there may be none, and it is not zero. -/
def increment? (c : Cursor) : Option (Nat × Cursor) :=
  if c.char = '0' then none
  else if c.char.isDigit then some (c.char.toNat - '0'.toNat, c.skip)
  else some (0, c)

/-- The header of a block: two indicators in any order. -/
def blockHeader? (c : Cursor) : Option (Chomping × Nat × Cursor) :=
  match Chomping.ofChar? c.char with
  | some ch => (increment? c.skip).map fun (n, c) => (ch, n, c)
  | none => do
    let (n, c) ← increment? c
    match Chomping.ofChar? c.char with
    | some ch => some (ch, n, c.skip)
    | none => some (.clip, n, c)

/-- What follows empty lines and the indentation of the next one, and the number of breaks. -/
def behindIndent (indent fuel : Nat) (breaks : Nat) (c : Cursor) : Nat × Cursor :=
  match fuel with
  | 0 => (breaks, c)
  | fuel + 1 =>
    let spaces := (c.rest.take (indent - c.column)).takeWhile (· == ' ')
    let c := Nat.repeat Cursor.skipBlank spaces.length c
    if isBreak c.char then behindIndent indent fuel (breaks + 1) c.skipBreak else (breaks, c)

/-- The indentation of a block that its first lines show: the widest of them. -/
def shownIndent (fuel widest breaks : Nat) (c : Cursor) : Nat × Nat × Cursor :=
  match fuel with
  | 0 => (widest, breaks, c)
  | fuel + 1 =>
    let c := c.skipBlanks (· == ' ')
    let widest := max widest c.column
    if isBreak c.char then shownIndent fuel widest (breaks + 1) c.skipBreak
    else (widest, breaks, c)

/-- The lines of a block. `blankLine` tells whether the line in front begins with a blank. -/
def blockLines (literal : Bool) (indent fuel : Nat) (blankLine : Bool) (d : Draft) (c : Cursor) :
    Draft × Cursor :=
  match fuel with
  | 0 => (d, c)
  | fuel + 1 =>
    if c.column ≠ indent ∨ c.rest.isEmpty ∨ (indent = 0 ∧ c.marked '.') then (d, c)
    else
      let blank := isBlank c.char
      let d := if !literal && d.broken && !blankLine && !blank then d.join true
        else { d with
          text := List.replicate (d.breaks + d.broken.toNat) '\n' ++ d.text
          broken := false
          breaks := 0 }
      let (line, c) := c.takeWhile (!ends ·)
      let d := d.pushAll line
      if c.rest.isEmpty then (d, c)
      else
        let (breaks, c) := behindIndent indent (c.left + 1) 0 c.skipBreak
        blockLines literal indent fuel blank { d with broken := true, breaks } c

/-- A block behind its first sign. Its lines stand behind a column. -/
def block? (literal : Bool) (indent : Int) (c : Cursor) : Option (List Char × Cursor) := do
  let first := c.line
  let (chomping, increment, c) ← blockHeader? c
  let c ← c.toLineEnd?
  if !ends c.char then none
  else
    let opened := isBreak c.char
    let c := c.skipBreak
    if c.char = '\t' then none
    else
      let steps := c.left + 1
      let (width, breaks, c) := if 0 < increment then
          let width := (max indent 0).toNat + increment
          (width, behindIndent width steps 0 c)
        else
          let (widest, breaks, c) := shownIndent steps 0 0 c
          let width := max widest (indent + 1).toNat
          (if 0 < indent then max width 1 else width, breaks, c)
      if c.rest.isEmpty then
        if chomping = .strip ∨ c.line = first then some ([], c)
        else if chomping = .keep ∧ 0 < breaks then some (List.replicate breaks '\n', c)
        else some (if opened then ['\n'] else [], c)
      else if c.column < width ∧ indent < c.column then none
      else
        let (d, c) := blockLines literal width steps false { breaks := breaks } c
        let rest := if chomping = .strip then [] else
          List.replicate (d.broken.toNat + (c.rest.isEmpty && max width 1 ≤ c.column).toNat) '\n'
        let kept := if chomping = .keep then List.replicate d.breaks '\n' else []
        some (d.toText ++ rest ++ kept, c)

end TableTalk.Yaml
