/-!
# Places in a YAML text

A `Cursor` is a place in a text with its line and its column, and knows whether only blanks stand in
front of it on its line. The end of a text looks like U+0000, which stands nowhere in it. Blanks and
a comment, which has to keep away from what is in front of it, are taken by `toLineEnd?`.
-/

namespace TableTalk.Yaml

def isBreak (c : Char) : Bool := c == '\n' || c == '\r'

def isBlank (c : Char) : Bool := c == ' ' || c == '\t'

/-- A line break or the end of the text. -/
def ends (c : Char) : Bool := isBreak c || c == '\x00'

def gaps (c : Char) : Bool := isBlank c || ends c

/-- The signs of lists and tables in brackets and braces. -/
def isFlow (c : Char) : Bool := c == ',' || c == '[' || c == ']' || c == '\x7b' || c == '\x7d'

def isWord (c : Char) : Bool := c.isAlphanum || c == '_' || c == '-'

structure Cursor where
  rest : List Char
  /-- The number of characters that are left. -/
  left : Nat
  line : Nat := 0
  column : Nat := 0
  /-- Whether only blanks stand in front on the line. -/
  leading : Bool := true

namespace Cursor

/-- The start of a text. -/
def ofList (cs : List Char) : Cursor := { rest := cs, left := cs.length }

/-- The character here. -/
def char (c : Cursor) : Char := c.rest.headD '\x00'

/-- The character at a distance. -/
def ahead (c : Cursor) (n : Nat) : Char := (c.rest.drop n).headD '\x00'

/-- Goes on behind a blank. -/
def skipBlank (c : Cursor) : Cursor :=
  { c with rest := c.rest.drop 1, left := c.left - 1, column := c.column + 1 }

/-- Goes on behind a character that is no blank. -/
def skip (c : Cursor) : Cursor := { c.skipBlank with leading := false }

/-- Goes on behind a line break, if one stands here. -/
def skipBreak (c : Cursor) : Cursor :=
  let size := if c.char == '\r' && c.ahead 1 == '\n' then 2 else if isBreak c.char then 1 else 0
  if size = 0 then c
  else ⟨c.rest.drop size, c.left - size, c.line + 1, 0, true⟩

/-- Goes on while characters satisfy `p`, and gives them. -/
def takeWhile (p : Char → Bool) (c : Cursor) : List Char × Cursor :=
  let cs := c.rest.takeWhile p
  let behind : Cursor :=
    { c with rest := c.rest.drop cs.length, left := c.left - cs.length
             column := c.column + cs.length }
  (cs, if cs.isEmpty then c else { behind with leading := false })

/-- Goes on behind blanks of a kind. -/
def skipBlanks (p : Char → Bool) (c : Cursor) : Cursor :=
  { (c.takeWhile p).2 with leading := c.leading }

/-- Goes on to the end of the line. -/
def skipLine (c : Cursor) : Cursor := (c.takeWhile (!ends ·)).2

/-- Goes on behind blanks and a comment. -/
def toLineEnd? (c : Cursor) : Option Cursor :=
  let behind := c.skipBlanks isBlank
  if behind.char != '#' then some behind
  else if behind.left = c.left then none
  else some behind.skipLine

/-- Whether a line with a mark of three signs begins here. -/
def marked (sign : Char) (c : Cursor) : Bool :=
  c.column == 0 && c.char == sign && c.ahead 1 == sign && c.ahead 2 == sign && gaps (c.ahead 3)

/-- Whether a document begins or ends here. -/
def atDocument (c : Cursor) : Bool := c.marked '-' || c.marked '.'

end Cursor

end TableTalk.Yaml
