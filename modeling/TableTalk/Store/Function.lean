import TableTalk.Calendar.Reading
import TableTalk.Store.Cell
import TableTalk.Table.Profile
/-!
# Functions on cells

The functions that queries apply to cells. The casts give nothing where a cell is no number or no
timestamp. `dateTrunc` gives the first day of a bucket as text; it fails in one case only, a week
that starts in front of the calendar. `compensatedSum` adds doubles in order and carries the
rounding errors along. `like` matches a pattern in which a percent sign stands for any text and an
underscore for any character.
-/

namespace TableTalk.Cell

def tryCastDouble : Cell → Option Float
  | int n => some (Float.ofInt n)
  | real x => some x
  | text s => numberText? s
  | _ => none

def timestamp? : Cell → Option Timestamp
  | text s => Timestamp.read? s
  | _ => none

def tryCastTimestamp (c : Cell) : Option String := c.timestamp?.map Timestamp.render

/-- A double as a cell; what is no number is nothing. -/
def ofFloat (x : Float) : Cell := if x.isNaN then null else real x

def ofText? : Option String → Cell
  | some s => text s
  | none => null

def ofFloat? : Option Float → Cell
  | some x => ofFloat x
  | none => null

/-- A bucket that starts in front of the calendar. -/
inductive Truncation where
  | none
  | start (d : Date)
  | beforeCalendar

def truncation (grain c : Cell) : Truncation :=
  match grain with
  | text g =>
    match c.timestamp?, Grain.ofName? (Text.lowerAscii g) with
    | some t, some g =>
      match g.start? t.date with
      | some d => .start d
      | none => .beforeCalendar
    | _, _ => .none
  | _ => .none

/-- Letters in small form; numbers become text. -/
def lower : Cell → Cell
  | null => null
  | loose codes => loose (codes.map fun n => if 65 ≤ n ∧ n ≤ 90 then n + 32 else n)
  | c => text (Text.lowerAscii c.shown)

/-- The part of a text in front of the character that ends it. -/
def cut (cs : List Char) : List Char := cs.takeWhile (· != '\x00')

/-- How a pattern goes with a text. -/
inductive Fit where
  | whole
  /-- The pattern does not match the text, but could match an end of it. -/
  | off
  /-- The pattern matches no end of the text either. -/
  | spent
deriving DecidableEq, Repr

/-- Goes along a text with a pattern; letters match in both cases. A percent sign tries the ends of
the text one after the other, and once the text is spent behind it no sign in front needs to try
more: what follows would have to match an end of what did not match. -/
def fit (pattern text : List Char) : Fit :=
  match pattern, text with
  | [], [] => .whole
  | [], _ :: _ => .off
  | p :: ps, [] => if p = '%' ∧ fit ps [] = .whole then .whole else .spent
  | p :: ps, c :: cs =>
    if p = '%' then
      match fit ps (c :: cs) with
      | .off => fit (p :: ps) cs
      | f => f
    else if p = '_' ∨ p.toLower = c.toLower then fit ps cs
    else .off
termination_by pattern.length + text.length

/-- The bytes that a pattern may have. -/
def patternLimit : Nat := 50000

/-- Whether a cell matches a pattern, if both are there. -/
def like (c pattern : Cell) : Option Bool :=
  match c, pattern with
  | null, _ => none
  | _, null => none
  | c, p => some (fit (cut p.shown.toList) (cut c.shown.toList) = .whole)

/-- A sum of doubles and the rounding error of its additions. -/
structure Sum where
  total : Float
  error : Float

def Sum.add (s : Sum) (x : Float) : Sum :=
  let t := s.total + x
  if x.abs < s.total.abs then ⟨t, s.error + ((s.total - t) + x)⟩
  else ⟨t, s.error + ((x - t) + s.total)⟩

def Sum.value (s : Sum) : Float := if s.error.isNaN then s.total else s.total + s.error

def compensatedSum (xs : List Float) : Float := (xs.foldl Sum.add ⟨0, 0⟩).value

/-- The number that a text starts with, or zero. -/
def leading (s : String) : Cell :=
  let (negative, rest) := Decimal.takeSign (s.toList.dropWhile Decimal.asciiBlank)
  match Decimal.scan? rest with
  | some (n, _) =>
    let k : Int := if negative then -(n.digits : Int) else n.digits
    if n.plainDigits && fits k then int k
    else real (Decimal.signed negative (Decimal.Wide.read n))
  | none => int 0

/-- A cell as a number in arithmetic. -/
def operand : Cell → Option Cell
  | null => none
  | text s => some (leading s)
  | loose codes => some (leading (mended codes))
  | blob _ => some (int 0)
  | c => some c

def float : Cell → Float
  | int n => Float.ofInt n
  | real x => x
  | _ => 0

/-- A whole number, or a double beyond 64 bits. -/
def ofInt (n : Int) : Cell := if fits n then int n else real (Float.ofInt n)

def minus (a b : Cell) : Cell :=
  match a.operand, b.operand with
  | some (int m), some (int n) => ofInt (m - n)
  | some a, some b => ofFloat (a.float - b.float)
  | _, _ => null

def times (a b : Cell) : Cell :=
  match a.operand, b.operand with
  | some (int m), some (int n) => ofInt (m * n)
  | some a, some b => ofFloat (a.float * b.float)
  | _, _ => null

/-- The quotient; there is none by zero. -/
def divide (a b : Cell) : Cell :=
  match a.operand, b.operand with
  | some (int m), some (int n) => if n = 0 then null else ofInt (m.tdiv n)
  | some a, some b => if b.float == 0 then null else ofFloat (a.float / b.float)
  | _, _ => null

/-- A double rounded to some places, a half away from zero, and read again. Beyond `2 ^ 52` it has
none. A zero loses its sign. -/
def roundReal (x : Float) (places : Nat) : Float :=
  if x < -4503599627370496 || 4503599627370496 < x then x
  else if x == 0 then 0
  else match Decimal.Binary.ofDouble x with
    | .finite negative m e =>
      let units := (Decimal.Wide.decimal m e).units places
      let (whole, fraction) := Decimal.split units (-places)
      Decimal.signed negative (Decimal.Wide.read ⟨whole, some fraction, 0, false⟩)
    | _ => x

def round (c places : Cell) : Cell :=
  match c.operand, places.operand with
  | some c, some (int n) => ofFloat (roundReal c.float (min n.toNat 30))
  | some c, some p => ofFloat (roundReal c.float (min p.float.toUInt64.toNat 30))
  | _, _ => null

end TableTalk.Cell
