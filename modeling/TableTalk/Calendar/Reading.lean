import TableTalk.Calendar.Timestamp
import TableTalk.Decimal.Reading
import TableTalk.Text.Blank
/-!
# Reading timestamps

A `Pattern` is a list of items that are read one after the other: literal characters, any amount of
blanks, numbers, an optional fraction. Numbers skip the blanks in front of them and may have fewer
digits than their width; a year may be signed and then be of any length. `zoned?` reads the strict
form with an offset from universal time and converts to it. `Timestamp.read?` takes the first of the
strict form, the six patterns and the date alone that reads the whole text.
-/

namespace TableTalk

-- powers are those of the core library, whatever else is imported
attribute [local instance (high)] instPowNat

namespace Reading

open Decimal (spanDigits digitsValue)

inductive Item where
  | literal (c : Char)
  | blanks
  | year
  | month
  | day
  | hour
  | minute
  | second
  /-- A point and digits, or nothing. -/
  | fraction
deriving DecidableEq, Repr

abbrev Pattern := List Item

/-- The numbers read so far. -/
structure Fields where
  year : Int := 0
  month : Nat := 0
  day : Nat := 0
  hour : Nat := 0
  minute : Nat := 0
  second : Nat := 0
  nano : Nat := 0
deriving DecidableEq, Repr

def Fields.timestamp? (f : Fields) : Option Timestamp :=
  Timestamp.of? f.year f.month f.day f.hour f.minute f.second f.nano

/-- Between one and `width` digits. -/
def digits? (width : Nat) (cs : List Char) : Option (Nat × List Char) :=
  match (spanDigits cs).1.take width with
  | [] => none
  | ds => some (digitsValue ds, cs.drop ds.length)

/-- Exactly `width` digits. -/
def exactDigits? (width : Nat) (cs : List Char) : Option (Nat × List Char) :=
  let ds := (spanDigits cs).1.take width
  if ds.length = width then some (digitsValue ds, cs.drop width) else none

/-- All digits at the start, at least one. -/
def allDigits? (cs : List Char) : Option (Nat × List Char) :=
  match spanDigits cs with
  | ([], _) => none
  | (ds, rest) => some (digitsValue ds, rest)

/-- A year of up to four digits, or of any number of digits behind a sign. -/
def year? : List Char → Option (Int × List Char)
  | '-' :: cs => (allDigits? cs).map fun (n, rest) => (-(n : Int), rest)
  | '+' :: cs => (allDigits? cs).map fun (n, rest) => ((n : Int), rest)
  | cs => (digits? 4 cs).map fun (n, rest) => ((n : Int), rest)

/-- Digits behind a point as nanoseconds. Those after the ninth are dropped. -/
def nano? (cs : List Char) : Option (Nat × List Char) :=
  match spanDigits cs with
  | ([], _) => none
  | (ds, rest) =>
    let ds := ds.take 9
    some (digitsValue ds * 10 ^ (9 - ds.length), rest)

/-- Two digits behind any blanks, fewer allowed. -/
def two? (cs : List Char) : Option (Nat × List Char) := digits? 2 (Text.trimStart cs)

/-- Reads one item. -/
def item? (f : Fields) (cs : List Char) : Item → Option (Fields × List Char)
  | .literal c => (Text.behind? [c] cs).map fun rest => (f, rest)
  | .blanks => some (f, Text.trimStart cs)
  | .year => (year? (Text.trimStart cs)).map fun (n, rest) => ({ f with year := n }, rest)
  | .month => (two? cs).map fun (n, rest) => ({ f with month := n }, rest)
  | .day => (two? cs).map fun (n, rest) => ({ f with day := n }, rest)
  | .hour => (two? cs).map fun (n, rest) => ({ f with hour := n }, rest)
  | .minute => (two? cs).map fun (n, rest) => ({ f with minute := n }, rest)
  | .second => (two? cs).map fun (n, rest) => ({ f with second := n }, rest)
  | .fraction =>
    match cs with
    | '.' :: cs => (nano? cs).map fun (n, rest) => ({ f with nano := n }, rest)
    | cs => some (f, cs)

def items? (f : Fields) (cs : List Char) : Pattern → Option (Fields × List Char)
  | [] => some (f, cs)
  | i :: is => (item? f cs i).bind fun (f, cs) => items? f cs is

/-- Reads a whole text. -/
def pattern? (p : Pattern) (cs : List Char) : Option Timestamp :=
  match items? {} cs p with
  | some (f, []) => f.timestamp?
  | _ => none

def dateItems : Pattern := [.year, .literal '-', .month, .literal '-', .day]

def clockItems : Pattern := [.hour, .literal ':', .minute]

/-- The forms of a date with a time of day, in the order in which they are tried. -/
def patterns : List Pattern :=
  [ dateItems ++ [.literal 'T'] ++ clockItems ++ [.literal ':', .second, .fraction],
    dateItems ++ [.literal 'T'] ++ clockItems ++ [.literal ':', .second],
    dateItems ++ [.blanks] ++ clockItems ++ [.literal ':', .second, .fraction],
    dateItems ++ [.blanks] ++ clockItems ++ [.literal ':', .second],
    dateItems ++ [.literal 'T'] ++ clockItems,
    dateItems ++ [.blanks] ++ clockItems ]

/-- Minutes ahead of universal time: `Z`, or a sign, hours and minutes. -/
def offset? : List Char → Option Int
  | ['Z'] => some 0
  | ['z'] => some 0
  | c :: cs => do
    let sign : Int ← if c = '+' then some 1 else if c = '-' ∨ c = '\u2212' then some (-1) else none
    let (h, rest) ← exactDigits? 2 cs
    let rest ← Text.behind? [':'] rest
    let (m, rest) ← exactDigits? 2 rest
    if rest.isEmpty ∧ h < 24 ∧ m < 60 then some (sign * (h * 60 + m : Nat)) else none
  | [] => none

/-- A date and a time of full width with an offset, as universal time. -/
def zoned? (cs : List Char) : Option Timestamp := do
  let (year, cs) ← exactDigits? 4 cs
  let cs ← Text.behind? ['-'] cs
  let (month, cs) ← exactDigits? 2 cs
  let cs ← Text.behind? ['-'] cs
  let (day, cs) ← exactDigits? 2 cs
  let cs ← match cs with
    | c :: cs => if c = 'T' ∨ c = 't' ∨ c = ' ' then some cs else none
    | [] => none
  let (hour, cs) ← exactDigits? 2 cs
  let cs ← Text.behind? [':'] cs
  let (minute, cs) ← exactDigits? 2 cs
  let cs ← Text.behind? [':'] cs
  let (second, cs) ← exactDigits? 2 cs
  let (nano, cs) ← match cs with
    | '.' :: cs => nano? cs
    | cs => some (0, cs)
  let offset ← offset? cs
  let t ← Timestamp.of? year month day hour minute second nano
  t.minusMinutes? offset

/-- A date alone, as the start of the day. -/
def day? (cs : List Char) : Option Timestamp := pattern? dateItems cs

/-- The readers in the order in which they are tried. -/
def readers : List (List Char → Option Timestamp) :=
  zoned? :: patterns.map pattern? ++ [day?]

end Reading

/-- The timestamp that a text spells, blanks around it ignored. -/
def Timestamp.readChars? (cs : List Char) : Option Timestamp :=
  Reading.readers.findSome? fun read => read (Text.trimChars cs)

def Timestamp.read? (s : String) : Option Timestamp := readChars? s.toList

/-- Starts with four digits, two digits and two digits, joined by hyphens. -/
def startsAsDate : List Char → Bool
  | a :: b :: c :: d :: '-' :: e :: f :: '-' :: g :: h :: _ =>
    [a, b, c, d, e, f, g, h].all Char.isDigit
  | _ => false

/-- Starts as a full date and is a timestamp. -/
def looksDated (s : String) : Bool := startsAsDate s.toList && (Timestamp.read? s).isSome

end TableTalk
