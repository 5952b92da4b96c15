import TableTalk.Decimal.Text
import TableTalk.Decimal.Reading
import TableTalk.Json.Printer
import TableTalk.Text.Blank
/-!
# Stored cells

A cell of a stored table is nothing, a whole number of 64 bits, a double, a text or bytes. A string
of a document can have halves of surrogate pairs, which no text has (`Cell.loose`). Each column is
declared with a type, and `Declared.store` says in what form a cell is kept: a column of doubles
turns whole numbers and texts that spell a number into doubles, a column of booleans keeps whole
numbers, and a column of texts turns numbers into text. What does not convert is kept as it is.

Cells are ordered (`Cell.compare`): nothing, then numbers by value, then texts by code point, then
bytes.
-/

namespace TableTalk

-- powers are those of the core library, whatever else is imported
attribute [local instance (high)] instPowNat

inductive Cell where
  | null
  | int (n : Int)
  | real (x : Float)
  | text (s : String)
  /-- A text as code points, some of which are halves of surrogate pairs. -/
  | loose (codes : List Nat)
  | blob (bytes : List UInt8)
deriving DecidableEq, Repr

/-- The whole numbers of 64 bits. -/
def Cell.fits (n : Int) : Bool := decide (-(2 ^ (63 : Nat)) ≤ n) && decide (n < 2 ^ (63 : Nat))

inductive Declared where
  | double
  | boolean
  | varchar
  | integer
  /-- No type that could be named, but numbers are kept as such. -/
  | unnamed
deriving DecidableEq, Repr

namespace Declared

def name : Declared → String
  | double => "DOUBLE"
  | boolean => "BOOLEAN"
  | varchar => "VARCHAR"
  | integer => "INTEGER"
  | unnamed => ""

/-- The type that the first row's cell gives a column. -/
def ofCell : Option Json → Declared
  | some (.int _) => double
  | some (.double _) => double
  | some (.bool _) => boolean
  | _ => varchar

/-- Whether texts that spell a number are compared as numbers. -/
def numeric : Declared → Bool
  | varchar => false
  | _ => true

end Declared

namespace Cell

/-- A value of a row before it is stored. -/
def ofJson : Option Json → Cell
  | none => null
  | some .null => null
  | some (.bool b) => int (if b then 1 else 0)
  | some (.int n) => if fits n then int n else real (Float.ofInt n)
  | some (.double x) => real x
  | some (.str s) => text s
  | some (.arr items) => text (Json.arr items).compact
  | some (.obj members) => text (Json.obj members).compact

/-- Halves of surrogate pairs. -/
def halved (code : Nat) : Bool := 0xD800 ≤ code && code < 0xE000

/-- Code points as a text if they are characters. -/
def ofCodes (codes : List Nat) : Cell :=
  if codes.any halved then loose codes else text (String.ofList (codes.map Char.ofNat))

/-- Code points as a text in which each byte of a half of a pair is a replacement character. -/
def mended (codes : List Nat) : String :=
  String.ofList (codes.flatMap fun n =>
    if halved n then List.replicate 3 '\uFFFD' else [Char.ofNat n])

def toJson : Cell → Json
  | null => .null
  | int n => .int n
  | real x => .ofFloat x
  | text s => .str s
  | loose codes => .str (mended codes)
  | blob _ => .str "[BLOB]"

/-- The whole number that a double is, if it is one well inside 64 bits. -/
def whole? (x : Float) : Option Int :=
  match Decimal.Binary.ofDouble x with
  | .finite negative m e =>
    let shift := (-e).toNat
    if 0 ≤ e ∨ m % 2 ^ shift = 0 then
      let magnitude : Nat := m * 2 ^ e.toNat / 2 ^ shift
      if magnitude < 2 ^ (63 : Nat) then some (if negative then -(magnitude : Int) else magnitude)
      else none
    else none
  | _ => none

/-- A double as a whole number if it is one. -/
def integral (x : Float) : Cell :=
  match whole? x with
  | some n => int n
  | none => real x

/-- A double without the sign of a zero. -/
def unsignedZero (x : Float) : Float := if x == 0 then 0 else x

/-- The number that a whole text spells: a whole number if it has digits only, else a double. -/
def numeric? (s : String) : Option Cell :=
  (Decimal.numericText? s.toList).map fun (negative, n) =>
    let k : Int := if negative then -(n.digits : Int) else n.digits
    if n.plainDigits && fits k then int k
    else real (Decimal.signed negative (Decimal.Wide.read n))

/-- The number that digits spell: a whole number, or a double if there is a point or too much. -/
def literal (digits : String) : Cell := (numeric? digits).getD null

/-- A cell as a text. -/
def shown : Cell → String
  | null => ""
  | int n => toString n
  | real x => Decimal.general x
  | text s => s
  | loose codes => mended codes
  | blob _ => ""

/-- A number as a double. -/
def toReal : Cell → Cell
  | int n => real (Float.ofInt n)
  | real x => real (unsignedZero x)
  | c => c

/-- A double as a whole number where it is one. -/
def toWhole : Cell → Cell
  | real x => integral x
  | c => c

end Cell

/-- The form in which a column of this type keeps a cell. -/
def Declared.store : Declared → Cell → Cell
  | double, .text s => ((Cell.numeric? s).map Cell.toReal).getD (.text s)
  | double, c => c.toReal
  | varchar, .int n => .text (Cell.int n).shown
  | varchar, .real x => .text (Cell.real x).shown
  | varchar, c => c
  | _, .text s => ((Cell.numeric? s).map Cell.toWhole).getD (.text s)
  | _, c => c.toWhole

namespace Cell

/-- An extended number in exact arithmetic: below all numbers, `n · 2 ^ e`, or above all. -/
inductive Exact where
  | below
  | number (n : Int) (e : Int)
  | above
deriving Repr, DecidableEq

def Exact.ofReal (x : Float) : Exact :=
  match Decimal.Binary.ofDouble x with
  | .nan => .below
  | .infinite negative => if negative then .below else .above
  | .finite negative m e => .number (if negative then -(m : Int) else m) e

def Exact.compare : Exact → Exact → Ordering
  | below, below => .eq
  | below, _ => .lt
  | _, below => .gt
  | above, above => .eq
  | above, _ => .gt
  | _, above => .lt
  | number a e, number b f =>
    let least := min e f
    Ord.compare (a * 2 ^ (e - least).toNat) (b * 2 ^ (f - least).toNat)

/-- The place of a kind of cell in the order. -/
def rank : Cell → Nat
  | null => 0
  | int _ => 1
  | real _ => 1
  | text _ => 2
  | loose _ => 2
  | blob _ => 3

def exact : Cell → Exact
  | int n => .number n 0
  | real x => .ofReal x
  | _ => .below

def compareText (s t : String) : Ordering := if s < t then .lt else if s = t then .eq else .gt

def compareCodes (a b : List Nat) : Ordering := if a < b then .lt else if a = b then .eq else .gt

def compareBytes (a b : List UInt8) : Ordering :=
  if a < b then .lt else if a = b then .eq else .gt

/-- The code points of a text. -/
def codes : Cell → List Nat
  | text s => s.toList.map Char.toNat
  | loose codes => codes
  | _ => []

/-- The order of cells. -/
def compare (a b : Cell) : Ordering :=
  match a, b with
  | text s, text t => compareText s t
  | blob s, blob t => compareBytes s t
  | a, b =>
    if a.rank = 2 ∧ b.rank = 2 then compareCodes a.codes b.codes
    else if a.rank = b.rank then a.exact.compare b.exact
    else Ord.compare a.rank b.rank

/-- Two cells that are one key: nothing is the same as nothing. -/
def same (a b : Cell) : Bool := a.compare b == .eq

end Cell

end TableTalk
