import TableTalk.Decimal.Wide
/-!
# Numbers as text

The digits come from `shortest`, or from rounding to a number of places (`fixed`) or of significant
digits (`Scaled.significant`). What remains is layout: `positional` puts the point where it belongs,
`scientific` writes one digit in front of the point and an exponent.

* `plain` is the positional notation without a point for whole numbers: `100`, `0.0000001`.
* `marked` always shows a fraction or an exponent: `15.0`, `1e+16`.
* `general` rounds to fifteen significant digits: `0.1`, `1.0e+15`.
-/

namespace TableTalk.Decimal

def digitChars (n : Nat) : List Char := Nat.toDigits 10 n

def zeros (n : Nat) : List Char := List.replicate n '0'

/-- The digits before and behind the point of `digits · 10 ^ exponent`. -/
def split (digits : Nat) (exponent : Int) : List Char × List Char :=
  let ds := digitChars digits
  if 0 ≤ exponent then (ds ++ zeros exponent.toNat, [])
  else
    let places := (-exponent).toNat
    let ds := zeros (places + 1 - ds.length) ++ ds
    (ds.take (ds.length - places), ds.drop (ds.length - places))

/-- Positional notation; a whole number has no point. -/
def positional (d : Scaled) : List Char :=
  match split d.digits d.exponent with
  | (whole, []) => whole
  | (whole, fraction) => whole ++ '.' :: fraction

/-- Positional notation that shows a zero behind the point of a whole number. -/
def positionalMarked (d : Scaled) : List Char :=
  match split d.digits d.exponent with
  | (whole, []) => whole ++ ['.', '0']
  | (whole, fraction) => whole ++ '.' :: fraction

/-- The exponent that puts the point behind the first digit. -/
def Scaled.leading (d : Scaled) : Int := (digitChars d.digits).length + d.exponent - 1

def signChars (negative : Bool) : List Char := if negative then ['-'] else []

/-- `digits` with the point behind the first one, and no point behind a single digit. -/
def mantissaChars (digits : Nat) : List Char :=
  match digitChars digits with
  | [] => []
  | [c] => [c]
  | c :: cs => c :: '.' :: cs

/-- The number without exponent notation, in the fewest digits that read back. Of two decimals of
that length equally near it takes the one further from zero. -/
def plainChars : Binary → List Char
  | .nan => "NaN".toList
  | .infinite negative => signChars negative ++ "inf".toList
  | .finite negative m e => signChars negative ++ positional (shortest .double .away m e)

def plain (x : Float) : String := String.ofList (plainChars (.ofDouble x))

/-- Positional notation from `0.00001` below `10 ^ 16`. -/
def markedDecimal (d : Scaled) : List Char :=
  if d.digits = 0 then positionalMarked d
  else if -5 ≤ d.leading ∧ d.leading ≤ 15 then positionalMarked d
  else mantissaChars d.digits ++ 'e' :: (if d.leading < 0 then '-' else '+') ::
    digitChars d.leading.natAbs

/-- The fewest digits that read back. Of two decimals of that length equally near it takes the even
one. -/
def markedChars : Binary → List Char
  | .nan => "NaN".toList
  | .infinite negative => signChars negative ++ "inf".toList
  | .finite negative m e => signChars negative ++ markedDecimal (shortest .double .toEven m e)

def marked (x : Float) : String := String.ofList (markedChars (.ofDouble x))

/-- The number of units of `10 ^ -places` nearest to `m · 2 ^ e`. -/
def inUnits (tie : Tie) (places : Nat) (m : Nat) (e : Int) : Nat :=
  let (num, den) := ratio m e places
  roundDiv tie num den

/-- A magnitude with a given number of places behind the point, ties to the even neighbour. -/
def fixed (places : Nat) : Binary → List Char
  | .nan => "NaN".toList
  | .infinite _ => "inf".toList
  | .finite _ m e =>
    match split (inUnits .toEven places m e) (-places) with
    | (whole, []) => whole
    | (whole, fraction) => whole ++ '.' :: fraction

/-- Fifteen significant digits of the conversion of a store, positional from `0.0001` below `10 ^
15`, with a fraction always shown and an exponent of two digits at least. A zero has no sign. -/
def generalChars : Binary → List Char
  | .nan => "NaN".toList
  | .infinite negative => signChars negative ++ "Inf".toList
  | .finite negative m e =>
    let d := if m = 0 then ⟨0, 0⟩ else (Wide.decimal m e).significant 15
    if d.digits = 0 then positionalMarked d
    else if -4 ≤ d.leading ∧ d.leading < 15 then signChars negative ++ positionalMarked d
    else
      let head := match mantissaChars d.digits with
        | [c] => [c, '.', '0']
        | cs => cs
      let ex := digitChars d.leading.natAbs
      signChars negative ++ head ++ 'e' :: (if d.leading < 0 then '-' else '+') ::
        (zeros (2 - ex.length) ++ ex)

def general (x : Float) : String := String.ofList (generalChars (.ofDouble x))

/-- The fewest digits of a single-precision number that read back, without a point if whole. -/
def plainSingle (x : Float32) : String :=
  match Binary.ofSingle x with
  | .nan => "NaN"
  | .infinite negative => String.ofList (signChars negative ++ "inf".toList)
  | .finite negative m e =>
    String.ofList (signChars negative ++ positional (shortest .single .away m e))

end TableTalk.Decimal
