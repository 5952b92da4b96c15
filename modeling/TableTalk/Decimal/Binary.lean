/-!
# What a floating-point number is

`Binary` is the value of a floating-point number in exact arithmetic: a sign, a natural significand
and a power of two, or one of the two infinities, or nothing. `Binary.ofDouble` reads it off a
double and `Binary.ofSingle` off a single-precision number. `roundDiv` is the one rounding rule of
the project: a quotient of natural numbers to the nearest natural number, with the direction of a
tie as a parameter.
-/

namespace TableTalk.Decimal

-- powers are those of the core library, whatever else is imported
attribute [local instance (high)] instPowNat

inductive Binary where
  | nan
  | infinite (negative : Bool)
  /-- The number `significand · 2 ^ exponent`, with a sign. -/
  | finite (negative : Bool) (significand : Nat) (exponent : Int)
deriving Repr, DecidableEq

/-- The widths that decide which neighbours a number of the format has. -/
structure Format where
  /-- Bits of a significand in full. -/
  bits : Nat
  /-- The exponent of the smallest numbers. -/
  least : Int

def Format.double : Format := ⟨53, -1074⟩

def Format.single : Format := ⟨24, -149⟩

namespace Binary

def ofUnpacked : Float.Model.UnpackedFloat → Binary
  | .notANumber => .nan
  | .infinity s => .infinite (s == .negative)
  | .zero s => .finite (s == .negative) 0 0
  | .finite s m e _ => .finite (s == .negative) m e

def ofDouble (x : Float) : Binary := ofUnpacked x.toModel.unpack

def ofSingle (x : Float32) : Binary := ofUnpacked x.toModel.unpack

end Binary

/-- Which way a quotient goes that is halfway between two natural numbers. -/
inductive Tie where
  | toEven
  | away
deriving Repr, DecidableEq

/-- The natural number nearest to `num / den`. -/
def roundDiv (tie : Tie) (num den : Nat) : Nat :=
  let low := num / den
  let rest := num % den
  if 2 * rest < den then low
  else if den < 2 * rest then low + 1
  else match tie with
    | .away => low + 1
    | .toEven => low + low % 2

/-- Numerator and denominator of `significand · 2 ^ exponent · 10 ^ shift`. -/
def ratio (significand : Nat) (exponent shift : Int) : Nat × Nat :=
  (significand * 2 ^ exponent.toNat * 10 ^ shift.toNat,
   2 ^ (-exponent).toNat * 10 ^ (-shift).toNat)

/-- How `a · 10 ^ s` compares with `b · 2 ^ t`. -/
def compareScaled (a : Nat) (s : Int) (b : Nat) (t : Int) : Ordering :=
  let (num, den) := ratio b t (-s)
  compare (a * den) num

/-- The least `p` with `significand · 2 ^ exponent < 10 ^ p`, for a positive significand: the number
of digits in front of the point, or minus the number of zeros behind it. -/
def magnitude (significand : Nat) (exponent : Int) : Int :=
  let binary : Int := significand.log2 + exponent
  let guess := binary * 30103 / 100000
  if compareScaled 1 (guess - 1) significand exponent == .gt then guess - 1
  else if compareScaled 1 guess significand exponent == .gt then guess
  else if compareScaled 1 (guess + 1) significand exponent == .gt then guess + 1
  else guess + 2

end TableTalk.Decimal
