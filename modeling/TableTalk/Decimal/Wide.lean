import TableTalk.Decimal.Reading
import TableTalk.Decimal.Shortest
/-!
# Numbers of 64 binary digits

A store converts between doubles and decimals by multiplying with powers of ten. Every factor and
every product is a number of 64 binary digits, the nearest one, so a conversion of many digits can
miss the nearest double or decimal by a little. The steps are fixed: powers of a hundred first, then
of ten, then of one. `Wide.read` goes from a decimal to a double, and `Wide.decimal` from a double
to a whole number of 18 or 19 digits and a power of ten.
-/

namespace TableTalk.Decimal

-- powers are those of the core library, whatever else is imported
attribute [local instance (high)] instPowNat

/-- The number `significand · 2 ^ exponent`. -/
structure Wide where
  significand : Nat
  exponent : Int
deriving DecidableEq, Repr

namespace Wide

/-- The number of 64 binary digits nearest to `m · 2 ^ e`; a tie goes to the even one. -/
def round (m : Nat) (e : Int) : Wide :=
  let excess := m.log2 - 63
  ⟨roundDiv .toEven m (2 ^ excess), e + excess⟩

def times (a b : Wide) : Wide :=
  round (a.significand * b.significand) (a.exponent + b.exponent)

/-- The number nearest to `10 ^ k`. -/
def power (k : Nat) : Wide := round (10 ^ k) 0

/-- The number nearest to `10 ^ -k`, for a positive `k`. -/
def inverse (k : Nat) : Wide :=
  let shift : Nat := 64 + (10 ^ k).log2
  ⟨roundDiv .toEven (2 ^ shift) (10 ^ k), -shift⟩

/-- Multiplies by one factor some times. -/
def repeated (factor : Wide) : Nat → Wide → Wide
  | 0, w => w
  | n + 1, w => repeated factor n (w.times factor)

/-- Multiplies `n` times by a tenth or by ten, by their powers where they fit. -/
def scaled (factor : Nat → Wide) (n : Nat) (w : Wide) : Wide :=
  repeated (factor 1) (n % 10)
    (repeated (factor 10) (n % 100 / 10) (repeated (factor 100) (n / 100) w))

def compare (a b : Wide) : Ordering :=
  let least := min a.exponent b.exponent
  Ord.compare (a.significand * 2 ^ (a.exponent - least).toNat)
    (b.significand * 2 ^ (b.exponent - least).toNat)

/-- The largest double. -/
def largest : Wide := ⟨2 ^ (53 : Nat) - 1, 971⟩

/-- The nearest double. What exceeds the largest one is infinite. -/
def toDouble (w : Wide) : Float :=
  if w.significand.log2 + w.exponent < -1100 then 0
  else if w.compare largest == .gt then 1 / 0
  else if 0 ≤ w.exponent then nearest (w.significand * 2 ^ w.exponent.toNat) 0
  else nearest (w.significand * 5 ^ (-w.exponent).toNat) w.exponent

/-! Reading -/

/-- Digits are appended to a significand as long as it is below a tenth of `2 ^ 64`. The result is
the significand and the number of digits in it. -/
def collect (significand : Nat) : List Char → Nat × Nat
  | [] => (significand, 0)
  | c :: cs =>
    if significand < (2 ^ (64 : Nat) - 10) / 10 then
      let (s, n) := collect (10 * significand + (c.toNat - '0'.toNat)) cs
      (s, n + 1)
    else (significand, 0)

/-- Moves tens from an exponent into a significand while there is room. -/
def raised (significand : Nat) : Nat → Nat × Nat
  | 0 => (significand, 0)
  | e + 1 =>
    if significand < (2 ^ (64 : Nat) - 1) / 10 then raised (10 * significand) e
    else (significand, e + 1)

/-- Moves zeros at the end of a significand into the exponent of a fraction. -/
def lowered (significand : Nat) : Nat → Nat × Nat
  | 0 => (significand, 0)
  | e + 1 =>
    if significand % 10 = 0 then lowered (significand / 10) e else (significand, e + 1)

/-- The double of `significand · 10 ^ e`. -/
def ofScaled (significand : Nat) (e : Int) : Float :=
  if significand = 0 then 0
  else if 0 ≤ e then
    let (s, n) := raised significand e.toNat
    (scaled power n ⟨s, 0⟩).toDouble
  else
    let (s, n) := lowered significand (-e).toNat
    (scaled inverse n ⟨s, 0⟩).toDouble

/-- An exponent of more than five digits counts as ten thousand. -/
def bounded (e : Int) : Int :=
  if 99999 < e then 10000 else if e < -99999 then -10000 else e

/-- The double of a decimal. -/
def read (n : Numeral) : Float :=
  let (s, whole) := collect 0 n.whole
  let (s, behind) := collect s (n.fraction.getD [])
  ofScaled s (bounded n.exponent + (n.whole.length - whole : Nat) - behind)

/-! Writing -/

/-- Multiplies by a factor while a bound is on the wrong side, `fuel` times at most; each time
counts for a step in the exponent of the result. -/
def settled (outside : Wide → Bool) (factor : Wide) (step : Int) :
    Nat → Wide × Int → Wide × Int
  | 0, r => r
  | fuel + 1, (w, e) =>
    if outside w then settled outside factor step fuel (w.times factor, e + step) else (w, e)

def floor (w : Wide) : Nat :=
  w.significand * 2 ^ w.exponent.toNat / 2 ^ (-w.exponent).toNat

/-- A positive double as a whole number from `10 ^ 17` to `10 ^ 19`, the rest being cut off, and a
power of ten. -/
def decimal (m : Nat) (e : Int) : Scaled :=
  let above (k : Nat) (w : Wide) : Bool := w.compare (power k) != .lt
  let below (bound w : Wide) : Bool := w.compare bound == .lt
  let start : Wide × Int := (⟨m, e⟩, 0)
  let (w, shift) :=
    if above 19 start.1 then
      settled (above 19) (inverse 1) 1 12
        (settled (above 29) (inverse 10) 10 12 (settled (above 119) (inverse 100) 100 12 start))
    else
      settled (below (power 17)) (power 1) (-1) 12
        (settled (below (power 7)) (power 10) (-10) 12
          (settled (below (inverse 97)) (power 100) (-100) 12 start))
  ⟨w.floor, shift⟩

end Wide

/-- A decimal of 18 or 19 digits with fewer digits, a half away from zero. -/
def Scaled.significant (count : Nat) (d : Scaled) : Scaled :=
  let excess := (if d.digits < 10 ^ (18 : Nat) then 18 else 19) - count
  stripZeros (roundDiv .away d.digits (10 ^ excess)) (d.exponent + excess)

/-- A decimal in units of `10 ^ -places`, a half away from zero. -/
def Scaled.units (places : Nat) (d : Scaled) : Nat :=
  let excess := -d.exponent - places
  if 0 ≤ excess then roundDiv .away d.digits (10 ^ excess.toNat)
  else d.digits * 10 ^ (-excess).toNat

end TableTalk.Decimal
