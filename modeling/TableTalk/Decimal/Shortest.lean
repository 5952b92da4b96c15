import TableTalk.Decimal.Binary
/-!
# The shortest decimal that reads back

Of all decimals that round to a given floating-point number, `shortest` takes one with the fewest
digits, and of those the nearest to the number; a parameter says which way a tie goes. The numbers
that round to `m · 2 ^ e` are those up to half a step away, the ends included exactly when `m` is
even; below a power of two the step is half as long. If a decimal grid has a point there, one of the
two grid points next to the number is such a point, so only these two are tried on each grid.
-/

namespace TableTalk.Decimal

-- powers are those of the core library, whatever else is imported
attribute [local instance (high)] instPowNat

/-- The number `digits · 10 ^ exponent`. -/
structure Scaled where
  digits : Nat
  exponent : Int
deriving Repr, DecidableEq

/-- Moves zeros at the end of the digits into the exponent. -/
def stripZeros (digits : Nat) (exponent : Int) : Scaled :=
  if _h : 0 < digits ∧ digits % 10 = 0 then stripZeros (digits / 10) (exponent + 1)
  else ⟨digits, exponent⟩
termination_by digits
decreasing_by omega

/-- Whether `c · 10 ^ s` rounds to `m · 2 ^ e`. -/
def roundsTo (format : Format) (m : Nat) (e : Int) (c : Nat) (s : Int) : Bool :=
  let narrow := m == 2 ^ (format.bits - 1) && e != format.least
  let low := if narrow then 4 * m - 1 else 4 * m - 2
  let above := match compareScaled c s low (e - 2) with
    | .gt => true
    | .eq => m % 2 == 0
    | .lt => false
  let below := match compareScaled c s (4 * m + 2) (e - 2) with
    | .lt => true
    | .eq => m % 2 == 0
    | .gt => false
  above && below

/-- The better of the two points next to the number on the grid of multiples of `10 ^ s`, if one of
them rounds to it. -/
def onGrid? (format : Format) (tie : Tie) (m : Nat) (e s : Int) : Option Nat :=
  let (num, den) := ratio m e (-s)
  let c := num / den
  match roundsTo format m e c s, roundsTo format m e (c + 1) s with
  | false, false => none
  | true, false => some c
  | false, true => some (c + 1)
  | true, true =>
    match compareScaled (2 * c + 1) s (2 * m) e with
    | .gt => some c
    | .lt => some (c + 1)
    | .eq => some (match tie with
      | .away => c + 1
      | .toEven => c + c % 2)

/-- The shortest decimal that reads back as `m · 2 ^ e`. Seventeen digits always suffice. -/
def shortest (format : Format) (tie : Tie) (m : Nat) (e : Int) : Scaled :=
  if m = 0 then ⟨0, 0⟩
  else
    let p := magnitude m e
    match (List.range 17).findSome? fun k =>
        let s := p - (k + 1 : Nat)
        (onGrid? format tie m e s).map fun c => stripZeros c s with
    | some d => d
    | none => ⟨m, e⟩

end TableTalk.Decimal
