import TableTalk.Decimal.Reading
import TableTalk.Json.Basic
/-!
# Numbers in JSON text

`Json.number?` takes a number off a text. Digits alone are an `int` as far as 64 bits reach. For any
other number the digits are collected into a significand as long as it fits in 64 bits, further ones
count for their position only, and the significand is scaled once by a power of ten. A number too
large for a double is refused.
-/

namespace TableTalk.Json

-- powers are those of the core library, whatever else is imported
attribute [local instance (high)] instPowNat

open Decimal

def digitValue (c : Char) : Nat := c.toNat - '0'.toNat

/-- Digits appended to a significand while it fits in 64 bits, and the digits left over. -/
def collect (significand : Nat) : List Char → Nat × List Char
  | [] => (significand, [])
  | c :: cs =>
    if 10 * significand + digitValue c < 2 ^ (64 : Nat) then
      collect (10 * significand + digitValue c) cs
    else (significand, c :: cs)

/-- Division by a power of ten, in steps of `10 ^ 308`. -/
def scaleDown (x : Float) (e : Nat) : Float :=
  if _h : e ≤ 308 then x / Float.ofScientific 1 false e
  else if x == 0 then x
  else scaleDown (x / Float.ofScientific 1 false 308) (e - 308)
termination_by e
decreasing_by omega

/-- `significand · 10 ^ e`, or nothing beyond the largest double. -/
def scaled? (significand : Nat) (e : Int) : Option Float :=
  let x := Float.ofNat significand
  if e < 0 then some (scaleDown x (-e).toNat)
  else if e ≤ 308 then
    let y := x * Float.ofScientific 1 false e.toNat
    if y.isInf then none else some y
  else if x == 0 then some x
  else none

/-- A number as written: its sign, the digits of its parts and its exponent. -/
structure Literal where
  negative : Bool
  whole : List Char
  fraction : Option (List Char)
  exponent : Option Int

/-- The exponent behind a number: nothing if there is no mark, `none` if the mark has no digits. -/
def exponentPart? : List Char → Option (Option Int × List Char)
  | c :: cs =>
    if c == 'e' || c == 'E' then
      match scanExponent? (c :: cs) with
      | some (e, rest) => some (some e, rest)
      | none => none
    else some (none, c :: cs)
  | [] => some (none, [])

def fractionPart? : List Char → Option (Option (List Char) × List Char)
  | '.' :: cs =>
    match spanDigits cs with
    | ([], _) => none
    | (ds, rest) => some (some ds, rest)
  | cs => some (none, cs)

/-- The parts of a number at the start of a text. A zero in front of further digits is refused. -/
def literal? (cs : List Char) : Option (Literal × List Char) :=
  let (negative, cs) := match cs with
    | '-' :: cs => (true, cs)
    | cs => (false, cs)
  match spanDigits cs with
  | ([], _) => none
  | ('0' :: _ :: _, _) => none
  | (whole, rest) => do
    let (fraction, rest) ← fractionPart? rest
    let (exponent, rest) ← exponentPart? rest
    some (⟨negative, whole, fraction, exponent⟩, rest)

def Literal.value? (l : Literal) : Option Json :=
  let (significand, left) := collect 0 l.whole
  match l.fraction, l.exponent, left, l.negative with
  | none, none, [], false => some (int significand)
  | none, none, [], true =>
    if significand = 0 ∨ 2 ^ (63 : Nat) < significand then some (double (-Float.ofNat significand))
    else some (int (-(significand : Int)))
  | fraction, exponent, left, negative =>
    let behind := fraction.getD []
    let (significand, unused) := collect significand behind
    let e := (left.length : Int) - (behind.length - unused.length : Nat) + exponent.getD 0
    (scaled? significand e).map fun x => double (signed negative x)

def number? (cs : List Char) : Option (Json × List Char) := do
  let (l, rest) ← literal? cs
  let v ← l.value?
  some (v, rest)

end TableTalk.Json
