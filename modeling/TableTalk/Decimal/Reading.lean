/-!
# Reading decimals

`scan?` takes an unsigned decimal off a text: digits with an optional point and an optional
exponent, at least one digit in all. `Numeral.value` is the double nearest to it. `readNumber?` adds
a sign and the names of the special numbers, and `numericText?` is the stricter reading that ignores
ASCII blanks around the decimal and knows no names.
-/

namespace TableTalk.Decimal

/-- The digits of a run and what follows it. -/
def spanDigits (cs : List Char) : List Char × List Char :=
  (cs.takeWhile Char.isDigit, cs.dropWhile Char.isDigit)

def digitsValue (cs : List Char) : Nat :=
  cs.foldl (fun n c => 10 * n + (c.toNat - '0'.toNat)) 0

/-- An unsigned decimal as written. -/
structure Numeral where
  whole : List Char
  /-- The digits behind the point, if there is a point. -/
  fraction : Option (List Char)
  exponent : Int
  /-- Whether there is an exponent. -/
  marked : Bool
deriving Repr, DecidableEq

def Numeral.digits (n : Numeral) : Nat := digitsValue (n.whole ++ n.fraction.getD [])

def Numeral.scale (n : Numeral) : Int := n.exponent - ((n.fraction.getD []).length : Nat)

/-- Whether the decimal is written with digits alone. -/
def Numeral.plainDigits (n : Numeral) : Bool := n.fraction.isNone && !n.marked

/-- The double nearest to `digits · 10 ^ scale`. -/
def nearest (digits : Nat) (scale : Int) : Float :=
  if 0 ≤ scale then Float.ofScientific digits false scale.toNat
  else Float.ofScientific digits true (-scale).toNat

def Numeral.value (n : Numeral) : Float := nearest n.digits n.scale

def signed (negative : Bool) (x : Float) : Float := if negative then -x else x

/-- A sign and what follows it. -/
def takeSign : List Char → Bool × List Char
  | '-' :: cs => (true, cs)
  | '+' :: cs => (false, cs)
  | cs => (false, cs)

/-- The exponent at the start of a text, if it has one in full: a letter, a sign that may be missing
and at least one digit. -/
def scanExponent? : List Char → Option (Int × List Char)
  | c :: cs =>
    if c == 'e' || c == 'E' then
      let (negative, cs) := takeSign cs
      match spanDigits cs with
      | ([], _) => none
      | (ds, rest) => some (if negative then -(digitsValue ds : Int) else digitsValue ds, rest)
    else none
  | [] => none

/-- An unsigned decimal at the start of a text and what follows it. -/
def scan? (cs : List Char) : Option (Numeral × List Char) :=
  let (whole, rest) := spanDigits cs
  let (fraction, rest) := match rest with
    | '.' :: rest =>
      let (ds, rest) := spanDigits rest
      (some ds, rest)
    | rest => (none, rest)
  if whole.isEmpty && (fraction.getD []).isEmpty then none
  else match scanExponent? rest with
    | some (e, rest) => some (⟨whole, fraction, e, true⟩, rest)
    | none => some (⟨whole, fraction, 0, false⟩, rest)

def special? (cs : List Char) : Option Float :=
  let name := String.ofList (cs.map Char.toLower)
  if name == "inf" || name == "infinity" then some (1 / 0)
  else if name == "nan" then some (0 / 0)
  else none

/-- A whole text as a number, with `inf`, `infinity` and `nan` in any case. -/
def readNumber? (cs : List Char) : Option Float :=
  let (negative, rest) := takeSign cs
  match special? rest with
  | some x => some (signed negative x)
  | none =>
    match scan? rest with
    | some (n, []) => some (signed negative n.value)
    | _ => none

/-- The blanks that may stand around a decimal in a stored text. -/
def asciiBlank (c : Char) : Bool := c == ' ' || (9 ≤ c.toNat && c.toNat ≤ 13)

/-- A sign and a decimal that make up a whole text but for ASCII blanks around it. -/
def numericText? (cs : List Char) : Option (Bool × Numeral) :=
  let (negative, rest) := takeSign (cs.dropWhile asciiBlank)
  match scan? rest with
  | some (n, rest) => if rest.all asciiBlank then some (negative, n) else none
  | none => none

end TableTalk.Decimal
