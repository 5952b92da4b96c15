import TableTalk.Decimal.Text
/-!
# Figures with thousands set apart

A figure is rounded to a number of places and loses the zeros at the end of its fraction. The digits
in front of the point stand in groups of three with commas between them. A figure that rounds to
zero has no sign.
-/

namespace TableTalk.Thousands

/-- Commas between groups of three, counted from the end. -/
def commas : List Char → List Char
  | [] => []
  | c :: cs =>
    if cs ≠ [] ∧ cs.length % 3 = 0 then c :: ',' :: commas cs else c :: commas cs

/-- The zeros at the end are dropped. -/
def dropZeros (cs : List Char) : List Char := (cs.reverse.dropWhile (· == '0')).reverse

/-- Commas in front of the point and no zeros at the end behind it. -/
def laidOut (digits : List Char) : List Char :=
  let whole := commas (digits.takeWhile (· != '.'))
  match dropZeros ((digits.dropWhile (· != '.')).drop 1) with
  | [] => whole
  | fraction => whole ++ '.' :: fraction

def chars (places : Nat) (x : Float) : List Char :=
  let digits := Decimal.fixed places (.ofDouble x)
  let negative : Bool := decide (x < 0) && digits.any fun c => c.isDigit && c != '0'
  Decimal.signChars negative ++ laidOut digits

def text (places : Nat) (x : Float) : String := String.ofList (chars places x)

end TableTalk.Thousands
