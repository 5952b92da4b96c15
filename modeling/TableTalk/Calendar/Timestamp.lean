import TableTalk.Calendar.Date
/-!
# Timestamps

A date with a time of day down to the nanosecond. A minute may have a sixty-first second, which
counts up to 60. `Timestamp.render` is the text a timestamp is stored as, without its fraction, and
`Timestamp.renderFull` shows the fraction in groups of three digits.
-/

namespace TableTalk

structure Timestamp where
  date : Date
  hour : Fin 24
  minute : Fin 60
  second : Fin 61
  nano : Fin 1000000000
deriving DecidableEq, Repr

namespace Timestamp

/-- The start of a day. -/
def midnight (d : Date) : Timestamp := ⟨d, 0, 0, 0, 0⟩

def of? (year : Int) (month day hour minute second nano : Nat) : Option Timestamp := do
  let d ← Date.of? year month day
  if h : hour < 24 ∧ minute < 60 ∧ second < 61 ∧ nano < 1000000000 then
    some ⟨d, ⟨hour, h.1⟩, ⟨minute, h.2.1⟩, ⟨second, h.2.2.1⟩, ⟨nano, h.2.2.2⟩⟩
  else none

def withoutFraction (t : Timestamp) : Timestamp := { t with nano := 0 }

/-- The same moment on a clock behind this one by some minutes, less than a day. -/
def minusMinutes? (t : Timestamp) (minutes : Int) : Option Timestamp :=
  let m : Int := t.hour.val * 60 + t.minute.val - minutes
  let date? := if m < 0 then t.date.previous? else if m < 1440 then some t.date else t.date.next?
  let m := (m % 1440).toNat
  date?.map fun d =>
    { t with
      date := d
      hour := ⟨m / 60 % 24, Nat.mod_lt _ (by decide)⟩
      minute := ⟨m % 60, Nat.mod_lt _ (by decide)⟩ }

def timeChars (t : Timestamp) : List Char :=
  Date.padded 2 t.hour ++ ':' :: Date.padded 2 t.minute ++ ':' :: Date.padded 2 t.second

def chars (t : Timestamp) : List Char := t.date.chars ++ ' ' :: t.timeChars

/-- Date, a space, and the time to the second. -/
def render (t : Timestamp) : String := String.ofList t.chars

/-- The fraction with three, six or nine digits, and nothing for zero. -/
def fractionChars (nano : Nat) : List Char :=
  if nano = 0 then []
  else if nano % 1000000 = 0 then '.' :: Date.padded 3 (nano / 1000000)
  else if nano % 1000 = 0 then '.' :: Date.padded 6 (nano / 1000)
  else '.' :: Date.padded 9 nano

def renderFull (t : Timestamp) : String :=
  String.ofList (t.date.chars ++ 'T' :: t.timeChars ++ fractionChars t.nano)

end Timestamp

end TableTalk
