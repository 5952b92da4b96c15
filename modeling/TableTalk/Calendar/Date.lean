/-!
# Calendar dates

Dates of the Gregorian calendar extended to all years from `Date.firstYear` to `Date.lastYear`. A
date is moved by one day at a time (`Date.next?`, `Date.previous?`), and `Date.dayNumber` counts
days from the start of year 1, a Monday, so that `Date.weekday` is a remainder modulo seven.
-/

namespace TableTalk

-- sums start at the zero of the core library, whatever else is imported
attribute [local instance (high)] Zero.ofOfNat0

def Date.firstYear : Int := -262143

def Date.lastYear : Int := 262142

def leapYear (year : Int) : Bool :=
  year % 4 == 0 && (year % 100 != 0 || year % 400 == 0)

def daysInMonth (year : Int) (month : Nat) : Nat :=
  match month with
  | 2 => if leapYear year then 29 else 28
  | 4 | 6 | 9 | 11 => 30
  | _ => 31

/-- Year, month and day that name a day of the calendar. -/
def Date.Valid (year : Int) (month day : Nat) : Prop :=
  firstYear ≤ year ∧ year ≤ lastYear ∧ 1 ≤ month ∧ month ≤ 12 ∧ 1 ≤ day ∧
    day ≤ daysInMonth year month

instance (year : Int) (month day : Nat) : Decidable (Date.Valid year month day) := by
  unfold Date.Valid; infer_instance

structure Date where
  year : Int
  month : Nat
  day : Nat
  valid : Date.Valid year month day
deriving DecidableEq, Repr

namespace Date

def of? (year : Int) (month day : Nat) : Option Date :=
  if h : Valid year month day then some ⟨year, month, day, h⟩ else none

/-- Days of the year in front of a month. -/
def daysBeforeMonth (year : Int) (month : Nat) : Nat :=
  ((List.range (month - 1)).map fun m => daysInMonth year (m + 1)).sum

/-- Days from the first of January of year 1, which has number 0. -/
def dayNumber (d : Date) : Int :=
  let y := d.year - 1
  365 * y + y / 4 - y / 100 + y / 400 + daysBeforeMonth d.year d.month + d.day - 1

/-- Days since Monday. -/
def weekday (d : Date) : Nat := (d.dayNumber % 7).toNat

def next? (d : Date) : Option Date :=
  if d.day < daysInMonth d.year d.month then of? d.year d.month (d.day + 1)
  else if d.month < 12 then of? d.year (d.month + 1) 1
  else of? (d.year + 1) 1 1

def previous? (d : Date) : Option Date :=
  if 1 < d.day then of? d.year d.month (d.day - 1)
  else if 1 < d.month then of? d.year (d.month - 1) (daysInMonth d.year (d.month - 1))
  else of? (d.year - 1) 12 31

/-- The date some days earlier, unless the calendar starts after it. -/
def back? (d : Date) : Nat → Option Date
  | 0 => some d
  | n + 1 => d.previous?.bind (back? · n)

/-- A number with zeros in front up to a number of digits. -/
def padded (width n : Nat) : List Char :=
  let ds := Nat.toDigits 10 n
  List.replicate (width - ds.length) '0' ++ ds

/-- Four digits, or a sign and at least four digits outside the years 0 to 9999. -/
def yearChars (year : Int) : List Char :=
  if 0 ≤ year ∧ year ≤ 9999 then padded 4 year.toNat
  else (if year < 0 then '-' else '+') :: padded 4 year.natAbs

def chars (d : Date) : List Char :=
  yearChars d.year ++ '-' :: padded 2 d.month ++ '-' :: padded 2 d.day

/-- The date as year, month and day with hyphens. -/
def render (d : Date) : String := String.ofList d.chars

end Date

/-- The length of the time buckets. -/
inductive Grain where
  | day
  | week
  | month
  | year
deriving DecidableEq, Repr

namespace Grain

def name : Grain → String
  | day => "day"
  | week => "week"
  | month => "month"
  | year => "year"

def ofName? (s : String) : Option Grain :=
  if s = "day" then some day
  else if s = "week" then some week
  else if s = "month" then some month
  else if s = "year" then some year
  else none

/-- The first day of the bucket of a date. Only a week can start in front of the calendar. -/
def start? (g : Grain) (d : Date) : Option Date :=
  match g with
  | day => some d
  | week => d.back? d.weekday
  | month => Date.of? d.year d.month 1
  | year => Date.of? d.year 1 1

end Grain

end TableTalk
