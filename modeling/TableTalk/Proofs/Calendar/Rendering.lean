import Mathlib
import TableTalk.Proofs.Calendar.Agreement
import TableTalk.Proofs.Decimal.Spelling

/-!
# Dates as texts

A timestamp is read back from its text (`Timestamp.read?_render`), and a date alone as the start of
its day (`Timestamp.read?_date`), so no two days have one text (`Date.render_inj`).
-/

namespace TableTalk

open Decimal

theorem not_blank_of_isDigit {c : Char} (h : c.isDigit = true) : Text.blank c = false :=
  not_blank_of_isDecimal (.inl h)

theorem trimStart_of_head {cs : List Char} (h : ∀ c ∈ cs.head?, Text.blank c = false) :
    Text.trimStart cs = cs := by
  cases cs with
  | nil => rfl
  | cons c cs => exact List.dropWhile_cons_of_neg (by simp [h c rfl])

theorem daysInMonth_le (year : Int) (month : Nat) : daysInMonth year month ≤ 31 := by
  unfold daysInMonth
  split
  · split_ifs <;> decide
  all_goals decide

namespace Date

section Padded

variable {w n : Nat} {tail : List Char}

theorem isDigit_of_mem_padded : ∀ c ∈ padded w n, c.isDigit = true := by
  intro c hc
  rcases List.mem_append.1 hc with hc | hc
  · rw [List.eq_of_mem_replicate hc]
    decide
  · exact Nat.isDigit_of_mem_toDigits (by decide) (by decide) hc

theorem digitsValue_padded (w n : Nat) : digitsValue (padded w n) = n := by
  have hzeros : ∀ k, (List.replicate k '0').foldl
      (fun n c => 10 * n + (Char.toNat c - '0'.toNat)) 0 = 0 := fun k => by
    induction k with
    | zero => rfl
    | succ k ih => exact ih
  rw [digitsValue, padded, List.foldl_append, hzeros]
  exact digitsValue_toDigits n

theorem length_padded (hw : 0 < w) (hn : n < 10 ^ w) : (padded w n).length = w := by
  have hle : (Nat.toDigits 10 n).length ≤ w :=
    (Nat.length_toDigits_le_iff (by decide) hw).2 hn
  rw [padded, List.length_append, List.length_replicate]
  omega

theorem padded_ne_nil : padded w n ≠ [] :=
  List.append_ne_nil_of_right_ne_nil _ Nat.toDigits_ne_nil

theorem head_padded (w n : Nat) (tail : List Char) :
    ∃ c ∈ (padded w n ++ tail).head?, c.isDigit = true := by
  obtain ⟨c, cs, h⟩ := List.exists_cons_of_ne_nil (padded_ne_nil (w := w) (n := n))
  have hc : c ∈ padded w n := h ▸ List.mem_cons_self
  exact ⟨c, by rw [h]; rfl, isDigit_of_mem_padded c hc⟩

theorem trimStart_padded (w n : Nat) (tail : List Char) :
    Text.trimStart (padded w n ++ tail) = padded w n ++ tail := by
  refine trimStart_of_head fun c hc => ?_
  obtain ⟨d, hd, hdigit⟩ := head_padded w n tail
  rw [Option.mem_unique hc hd]
  exact not_blank_of_isDigit hdigit

end Padded

/-- A year starts with a digit or a sign. -/
theorem head_yearChars (year : Int) (tail : List Char) :
    ∃ c ∈ (yearChars year ++ tail).head?, Text.blank c = false := by
  unfold yearChars
  split_ifs
  · obtain ⟨c, hc, hdigit⟩ := head_padded 4 year.toNat tail
    exact ⟨c, hc, not_blank_of_isDigit hdigit⟩
  · exact ⟨'-', rfl, by decide⟩
  · exact ⟨'+', rfl, by decide⟩

theorem trimStart_yearChars (year : Int) (tail : List Char) :
    Text.trimStart (yearChars year ++ tail) = yearChars year ++ tail := by
  obtain ⟨c, hc, hblank⟩ := head_yearChars year tail
  exact trimStart_of_head fun d hd => Option.mem_unique hc hd ▸ hblank

theorem head_chars (d : Date) (tail : List Char) :
    ∃ c ∈ (d.chars ++ tail).head?, Text.blank c = false := by
  rw [chars, List.append_assoc, List.append_assoc]
  exact head_yearChars _ _

end Date

namespace Reading

open Date

variable {w n : Nat} {tail : List Char} (htail : ∀ c ∈ tail.head?, c.isDigit = false)

include htail

theorem spanDigits_padded : spanDigits (padded w n ++ tail) = (padded w n, tail) :=
  spanDigits_append isDigit_of_mem_padded htail

theorem digits?_padded (hw : 0 < w) (hn : n < 10 ^ w) :
    digits? w (padded w n ++ tail) = some (n, tail) := by
  have hlength := length_padded hw hn
  rw [digits?, spanDigits_padded htail, List.take_of_length_le hlength.le]
  split
  · rename_i h
    exact absurd h padded_ne_nil
  · rw [digitsValue_padded, List.drop_left]

theorem two?_padded (hn : n < 100) : two? (padded 2 n ++ tail) = some (n, tail) := by
  rw [two?, trimStart_padded]
  exact digits?_padded htail (by decide) hn

theorem year?_yearChars (year : Int) : year? (yearChars year ++ tail) = some (year, tail) := by
  have hall : ∀ n, allDigits? (padded 4 n ++ tail) = some (n, tail) := fun n => by
    rw [allDigits?, spanDigits_padded htail]
    split
    · rename_i h
      exact absurd (Prod.mk.inj h).1 padded_ne_nil
    · rename_i h
      rw [← (Prod.mk.inj h).1, ← (Prod.mk.inj h).2, digitsValue_padded]
  unfold yearChars
  split_ifs with hrange hneg
  · obtain ⟨c, hc, hdigit⟩ := head_padded 4 year.toNat tail
    have hdigits := digits?_padded (w := 4) (n := year.toNat) htail (by decide) (by omega)
    rcases hcs : padded 4 year.toNat ++ tail with - | ⟨d, cs⟩
    · rw [hcs] at hc
      cases hc
    · rw [hcs] at hc hdigits
      cases hc
      have hsign := ne_sign_of_isDecimal (.inl hdigit)
      have hyear : (year.toNat : Int) = year := Int.toNat_of_nonneg hrange.1
      rw [year?, hdigits, Option.map_some]
      · exact congrArg (fun n => some (n, tail)) hyear
      · exact fun cs h => hsign.1 (List.cons.inj h).1
      · exact fun cs h => hsign.2 (List.cons.inj h).1
  · have hyear : -(year.natAbs : Int) = year := by omega
    rw [List.cons_append, year?, hall, Option.map_some]
    exact congrArg (fun n => some (n, tail)) hyear
  · have hyear : (year.natAbs : Int) = year := by omega
    rw [List.cons_append, year?, hall, Option.map_some]
    exact congrArg (fun n => some (n, tail)) hyear

omit htail

theorem behind?_cons (c : Char) (cs : List Char) : Text.behind? [c] (c :: cs) = some cs :=
  Text.behind?_append [c] cs

theorem items?_date (d : Date) {tail : List Char} (htail : ∀ c ∈ tail.head?, c.isDigit = false) :
    items? {} (d.chars ++ tail) dateItems =
      some ({ year := d.year, month := d.month, day := d.day }, tail) := by
  obtain ⟨-, -, -, hmonth, -, hday⟩ := d.valid
  have hlast := daysInMonth_le d.year d.month
  have hhyphen : ∀ (cs : List Char), ∀ c ∈ ('-' :: cs).head?, c.isDigit = false := by
    rintro cs c ⟨⟩
    decide
  have hchars : d.chars ++ tail = yearChars d.year ++
      '-' :: (padded 2 d.month ++ '-' :: (padded 2 d.day ++ tail)) := by
    simp [Date.chars]
  simp only [hchars, dateItems, items?, item?, trimStart_yearChars, year?_yearChars (hhyphen _),
    Option.map_some, Option.bind_some, behind?_cons,
    two?_padded (hhyphen _) (show d.month < 100 by omega),
    two?_padded htail (show d.day < 100 by omega)]

/-- A date and a time without a fraction. -/
def Fields.ofTimestamp (t : Timestamp) : Fields :=
  ⟨t.date.year, t.date.month, t.date.day, t.hour, t.minute, t.second, 0⟩

theorem timestamp?_fields (t : Timestamp) :
    (Fields.ofTimestamp t).timestamp? = some t.withoutFraction := by
  have hdate : Date.of? t.date.year t.date.month t.date.day = some t.date := dif_pos t.date.valid
  have hclock : (t.hour : Nat) < 24 ∧ (t.minute : Nat) < 60 ∧ (t.second : Nat) < 61 ∧
      0 < 1000000000 := ⟨t.hour.isLt, t.minute.isLt, t.second.isLt, by decide⟩
  simp only [Fields.timestamp?, Fields.ofTimestamp, Timestamp.of?, hdate, Option.bind_eq_bind,
    Option.bind_some]
  exact dif_pos hclock

/-- The time of a timestamp behind a blank, and its fraction that is left out. -/
theorem items?_clock (t : Timestamp) (f : Fields) :
    items? f (' ' :: t.timeChars) ([.blanks] ++ clockItems ++ [.literal ':', .second, .fraction]) =
      some ({ f with hour := t.hour, minute := t.minute, second := t.second }, []) := by
  have hcolon : ∀ (cs : List Char), ∀ c ∈ (':' :: cs).head?, c.isDigit = false := by
    rintro cs c ⟨⟩
    decide
  have hblank : ∀ cs : List Char, Text.trimStart (' ' :: cs) = Text.trimStart cs := fun cs =>
    List.dropWhile_cons_of_pos (by decide)
  have hnil : ∀ c ∈ ([] : List Char).head?, c.isDigit = false := nofun
  have hsecond := two?_padded (n := t.second) hnil (by omega)
  rw [List.append_nil] at hsecond
  have hchars : t.timeChars = padded 2 t.hour ++ ':' :: (padded 2 t.minute ++ ':' ::
      padded 2 t.second) := by
    simp [Timestamp.timeChars]
  simp only [hchars, clockItems, List.cons_append, List.nil_append, items?, item?, hblank,
    trimStart_padded, two?_padded (hcolon _) (show (t.hour : Nat) < 100 by omega),
    two?_padded (hcolon _) (show (t.minute : Nat) < 100 by omega), hsecond, Option.map_some,
    Option.bind_some, behind?_cons]

end Reading

theorem Date.trimChars_padded (d : Date) (tail : List Char) (n : Nat)
    (h : ∃ cs, d.chars ++ tail = cs ++ padded 2 n) :
    Text.trimChars (d.chars ++ tail) = d.chars ++ tail := by
  obtain ⟨cs, hcs⟩ := h
  obtain ⟨c, hc⟩ := Option.isSome_iff_exists.1
    (List.getLast?_isSome.2 (padded_ne_nil (w := 2) (n := n)))
  have hdigit := isDigit_of_mem_padded c (List.mem_of_getLast? hc)
  have hlast : c ∈ (d.chars ++ tail).getLast? := by
    simp [hcs, List.getLast?_append, hc]
  have htrim := @trimChars_append [] (d.chars ++ tail) [] nofun nofun (head_chars d tail)
    ⟨c, hlast, not_blank_of_isDigit hdigit⟩
  rwa [List.append_nil, List.nil_append] at htrim

/-- A timestamp is read back from its text, but for the fraction. -/
theorem Timestamp.read?_render (t : Timestamp) : read? t.render = some t.withoutFraction := by
  have hblank : ∀ c ∈ (' ' :: t.timeChars).head?, c.isDigit = false := by
    rintro c ⟨⟩
    decide
  have htrim : Text.trimChars t.chars = t.chars := t.date.trimChars_padded _ t.second
    ⟨t.date.chars ++ ' ' :: (Date.padded 2 t.hour ++ ':' :: (Date.padded 2 t.minute ++ [':'])),
      by simp [timeChars]⟩
  have hread : Reading.pattern? (Reading.dateItems ++ [.blanks] ++ Reading.clockItems ++
      [.literal ':', .second, .fraction]) t.chars = some t.withoutFraction := by
    rw [Reading.pattern?, chars, List.append_assoc, List.append_assoc, Reading.items?_append,
      Reading.items?_date _ hblank, Option.bind_some, ← List.append_assoc]
    simp only [Reading.items?_clock]
    exact Reading.timestamp?_fields t
  rw [read?, render, String.toList_ofList, readChars?_eq_some_iff, htrim]
  exact ⟨_, by simp [Reading.readers, Reading.patterns], hread⟩

/-- A date alone is read back as the start of its day. -/
theorem Timestamp.read?_date (d : Date) : read? d.render = some (midnight d) := by
  have hitems := @Reading.items?_date d [] nofun
  have htrim := d.trimChars_padded [] d.day
    ⟨Date.yearChars d.year ++ '-' :: (Date.padded 2 d.month ++ ['-']), by simp [Date.chars]⟩
  rw [List.append_nil] at hitems htrim
  have hday : Reading.day? d.chars = some (midnight d) := by
    rw [Reading.day?, Reading.pattern?, hitems]
    exact Reading.timestamp?_fields (midnight d)
  rw [read?, Date.render, String.toList_ofList, readChars?_eq_some_iff, htrim]
  exact ⟨_, by simp [Reading.readers], hday⟩

namespace Date

theorem render_inj {d e : Date} (h : d.render = e.render) : d = e := by
  have hchars : d.chars = e.chars := String.ofList_injective h
  have hmidnight : (Timestamp.midnight d).render = (Timestamp.midnight e).render := by
    rw [Timestamp.render, Timestamp.render, Timestamp.chars, Timestamp.chars]
    exact congrArg (fun cs => String.ofList (cs ++ _)) hchars
  have hread := Timestamp.read?_render (Timestamp.midnight d)
  rw [hmidnight, Timestamp.read?_render] at hread
  exact congrArg Timestamp.date (Option.some.inj hread).symm

end Date

end TableTalk
