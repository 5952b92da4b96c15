import TableTalk.Proofs.Calendar.Rendering

/-!
# The order of dates as texts

Texts are in order by their characters from the first one on. A plus sign comes in front of a hyphen,
and that in front of all digits, so the years behind 9999 come first, then those before the year 0.
Within these, digits are compared from the first one on, whatever their number is, and so without
regard to the sign (`Date.SpelledBefore`). The order of texts is that of dates but for the order of
their years (`Date.render_lt_iff_spelled`), and years of four digits are in their order
(`Date.render_lt_iff`).
-/

namespace TableTalk

open Decimal

namespace Date

/-- Whether a day comes before another. -/
def Before (d e : Date) : Prop :=
  d.year < e.year ∨ d.year = e.year ∧ (d.month < e.month ∨ d.month = e.month ∧ d.day < e.day)

theorem append_lt_append_iff {s t : List Char} : ∀ {xs ys : List Char}, xs.length = ys.length →
    (xs ++ s < ys ++ t ↔ xs < ys ∨ xs = ys ∧ s < t)
  | [], [], _ => by simp
  | x :: xs, y :: ys, h => by
    simp only [List.cons_append, List.cons_lt_cons_iff, append_lt_append_iff (Nat.succ.inj h),
      List.cons.injEq, and_or_left, or_assoc, and_assoc]

theorem foldl_digits (cs : List Char) : ∀ a : Nat, cs.foldl
    (fun n c => 10 * n + (Char.toNat c - '0'.toNat)) a = a * 10 ^ cs.length + digitsValue cs := by
  induction cs with
  | nil => exact fun a => (Nat.mul_one a).symm
  | cons c cs ih =>
    intro a
    have hvalue : digitsValue (c :: cs) =
        (10 * 0 + (c.toNat - '0'.toNat)) * 10 ^ cs.length + digitsValue cs := ih _
    rw [List.foldl_cons, ih, hvalue, List.length_cons, Nat.pow_succ, Nat.mul_zero, Nat.zero_add,
      Nat.add_mul, Nat.mul_comm 10 a, Nat.mul_assoc, Nat.mul_comm 10, Nat.add_assoc]

theorem digitsValue_cons (c : Char) (cs : List Char) :
    digitsValue (c :: cs) = (c.toNat - '0'.toNat) * 10 ^ cs.length + digitsValue cs := by
  rw [digitsValue, List.foldl_cons, foldl_digits, Nat.mul_zero, Nat.zero_add]

theorem digitsValue_lt : ∀ {cs : List Char}, (∀ c ∈ cs, c.isDigit = true) →
    digitsValue cs < 10 ^ cs.length
  | [], _ => Nat.one_pos
  | c :: cs, h => by
    have ih := digitsValue_lt fun d hd => h d (List.mem_cons_of_mem c hd)
    have hc := (toNat_le_of_isDecimal (.inl (h c List.mem_cons_self))).2
    have hzero : '0'.toNat = 48 := rfl
    rw [digitsValue_cons, List.length_cons, Nat.pow_succ]
    calc (c.toNat - '0'.toNat) * 10 ^ cs.length + digitsValue cs
        < (c.toNat - '0'.toNat) * 10 ^ cs.length + 10 ^ cs.length := Nat.add_lt_add_left ih _
      _ = (c.toNat - '0'.toNat + 1) * 10 ^ cs.length := (Nat.succ_mul _ _).symm
      _ ≤ 10 * 10 ^ cs.length := Nat.mul_le_mul_right _ (by omega)
      _ = 10 ^ cs.length * 10 := Nat.mul_comm _ _

/-- Digits come in the order of their values. -/
theorem digit_lt_iff {x y : Char} (hx : x.isDigit = true) (hy : y.isDigit = true) :
    x < y ↔ x.toNat - '0'.toNat < y.toNat - '0'.toNat := by
  have hx := Char.isDigit_iff_toNat.1 hx
  have hy := Char.isDigit_iff_toNat.1 hy
  have htoNat : x < y ↔ x.toNat < y.toNat := Iff.rfl
  rw [htoNat]
  omega

theorem digit_eq_iff {x y : Char} (hx : x.isDigit = true) (hy : y.isDigit = true) :
    x = y ↔ x.toNat - '0'.toNat = y.toNat - '0'.toNat := by
  have hx := Char.isDigit_iff_toNat.1 hx
  have hy := Char.isDigit_iff_toNat.1 hy
  rw [← Char.toNat_inj]
  omega

section Places

variable {p m n a b : Nat} (ha : a < p) (hb : b < p)

include ha hb

/-- What stands in a higher place counts more than all behind it. -/
theorem place_lt_iff : m * p + a < n * p + b ↔ m < n ∨ m = n ∧ a < b := by
  have hstep : ∀ {m n : Nat}, m < n → m * p + p ≤ n * p :=
    fun hmn => (Nat.succ_mul _ _).symm.le.trans (Nat.mul_le_mul_right _ hmn)
  rcases lt_trichotomy m n with h | rfl | h
  · have := hstep h
    omega
  · omega
  · have := hstep h
    omega

theorem place_eq_iff : m * p + a = n * p + b ↔ m = n ∧ a = b := by
  have hlt := place_lt_iff (m := m) (n := n) ha hb
  have hgt := place_lt_iff (m := n) (n := m) hb ha
  omega

end Places

/-- Digits of one length come in the order of the numbers that they spell. -/
theorem digits_lt_iff : ∀ {xs ys : List Char}, xs.length = ys.length →
    (∀ c ∈ xs, c.isDigit = true) → (∀ c ∈ ys, c.isDigit = true) →
    (xs < ys ↔ digitsValue xs < digitsValue ys)
  | [], [], _, _, _ => by simp
  | x :: xs, y :: ys, h, hxs, hys => by
    have hlength : xs.length = ys.length := Nat.succ.inj h
    have hx := hxs x List.mem_cons_self
    have hy := hys y List.mem_cons_self
    have hxs := fun c hc => hxs c (List.mem_cons_of_mem x hc)
    have hys := fun c hc => hys c (List.mem_cons_of_mem y hc)
    rw [List.cons_lt_cons_iff, digits_lt_iff hlength hxs hys, digitsValue_cons, digitsValue_cons,
      hlength, place_lt_iff (hlength ▸ digitsValue_lt hxs) (digitsValue_lt hys),
      digit_lt_iff hx hy, digit_eq_iff hx hy]

theorem padded_lt_iff {w m n : Nat} {s t : List Char} (hw : 0 < w)
    (hm : m < 10 ^ w) (hn : n < 10 ^ w) :
    padded w m ++ s < padded w n ++ t ↔ m < n ∨ m = n ∧ s < t := by
  have hlength : (padded w m).length = (padded w n).length :=
    (length_padded hw hm).trans (length_padded hw hn).symm
  have heq : padded w m = padded w n ↔ m = n :=
    ⟨fun h => by rw [← digitsValue_padded w m, h, digitsValue_padded], fun h => h ▸ rfl⟩
  rw [append_lt_append_iff hlength, digits_lt_iff hlength isDigit_of_mem_padded
    isDigit_of_mem_padded, digitsValue_padded, digitsValue_padded, heq]

/-- Digits as a number with this many digits, filled up with zeros behind them. -/
def filled (k : Nat) (cs : List Char) : Nat := digitsValue cs * 10 ^ (k - cs.length)

theorem filled_cons {k : Nat} {c : Char} {cs : List Char} (hk : cs.length ≤ k) :
    filled (k + 1) (c :: cs) = (c.toNat - '0'.toNat) * 10 ^ k + filled k cs := by
  rw [filled, filled, digitsValue_cons, List.length_cons, Nat.add_sub_add_right, Nat.add_mul,
    Nat.mul_assoc, ← Nat.pow_add, Nat.add_sub_cancel' hk]

theorem filled_lt {k : Nat} {cs : List Char} (h : ∀ c ∈ cs, c.isDigit = true)
    (hk : cs.length ≤ k) : filled k cs < 10 ^ k := by
  have hlt := Nat.mul_lt_mul_of_pos_right (digitsValue_lt h) (k := 10 ^ (k - cs.length))
    (Nat.pow_pos (by decide))
  rwa [← Nat.pow_add, Nat.add_sub_cancel' hk] at hlt

/-- Digits in front of a hyphen come in the order of the numbers that they are filled up to, and
fewer digits of the same number come first. -/
theorem digits_hyphen_lt_iff {s t : List Char} : ∀ {k : Nat} {xs ys : List Char},
    (∀ c ∈ xs, c.isDigit = true) → (∀ c ∈ ys, c.isDigit = true) → xs.length ≤ k → ys.length ≤ k →
    (xs ++ '-' :: s < ys ++ '-' :: t ↔ filled k xs < filled k ys ∨
      filled k xs = filled k ys ∧ (xs.length < ys.length ∨ xs.length = ys.length ∧ s < t))
  | k, [], [], _, _, _, _ => by
    simp
  | k, [], y :: ys, _, hys, _, _ => by
    have hy := Char.isDigit_iff_toNat.1 (hys y List.mem_cons_self)
    have hlt : '-' < y := Nat.lt_of_lt_of_le (by decide) hy.1
    have hnil : filled k [] = 0 := Nat.zero_mul _
    rw [List.nil_append, List.cons_append, List.cons_lt_cons_iff, hnil, List.length_nil,
      List.length_cons]
    exact iff_of_true (.inl hlt) (by omega)
  | k, x :: xs, [], hxs, _, _, _ => by
    have hx := Char.isDigit_iff_toNat.1 (hxs x List.mem_cons_self)
    have hlt : '-' < x := Nat.lt_of_lt_of_le (by decide) hx.1
    have hnil : filled k [] = 0 := Nat.zero_mul _
    rw [List.nil_append, List.cons_append, List.cons_lt_cons_iff, hnil, List.length_nil,
      List.length_cons]
    refine iff_of_false (fun h => ?_) (by omega)
    rcases h with h | ⟨h, -⟩
    · exact absurd (hlt.trans h) (lt_irrefl _)
    · exact absurd hlt (h ▸ lt_irrefl _)
  | 0, x :: xs, y :: ys, _, _, hk, _ => absurd hk (Nat.not_succ_le_zero _)
  | k + 1, x :: xs, y :: ys, hxs, hys, hkx, hky => by
    have hx := hxs x List.mem_cons_self
    have hy := hys y List.mem_cons_self
    have hxs := fun c hc => hxs c (List.mem_cons_of_mem x hc)
    have hys := fun c hc => hys c (List.mem_cons_of_mem y hc)
    have hkx := Nat.le_of_succ_le_succ hkx
    have hky := Nat.le_of_succ_le_succ hky
    rw [List.cons_append, List.cons_append, List.cons_lt_cons_iff,
      digits_hyphen_lt_iff hxs hys hkx hky, filled_cons hkx, filled_cons hky,
      place_lt_iff (filled_lt hxs hkx) (filled_lt hys hky),
      place_eq_iff (filled_lt hxs hkx) (filled_lt hys hky), digit_lt_iff hx hy, digit_eq_iff hx hy,
      List.length_cons, List.length_cons, Nat.succ_lt_succ_iff, Nat.succ_inj]
    tauto

/-- The place of the sign of a year in the order of texts: a plus, a hyphen, and none. -/
def signRank (year : Int) : Nat := if 9999 < year then 0 else if year < 0 then 1 else 2

/-- The digits of a year behind its sign. -/
def yearDigits (year : Int) : List Char := padded 4 year.natAbs

/-- Whether a year comes before another as a text. No year has more than six digits. -/
def SpelledBefore (y z : Int) : Prop :=
  signRank y < signRank z ∨ signRank y = signRank z ∧
    (filled 6 (yearDigits y) < filled 6 (yearDigits z) ∨
      filled 6 (yearDigits y) = filled 6 (yearDigits z) ∧
        (yearDigits y).length < (yearDigits z).length)

instance (y z : Int) : Decidable (SpelledBefore y z) := by
  unfold SpelledBefore
  infer_instance

variable {y z : Int} {s t : List Char} {d e : Date}

theorem isDigit_of_mem_yearDigits : ∀ c ∈ yearDigits y, c.isDigit = true := isDigit_of_mem_padded

theorem digitsValue_yearDigits (y : Int) : digitsValue (yearDigits y) = y.natAbs :=
  digitsValue_padded 4 _

theorem length_yearDigits (hy : y.natAbs < 10 ^ 6) : (yearDigits y).length ≤ 6 := by
  have hle : (Nat.toDigits 10 y.natAbs).length ≤ 6 :=
    (Nat.length_toDigits_le_iff (by decide) (by decide)).2 hy
  rw [yearDigits, padded, List.length_append, List.length_replicate]
  omega

/-- The text of a year by its sign. -/
theorem yearChars_eq (year : Int) :
    (signRank year = 0 ∧ 9999 < year ∧ yearChars year = '+' :: yearDigits year) ∨
      (signRank year = 1 ∧ year < 0 ∧ yearChars year = '-' :: yearDigits year) ∨
        signRank year = 2 ∧ (0 ≤ year ∧ year ≤ 9999) ∧ yearChars year = yearDigits year := by
  unfold signRank yearChars yearDigits
  by_cases hlarge : 9999 < year
  · refine .inl ⟨if_pos hlarge, hlarge, ?_⟩
    rw [if_neg (by omega), if_neg (by omega)]
  · by_cases hneg : year < 0
    · refine .inr (.inl ⟨?_, hneg, ?_⟩)
      · rw [if_neg hlarge, if_pos hneg]
      · rw [if_neg (by omega), if_pos hneg]
    · refine .inr (.inr ⟨?_, by omega, ?_⟩)
      · rw [if_neg hlarge, if_neg hneg]
      · rw [if_pos (by omega)]
        congr 1
        omega

/-- A sign comes in front of all digits. -/
theorem sign_lt_digits {c : Char} (hc : c = '+' ∨ c = '-') (cs : List Char) (y : Int)
    (t : List Char) : c :: cs < yearDigits y ++ t ∧ ¬yearDigits y ++ t < c :: cs := by
  obtain ⟨e, he, hdigit⟩ := head_padded 4 y.natAbs t
  obtain ⟨tail, htail⟩ := List.head?_eq_some_iff.1 he
  have hdigit := Char.isDigit_iff_toNat.1 hdigit
  have hlt : c < e := by
    rcases hc with rfl | rfl <;> exact Nat.lt_of_lt_of_le (by decide) hdigit.1
  rw [yearDigits, htail, List.cons_lt_cons_iff, List.cons_lt_cons_iff]
  refine ⟨.inl hlt, ?_⟩
  rintro (h | ⟨rfl, -⟩)
  · exact absurd (hlt.trans h) (lt_irrefl _)
  · exact absurd hlt (lt_irrefl _)

/-- Texts of years are in order by their signs, and by their digits behind the same sign. -/
theorem yearChars_lt_iff : yearChars y ++ s < yearChars z ++ t ↔
    signRank y < signRank z ∨ signRank y = signRank z ∧ yearDigits y ++ s < yearDigits z ++ t := by
  have hplus : '+' < '-' := by decide
  have hne : '-' ≠ '+' := by decide
  rcases yearChars_eq y with ⟨hy, -, hys⟩ | ⟨hy, -, hys⟩ | ⟨hy, -, hys⟩ <;>
    rcases yearChars_eq z with ⟨hz, -, hzs⟩ | ⟨hz, -, hzs⟩ | ⟨hz, -, hzs⟩ <;>
    rw [hy, hz, hys, hzs]
  · simp
  · simp [List.cons_lt_cons_iff, hplus]
  · simpa using (sign_lt_digits (.inl rfl) _ z t).1
  · simp [List.cons_lt_cons_iff, hplus.not_gt, hne]
  · simp
  · simpa using (sign_lt_digits (.inr rfl) _ z t).1
  · simpa using (sign_lt_digits (.inl rfl) _ y s).2
  · simpa using (sign_lt_digits (.inr rfl) _ y s).2
  · simp

theorem eq_of_spelled (hrank : signRank y = signRank z)
    (hfilled : filled 6 (yearDigits y) = filled 6 (yearDigits z))
    (hlength : (yearDigits y).length = (yearDigits z).length) : y = z := by
  have habs : y.natAbs = z.natAbs := by
    rw [filled, filled, hlength, digitsValue_yearDigits, digitsValue_yearDigits] at hfilled
    exact Nat.eq_of_mul_eq_mul_right (Nat.pow_pos (by decide)) hfilled
  rcases yearChars_eq y with ⟨hy, hy', -⟩ | ⟨hy, hy', -⟩ | ⟨hy, hy', -⟩ <;>
    rcases yearChars_eq z with ⟨hz, hz', -⟩ | ⟨hz, hz', -⟩ | ⟨hz, hz', -⟩ <;> omega

theorem natAbs_year_lt (d : Date) : d.year.natAbs < 10 ^ 6 := by
  obtain ⟨hfirst, hlast, -⟩ := d.valid
  unfold firstYear at hfirst
  unfold lastYear at hlast
  omega

/-- The order of dates as texts. -/
theorem render_lt_iff_spelled : d.render < e.render ↔
    SpelledBefore d.year e.year ∨
      d.year = e.year ∧ (d.month < e.month ∨ d.month = e.month ∧ d.day < e.day) := by
  have hsmall : ∀ f : Date, f.month < 10 ^ 2 ∧ f.day < 10 ^ 2 := fun f => by
    obtain ⟨-, -, -, hmonth, -, hday⟩ := f.valid
    have hlast := daysInMonth_le f.year f.month
    omega
  have hchars : ∀ f : Date, f.chars = yearChars f.year ++
      '-' :: (padded 2 f.month ++ '-' :: (padded 2 f.day ++ [])) := fun f => by
    simp [chars]
  have hmonths : padded 2 d.month ++ '-' :: (padded 2 d.day ++ []) <
      padded 2 e.month ++ '-' :: (padded 2 e.day ++ []) ↔
        d.month < e.month ∨ d.month = e.month ∧ d.day < e.day := by
    rw [padded_lt_iff (by decide) (hsmall d).1 (hsmall e).1, List.cons_lt_cons_iff,
      padded_lt_iff (by decide) (hsmall d).2 (hsmall e).2]
    simp
  rw [render, render, String.lt_iff, String.toList_ofList, String.toList_ofList, hchars, hchars,
    yearChars_lt_iff, digits_hyphen_lt_iff isDigit_of_mem_yearDigits isDigit_of_mem_yearDigits
      (length_yearDigits d.natAbs_year_lt) (length_yearDigits e.natAbs_year_lt), hmonths,
    SpelledBefore]
  constructor
  · rintro (h | ⟨hrank, h | ⟨hfilled, h | ⟨hlength, h⟩⟩⟩)
    · exact .inl (.inl h)
    · exact .inl (.inr ⟨hrank, .inl h⟩)
    · exact .inl (.inr ⟨hrank, .inr ⟨hfilled, h⟩⟩)
    · exact .inr ⟨eq_of_spelled hrank hfilled hlength, h⟩
  · rintro ((h | ⟨hrank, h | ⟨hfilled, h⟩⟩) | ⟨hyear, h⟩)
    · exact .inl h
    · exact .inr ⟨hrank, .inl h⟩
    · exact .inr ⟨hrank, .inr ⟨hfilled, .inl h⟩⟩
    · rw [hyear]
      exact .inr ⟨rfl, .inr ⟨rfl, .inr ⟨rfl, h⟩⟩⟩

/-- Years of four digits are spelled in their order. -/
theorem spelledBefore_iff (hy : 0 ≤ y ∧ y ≤ 9999) (hz : 0 ≤ z ∧ z ≤ 9999) :
    SpelledBefore y z ↔ y < z := by
  have hrank : ∀ {x : Int}, 0 ≤ x ∧ x ≤ 9999 → signRank x = 2 := fun h => by
    rw [signRank, if_neg (by omega), if_neg (by omega)]
  have hlength : ∀ {x : Int}, 0 ≤ x ∧ x ≤ 9999 → (yearDigits x).length = 4 := fun h =>
    length_padded (by decide) (by omega)
  rw [SpelledBefore, hrank hy, hrank hz, filled, filled, hlength hy, hlength hz,
    digitsValue_yearDigits, digitsValue_yearDigits]
  omega

/-- Days of years with four digits come in the order of their texts. -/
theorem render_lt_iff (hd : 0 ≤ d.year ∧ d.year ≤ 9999) (he : 0 ≤ e.year ∧ e.year ≤ 9999) :
    d.render < e.render ↔ d.Before e := by
  rw [render_lt_iff_spelled, spelledBefore_iff hd he, Before]

end Date

end TableTalk
