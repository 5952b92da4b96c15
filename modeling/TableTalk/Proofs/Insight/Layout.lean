import Mathlib.Data.List.DropRight
import TableTalk.Insight.Overview
import TableTalk.Proofs.Decimal.Places

/-!
# Figures as they are laid out

A finite figure is written in groups of three digits behind a first one that may be shorter, with a
fraction that does not end in a zero (`Layout.Proper`). Without its commas it spells the figure
rounded to the places asked for, and a sign stands in front of it exactly if that is below zero. An
infinite figure is written without its sign (`Thousands.text_spells`).
-/

namespace TableTalk.Thousands

open Decimal

/-- The parts of a figure as it is written. -/
structure Layout where
  negative : Bool
  first : List Char
  /-- The groups behind the first one. -/
  groups : List (List Char)
  fraction : Option (List Char)

namespace Layout

def whole (l : Layout) : List Char := l.first ++ l.groups.flatten

def chars (l : Layout) : List Char :=
  signChars l.negative ++ (l.first ++ l.groups.flatMap (',' :: ·)) ++ pointChars l.fraction

structure Proper (l : Layout) : Prop where
  first : 1 ≤ l.first.length ∧ l.first.length ≤ 3
  groups : ∀ g ∈ l.groups, g.length = 3
  digits : ∀ c ∈ l.whole ++ l.fraction.getD [], c.isDigit = true
  fraction : ∀ ds ∈ l.fraction, ∃ d ∈ ds.getLast?, d ≠ '0'

end Layout

/-- A text without the commas in it. -/
def withoutCommas (cs : List Char) : List Char := cs.filter (· ≠ ',')

theorem withoutCommas_append (cs ds : List Char) :
    withoutCommas (cs ++ ds) = withoutCommas cs ++ withoutCommas ds :=
  List.filter_append _ _

theorem withoutCommas_of_digits {cs : List Char} (h : ∀ c ∈ cs, c.isDigit = true) :
    withoutCommas cs = cs := by
  refine List.filter_eq_self.2 fun c hc => ?_
  have hdigit := h c hc
  rw [decide_eq_true_eq]
  rintro rfl
  cases hdigit

/-- Commas stand in front of each group of three but the first. -/
theorem exists_groups : ∀ {cs : List Char}, cs ≠ [] → ∃ (first : List Char)
    (groups : List (List Char)), commas cs = first ++ groups.flatMap (',' :: ·) ∧
      cs = first ++ groups.flatten ∧ 1 ≤ first.length ∧ first.length ≤ 3 ∧
      ∀ g ∈ groups, g.length = 3
  | [c], _ => ⟨[c], [], rfl, rfl, by simp, by simp, nofun⟩
  | c :: d :: cs, _ => by
    obtain ⟨first, groups, hcommas, hcs, hpos, hle, hgroups⟩ :=
      exists_groups (List.cons_ne_nil d cs)
    have hlength : (d :: cs).length = first.length + 3 * groups.length := by
      have hflat : groups.flatten.length = 3 * groups.length := by
        rw [List.length_flatten, List.map_eq_replicate_iff.2 hgroups, List.sum_replicate,
          smul_eq_mul, mul_comm]
      rw [hcs, List.length_append, hflat]
    rw [commas, hcommas]
    split_ifs with hcut
    · refine ⟨[c], first :: groups, by simp, by simp [hcs], by simp, by simp, ?_⟩
      exact List.forall_mem_cons.2 ⟨by omega, hgroups⟩
    · have hshort : first.length ≠ 3 := fun h => hcut ⟨List.cons_ne_nil d cs, by omega⟩
      refine ⟨c :: first, groups, rfl, by simp [hcs], by simp, ?_, hgroups⟩
      rw [List.length_cons]
      omega

theorem withoutCommas_groups {groups : List (List Char)}
    (h : ∀ c ∈ groups.flatten, c.isDigit = true) :
    withoutCommas (groups.flatMap (',' :: ·)) = groups.flatten := by
  induction groups with
  | nil => rfl
  | cons g groups ih =>
    rw [List.flatten_cons] at h
    obtain ⟨hg, hgroups⟩ := List.forall_mem_append.1 h
    have hhead : withoutCommas (',' :: g) = g :=
      (List.filter_cons_of_neg (by decide)).trans (withoutCommas_of_digits hg)
    rw [List.flatMap_cons, withoutCommas_append, hhead, ih hgroups, List.flatten_cons]

/-- What is left of a fraction without the zeros at its end. -/
theorem exists_dropZeros (cs : List Char) : ∃ j, cs = dropZeros cs ++ zeros j ∧
    (dropZeros cs ≠ [] → ∃ d ∈ (dropZeros cs).getLast?, d ≠ '0') := by
  have hback : ∀ c ∈ cs.rtakeWhile (· == '0'), c = '0' := fun c hc => by
    simpa using List.mem_rtakeWhile_imp hc
  refine ⟨(cs.rtakeWhile (· == '0')).length, ?_, fun hne => ?_⟩
  · rw [zeros, ← List.eq_replicate_of_mem hback]
    exact List.rdropWhile_append_rtakeWhile.symm
  · have hlast := List.rdropWhile_last_not (· == '0') cs hne
    rw [beq_iff_eq] at hlast
    exact ⟨_, List.getLast?_eq_some_getLast hne, hlast⟩

/-- What a fraction is shown as. -/
def shownFraction (cs : List Char) : Option (List Char) :=
  if dropZeros cs = [] then none else some (dropZeros cs)

/-- Digits with a point are cut at the point. -/
theorem laidOut_append {whole : List Char} (fraction : Option (List Char))
    (h : ∀ c ∈ whole, c.isDigit = true) : laidOut (whole ++ pointChars fraction) =
      commas whole ++ pointChars (shownFraction (fraction.getD [])) := by
  have hwhole : ∀ c ∈ whole, (c != '.') = true := fun c hc => by
    have hdigit := h c hc
    rw [bne_iff_ne]
    rintro rfl
    cases hdigit
  have htake : (whole ++ pointChars fraction).takeWhile (· != '.') = whole := by
    rw [List.takeWhile_append_of_pos hwhole]
    cases fraction <;> simp [pointChars]
  have hdrop : ((whole ++ pointChars fraction).dropWhile (· != '.')).drop 1 = fraction.getD [] := by
    rw [List.dropWhile_append_of_pos hwhole]
    cases fraction <;> simp [pointChars]
  rw [laidOut, htake, hdrop, shownFraction]
  rcases dropZeros (fraction.getD []) with - | ⟨c, cs⟩ <;> simp [pointChars]

theorem getD_shownFraction (cs : List Char) : (shownFraction cs).getD [] = dropZeros cs := by
  rw [shownFraction]
  split_ifs with h
  · exact h.symm
  · rfl

/-- Zeros behind the last digit of a fraction add nothing to what it spells. -/
theorem exact_shownFraction (whole fraction : List Char) :
    (Numeral.mk whole (shownFraction fraction) 0 false).exact =
      digitsValue (whole ++ fraction) / 10 ^ fraction.length := by
  obtain ⟨j, hj, -⟩ := exists_dropZeros fraction
  have hvalue : digitsValue (whole ++ fraction) =
      digitsValue (whole ++ dropZeros fraction) * 10 ^ j := by
    conv_lhs => rw [hj, ← List.append_assoc]
    exact digitsValue_append_zeros _ j
  have hlength : fraction.length = (dropZeros fraction).length + j := by
    conv_lhs => rw [hj]
    simp [zeros]
  simp only [Numeral.exact, Numeral.digits, Numeral.scale, getD_shownFraction, hvalue, hlength,
    zero_sub, zpow_neg, zpow_natCast, pow_add]
  push_cast
  field_simp

/-- Digits are laid out in groups. -/
theorem exists_layout (negative : Bool) {whole : List Char} {fraction : Option (List Char)}
    (hne : whole ≠ []) (hdigits : ∀ c ∈ whole ++ fraction.getD [], c.isDigit = true) :
    ∃ l : Layout, l.negative = negative ∧ l.whole = whole ∧
      l.fraction = shownFraction (fraction.getD []) ∧ l.Proper ∧
      signChars negative ++ laidOut (whole ++ pointChars fraction) = l.chars := by
  obtain ⟨first, groups, hcommas, hwhole, hpos, hle, hgroups⟩ := exists_groups hne
  obtain ⟨j, hj, hlast⟩ := exists_dropZeros (fraction.getD [])
  obtain ⟨hbefore, hbehind⟩ := List.forall_mem_append.1 hdigits
  refine ⟨⟨negative, first, groups, shownFraction (fraction.getD [])⟩, rfl, hwhole.symm, rfl,
    ⟨⟨hpos, hle⟩, hgroups, ?_, fun ds hds => ?_⟩, ?_⟩
  · rw [Layout.whole, ← hwhole, getD_shownFraction]
    exact List.forall_mem_append.2 ⟨hbefore, fun c hc => hbehind c (hj ▸ List.mem_append_left _ hc)⟩
  · have hds : shownFraction (fraction.getD []) = some ds := hds
    rw [shownFraction] at hds
    split_ifs at hds with hnil
    cases hds
    exact hlast hnil
  · rw [laidOut_append fraction hbefore, hcommas, Layout.chars, List.append_assoc,
      List.append_assoc, List.append_assoc]

namespace Layout.Proper

variable {l : Layout}

theorem whole_ne_nil (h : l.Proper) : l.whole ≠ [] := by
  intro hnil
  have hlength := h.first.1
  rw [(List.append_eq_nil_iff.1 hnil).1] at hlength
  cases hlength

/-- Without its commas a figure is its digits with a sign and a point. -/
theorem withoutCommas_chars (h : l.Proper) : withoutCommas l.chars =
    signChars l.negative ++ (l.whole ++ pointChars l.fraction) := by
  obtain ⟨hwhole, hfraction⟩ := List.forall_mem_append.1 h.digits
  obtain ⟨hfirst, hgroups⟩ := List.forall_mem_append.1 hwhole
  have hsign : withoutCommas (signChars l.negative) = signChars l.negative := by
    cases l.negative <;> rfl
  have hpoint : withoutCommas (pointChars l.fraction) = pointChars l.fraction := by
    rcases hf : l.fraction with - | ds
    · rfl
    · rw [hf] at hfraction
      exact (List.filter_cons_of_pos (by decide)).trans
        (congrArg _ (withoutCommas_of_digits hfraction))
  rw [chars, withoutCommas_append, withoutCommas_append, withoutCommas_append, hsign,
    withoutCommas_of_digits hfirst, withoutCommas_groups hgroups, hpoint, whole, List.append_assoc]

/-- What a figure spells without its commas. -/
theorem spelled?_chars (h : l.Proper) : spelled? (withoutCommas l.chars) =
    some (withSign l.negative (Numeral.mk l.whole l.fraction 0 false).exact) := by
  obtain ⟨hwhole, hfraction⟩ := List.forall_mem_append.1 h.digits
  have hdigits : Digits l.whole l.fraction [] := by
    refine ⟨hwhole, fun ds hds => ?_, nofun, nofun⟩
    rw [hds] at hfraction
    exact hfraction
  have hscan := scan?_append hdigits
  rw [if_neg (by simp [h.whole_ne_nil]), List.append_nil] at hscan
  have hhead : ∃ c ∈ (l.whole ++ pointChars l.fraction).head?, IsDecimal c := by
    refine ⟨l.whole.head h.whole_ne_nil, ?_, .inl (hwhole _ (List.head_mem _))⟩
    rw [List.head?_append, List.head?_eq_some_head h.whole_ne_nil]
    rfl
  rw [h.withoutCommas_chars, spelled?, numericText?_of_scan l.negative hhead hscan]
  rfl

end Layout.Proper

/-- The digits of a finite figure with a point in front of its places, if it has any. -/
theorem exists_fixed (places m : Nat) (negative : Bool) (e : Int) : ∃ whole fraction,
    fixed places (.finite negative m e) = whole ++ pointChars fraction ∧ whole ≠ [] ∧
      (fraction.getD []).length = places ∧
      (∀ c ∈ whole ++ fraction.getD [], c.isDigit = true) ∧
      digitsValue (whole ++ fraction.getD []) = inUnits .toEven places m e := by
  obtain ⟨whole, fraction, hsplit, hne, hlength, hdigits, hvalue⟩ :=
    exists_split (inUnits .toEven places m e) places
  rw [fixed, hsplit]
  rcases fraction with - | ⟨c, cs⟩
  · exact ⟨whole, none, (List.append_nil _).symm, hne, hlength, hdigits, hvalue⟩
  · exact ⟨whole, some (c :: cs), rfl, hne, hlength, hdigits, hvalue⟩

/-- A figure has a sign if it is below zero after rounding. -/
theorem any_digit_iff {whole : List Char} {fraction : Option (List Char)}
    (h : ∀ c ∈ whole ++ fraction.getD [], c.isDigit = true) :
    (whole ++ pointChars fraction).any (fun c => c.isDigit && c != '0') = true ↔
      digitsValue (whole ++ fraction.getD []) ≠ 0 := by
  have hpoint : ∀ c, c ∈ pointChars fraction ∧ c.isDigit = true ↔ c ∈ fraction.getD [] := fun c => by
    have hbehind := (List.forall_mem_append.1 h).2
    rcases fraction with - | ds
    · simp [pointChars]
    · simp only [pointChars, List.mem_cons, Option.getD_some] at hbehind ⊢
      constructor
      · rintro ⟨rfl | hc, hdigit⟩
        · cases hdigit
        · exact hc
      · exact fun hc => ⟨.inr hc, hbehind c hc⟩
  have hmem : ∀ c, c ∈ whole ++ pointChars fraction ∧ c.isDigit = true ↔
      c ∈ whole ++ fraction.getD [] := fun c => by
    have hbefore := (List.forall_mem_append.1 h).1
    rw [List.mem_append, List.mem_append, or_and_right, hpoint]
    exact or_congr_left ⟨And.left, fun hc => ⟨hc, hbefore c hc⟩⟩
  rw [ne_eq, digitsValue_eq_zero h, List.any_eq_true, not_forall]
  refine exists_congr fun c => ?_
  rw [Bool.and_eq_true, bne_iff_ne, ← and_assoc, hmem, Classical.not_imp]

/-- The text of a finite figure. -/
theorem exists_finite (places : Nat) {x : Float} {negative : Bool} {m : Nat} {e : Int}
    (hx : Binary.ofDouble x = .finite negative m e) : ∃ (l : Layout) (r : ℚ),
      chars places x = l.chars ∧ l.Proper ∧ spelled? (withoutCommas l.chars) = some r ∧
      Rounded places (withSign negative (m * 2 ^ e)) r ∧ (l.negative = true ↔ r < 0) := by
  obtain ⟨whole, fraction, hfixed, hne, hlength, hdigits, hvalue⟩ :=
    exists_fixed places m negative e
  let units := inUnits .toEven places m e
  obtain ⟨sign, hsign⟩ : ∃ sign, sign = (decide (x < 0) &&
    (whole ++ pointChars fraction).any fun c => c.isDigit && c != '0') := ⟨_, rfl⟩
  have hsign_iff : sign = true ↔ negative = true ∧ units ≠ 0 := by
    rw [hsign, Bool.and_eq_true, decide_eq_true_eq, any_digit_iff hdigits, hvalue, lt_zero_iff hx]
    refine ⟨fun h => ⟨h.1.1, h.2⟩, fun h => ⟨⟨h.1, ?_⟩, h.2⟩⟩
    rintro rfl
    exact h.2 (inUnits_zero places e)
  have hplaced : (0 : ℚ) < 10 ^ places := by positivity
  have hsame : withSign sign (units / 10 ^ places : ℚ) =
      withSign negative (units / 10 ^ places) := by
    rcases eq_or_ne units 0 with hzero | hunits
    · cases sign <;> cases negative <;> simp [withSign, hzero]
    · have : sign = negative := by
        rw [Bool.eq_iff_iff, hsign_iff]
        exact and_iff_left hunits
      rw [this]
  obtain ⟨l, hnegative, hwhole, hfraction, hproper, hchars⟩ := exists_layout sign hne hdigits
  refine ⟨l, withSign negative (units / 10 ^ places), ?_, hproper, ?_,
    (rounded_inUnits places m e).withSign negative, ?_⟩
  · rw [chars, hx, hfixed, ← hsign, hchars]
  · rw [hproper.spelled?_chars, hnegative, hwhole, hfraction, exact_shownFraction, hvalue, hlength,
      hsame]
  · rw [hnegative, ← hsame]
    cases hs : sign with
    | false =>
      have hnonneg : (0 : ℚ) ≤ units / 10 ^ places := by positivity
      simpa [withSign] using hnonneg
    | true =>
      have hpos : (0 : ℚ) < units := by
        exact_mod_cast Nat.pos_of_ne_zero (hsign_iff.1 hs).2
      simpa [withSign] using div_pos hpos hplaced

/-- A finite figure is written in groups of three digits and spells its rounded value. An infinite
one is written as the infinity above all numbers, whatever its sign. -/
theorem text_spells (places : Nat) (x : Float) :
    (∀ q, (Binary.ofDouble x).rational? = some q → ∃ (l : Layout) (r : ℚ),
      (text places x).toList = l.chars ∧ l.Proper ∧
        spelled? (withoutCommas (text places x).toList) = some r ∧ Rounded places q r ∧
        (l.negative = true ↔ r < 0)) ∧
    ∀ negative, Binary.ofDouble x = .infinite negative → text places x = "inf" ∧
      ∃ y, readNumber? (withoutCommas (text places x).toList) = some y ∧
        Binary.ofDouble y = .infinite false := by
  refine ⟨fun q hq => ?_, fun negative hx => ?_⟩
  · rcases hx : Binary.ofDouble x with - | s | ⟨s, m, e⟩ <;> rw [hx] at hq
    · cases hq
    · cases hq
    · obtain rfl : withSign s (m * 2 ^ e) = q := Option.some.inj hq
      obtain ⟨l, r, hchars, hproper, hspelled, hrounded, hsign⟩ := exists_finite places hx
      refine ⟨l, r, ?_, hproper, ?_, hrounded, hsign⟩
      · rw [text, String.toList_ofList, hchars]
      · rw [text, String.toList_ofList, hchars, hspelled]
  · have htext : text places x = "inf" := by
      rw [text, chars, hx, fixed]
      have hany : ("inf".toList.any fun c => c.isDigit && c != '0') = false := rfl
      rw [hany, Bool.and_false]
      rfl
    rw [htext]
    exact ⟨rfl, 1 / 0, rfl, rfl⟩

/-- Rounding carries into a group of its own, and two large figures below zero add up to one that
has lost its sign. -/
theorem text_spells_carry : (∃ (l : Layout) (q r : ℚ), text 2 (-999999.996) = "-1,000,000" ∧
      (Binary.ofDouble (-999999.996)).rational? = some q ∧
      (text 2 (-999999.996)).toList = l.chars ∧ l.Proper ∧
      spelled? (withoutCommas (text 2 (-999999.996)).toList) = some r ∧ Rounded 2 q r ∧
      (l.negative = true ↔ r < 0)) ∧
    Binary.ofDouble (-1e308 + -1e308) = .infinite true ∧ text 0 (-1e308 + -1e308) = "inf" := by
  have hx : ∃ q, (Binary.ofDouble (-999999.996)).rational? = some q := ⟨_, rfl⟩
  obtain ⟨q, hq⟩ := hx
  obtain ⟨l, r, hchars, hproper, hspelled, hrounded, hsign⟩ := (text_spells 2 (-999999.996)).1 q hq
  have hinfinite : Binary.ofDouble (-1e308 + -1e308) = .infinite true := by decide +kernel
  have htext : text 2 (-999999.996) = "-1,000,000" := by decide +kernel
  exact ⟨⟨l, q, r, htext, hq, hchars, hproper, hspelled, hrounded, hsign⟩, hinfinite,
    ((text_spells 0 (-1e308 + -1e308)).2 true hinfinite).1⟩

end TableTalk.Thousands
