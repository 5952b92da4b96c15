import TableTalk.Proofs.Decimal.Numbers
import TableTalk.Proofs.Decimal.Spelling

/-!
# Rounding to places

A finite double is a number in exact arithmetic (`Binary.rational?`), and so is what a text spells
(`spelled?`). The text of a double with some places behind the point spells the nearest number with
these places, an even one of two that are equally near (`rounded_inUnits`).
-/

namespace TableTalk.Decimal

open Float.Model (UnpackedFloat)

/-- The number with a sign in front. -/
def withSign (negative : Bool) (q : ℚ) : ℚ := if negative then -q else q

/-- The number that a finite double is. -/
def Binary.rational? : Binary → Option ℚ
  | .finite negative m e => some (withSign negative (m * 2 ^ e))
  | _ => none

/-- The number that a decimal is as it is written. -/
def Numeral.exact (n : Numeral) : ℚ := n.digits * 10 ^ n.scale

/-- The number that a text spells as it is written. -/
def spelled? (cs : List Char) : Option ℚ :=
  (numericText? cs).map fun s => withSign s.1 s.2.exact

/-- A number is rounded to places behind the point: to the nearest whole number of its units, and of
two that are equally near to the even one. -/
def Rounded (places : Nat) (x q : ℚ) : Prop :=
  ∃ k : ℤ, q * 10 ^ places = k ∧ 2 * |x * 10 ^ places - k| ≤ 1 ∧
    (2 * |x * 10 ^ places - k| = 1 → Even k)

theorem Rounded.withSign {places : Nat} {x q : ℚ} (h : Rounded places x q) (negative : Bool) :
    Rounded places (withSign negative x) (withSign negative q) := by
  obtain ⟨k, hk, hnear, htie⟩ := h
  cases negative with
  | false => exact ⟨k, hk, hnear, htie⟩
  | true =>
    have habs : |-x * 10 ^ places - ((-k : ℤ) : ℚ)| = |x * 10 ^ places - k| := by
      rw [← abs_neg]
      congr 1
      push_cast
      ring
    refine ⟨-k, ?_, habs ▸ hnear, fun h => even_neg.2 (htie (habs ▸ h))⟩
    show -q * 10 ^ places = _
    push_cast
    rw [← hk]
    ring

/-- A quotient goes to the nearest number, an even one of two. -/
theorem roundDiv_nearest (num : Nat) {den : Nat} (hden : 0 < den) :
    2 * |(num / den : ℚ) - (roundDiv .toEven num den : ℕ)| ≤ 1 ∧
      (2 * |(num / den : ℚ) - (roundDiv .toEven num den : ℕ)| = 1 →
        Even (roundDiv .toEven num den)) := by
  have hpos : (0 : ℚ) < den := by exact_mod_cast hden
  have hlt := Nat.mod_lt num hden
  have hsplit : (num / den : ℚ) = (num / den : ℕ) + (num % den : ℕ) / den := by
    rw [div_eq_iff hpos.ne', add_mul, div_mul_cancel₀ _ hpos.ne']
    exact_mod_cast (Nat.div_add_mod' num den).symm
  have hnonneg : (0 : ℚ) ≤ (num % den : ℕ) / den := by positivity
  rw [hsplit]
  simp only [roundDiv]
  generalize num / den = low at *
  generalize num % den = rest at *
  split_ifs with hlow hhigh
  · have hhalf : (rest : ℚ) / den < 1 / 2 := by
      rw [div_lt_div_iff₀ hpos two_pos]
      have : ((2 * rest : ℕ) : ℚ) < (den : ℕ) := by exact_mod_cast hlow
      push_cast at this
      linarith
    rw [add_sub_cancel_left, abs_of_nonneg hnonneg]
    exact ⟨by linarith, fun h => by linarith⟩
  · have hhalf : 1 / 2 < (rest : ℚ) / den := by
      rw [div_lt_div_iff₀ two_pos hpos]
      have : ((den : ℕ) : ℚ) < ((2 * rest : ℕ) : ℚ) := by exact_mod_cast hhigh
      push_cast at this
      linarith
    have hone : (rest : ℚ) / den < 1 := by
      rw [div_lt_one hpos]
      exact_mod_cast hlt
    have habs : |(low : ℚ) + rest / den - ((low + 1 : ℕ) : ℚ)| = 1 - rest / den := by
      rw [abs_of_nonpos (by push_cast; linarith)]
      push_cast
      ring
    rw [habs]
    exact ⟨by linarith, fun h => by linarith⟩
  · -- the even one of the two neighbours is a half away, whichever it is
    have hhalf : (rest : ℚ) / den = 1 / 2 := by
      rw [div_eq_div_iff hpos.ne' two_ne_zero]
      have : 2 * rest = den := by omega
      have : ((2 * rest : ℕ) : ℚ) = (den : ℕ) := by exact_mod_cast this
      push_cast at this
      linarith
    have heven : Even (low + low % 2) := by
      rw [Nat.even_iff]
      omega
    refine ⟨?_, fun _ => heven⟩
    rw [hhalf]
    rcases Nat.mod_two_eq_zero_or_one low with h | h <;> rw [h]
    · norm_num
    · push_cast
      rw [show (low : ℚ) + 1 / 2 - (low + 1) = -(1 / 2) by ring]
      norm_num

theorem rounded_inUnits (places m : Nat) (e : Int) :
    Rounded places (m * 2 ^ e) (inUnits .toEven places m e / 10 ^ places) := by
  have hten : (10 : ℚ) ^ places ≠ 0 := by positivity
  have hden : 0 < (ratio m e places).2 := by
    simp only [ratio]
    positivity
  have hratio : ((ratio m e places).1 / (ratio m e places).2 : ℚ) = m * 2 ^ e * 10 ^ places := by
    have hplaces : (-(places : Int)).toNat = 0 := by omega
    simp only [ratio, hplaces, Int.toNat_natCast]
    push_cast
    rcases le_or_gt 0 e with he | he
    · lift e to ℕ using he
      simp
    · obtain ⟨j, rfl⟩ : ∃ j : ℕ, e = -j := ⟨(-e).toNat, by omega⟩
      rw [neg_neg, Int.toNat_natCast, Int.toNat_neg_natCast, zpow_neg, zpow_natCast]
      field_simp
  obtain ⟨hnear, htie⟩ := roundDiv_nearest (ratio m e places).1 hden
  rw [hratio] at hnear htie
  refine ⟨(inUnits .toEven places m e : ℕ), ?_, ?_, fun h => ?_⟩
  · rw [div_mul_cancel₀ _ hten]
    push_cast
    rfl
  · exact_mod_cast hnear
  · exact_mod_cast htie (by exact_mod_cast h)

theorem digitsValue_append_zeros (cs : List Char) (j : Nat) :
    digitsValue (cs ++ zeros j) = digitsValue cs * 10 ^ j := by
  induction j with
  | zero => simp [zeros]
  | succ j ih =>
    have hconcat : cs ++ zeros (j + 1) = (cs ++ zeros j) ++ ['0'] := by
      rw [zeros, List.replicate_succ', List.append_assoc]
      rfl
    rw [hconcat, digitsValue, List.foldl_append, ← digitsValue, ih, pow_succ]
    simp
    ring

theorem digitsValue_zeros_append (cs : List Char) (j : Nat) :
    digitsValue (zeros j ++ cs) = digitsValue cs := by
  induction j with
  | zero => rfl
  | succ j ih => rw [← ih]; rfl

/-- Digits are worth nothing only if there are none but zeros. -/
theorem digitsValue_eq_zero {ds : List Char} (h : ∀ c ∈ ds, c.isDigit = true) :
    digitsValue ds = 0 ↔ ∀ c ∈ ds, c = '0' := by
  induction ds using List.reverseRecOn with
  | nil => simp [digitsValue]
  | append_singleton ds d ih =>
    obtain ⟨hds, hd⟩ := List.forall_mem_append.1 h
    have hdigit := Char.isDigit_iff_toNat.1 (hd d (List.mem_singleton_self d))
    have hzero : d.toNat - '0'.toNat = 0 ↔ d = '0' := by
      rw [← Char.toNat_inj]
      omega
    rw [digitsValue, List.foldl_append, ← digitsValue, List.forall_mem_append, ← ih hds]
    simpa using fun _ => hzero

theorem lt_zero_iff {x : Float} {negative : Bool} {m : Nat} {e : Int}
    (hx : Binary.ofDouble x = .finite negative m e) : x < 0 ↔ negative = true ∧ m ≠ 0 := by
  have hzero : (0 : Float).toModel.unpack = .zero .positive := rfl
  rw [lt_iff, hzero]
  rw [Binary.ofDouble] at hx
  rcases hu : x.toModel.unpack with s | _ | s | ⟨s, q, f, h0⟩ <;> rw [hu] at hx <;> cases hx
  · simp [UnpackedFloat.compare]
  · cases s <;> simp [UnpackedFloat.compare, h0.ne']

theorem inUnits_zero (places : Nat) (e : Int) : inUnits .toEven places 0 e = 0 := by
  have hden : 0 < (ratio 0 e places).2 := by
    simp only [ratio]
    positivity
  have hnum : (ratio 0 e places).1 = 0 := by simp [ratio]
  simp [inUnits, roundDiv, hnum, hden]

/-- The digits of a number in front of the point and behind it. -/
theorem exists_split (n places : Nat) : ∃ whole fraction, split n (-places) = (whole, fraction) ∧
    whole ≠ [] ∧ fraction.length = places ∧ (∀ c ∈ whole ++ fraction, c.isDigit = true) ∧
    digitsValue (whole ++ fraction) = n := by
  have hdigits : ∀ c ∈ digitChars n, c.isDigit = true := fun c hc =>
    Nat.isDigit_of_mem_toDigits (by decide) (by decide) hc
  have hzeros : ∀ k, ∀ c ∈ zeros k, c.isDigit = true := fun k c hc => by
    rw [List.eq_of_mem_replicate hc]
    decide
  have hne : 0 < (digitChars n).length := List.length_pos_iff.2 Nat.toDigits_ne_nil
  rcases Nat.eq_zero_or_pos places with rfl | hpos
  · refine ⟨digitChars n, [], by simp [split, zeros], Nat.toDigits_ne_nil, rfl, ?_, ?_⟩
    · simpa using hdigits
    · rw [List.append_nil]
      exact digitsValue_toDigits n
  · let ds := zeros (places + 1 - (digitChars n).length) ++ digitChars n
    have hlength : places + 1 ≤ ds.length := by
      simp only [ds, zeros, List.length_append, List.length_replicate]
      omega
    have hsplit : split n (-places) = (ds.take (ds.length - places), ds.drop (ds.length - places)) := by
      rw [split, if_neg (by omega), neg_neg, Int.toNat_natCast]
    refine ⟨_, _, hsplit, ?_, ?_, ?_, ?_⟩
    · rw [← List.length_pos_iff, List.length_take]
      omega
    · rw [List.length_drop]
      omega
    · rw [List.take_append_drop]
      exact List.forall_mem_append.2 ⟨hzeros _, hdigits⟩
    · rw [List.take_append_drop, digitsValue_zeros_append]
      exact digitsValue_toDigits n

end TableTalk.Decimal
