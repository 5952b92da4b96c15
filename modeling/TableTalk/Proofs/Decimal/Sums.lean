import TableTalk.Proofs.Decimal.Rounding
import TableTalk.Proofs.Table.Totals

/-!
# Sums of doubles that start from zero

Rounding never makes a zero with a sign of a sum (`unpack_pack_normalize_ne`): a sum is one only if
its first term is (`unpack_add_ne`). What starts from zero is thus never one, and zero can be added
to it freely (`sumOf_add_zero`).
-/

namespace TableTalk.Decimal

open Float.Model (UnpackedFloat totalExponent)
open Float.Model.UnpackedFloat
open Float.Model.Format (binary64)

/-- The digits that are left of a number are some, and not too many. -/
theorem div_two_pow_mem {m : Nat} (hm : 0 < m) :
    0 < m / 2 ^ (m.log2 - 52) ∧ m / 2 ^ (m.log2 - 52) < 2 ^ 53 := by
  refine ⟨Nat.div_pos ?_ (by positivity), div_two_pow_lt (by omega)⟩
  calc 2 ^ (m.log2 - 52) ≤ 2 ^ m.log2 := Nat.pow_le_pow_right (by decide) (by omega)
    _ ≤ m := Nat.log2_self_le hm.ne'

theorem targetExponent_sub {m : Nat} {e : Int} (he : -1074 ≤ e) :
    (binary64.targetExponent (totalExponent m e) - e).toNat = m.log2 - 52 := by
  rw [targetExponent_eq]
  omega

/-- A number whose exponent is in range is not rounded to zero. -/
theorem exists_roundWithAccuracy (s : Sign) {m : Nat} {e : Int} (hm : 0 < m) (he : -1074 ≤ e)
    (a : Accuracy) : ∃ q f h, roundWithAccuracy binary64 s m e a = .finite s q f h ∧
      q < 2 ^ 53 ∧ -1074 ≤ f := by
  obtain ⟨r, hr, hpos⟩ : ∃ r,
      (shiftToTargetExponent binary64 m e a).1.roundedMantissa = r ∧ 0 < r := by
    refine ⟨_, rfl, lt_of_lt_of_le ?_ (roundedMantissa_mem _).1⟩
    simp only [shiftToTargetExponent, shiftToExponent, mantissa_shiftRight,
      mantissa_ofMantissaAndAccuracy, targetExponent_sub he]
    exact (div_two_pow_mem hm).1
  obtain ⟨f, hf, hle⟩ : ∃ f, (shiftToTargetExponent binary64 m e a).2 = f ∧ -1074 ≤ f :=
    ⟨_, rfl, by simp only [shiftToTargetExponent, shiftToExponent]; omega⟩
  have hlast : (shiftToTargetExponent binary64 r f .exact).1.mantissa = r / 2 ^ (r.log2 - 52) := by
    simp only [shiftToTargetExponent, shiftToExponent, mantissa_shiftRight,
      mantissa_ofMantissaAndAccuracy, targetExponent_sub hle]
  obtain ⟨hdigits, hfit⟩ := div_two_pow_mem hpos
  simp only [roundWithAccuracy, hr, hf, hlast, hdigits.ne', ↓reduceDIte]
  refine ⟨_, _, hdigits, rfl, hfit, ?_⟩
  simp only [shiftToTargetExponent, shiftToExponent]
  omega

theorem exists_round_finite (s : Sign) {m : Nat} {e : Int} (hm : 0 < m) (he : -1074 ≤ e) :
    ∃ q f h, round binary64 s m e = .finite s q f h ∧ q < 2 ^ 53 ∧ -1074 ≤ f := by
  simp only [UnpackedFloat.round, decreaseExponent, Nat.shiftLeft_eq]
  refine exists_roundWithAccuracy s (by positivity) ?_ _
  rw [targetExponent_eq]
  omega

theorem unpack_pack_subnormal (s : Sign) {m : Nat} {e : Int} (h0 : 0 < m) (hm : m < 2 ^ 52)
    (he : e ≤ 971) (t : Sign) :
    unpack binary64 (pack binary64 (.finite s m e h0)) ≠ .zero t := by
  have hbias : (e + (binary64.exponentBias : Nat) + (52 : Nat)).toNat < 2047 := by
    simp only [Float.Model.Format.exponentBias]
    norm_num
    omega
  have hlog : m.log2 + 1 ≠ binary64.mantissaBits := by
    have : m.log2 < 52 := (Nat.log2_lt h0.ne').2 hm
    simp only [Float.Model.Format.mantissaBits]
    omega
  have hdigits : BitVec.ofNat 52 m ≠ 0#52 := fun h => by
    have := congrArg BitVec.toNat h
    simp at this
    omega
  simp only [pack]
  rw [if_neg (show ¬2 ^ 11 ≤ _ by omega), if_neg hlog]
  simp only [unpack, unpackExponent_packComponents, unpackMantissa_packComponents]
  rw [if_neg (by decide), if_pos trivial, dif_neg hdigits]
  simp

/-- The bits of a number that is none of the zeros are those of no zero. -/
theorem unpack_pack_ne_zero (s : Sign) {m : Nat} {e : Int} (h0 : 0 < m) (hm : m < 2 ^ 53)
    (he : -1074 ≤ e) (t : Sign) :
    unpack binary64 (pack binary64 (.finite s m e h0)) ≠ .zero t := by
  rcases le_or_gt e 971 with hle | hlt
  · rcases Nat.lt_or_ge m (2 ^ 52) with hsub | hfull
    · exact unpack_pack_subnormal s h0 hsub hle t
    · rw [unpack_pack_normal s ((Nat.log2_eq_iff h0.ne').2 ⟨hfull, hm⟩) h0 he hle]
      simp
  · rw [unpack_pack_large s h0 hlt]
    simp

theorem unpack_pack_zero : unpack binary64 (pack binary64 (.zero .positive)) = .zero .positive := rfl

theorem unpack_pack_normalize_ne (m : Int) {e : Int} (he : -1074 ≤ e) :
    unpack binary64 (pack binary64 (normalize binary64 m e .positive)) ≠ .zero .negative := by
  rcases lt_trichotomy m 0 with hneg | rfl | hpos
  · obtain ⟨q, f, h, hround, hq, hf⟩ :=
      exists_round_finite .negative (m := (-m).toNat) (by omega) he
    rw [UnpackedFloat.normalize, Int.compare_eq_lt.2 hneg]
    simp only [hround]
    exact unpack_pack_ne_zero _ h hq hf _
  · have hnone : normalize binary64 0 e .positive = .zero .positive := rfl
    rw [hnone, unpack_pack_zero]
    simp
  · obtain ⟨q, f, h, hround, hq, hf⟩ := exists_round_finite .positive (m := m.toNat) (by omega) he
    rw [UnpackedFloat.normalize, Int.compare_eq_gt.2 hpos]
    simp only [hround]
    exact unpack_pack_ne_zero _ h hq hf _

/-- What is no number, or infinite, is not packed into a zero. -/
theorem unpack_pack_ne_of_not_finite {u : UnpackedFloat} (h : u.isFinite = false) (t : Sign) :
    unpack binary64 (pack binary64 u) ≠ .zero t := by
  cases u with
  | notANumber =>
    have hkeep : unpack binary64 (pack binary64 .notANumber) = .notANumber := rfl
    rw [hkeep]
    simp
  | infinity s =>
    have hkeep : unpack binary64 (pack binary64 (.infinity s)) = .infinity s := by cases s <;> rfl
    rw [hkeep]
    simp
  | zero | finite => cases h

theorem isFinite_add_left {u : UnpackedFloat} (h : u.isFinite = false) (v : UnpackedFloat) :
    (add binary64 u v).isFinite = false := by
  cases u with
  | notANumber => rfl
  | infinity s =>
    cases v with
    | infinity t => cases s <;> cases t <;> rfl
    | notANumber | zero | finite => rfl
  | zero | finite => cases h

theorem isFinite_add_right (u : UnpackedFloat) {v : UnpackedFloat} (h : v.isFinite = false) :
    (add binary64 u v).isFinite = false := by
  cases v with
  | notANumber => cases u <;> rfl
  | infinity t =>
    cases u with
    | infinity s => cases s <;> cases t <;> rfl
    | notANumber | zero | finite => rfl
  | zero | finite => cases h

theorem unpack_add (x y : Float) : (x + y).toModel.unpack =
    unpack binary64 (pack binary64 (add binary64 x.toModel.unpack y.toModel.unpack)) := rfl

/-- A sum is a zero with a sign only if its first term is one. -/
theorem unpack_add_ne {x : Float} (hx : x.toModel.unpack ≠ .zero .negative) (y : Float) :
    (x + y).toModel.unpack ≠ .zero .negative := by
  have hkeep : ∀ {z : Float} {s m e h}, z.toModel.unpack = .finite s m e h →
      unpack binary64 (pack binary64 (.finite s m e h)) ≠ .zero .negative := fun hz => by
    rw [← hz, Float.Model.unpack, unpack_pack_unpack, ← Float.Model.unpack, hz]
    simp
  have hleast : ∀ {z : Float} {s m e h}, z.toModel.unpack = .finite s m e h → -1074 ≤ e :=
    fun hz => by
      have := unpack_finite hz
      omega
  rw [unpack_add]
  cases hu : x.toModel.unpack with
  | notANumber | infinity => exact unpack_pack_ne_of_not_finite (isFinite_add_left rfl _) _
  | zero s =>
    cases s with
    | negative => exact absurd hu hx
    | positive =>
      cases hv : y.toModel.unpack with
      | notANumber | infinity => exact unpack_pack_ne_of_not_finite (isFinite_add_right _ rfl) _
      | zero t =>
        have hadd : add binary64 (.zero .positive) (.zero t) = .zero .positive := by
          cases t <;> rfl
        rw [hadd, unpack_pack_zero]
        simp
      | finite t q f hq => exact hkeep hv
  | finite s m e hm =>
    cases hv : y.toModel.unpack with
    | notANumber | infinity => exact unpack_pack_ne_of_not_finite (isFinite_add_right _ rfl) _
    | zero t => exact hkeep hu
    | finite t q f hq => exact unpack_pack_normalize_ne _ (le_min (hleast hu) (hleast hv))

/-- Zero can be added to what is no zero with a sign. -/
theorem add_zero_of_ne {x : Float} (hx : x.toModel.unpack ≠ .zero .negative) : x + 0 = x := by
  have hzero : (0 : Float).toModel.unpack = .zero .positive := rfl
  have hadd : add binary64 x.toModel.unpack (.zero .positive) = x.toModel.unpack := by
    cases hu : x.toModel.unpack with
    | zero s =>
      cases s with
      | negative => exact absurd hu hx
      | positive => rfl
    | notANumber | infinity | finite => rfl
  rw [← unpack_inj, unpack_add, hzero, hadd, Float.Model.unpack, unpack_pack_unpack]

/-- A sum that starts from zero is no zero with a sign. -/
theorem unpack_sumOf_ne (xs : List Float) : (sumOf xs).toModel.unpack ≠ .zero .negative := by
  induction xs using List.reverseRecOn with
  | nil =>
    have hzero : (sumOf ([] : List Float)).toModel.unpack = .zero .positive := rfl
    rw [hzero]
    simp
  | append_singleton xs x ih =>
    rw [sumOf_concat]
    exact unpack_add_ne ih x

theorem sumOf_add_zero (xs : List Float) : sumOf xs + 0 = sumOf xs :=
  add_zero_of_ne (unpack_sumOf_ne xs)

end TableTalk.Decimal
