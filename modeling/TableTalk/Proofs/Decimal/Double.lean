import Mathlib
import TableTalk.Decimal.Wide

/-!
# Doubles of whole numbers

A double unpacks to a sign, a significand and an exponent, and is known by them (`unpack_inj`). A
significand of 53 digits whose exponent is in range comes back from its bits
(`unpack_pack_normal`), and rounding leaves it alone however many zeros it has behind it
(`round_exact`). So a whole number that fits has itself as its double (`unpack_ofNat`), and any
other one has a significand of 53 digits at least (`exists_unpack_ofNat`): it is no zero, and not
infinite within 64 bits.

No reading of a decimal gives a number with a sign (`unsigned_nearest`, `Wide.unsigned_read`).
-/

namespace TableTalk.Decimal

open Float.Model (UnpackedFloat totalExponent)
open Float.Model.UnpackedFloat
open Float.Model.Format (binary64)

theorem unpack_inj {x y : Float} : x.toModel.unpack = y.toModel.unpack ↔ x = y := by
  rcases x with ⟨⟨a, ha⟩⟩
  rcases y with ⟨⟨b, hb⟩⟩
  simp only [Float.Model.unpack, unpack_inj_of_valid ha hb, Float.ofModel.injEq,
    Float.Model.mk.injEq]
  exact UInt64.toBitVec_inj

theorem neg_unpack (b : BitVec binary64.numBits) : (unpack binary64 b).neg =
    unpack binary64 (packComponents binary64 (-(Sign.ofBitVec (unpackSign b)))
      (unpackExponent b) (unpackMantissa b)) := by
  simp only [unpack, unpackExponent_packComponents, unpackMantissa_packComponents,
    unpackSign_packComponents, Sign.ofBitVec_toBitVec]
  split_ifs <;> rfl

/-- Packing keeps what comes out of unpacking. -/
theorem unpack_pack_unpack (b : BitVec binary64.numBits) :
    unpack binary64 (pack binary64 (unpack binary64 b)) = unpack binary64 b := by
  rw [pack_unpack b]
  split_ifs with h
  · rw [unpack_packedNaN]
    simp only [isNaNBits, decide_eq_true_eq] at h
    simp [unpack, h]
  · rfl

theorem unpack_neg (x : Float) : (-x).toModel.unpack = x.toModel.unpack.neg := by
  have h : (-x).toModel.unpack = unpack binary64 (pack binary64 x.toModel.unpack.neg) := rfl
  rw [h, Float.Model.unpack, neg_unpack, unpack_pack_unpack]

theorem shiftRight_exact (m j : Nat) :
    ((⟨m * 2 ^ j, false, false⟩ : ExtendedMantissa) >>> j) = ⟨m, false, false⟩ := by
  induction j generalizing m with
  | zero => simp [HShiftRight.hShiftRight, Nat.repeat]
  | succ j ih =>
    calc ((⟨m * 2 ^ (j + 1), false, false⟩ : ExtendedMantissa) >>> (j + 1))
        = ((⟨m * 2 * 2 ^ j, false, false⟩ : ExtendedMantissa) >>> j).shiftRightOne := by
          rw [pow_succ', ← mul_assoc]
          rfl
      _ = ⟨m, false, false⟩ := by
          rw [ih]
          simp [ExtendedMantissa.shiftRightOne]

theorem log2_mul_two_pow {m : Nat} (hm : m ≠ 0) (j : Nat) : (m * 2 ^ j).log2 = m.log2 + j := by
  refine (Nat.log2_eq_iff (by positivity)).2 ⟨?_, ?_⟩
  · rw [pow_add]
    exact Nat.mul_le_mul_right _ (Nat.log2_self_le hm)
  · rw [show m.log2 + j + 1 = m.log2 + 1 + j by omega, pow_add]
    exact Nat.mul_lt_mul_of_pos_right Nat.lt_log2_self (by positivity)

theorem targetExponent_eq (m : Nat) (e : Int) :
    binary64.targetExponent (totalExponent m e) = max (m.log2 - 52 + e) (-1074) := by
  simp only [Float.Model.Format.targetExponent, totalExponent, Float.Model.Format.mantissaBits,
    Float.Model.Format.minExponent]
  norm_num
  omega

theorem shift_exact {m : Nat} {e : Int} (hm : m.log2 = 52) (he : -1074 ≤ e) (j : Nat) :
    shiftToTargetExponent binary64 (m * 2 ^ j) (e - j) .exact = (⟨m, false, false⟩, e) := by
  have hne : m ≠ 0 := by
    rintro rfl
    simp at hm
  have ht : binary64.targetExponent (totalExponent (m * 2 ^ j) (e - j)) = e := by
    rw [targetExponent_eq, log2_mul_two_pow hne, hm]
    omega
  have hj : (e - (e - j)).toNat = j := by omega
  simp only [shiftToTargetExponent, ht, shiftToExponent, hj,
    ExtendedMantissa.ofMantissaAndAccuracy, shiftRight_exact]
  congr 1
  omega

theorem round_exact (s : Sign) {m : Nat} {e : Int} (hm : m.log2 = 52) (h0 : 0 < m)
    (he : -1074 ≤ e) (j : Nat) :
    roundWithAccuracy binary64 s (m * 2 ^ j) (e - j) .exact = .finite s m e h0 := by
  have hr : (⟨m, false, false⟩ : ExtendedMantissa).roundedMantissa = m := rfl
  have h1 := shift_exact hm he 0
  simp only [pow_zero, mul_one, Nat.cast_zero, sub_zero] at h1
  simp only [roundWithAccuracy, shift_exact hm he j, hr, h1, h0.ne', ↓reduceDIte]

theorem toNat_one_append {m : Nat} (hm : m.log2 = 52) (h0 : 0 < m) :
    (1#1 ++ BitVec.ofNat 52 m).toNat = m := by
  obtain ⟨hlow, hhigh⟩ := (Nat.log2_eq_iff h0.ne').1 hm
  have hlt := (BitVec.ofNat 52 m).isLt
  rw [BitVec.toNat_append, ← Nat.shiftLeft_add_eq_or_of_lt hlt, BitVec.toNat_ofNat,
    Nat.shiftLeft_eq]
  simp only [BitVec.toNat_ofNat]
  omega

theorem ofNat_exponent_ne {b : Nat} (h0 : 0 < b) (hb : b < 2047) :
    BitVec.ofNat 11 b ≠ -1#11 ∧ BitVec.ofNat 11 b ≠ 0#11 := by
  constructor
  · intro h
    have := congrArg BitVec.toNat h
    simp at this
    omega
  · intro h
    have := congrArg BitVec.toNat h
    simp at this
    omega

/-- A number with all digits and an exponent in range comes back from its bits. -/
theorem unpack_pack_normal (s : Sign) {m : Nat} {e : Int} (hm : m.log2 = 52) (h0 : 0 < m)
    (he : -1074 ≤ e) (he' : e ≤ 971) :
    unpack binary64 (pack binary64 (.finite s m e h0)) = .finite s m e h0 := by
  obtain ⟨b, hb⟩ : ∃ b : Nat, e + 1075 = b := ⟨(e + 1075).toNat, by omega⟩
  have hbias : (e + (binary64.exponentBias : Nat) + (52 : Nat)).toNat = b := by
    simp only [Float.Model.Format.exponentBias]
    norm_num
    omega
  obtain ⟨hones, hzero⟩ := ofNat_exponent_ne (b := b) (by omega) (by omega)
  have hexp : (BitVec.ofNat 11 b).toNat = b := by
    rw [BitVec.toNat_ofNat, Nat.mod_eq_of_lt (by omega)]
  simp only [pack, hbias, hm]
  rw [if_neg (by omega), if_pos (by rfl)]
  simp only [unpack, unpackExponent_packComponents, unpackMantissa_packComponents,
    unpackSign_packComponents, Sign.ofBitVec_toBitVec, hones, hzero, if_false,
    toNat_one_append hm h0, hexp]
  congr 1
  simp only [Float.Model.Format.exponentBias]
  norm_num
  omega

/-- What is beyond the range of the exponents is infinite. -/
theorem unpack_pack_large (s : Sign) {m : Nat} {e : Int} (h0 : 0 < m) (he : 971 < e) :
    unpack binary64 (pack binary64 (.finite s m e h0)) = .infinity s := by
  have hbias : 2 ^ 11 ≤ (e + (binary64.exponentBias : Nat) + (52 : Nat)).toNat + 1 := by
    simp only [Float.Model.Format.exponentBias]
    norm_num
    omega
  simp only [pack]
  rw [if_pos hbias]
  simp [unpack, packedInfinity]

theorem unpack_finite {b : BitVec binary64.numBits} {s : Sign} {m : Nat} {e : Int} {h0 : 0 < m}
    (h : unpack binary64 b = .finite s m e h0) :
    m.log2 = 52 ∧ -1074 ≤ e ∧ e ≤ 971 ∨ m < 2 ^ 52 ∧ e = -1074 := by
  have hexp : (unpackExponent b).toNat < 2 ^ 11 := (unpackExponent b).isLt
  have hman : (unpackMantissa b).toNat < 2 ^ 52 := (unpackMantissa b).isLt
  revert h
  simp only [unpack]
  split_ifs with h1 h2 h3 h4
  · nofun
  · nofun
  · nofun
  · simp only [finite.injEq, and_imp]
    rintro - rfl rfl
    right
    refine ⟨hman, ?_⟩
    rw [h3]
    simp [Float.Model.Format.exponentBias]
  · simp only [finite.injEq, and_imp]
    rintro - rfl rfl
    left
    have hones : (unpackExponent b).toNat ≠ 2047 := fun h => h1 (BitVec.eq_of_toNat_eq h)
    have hnone : (unpackExponent b).toNat ≠ 0 := fun h => h3 (BitVec.eq_of_toNat_eq h)
    have hlog : (1#1 ++ unpackMantissa b).toNat.log2 = 52 := by
      rw [BitVec.toNat_append, ← Nat.shiftLeft_add_eq_or_of_lt hman, Nat.shiftLeft_eq,
        Nat.log2_eq_iff (by simp)]
      simp only [BitVec.toNat_ofNat]
      omega
    simp only [Float.Model.Format.exponentBias]
    refine ⟨hlog, ?_, ?_⟩ <;> norm_num <;> omega

theorem ofNat_eq_mul {k : Nat} (hk : k < 2 ^ 53) :
    Float.ofNat k = k.toUInt64.toFloat * Float.ofBits 0x3FF0000000000000 := by
  have h : Float.ofNat k = Float.ofScientific k false 0 := rfl
  rw [h, Float.ofScientific, dif_pos ⟨hk, by decide⟩]
  rfl

theorem ofNat_eq_ofScientific {k : Nat} (hk : 2 ^ 53 ≤ k) :
    Float.ofNat k = .ofModel (.ofScientific k 0) := by
  have h : Float.ofNat k = Float.ofScientific k false 0 := rfl
  rw [h, Float.ofScientific, dif_neg (by omega)]
  rfl

theorem unpack_one : (Float.ofBits 0x3FF0000000000000).toModel.unpack =
    .finite .positive (2 ^ 52) (-52) (by decide) := by
  rfl

theorem unpack_mul (x y : Float) : (x * y).toModel.unpack =
    unpack binary64 (pack binary64 (mul binary64 x.toModel.unpack y.toModel.unpack)) := rfl

theorem lt_of_log2_mul {k j : Nat} (hk : (k * 2 ^ j).log2 = 52) : k < 2 ^ 53 := by
  calc k ≤ k * 2 ^ j := Nat.le_mul_of_pos_right k (by positivity)
    _ < 2 ^ (52 + 1) := by
      rw [← hk]
      exact Nat.lt_log2_self

/-- A small whole number as the conversion of a machine word gives it. -/
theorem unpack_toFloat {k j : Nat} (hk : (k * 2 ^ j).log2 = 52) (h0 : 0 < k) :
    k.toUInt64.toFloat.toModel.unpack = .finite .positive (k * 2 ^ j) (-j) (by positivity) := by
  have hlog := hk
  rw [log2_mul_two_pow h0.ne'] at hlog
  have hlt := (lt_of_log2_mul hk).trans (by decide : 2 ^ 53 < 2 ^ 64)
  have hword : k.toUInt64.toNat = k := Nat.mod_eq_of_lt hlt
  have hunfold : k.toUInt64.toFloat.toModel.unpack = unpack binary64 (pack binary64
      (UnpackedFloat.normalize binary64 (k.toUInt64.toNat : Int) 0 .positive)) := rfl
  have hcompare : compare (k : Int) 0 = .gt := by
    rw [Int.compare_eq_gt]
    omega
  have ht : binary64.targetExponent (totalExponent k 0) = -j := by
    rw [targetExponent_eq]
    omega
  have hround := round_exact .positive hk (by positivity) (e := -j) (by omega) 0
  simp only [pow_zero, mul_one, Nat.cast_zero, sub_zero] at hround
  have hdecrease : decreaseExponent k 0 (-j) = (k * 2 ^ j, (-j : Int)) := by
    simp [decreaseExponent, Nat.shiftLeft_eq]
  rw [hunfold, hword]
  simp only [UnpackedFloat.normalize, hcompare, UnpackedFloat.round, Int.toNat_natCast, ht,
    hdecrease, hround]
  exact unpack_pack_normal _ hk _ (by omega) (by omega)

theorem ofScientific_zero {k : Nat} (hk : 0 < k) : ofScientific binary64 k 0 =
    roundWithAccuracy binary64 .positive (k * 2 ^ 53) (-53) .exact := by
  have hone : (10 : Nat) ^ (0 : Int).toNat = 1 := rfl
  have hlog : ¬ (0 : Int) < -((2 : Int) ^ 11 + k.log2) := by omega
  rw [ofScientific, dif_neg hk.ne', if_neg (by decide), if_neg hlog, if_pos le_rfl]
  simp only [mul, hone, mul_one, Nat.shiftLeft_eq]
  rfl

theorem unpack_ofNat_small {k j : Nat} (hk : (k * 2 ^ j).log2 = 52) (h0 : 0 < k) :
    (Float.ofNat k).toModel.unpack = .finite .positive (k * 2 ^ j) (-j) (by positivity) := by
  have hlog := hk
  rw [log2_mul_two_pow h0.ne'] at hlog
  have hone : mul binary64 (.finite .positive (k * 2 ^ j) (-j) (by positivity))
      (.finite .positive (2 ^ 52) (-52) (by decide)) =
        .finite .positive (k * 2 ^ j) (-j) (by positivity) :=
    round_exact .positive hk (by positivity) (by omega) 52
  rw [ofNat_eq_mul (lt_of_log2_mul hk), unpack_mul, unpack_toFloat hk h0, unpack_one, hone]
  exact unpack_pack_normal _ hk _ (by omega) (by omega)

theorem unpack_ofNat_large {m j : Nat} (hm : m.log2 = 52) (h0 : 0 < m) (hj : 0 < j)
    (hj' : j ≤ 971) : (Float.ofNat (m * 2 ^ j)).toModel.unpack = .finite .positive m j h0 := by
  have hlarge : 2 ^ 53 ≤ m * 2 ^ j := by
    calc 2 ^ 53 = 2 ^ 52 * 2 ^ 1 := by decide
      _ ≤ m * 2 ^ j := Nat.mul_le_mul ((Nat.log2_eq_iff h0.ne').1 hm).1
          (Nat.pow_le_pow_right (by decide) hj)
  have hunfold : (Float.ofNat (m * 2 ^ j)).toModel.unpack =
      unpack binary64 (pack binary64 (ofScientific binary64 (m * 2 ^ j) 0)) := by
    rw [ofNat_eq_ofScientific hlarge]
    rfl
  have hround := round_exact .positive hm h0 (e := j) (by omega) (j + 53)
  rw [hunfold, ofScientific_zero (by positivity), mul_assoc, ← pow_add,
    show (-53 : Int) = j - ((j + 53 : Nat) : Int) by omega, hround]
  exact unpack_pack_normal _ hm _ (by omega) (by omega)

/-- A whole number that some digits and an exponent make up has them as its double. -/
theorem unpack_ofNat {k m : Nat} {e : Int} (hm : m.log2 = 52) (h0 : 0 < m) (hk : 0 < k)
    (he : e ≤ 971) (h : k * 2 ^ (-e).toNat = m * 2 ^ e.toNat) :
    (Float.ofNat k).toModel.unpack = .finite .positive m e h0 := by
  rcases le_or_gt e 0 with hneg | hpos
  · obtain ⟨j, rfl⟩ : ∃ j : Nat, e = -j := ⟨(-e).toNat, by omega⟩
    simp only [neg_neg, Int.toNat_natCast, Int.toNat_neg_natCast, pow_zero, mul_one] at h
    subst h
    exact unpack_ofNat_small hm hk
  · obtain ⟨j, rfl⟩ : ∃ j : Nat, e = j := ⟨e.toNat, by omega⟩
    simp only [Int.toNat_neg_natCast, Int.toNat_natCast, pow_zero, mul_one] at h
    subst h
    exact unpack_ofNat_large hm h0 (by omega) (by omega)

theorem mantissa_shiftRight (em : ExtendedMantissa) (k : Nat) :
    (em >>> k).mantissa = em.mantissa / 2 ^ k := by
  induction k with
  | zero => simp [HShiftRight.hShiftRight, Nat.repeat]
  | succ k ih =>
    calc (em >>> (k + 1)).mantissa = (em >>> k).mantissa / 2 := rfl
      _ = em.mantissa / 2 ^ (k + 1) := by rw [ih, Nat.div_div_eq_div_mul, ← pow_succ]

theorem roundedMantissa_mem (em : ExtendedMantissa) :
    em.mantissa ≤ em.roundedMantissa ∧ em.roundedMantissa ≤ em.mantissa + 1 := by
  rcases em with ⟨m, r, s⟩
  cases r <;> cases s <;>
    simp [ExtendedMantissa.roundedMantissa, ExtendedMantissa.accuracy,
      Accuracy.roundToNearestEven]
  omega

/-- A number with digits to spare is rounded to all the digits of a double. -/
theorem exists_round (s : Sign) {m : Nat} {e : Int} (hm : 52 ≤ m.log2)
    (he : -1074 ≤ e + (m.log2 - 52)) : ∃ q e' h, q.log2 = 52 ∧ -1074 ≤ e' ∧
      e' ≤ e + (m.log2 - 52) + 1 ∧
      roundWithAccuracy binary64 s m e .exact = .finite s q e' h := by
  obtain ⟨k, hk⟩ := Nat.exists_eq_add_of_le hm
  have hne : m ≠ 0 := by
    rintro rfl
    simp at hm
  obtain ⟨hlow, hhigh⟩ := (Nat.log2_eq_iff hne).1 hk
  have ht : (binary64.targetExponent (totalExponent m e) - e).toNat = k := by
    rw [targetExponent_eq]
    omega
  have hdiv : 2 ^ 52 ≤ m / 2 ^ k ∧ m / 2 ^ k < 2 ^ 53 := by
    rw [Nat.le_div_iff_mul_le (by positivity), Nat.div_lt_iff_lt_mul (by positivity), ← pow_add,
      ← pow_add]
    exact ⟨hlow, by convert hhigh using 2; omega⟩
  obtain ⟨r, hr, hr1, hr2⟩ : ∃ r,
      (shiftToTargetExponent binary64 m e .exact).1.roundedMantissa = r ∧
        2 ^ 52 ≤ r ∧ r ≤ 2 ^ 53 := by
    refine ⟨_, rfl, ?_⟩
    have hmem := roundedMantissa_mem (shiftToTargetExponent binary64 m e .exact).1
    simp only [shiftToTargetExponent, shiftToExponent, mantissa_shiftRight, ht,
      ExtendedMantissa.ofMantissaAndAccuracy] at hmem ⊢
    omega
  have he1 : (shiftToTargetExponent binary64 m e .exact).2 = e + k := by
    simp only [shiftToTargetExponent, shiftToExponent, ht]
  -- rounding up can carry into one more digit, which then goes into the exponent
  obtain ⟨q, i, hq, rfl, hi⟩ : ∃ q i, q.log2 = 52 ∧ r = q * 2 ^ i ∧ i ≤ 1 := by
    rcases Nat.lt_or_eq_of_le hr2 with hlt | rfl
    · exact ⟨r, 0, (Nat.log2_eq_iff (by omega)).2 ⟨hr1, hlt⟩, by simp, by decide⟩
    · exact ⟨2 ^ 52, 1, Nat.log2_two_pow, by decide, le_rfl⟩
  have hq0 : 0 < q := by
    rcases Nat.eq_zero_or_pos q with rfl | h
    · simp at hq
    · exact h
  have hshift := shift_exact hq (e := e + k + i) (by omega) i
  refine ⟨q, e + k + i, hq0, hq, by omega, by omega, ?_⟩
  rw [show e + k + i - (i : Int) = e + k by omega] at hshift
  simp only [roundWithAccuracy, hr, he1, hshift, hq0.ne', ↓reduceDIte]

theorem unpack_ofNat_zero : (Float.ofNat 0).toModel.unpack = .zero .positive := rfl

/-- The double of a positive whole number has all digits, but for its range. -/
theorem exists_unpack_ofNat {k : Nat} (hk : 0 < k) : ∃ m e h0, m.log2 = 52 ∧ -1074 ≤ e ∧
    e ≤ (k.log2 : Int) - 51 ∧ (Float.ofNat k).toModel.unpack =
      unpack binary64 (pack binary64 (.finite .positive m e h0)) := by
  rcases lt_or_ge k (2 ^ 53) with hsmall | hlarge
  · have hlog : k.log2 < 53 := (Nat.log2_lt hk.ne').2 hsmall
    obtain ⟨j, hj⟩ : ∃ j, k.log2 + j = 52 := ⟨52 - k.log2, by omega⟩
    have hm : (k * 2 ^ j).log2 = 52 := by rw [log2_mul_two_pow hk.ne', hj]
    refine ⟨k * 2 ^ j, -j, by positivity, hm, by omega, by omega, ?_⟩
    rw [unpack_ofNat_small hm hk, unpack_pack_normal _ hm _ (by omega) (by omega)]
  · have hlog : 53 ≤ k.log2 := (Nat.le_log2 hk.ne').2 hlarge
    have hlog' := log2_mul_two_pow hk.ne' 53
    obtain ⟨q, e, h0, hq, he, he', hround⟩ :=
      exists_round .positive (m := k * 2 ^ 53) (e := -53) (by omega) (by omega)
    refine ⟨q, e, h0, hq, he, by omega, ?_⟩
    rw [← hround, ← ofScientific_zero hk, ofNat_eq_ofScientific hlarge]
    rfl

theorem unpack_ofNat_ne_zero {k : Nat} (hk : 0 < k) (s : Sign) :
    (Float.ofNat k).toModel.unpack ≠ .zero s := by
  obtain ⟨m, e, h0, hm, he, -, h⟩ := exists_unpack_ofNat hk
  rw [h]
  rcases le_or_gt e 971 with hle | hlt
  · rw [unpack_pack_normal _ hm h0 he hle]
    nofun
  · rw [unpack_pack_large _ h0 hlt]
    nofun

theorem isFinite_ofNat {k n : Nat} (hk : k < 2 ^ n) (hn : n ≤ 1023) :
    (Float.ofNat k).isFinite = true := by
  rcases Nat.eq_zero_or_pos k with rfl | hpos
  · rfl
  · obtain ⟨m, e, h0, hm, he, he', h⟩ := exists_unpack_ofNat hpos
    have hlog : k.log2 < n := (Nat.log2_lt hpos.ne').2 hk
    have hunfold : (Float.ofNat k).isFinite = (Float.ofNat k).toModel.unpack.isFinite := rfl
    rw [hunfold, h, unpack_pack_normal _ hm h0 he (by omega)]
    rfl

theorem isFinite_of_isNaN {x : Float} (h : x.isNaN = true) : x.isFinite = false := by
  have hnan : x.isNaN = x.toModel.unpack.isNaN := rfl
  have hfinite : x.isFinite = x.toModel.unpack.isFinite := rfl
  rw [hnan] at h
  rw [hfinite]
  cases hu : x.toModel.unpack with
  | notANumber => rfl
  | infinity | zero | finite => rw [hu] at h; cases h

theorem beq_zero_iff (x : Float) : (x == 0) = true ↔ ∃ s, x.toModel.unpack = .zero s := by
  have hunfold : (x == 0) = x.toModel.unpack.beq (.zero .positive) := rfl
  rw [hunfold]
  cases x.toModel.unpack with
  | notANumber => simp [UnpackedFloat.beq, UnpackedFloat.compare]
  | infinity s => cases s <;> simp [UnpackedFloat.beq, UnpackedFloat.compare]
  | zero s => simp [UnpackedFloat.beq, UnpackedFloat.compare]
  | finite s => cases s <;> simp [UnpackedFloat.beq, UnpackedFloat.compare]

theorem isFinite_neg (x : Float) : (-x).isFinite = x.isFinite := by
  have hunfold : ∀ y : Float, y.isFinite = y.toModel.unpack.isFinite := fun _ => rfl
  rw [hunfold, hunfold, unpack_neg]
  cases x.toModel.unpack <;> rfl

theorem isFinite_signed (negative : Bool) (x : Float) :
    (signed negative x).isFinite = x.isFinite := by
  cases negative with
  | false => rfl
  | true => exact isFinite_neg x

theorem neg_double_inj {x y : Float} : -x = -y ↔ x = y := by
  have hneg : ∀ u : UnpackedFloat, u.neg.neg = u := by
    intro u
    cases u with
    | notANumber => rfl
    | infinity s | zero s | finite s => cases s <;> rfl
  rw [← unpack_inj, ← unpack_inj (x := x), unpack_neg, unpack_neg]
  refine ⟨fun h => ?_, congrArg _⟩
  rw [← hneg x.toModel.unpack, h, hneg]

theorem signed_inj {negative : Bool} {x y : Float} :
    signed negative x = signed negative y ↔ x = y := by
  cases negative with
  | false => rfl
  | true => exact neg_double_inj

theorem ofInt_neg (k : Nat) (hk : 0 < k) : Float.ofInt (-k) = -Float.ofNat k := by
  obtain ⟨j, rfl⟩ := Nat.exists_eq_succ_of_ne_zero hk.ne'
  rfl

/-- Whether a number has no sign: a number above zero, a zero without a sign, or none at all. -/
def unsigned : UnpackedFloat → Bool
  | .infinity s => s == .positive
  | .zero s => s == .positive
  | .finite s .. => s == .positive
  | .notANumber => true

theorem unpackSign_pack {u : UnpackedFloat} (h : unsigned u = true) :
    unpackSign (pack binary64 u) = 0#1 := by
  cases u with
  | notANumber => rfl
  | infinity s | zero s =>
    obtain rfl : s = .positive := by simpa [unsigned] using h
    rfl
  | finite s m e h0 =>
    obtain rfl : s = .positive := by simpa [unsigned] using h
    simp only [pack, packedInfinity]
    split_ifs <;> exact unpackSign_packComponents _ _ _

theorem unsigned_unpack {b : BitVec binary64.numBits} (h : unpackSign b = 0#1) :
    unsigned (unpack binary64 b) = true := by
  simp only [unpack, h]
  split_ifs <;> rfl

theorem unsigned_unpack_pack {u : UnpackedFloat} (h : unsigned u = true) :
    unsigned (unpack binary64 (pack binary64 u)) = true :=
  unsigned_unpack (unpackSign_pack h)

theorem unsigned_roundWithAccuracy (m : Nat) (e : Int) (a : Accuracy) :
    unsigned (roundWithAccuracy binary64 .positive m e a) = true := by
  simp only [roundWithAccuracy]
  split_ifs <;> rfl

theorem unsigned_mul {u v : UnpackedFloat} (hu : unsigned u = true) (hv : unsigned v = true) :
    unsigned (mul binary64 u v) = true := by
  rcases u with s | _ | s | s <;> rcases v with t | _ | t | t <;>
    simp only [unsigned, beq_iff_eq] at hu hv <;> subst_vars <;>
    first | rfl | exact unsigned_roundWithAccuracy _ _ _

theorem unsigned_div {u v : UnpackedFloat} (hu : unsigned u = true) (hv : unsigned v = true) :
    unsigned (div binary64 u v) = true := by
  rcases u with s | _ | s | s <;> rcases v with t | _ | t | t <;>
    simp only [unsigned, beq_iff_eq] at hu hv <;> subst_vars <;>
    first | rfl | exact unsigned_roundWithAccuracy _ _ _

theorem unsigned_ofScientific (m : Nat) (e : Int) :
    unsigned (ofScientific binary64 m e) = true := by
  rw [ofScientific]
  split_ifs
  · rfl
  · rfl
  · rfl
  · exact unsigned_mul rfl rfl
  · exact unsigned_div rfl rfl

theorem unsigned_toFloat (n : UInt64) : unsigned n.toFloat.toModel.unpack = true := by
  refine unsigned_unpack_pack ?_
  simp only [UnpackedFloat.ofUInt64, UnpackedFloat.ofNat, UnpackedFloat.ofInt,
    UnpackedFloat.normalize]
  split
  · rename_i h
    rw [Int.compare_eq_lt] at h
    omega
  · rfl
  · exact unsigned_roundWithAccuracy _ _ _

theorem unsigned_powerOfTen : ∀ e : Fin 23,
    unsigned (Float.exactlyRepresentablePowersOfTen[e]).toModel.unpack = true := by
  decide

theorem unsigned_nearest (digits : Nat) (scale : Int) :
    unsigned (nearest digits scale).toModel.unpack = true := by
  have h : ∀ (s : Bool) (e : Nat),
      unsigned (Float.ofScientific digits s e).toModel.unpack = true := fun s e => by
    by_cases hsmall : digits < 2 ^ 53 ∧ e ≤ 22
    · have hword := unsigned_toFloat digits.toUInt64
      have hpower := unsigned_powerOfTen ⟨e, by omega⟩
      rw [Float.ofScientific, dif_pos hsmall]
      cases s with
      | true => exact unsigned_unpack_pack (unsigned_div hword hpower)
      | false => exact unsigned_unpack_pack (unsigned_mul hword hpower)
    · rw [Float.ofScientific, dif_neg hsmall]
      exact unsigned_unpack_pack (unsigned_ofScientific _ _)
  rw [nearest]
  split_ifs <;> exact h _ _

namespace Wide

theorem unsigned_toDouble (w : Wide) : unsigned w.toDouble.toModel.unpack = true := by
  rw [toDouble]
  split_ifs
  · rfl
  · rfl
  · exact unsigned_nearest _ _
  · exact unsigned_nearest _ _

theorem unsigned_read (n : Numeral) : unsigned (read n).toModel.unpack = true := by
  simp only [read, ofScaled]
  split_ifs
  · rfl
  · exact unsigned_toDouble _
  · exact unsigned_toDouble _

end Wide

end TableTalk.Decimal
