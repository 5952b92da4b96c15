import TableTalk.Proofs.Decimal.Double
import TableTalk.Store.Function

/-!
# Rounding stays in range

A quotient of doubles has at most the exponent that the two differ by, or the next one
(`bounded_div`), so a decimal with few digits in front of the point has a finite double
(`isFinite_nearest`).

A number of 64 digits is worth its digits times a power of two (`Wide.value`). Each step of a
conversion at most doubles what it should be worth: the steps are few, so what is read of a decimal
of few digits is finite, too (`Wide.isFinite_read`). Then rounding to some places neither makes a
double infinite nor an infinite one finite (`Cell.isFinite_roundReal`).
-/

namespace TableTalk.Decimal

open Float.Model (UnpackedFloat totalExponent)
open Float.Model.UnpackedFloat
open Float.Model.Format (binary64)

/-- A finite number whose exponent is bounded. -/
def Bounded (k : Int) : UnpackedFloat → Prop
  | .zero _ => True
  | .finite _ _ e _ => e ≤ k
  | _ => False

/-- A number is finite unless all bits of its exponent are set. -/
theorem isFinite_unpack {b : BitVec binary64.numBits} (h : unpackExponent b ≠ -1#11) :
    (unpack binary64 b).isFinite = true := by
  rw [unpack, if_neg h]
  split_ifs <;> rfl

theorem isFinite_unpack_pack {u : UnpackedFloat} (h : Bounded 971 u) :
    (unpack binary64 (pack binary64 u)).isFinite = true := by
  cases u with
  | notANumber | infinity s => exact h.elim
  | zero s => cases s <;> rfl
  | finite s m e h0 =>
    have he : e ≤ 971 := h
    have hbias : (e + (binary64.exponentBias : Nat) + (52 : Nat)).toNat < 2047 := by
      simp only [Float.Model.Format.exponentBias]
      norm_num
      omega
    refine isFinite_unpack fun hones => ?_
    have hones := congrArg BitVec.toNat hones
    revert hones
    simp only [pack]
    rw [if_neg (show ¬2 ^ 11 ≤ _ by omega)]
    split_ifs <;> simp only [unpackExponent_packComponents, BitVec.toNat_ofNat]
    · rw [Nat.mod_eq_of_lt (by omega)]
      exact hbias.ne
    · decide

theorem div_two_pow_lt {m k b : Nat} (h : m.log2 ≤ b + k) : m / 2 ^ k < 2 ^ (b + 1) := by
  rw [Nat.div_lt_iff_lt_mul (by positivity), ← pow_add]
  exact Nat.lt_log2_self.trans_le (Nat.pow_le_pow_right (by decide) (by omega))

theorem mantissa_ofMantissaAndAccuracy (m : Nat) (a : Accuracy) :
    (ExtendedMantissa.ofMantissaAndAccuracy m a).mantissa = m := by
  rcases a with _ | _ | _ | _ <;> rfl

/-- A number is rounded to an exponent that lets its digits fit, or to the next one. -/
theorem bounded_round (s : Sign) {m : Nat} {e k : Int} (a : Accuracy) (he : e ≤ k)
    (hm : m.log2 + e ≤ k + 52) (hk : -1074 ≤ k) :
    Bounded (k + 1) (roundWithAccuracy binary64 s m e a) := by
  have ht := targetExponent_eq m e
  obtain ⟨r, hr, hle⟩ : ∃ r, (shiftToTargetExponent binary64 m e a).1.roundedMantissa = r ∧
      r ≤ 2 ^ 53 := by
    refine ⟨_, rfl, (roundedMantissa_mem _).2.trans ?_⟩
    simp only [shiftToTargetExponent, shiftToExponent, mantissa_shiftRight,
      mantissa_ofMantissaAndAccuracy]
    exact div_two_pow_lt (by omega)
  obtain ⟨f, hf, hfk⟩ : ∃ f, (shiftToTargetExponent binary64 m e a).2 = f ∧ f ≤ k :=
    ⟨_, rfl, by simp only [shiftToTargetExponent, shiftToExponent]; omega⟩
  -- rounding up can carry into one more digit, which the second shift takes off again
  have hlog : r.log2 ≤ 53 := by
    rcases Nat.eq_zero_or_pos r with rfl | hpos
    · decide
    · exact Nat.le_of_lt_succ ((Nat.log2_lt hpos.ne').2 (hle.trans_lt (by decide)))
  have hlast : (shiftToTargetExponent binary64 r f .exact).2 ≤ k + 1 := by
    have ht := targetExponent_eq r f
    simp only [shiftToTargetExponent, shiftToExponent]
    omega
  simp only [roundWithAccuracy, hr, hf]
  split_ifs
  · trivial
  · exact hlast

theorem log2_div_le (m q : Nat) (k : Nat) (hq : 0 < q) :
    (m * 2 ^ k / q).log2 ≤ m.log2 + k - q.log2 := by
  have hlt : m * 2 ^ k / q < 2 ^ (m.log2 + k - q.log2 + 1) := by
    rw [Nat.div_lt_iff_lt_mul hq]
    calc m * 2 ^ k < 2 ^ (m.log2 + 1) * 2 ^ k :=
          Nat.mul_lt_mul_of_pos_right Nat.lt_log2_self (by positivity)
      _ ≤ 2 ^ (m.log2 + k - q.log2 + 1) * 2 ^ q.log2 := by
          rw [← pow_add, ← pow_add]
          exact Nat.pow_le_pow_right (by decide) (by omega)
      _ ≤ 2 ^ (m.log2 + k - q.log2 + 1) * q :=
          Nat.mul_le_mul_left _ (Nat.log2_self_le hq.ne')
  rcases Nat.eq_zero_or_pos (m * 2 ^ k / q) with hzero | hpos
  · rw [hzero]
    exact Nat.zero_le _
  · exact Nat.le_of_lt_succ ((Nat.log2_lt hpos.ne').2 hlt)

/-- A quotient has at most the exponent that the digits of the two numbers differ by. -/
theorem bounded_div (s t : Sign) {m q : Nat} {e f k : Int} (hm : 0 < m) (hq : 0 < q)
    (he : e - f ≤ k) (hlog : (m.log2 : Int) + e - (q.log2 + f) ≤ k + 52) (hk : -52 ≤ k) :
    Bounded (k + 1) (div binary64 (.finite s m e hm) (.finite t q f hq)) := by
  rw [div, divCore]
  refine bounded_round _ _ (by omega) ?_ (by omega)
  rw [Nat.shiftLeft_eq]
  have hle := log2_div_le m q (e - f - min (e - f)
    (binary64.targetExponent (totalExponent m e - totalExponent q f))).toNat hq
  -- the quotient has the digits that the shift adds, less those of the divisor
  have htarget : binary64.targetExponent (totalExponent m e - totalExponent q f) ≤
      max ((m.log2 : Int) + e - (q.log2 + f) - 52) (-1074) := by
    simp only [Float.Model.Format.targetExponent, totalExponent, Float.Model.Format.mantissaBits,
      Float.Model.Format.minExponent]
    norm_num
    omega
  omega

/-- A whole number over a power of ten is finite if the quotient is. -/
theorem bounded_ofScientific {m j n : Nat} (hn : n ≤ 1022) (hj : 0 < j) (h : m < 2 ^ n * 10 ^ j) :
    Bounded 971 (ofScientific binary64 m (-j)) := by
  have hten : 0 < 10 ^ j := by positivity
  rw [ofScientific]
  split_ifs with hzero hlarge hsmall hpos
  · trivial
  · exact absurd hlarge (by simp)
  · trivial
  · omega
  · refine bounded_div _ _ _ _ (k := 970) (by decide) ?_ (by decide)
    have hexp : (-(-(j : Int))).toNat = j := by omega
    have hlog : m.log2 < n + ((10 ^ j).log2 + 1) := (Nat.log2_lt hzero).2 <| by
      rw [pow_add]
      exact h.trans_le (Nat.mul_le_mul_left _ Nat.lt_log2_self.le)
    rw [hexp]
    omega

/-- Whether a number has as many digits in front of the point as one. -/
def wide : UnpackedFloat → Bool
  | .finite _ m e _ => decide (0 ≤ m.log2 + e) && decide (-52 ≤ e)
  | _ => false

theorem wide_powerOfTen : ∀ e : Fin 23,
    wide (Float.exactlyRepresentablePowersOfTen[e]).toModel.unpack = true := by
  decide

theorem isFinite_ofScientific_small {m : Nat} (hm : m < 2 ^ 53) (e : Fin 23) :
    (m.toUInt64.toFloat / Float.exactlyRepresentablePowersOfTen[e]).isFinite = true := by
  have hpower := wide_powerOfTen e
  have hunfold : ∀ x y : Float, (x / y).isFinite = (unpack binary64 (pack binary64
      (div binary64 x.toModel.unpack y.toModel.unpack))).isFinite := fun _ _ => rfl
  rw [hunfold]
  generalize (Float.exactlyRepresentablePowersOfTen[e]).toModel.unpack = u at hpower ⊢
  rcases u with _ | _ | _ | ⟨t, q, f, hq⟩
  · cases hpower
  · cases hpower
  · cases hpower
  · simp only [wide, Bool.and_eq_true, decide_eq_true_eq] at hpower
    rcases Nat.eq_zero_or_pos m with rfl | hpos
    · have hzero : (0 : Nat).toUInt64.toFloat.toModel.unpack = .zero .positive := rfl
      rw [hzero]
      exact isFinite_unpack_pack trivial
    · have hlog : m.log2 < 53 := (Nat.log2_lt hpos.ne').2 hm
      have hj : (m * 2 ^ (52 - m.log2)).log2 = 52 := by
        rw [log2_mul_two_pow hpos.ne']
        omega
      rw [unpack_toFloat hj hpos]
      exact isFinite_unpack_pack (bounded_div _ _ _ _ (k := 970) (by omega) (by omega) (by decide))

/-- A decimal with few digits in front of the point has a finite double. -/
theorem isFinite_nearest {m j n : Nat} (hn : n ≤ 1022) (h : m < 2 ^ n * 10 ^ j) :
    (nearest m (-j)).isFinite = true := by
  rcases Nat.eq_zero_or_pos j with rfl | hj
  · exact isFinite_ofNat (by simpa using h) (hn.trans (by decide))
  · have hunfold : nearest m (-j) = Float.ofScientific m true j := by
      rw [nearest, if_neg (by omega)]
      congr
      omega
    rw [hunfold, Float.ofScientific]
    by_cases hsmall : m < 2 ^ 53 ∧ j ≤ 22
    · rw [dif_pos hsmall]
      exact isFinite_ofScientific_small hsmall.1 ⟨j, by omega⟩
    · rw [dif_neg hsmall]
      have hneg : Int.negOfNat j = -j := Int.negOfNat_eq
      exact isFinite_unpack_pack (hneg ▸ bounded_ofScientific hn hj h)

/-- A quotient is rounded up only if a half of it is missing. -/
theorem mul_roundDiv_le (tie : Tie) (num den : Nat) : den * roundDiv tie num den ≤ 2 * num := by
  have hmod := Nat.div_add_mod num den
  have hle : roundDiv tie num den ≤ num / den ∨
      roundDiv tie num den ≤ num / den + 1 ∧ den ≤ 2 * (num % den) := by
    simp only [roundDiv]
    split_ifs
    · omega
    · omega
    · cases tie <;> simp only <;> omega
  rcases hle with hle | ⟨hle, hrest⟩
  · have := Nat.mul_le_mul_left den hle
    omega
  · have := Nat.mul_le_mul_left den hle
    rw [Nat.mul_succ] at this
    have := Nat.mod_le num den
    omega

namespace Wide

/-- The number that the digits and the exponent stand for. -/
def value (w : Wide) : ℚ := w.significand * 2 ^ w.exponent

variable {a b w : Wide}

theorem value_nonneg (w : Wide) : 0 ≤ w.value := by
  unfold value
  positivity

theorem value_eq_of_le {least : Int} (h : least ≤ w.exponent) :
    w.value = (w.significand * 2 ^ (w.exponent - least).toNat : Nat) * 2 ^ least := by
  have hexp : (2 : ℚ) ^ w.exponent = 2 ^ (w.exponent - least).toNat * 2 ^ least := by
    rw [← zpow_natCast, ← zpow_add₀ two_ne_zero]
    congr
    omega
  rw [value, hexp]
  push_cast
  ring

theorem compare_eq_lt : a.compare b = .lt ↔ a.value < b.value := by
  have hleast : (0 : ℚ) < 2 ^ min a.exponent b.exponent := by positivity
  rw [value_eq_of_le (min_le_left a.exponent b.exponent),
    value_eq_of_le (min_le_right a.exponent b.exponent), mul_lt_mul_iff_left₀ hleast, Nat.cast_lt]
  exact Nat.compare_eq_lt

theorem compare_eq_gt : a.compare b = .gt ↔ b.value < a.value := by
  have hleast : (0 : ℚ) < 2 ^ min a.exponent b.exponent := by positivity
  rw [value_eq_of_le (min_le_left a.exponent b.exponent),
    value_eq_of_le (min_le_right a.exponent b.exponent), mul_lt_mul_iff_left₀ hleast, Nat.cast_lt]
  exact Nat.compare_eq_gt

theorem value_round_le (m : Nat) (e : Int) : (round m e).value ≤ 2 * (m * 2 ^ e) := by
  have h := mul_roundDiv_le .toEven m (2 ^ (m.log2 - 63))
  have h : (2 : ℚ) ^ (m.log2 - 63) * roundDiv .toEven m (2 ^ (m.log2 - 63)) ≤ 2 * m := by
    exact_mod_cast h
  have hexp : (2 : ℚ) ^ (e + (m.log2 - 63 : Nat)) = 2 ^ e * 2 ^ (m.log2 - 63) := by
    rw [zpow_add₀ two_ne_zero, zpow_natCast]
  calc (round m e).value
      = roundDiv .toEven m (2 ^ (m.log2 - 63)) * 2 ^ (e + (m.log2 - 63 : Nat)) := rfl
    _ = 2 ^ e * (2 ^ (m.log2 - 63) * roundDiv .toEven m (2 ^ (m.log2 - 63))) := by
      rw [hexp]
      ring
    _ ≤ 2 ^ e * (2 * m) := by gcongr
    _ = 2 * (m * 2 ^ e) := by ring

theorem value_times_le (a b : Wide) : (a.times b).value ≤ 2 * (a.value * b.value) := by
  refine (value_round_le _ _).trans_eq ?_
  rw [value, value, zpow_add₀ two_ne_zero]
  push_cast
  ring

theorem value_power_le (k : Nat) : (power k).value ≤ 2 * 10 ^ k := by
  refine (value_round_le _ _).trans_eq ?_
  simp

theorem value_inverse_le (k : Nat) : (inverse k).value ≤ 2 / 10 ^ k := by
  have h := mul_roundDiv_le .toEven (2 ^ (64 + (10 ^ k).log2)) (10 ^ k)
  rw [value, inverse, le_div_iff₀ (by positivity)]
  generalize 64 + (10 ^ k).log2 = shift at h ⊢
  have h : (10 : ℚ) ^ k * roundDiv .toEven (2 ^ shift) (10 ^ k) ≤ 2 * 2 ^ shift := by
    exact_mod_cast h
  rw [zpow_neg, zpow_natCast]
  calc (roundDiv .toEven (2 ^ shift) (10 ^ k) : ℚ) * (2 ^ shift)⁻¹ * 10 ^ k
      = 10 ^ k * roundDiv .toEven (2 ^ shift) (10 ^ k) * (2 ^ shift)⁻¹ := by ring
    _ ≤ 2 * 2 ^ shift * (2 ^ shift)⁻¹ := by gcongr
    _ = 2 := mul_inv_cancel_right₀ (by positivity) _

/-- A number has at most 64 digits, or is the next power of two. -/
theorem significand_round_le (m : Nat) (e : Int) : (round m e).significand ≤ 2 ^ 65 := by
  have h := mul_roundDiv_le .toEven m (2 ^ (m.log2 - 63))
  refine Nat.le_of_mul_le_mul_left (h.trans ?_) (by positivity : 0 < 2 ^ (m.log2 - 63))
  have hlt : m < 2 ^ (m.log2 - 63 + 64) :=
    Nat.lt_log2_self.trans_le (Nat.pow_le_pow_right (by decide) (by omega))
  rw [pow_add] at hlt
  omega

variable {c : ℚ}

/-- A factor multiplied some times. -/
theorem value_repeated_le {factor : Wide} (hc : 2 * factor.value ≤ c) :
    ∀ (n : Nat) (w : Wide), (repeated factor n w).value ≤ c ^ n * w.value
  | 0, w => by simp [repeated]
  | n + 1, w => by
    have hnonneg : 0 ≤ c := (mul_nonneg two_pos.le factor.value_nonneg).trans hc
    have hstep : (w.times factor).value ≤ c * w.value := by
      have := mul_le_mul_of_nonneg_right hc w.value_nonneg
      have := value_times_le w factor
      linarith
    calc (repeated factor n (w.times factor)).value
        ≤ c ^ n * (w.times factor).value := value_repeated_le hc n _
      _ ≤ c ^ n * (c * w.value) := mul_le_mul_of_nonneg_left hstep (pow_nonneg hnonneg n)
      _ = c ^ (n + 1) * w.value := by ring

theorem value_scaled_le {factor : Nat → Wide} (hc : ∀ k > 0, 2 * (factor k).value ≤ c ^ k) (n : Nat)
    (w : Wide) : (scaled factor n w).value ≤ c ^ n * w.value := by
  have hnonneg : 0 ≤ c := by
    have := hc 1 one_pos
    have := (factor 1).value_nonneg
    linarith
  calc (scaled factor n w).value
      ≤ (c ^ 1) ^ (n % 10) * ((c ^ 10) ^ (n % 100 / 10) * ((c ^ 100) ^ (n / 100) * w.value)) := by
        refine (value_repeated_le (hc 1 (by decide)) _ _).trans ?_
        gcongr
        refine (value_repeated_le (hc 10 (by decide)) _ _).trans ?_
        gcongr
        exact value_repeated_le (hc 100 (by decide)) _ _
    _ = c ^ (1 * (n % 10) + (10 * (n % 100 / 10) + 100 * (n / 100))) * w.value := by
        rw [← pow_mul, ← pow_mul, ← pow_mul, pow_add, pow_add]
        ring
    _ = c ^ n * w.value := by
        congr 2
        omega

theorem significand_scaled_le (factor : Nat → Wide) (n : Nat) {w : Wide}
    (h : w.significand ≤ 2 ^ 65) : (scaled factor n w).significand ≤ 2 ^ 65 := by
  have hrepeated : ∀ (f : Wide) (n : Nat) {w : Wide}, w.significand ≤ 2 ^ 65 →
      (repeated f n w).significand ≤ 2 ^ 65 := by
    intro f n
    induction n with
    | zero => exact fun h => h
    | succ n ih => exact fun _ => ih (significand_round_le _ _)
  exact hrepeated _ _ (hrepeated _ _ (hrepeated _ _ h))

/-- A factor is multiplied only to what is below a bound. -/
theorem value_settled_le {bound factor : Wide} (step : Int)
    (hc : 2 * (bound.value * factor.value) ≤ c) : ∀ (fuel : Nat) {r : Wide × Int},
    r.1.value ≤ c →
      (settled (fun w => w.compare bound == .lt) factor step fuel r).1.value ≤ c
  | 0, _, hr => hr
  | fuel + 1, (w, e), hr => by
    rw [settled]
    split_ifs with h
    · refine value_settled_le step hc fuel ((value_times_le _ _).trans ?_)
      have hbound := compare_eq_lt.1 (eq_of_beq h)
      have := mul_le_mul_of_nonneg_right hbound.le factor.value_nonneg
      linarith
    · exact hr

theorem exponent_settled_le {outside : Wide → Bool} {factor : Wide} {step : Int}
    (hstep : step ≤ 0) : ∀ (fuel : Nat) (r : Wide × Int), (settled outside factor step fuel r).2 ≤ r.2
  | 0, r => le_rfl
  | fuel + 1, (w, e) => by
    rw [settled]
    split_ifs with h
    · exact (exponent_settled_le hstep fuel _).trans (by simpa using hstep)
    · exact le_rfl

theorem floor_le (w : Wide) : (w.floor : ℚ) ≤ w.value := by
  have hexp : (2 : ℚ) ^ w.exponent = 2 ^ w.exponent.toNat / 2 ^ (-w.exponent).toNat := by
    rw [← zpow_natCast, ← zpow_natCast, ← zpow_sub₀ two_ne_zero]
    congr
    omega
  rw [floor, value, hexp, ← mul_div_assoc]
  exact_mod_cast Nat.cast_div_le

/-- A number in the range of doubles has a finite one. -/
theorem isFinite_toDouble {n : Nat} (hn : n ≤ 1022) (hdigits : w.significand < 2 ^ n)
    (h : w.value < 2 ^ n) : w.toDouble.isFinite = true := by
  have hlargest : (2 : ℚ) ^ n ≤ largest.value := by
    have hpow : (2 : ℚ) ^ (n : Int) ≤ 2 ^ (51 : Int) * 2 ^ largest.exponent := by
      rw [← zpow_add₀ two_ne_zero]
      exact zpow_le_zpow_right₀ one_le_two (Int.ofNat_le.2 hn)
    have hdigits : (2 : ℚ) ^ (51 : Int) ≤ largest.significand := by
      norm_num [largest]
    rw [zpow_natCast] at hpow
    exact hpow.trans (mul_le_mul_of_nonneg_right hdigits (by positivity))
  rw [toDouble]
  split_ifs with hsmall hlarge hwhole
  · rfl
  · exact absurd (compare_eq_gt.1 (eq_of_beq hlarge)) (by linarith)
  · refine isFinite_nearest (j := 0) hn ?_
    rw [pow_zero, mul_one]
    rw [value_eq_of_le hwhole, zpow_zero, mul_one, sub_zero] at h
    exact_mod_cast h
  · obtain ⟨j, hj⟩ : ∃ j : Nat, w.exponent = -j := ⟨(-w.exponent).toNat, by omega⟩
    rw [hj, neg_neg, Int.toNat_natCast]
    refine isFinite_nearest hn ?_
    exact Nat.mul_lt_mul_of_lt_of_le hdigits (Nat.pow_le_pow_left (by decide) j) (by positivity)

theorem significand_collect_le : ∀ (cs : List Char) {s : Nat}, s ≤ 2 ^ 65 →
    (collect s cs).1 ≤ 2 ^ 65
  | [], _, h => h
  | c :: cs, s, h => by
    rw [collect]
    split_ifs with hroom
    · refine significand_collect_le cs ?_
      have hc : c.toNat < 2 ^ 32 := c.val.toNat_lt
      omega
    · exact h

theorem raised_le : ∀ (e : Nat) {s : Nat}, s ≤ 2 ^ 65 →
    (raised s e).1 ≤ 2 ^ 65 ∧ (raised s e).2 ≤ e
  | 0, _, h => ⟨h, le_rfl⟩
  | e + 1, s, h => by
    rw [raised]
    split_ifs with hroom
    · have := raised_le e (s := 10 * s) (by omega)
      exact ⟨this.1, this.2.trans e.le_succ⟩
    · exact ⟨h, le_rfl⟩

theorem lowered_le : ∀ (e : Nat) {s : Nat}, s ≤ 2 ^ 65 →
    (lowered s e).1 ≤ 2 ^ 65 
  | 0, _, h => h
  | e + 1, s, h => by
    rw [lowered]
    split_ifs with hroom
    · exact lowered_le e (by omega)
    · exact h

theorem isFinite_scaled {factor : Nat → Wide} {c : ℚ} {m n k : Nat}
    (hfactor : ∀ k > 0, 2 * (factor k).value ≤ c ^ k) (hm : m ≤ 2 ^ 65) (hk : k ≤ 950)
    (hc : c ^ n ≤ 2 ^ k) : (scaled factor n ⟨m, 0⟩).toDouble.isFinite = true := by
  have hvalue : (scaled factor n ⟨m, 0⟩).value < 2 ^ (k + 66) := by
    have hstart : (Wide.mk m 0).value = m := by simp [value]
    calc (scaled factor n ⟨m, 0⟩).value ≤ c ^ n * m := hstart ▸ value_scaled_le hfactor n _
      _ ≤ 2 ^ k * 2 ^ 65 := by
        gcongr
        exact_mod_cast hm
      _ < 2 ^ (k + 66) := by
        rw [← pow_add]
        exact pow_lt_pow_right₀ one_lt_two (by omega)
  refine isFinite_toDouble (by omega) ?_ hvalue
  calc (scaled factor n ⟨m, 0⟩).significand ≤ 2 ^ 65 := significand_scaled_le factor n hm
    _ < 2 ^ (k + 66) := Nat.pow_lt_pow_right (by decide) (by omega)

theorem two_mul_value_power_le : ∀ k > 0, 2 * (power k).value ≤ 40 ^ k := by
  intro k hk
  calc 2 * (power k).value ≤ 4 * 10 ^ k := by
        have := value_power_le k
        linarith
    _ ≤ 4 ^ k * 10 ^ k := by
        gcongr
        exact le_self_pow₀ (by norm_num) hk.ne'
    _ = 40 ^ k := by
        rw [← mul_pow]
        norm_num

theorem two_mul_value_inverse_le : ∀ k > 0, 2 * (inverse k).value ≤ 1 ^ k := by
  intro k hk
  have hten : (10 : ℚ) ≤ 10 ^ k := le_self_pow₀ (by norm_num) hk.ne'
  calc 2 * (inverse k).value ≤ 2 * (2 / 10 ^ k) :=
        mul_le_mul_of_nonneg_left (value_inverse_le k) two_pos.le
    _ ≤ 2 * (2 / 10) := by gcongr
    _ ≤ 1 ^ k := by norm_num

/-- A decimal of few digits in front of the point is read as a finite double. -/
theorem isFinite_read {n : Numeral} (he : n.exponent = 0) (h : n.whole.length ≤ 100) :
    (read n).isFinite = true := by
  have hdigits := significand_collect_le (n.fraction.getD [])
    (significand_collect_le n.whole (s := 0) (by decide))
  simp only [read, ofScaled, he]
  split_ifs with hzero hwhole
  · rfl
  · have hbounded : bounded 0 = 0 := by decide
    rw [hbounded] at hwhole ⊢
    obtain ⟨hraised, hcount⟩ := raised_le
      (0 + ((n.whole.length - (collect 0 n.whole).2 : Nat) : Int) -
        ((collect (collect 0 n.whole).1 (n.fraction.getD [])).2 : Int)).toNat hdigits
    refine isFinite_scaled (k := 600) two_mul_value_power_le hraised (by decide) ?_
    generalize (raised _ _).2 = k at hcount ⊢
    calc (40 : ℚ) ^ k ≤ (2 ^ 6) ^ k := by gcongr; norm_num
      _ ≤ 2 ^ 600 := by
        rw [← pow_mul]
        exact pow_le_pow_right₀ one_le_two (by omega)
  · exact isFinite_scaled (k := 0) two_mul_value_inverse_le (lowered_le _ hdigits) (by decide)
      (by simp)

end Wide

theorem units_le (places : Nat) {d : Scaled} (h : d.exponent ≤ 0) :
    d.units places ≤ 2 * d.digits * 10 ^ places := by
  simp only [Scaled.units]
  split_ifs with hexcess
  · have hle := mul_roundDiv_le .away d.digits (10 ^ (-d.exponent - places).toNat)
    have hone : 0 < 10 ^ (-d.exponent - places).toNat := by positivity
    calc roundDiv .away d.digits (10 ^ (-d.exponent - places).toNat)
        ≤ 2 * d.digits := (Nat.le_mul_of_pos_left _ hone).trans hle
      _ ≤ 2 * d.digits * 10 ^ places := Nat.le_mul_of_pos_right _ (by positivity)
  · have hpow : 10 ^ (-(-d.exponent - (places : Int))).toNat ≤ 10 ^ places :=
      Nat.pow_le_pow_right (by decide) (by omega)
    calc d.digits * 10 ^ (-(-d.exponent - (places : Int))).toNat
        ≤ d.digits * 10 ^ places := Nat.mul_le_mul_left _ hpow
      _ ≤ 2 * d.digits * 10 ^ places := Nat.mul_le_mul_right _ (by omega)

theorem length_split_le (digits places : Nat) :
    (split digits (-places)).1.length ≤ (digitChars digits).length + 1 := by
  simp only [split]
  split_ifs with hplaces
  · obtain rfl : places = 0 := by omega
    simp [zeros]
  · simp only [zeros, List.length_take, List.length_append, List.length_replicate]
    omega

/-- A double up to `2 ^ 52` as a whole number and a power of ten. -/
theorem decimal_le {m : Nat} {e : Int} (h : (m : ℚ) * 2 ^ e ≤ 2 ^ 52) :
    (Wide.decimal m e).digits ≤ 10 ^ 19 ∧ (Wide.decimal m e).exponent ≤ 0 := by
  have hpower : Wide.power 19 = ⟨10 ^ 19, 0⟩ := by decide
  have hstart : (Wide.mk m e).value ≤ 2 ^ 52 := h
  have habove : (Wide.mk m e).compare (Wide.power 19) = .lt := by
    refine Wide.compare_eq_lt.2 (hstart.trans_lt ?_)
    rw [hpower]
    norm_num [Wide.value]
  have hproduct : ∀ {a b : Wide} {x y : ℚ}, a.value ≤ x → b.value ≤ y → 2 * (x * y) ≤ 10 ^ 19 →
      2 * (a.value * b.value) ≤ 10 ^ 19 := by
    intro a b x y ha hb hxy
    have := mul_le_mul ha hb b.value_nonneg (a.value_nonneg.trans ha)
    linarith
  -- what a stage leaves is below its bound times its factor, or what it was before
  have hcoarse := Wide.value_settled_le (-100) (r := (⟨m, e⟩, 0))
    (hproduct (Wide.value_inverse_le 97) (Wide.value_power_le 100) (by norm_num)) 12
    (hstart.trans (by norm_num))
  have hmiddle := Wide.value_settled_le (-10)
    (hproduct (Wide.value_power_le 7) (Wide.value_power_le 10) (by norm_num)) 12 hcoarse
  have hfine := Wide.value_settled_le (-1)
    (hproduct (Wide.value_power_le 17) (Wide.value_power_le 1) (by norm_num)) 12 hmiddle
  simp only [Wide.decimal, habove, bne_self_eq_false, Bool.false_eq_true, if_false]
  constructor
  · have hfloor := (Wide.floor_le _).trans hfine
    generalize Wide.floor _ = k at hfloor ⊢
    exact_mod_cast hfloor
  · exact (Wide.exponent_settled_le (by decide) 12 _).trans
      ((Wide.exponent_settled_le (by decide) 12 _).trans
        (Wide.exponent_settled_le (by decide) 12 _))

theorem unpack_large : (4503599627370496 : Float).toModel.unpack =
    .finite .positive (2 ^ 52) 0 (by decide) := by
  rfl

/-- What is in order with `2 ^ 52` has a smaller exponent or fewer digits. -/
theorem le_of_not_lt {m : Nat} {e : Int} (hm : m < 2 ^ 53)
    (h : (Ord.compare 0 e).then (Ord.compare (2 ^ 52) m) ≠ .lt) : (m : ℚ) * 2 ^ e ≤ 2 ^ 52 := by
  have hcases : e < 0 ∨ e = 0 ∧ m ≤ 2 ^ 52 := by
    rcases lt_trichotomy e 0 with hneg | rfl | hpos
    · exact .inl hneg
    · refine .inr ⟨rfl, Nat.not_lt.1 fun hlt => h ?_⟩
      rw [Nat.compare_eq_lt.2 hlt]
      rfl
    · rw [Int.compare_eq_lt.2 hpos] at h
      exact absurd rfl h
  rcases hcases with hneg | ⟨rfl, hle⟩
  · calc (m : ℚ) * 2 ^ e ≤ 2 ^ 53 * 2 ^ (-1 : Int) := by
          gcongr
          · exact_mod_cast hm.le
          · exact one_le_two
          · omega
      _ = 2 ^ 52 := by norm_num
  · rw [zpow_zero, mul_one]
    exact_mod_cast hle

theorem lt_iff (x y : Float) :
    x < y ↔ UnpackedFloat.compare x.toModel.unpack y.toModel.unpack = some .lt := by
  have hlt : x < y ↔ decide (x.toModel < y.toModel) = true := Iff.rfl
  rw [hlt, decide_eq_true_eq]
  exact beq_iff_eq

theorem value_le_of_not_lt {x : Float} {negative : Bool} {m : Nat} {e : Int}
    (hx : Binary.ofDouble x = .finite negative m e) (hlow : ¬x < -4503599627370496)
    (hhigh : ¬4503599627370496 < x) : (m : ℚ) * 2 ^ e ≤ 2 ^ 52 := by
  rw [lt_iff, unpack_neg, unpack_large] at hlow
  rw [lt_iff, unpack_large] at hhigh
  rw [Binary.ofDouble] at hx
  rcases hu : x.toModel.unpack with s | _ | s | ⟨s, q, f, h0⟩ <;> rw [hu] at hx hlow hhigh <;>
    cases hx
  · simp
  · have hdigits : m < 2 ^ 53 := by
      rcases unpack_finite hu with h | h
      · exact (Nat.log2_lt h0.ne').1 (by omega)
      · omega
    refine le_of_not_lt hdigits fun hlt => ?_
    cases s with
    | positive => exact hhigh (congrArg some hlt)
    | negative =>
      have hswap : ((Ord.compare e 0).then (Ord.compare m (2 ^ 52))).swap = .lt := by
        rw [Ordering.swap_then, Int.compare_swap, Nat.compare_swap, hlt]
      exact hlow (congrArg some hswap)

end TableTalk.Decimal

namespace TableTalk.Cell
open Decimal

/-- Rounding to some places keeps a finite double so, and no other double becomes one. -/
theorem isFinite_roundReal (x : Float) {places : Nat} (hplaces : places ≤ 30) :
    (roundReal x places).isFinite = x.isFinite := by
  rw [roundReal]
  split_ifs with hlarge hzero
  · rfl
  · obtain ⟨s, hs⟩ := (beq_zero_iff x).1 hzero
    have hunfold : x.isFinite = x.toModel.unpack.isFinite := rfl
    rw [hunfold, hs]
    rfl
  · rw [Bool.or_eq_true, decide_eq_true_eq, decide_eq_true_eq, not_or] at hlarge
    split
    · rename_i negative m e hx
      obtain ⟨hdigits, hexponent⟩ := decimal_le (value_le_of_not_lt hx hlarge.1 hlarge.2)
      have hunits : (Wide.decimal m e).units places < 10 ^ 50 := by
        calc (Wide.decimal m e).units places
            ≤ 2 * (Wide.decimal m e).digits * 10 ^ places := units_le places hexponent
          _ ≤ 2 * 10 ^ 19 * 10 ^ 30 := by gcongr; decide
          _ < 10 ^ 50 := by norm_num
      have hlength := Nat.toDigits_length 10 _ _ (by decide) hunits
      have hwhole := length_split_le ((Wide.decimal m e).units places) places
      rw [digitChars] at hwhole
      have hfinite : x.isFinite = true := by
        have hunfold : x.isFinite = x.toModel.unpack.isFinite := rfl
        rw [Binary.ofDouble] at hx
        rw [hunfold]
        rcases hu : x.toModel.unpack with _ | _ | _ | _ <;> rw [hu] at hx <;> first | rfl | cases hx
      rw [isFinite_signed, hfinite]
      exact Wide.isFinite_read rfl (by dsimp only; omega)
    · rfl

end TableTalk.Cell
