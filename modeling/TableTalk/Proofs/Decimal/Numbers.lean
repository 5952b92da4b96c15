import TableTalk.Proofs.Decimal.Rounding

/-!
# What is read of a decimal is a number

Rounding gives a number, and so do products and quotients of finite ones unless the divisor is zero
(`isNaN_mul`, `isNaN_div`). So no digits make something that is no number, however many they are
(`Wide.isNaN_read`), and a sign in front of them does not either (`isNaN_zero_sub`).
-/

namespace TableTalk.Decimal

open Float.Model (UnpackedFloat)
open Float.Model.UnpackedFloat
open Float.Model.Format (binary64)

theorem isNaN_of_isFinite {u : UnpackedFloat} (h : u.isFinite = true) : u.isNaN = false := by
  cases u with
  | notANumber => cases h
  | infinity | zero | finite => rfl

/-- Packing makes no number of what is none, and nothing else. -/
theorem isNaN_unpack_pack {u : UnpackedFloat} (h : u.isNaN = false) :
    (unpack binary64 (pack binary64 u)).isNaN = false := by
  cases u with
  | notANumber => cases h
  | infinity s | zero s => cases s <;> rfl
  | finite s m e h0 =>
    rcases le_or_gt e 971 with hle | hlt
    · exact isNaN_of_isFinite (isFinite_unpack_pack (u := .finite s m e h0) hle)
    · rw [unpack_pack_large s h0 hlt]
      rfl

theorem isNaN_roundWithAccuracy (s : Sign) (m : Nat) (e : Int) (a : Accuracy) :
    (roundWithAccuracy binary64 s m e a).isNaN = false := by
  simp only [roundWithAccuracy]
  split_ifs <;> rfl

theorem isNaN_mul {u v : UnpackedFloat} (hu : u.isFinite = true) (hv : v.isFinite = true) :
    (mul binary64 u v).isNaN = false := by
  cases u with
  | notANumber | infinity => cases hu
  | zero s =>
    cases v with
    | notANumber | infinity => cases hv
    | zero t | finite t => rfl
  | finite s =>
    cases v with
    | notANumber | infinity => cases hv
    | zero t => rfl
    | finite t => exact isNaN_roundWithAccuracy _ _ _ _

theorem isNaN_div {u v : UnpackedFloat} (hu : u.isFinite = true) (hv : wide v = true) :
    (div binary64 u v).isNaN = false := by
  cases v with
  | notANumber | infinity | zero => cases hv
  | finite t =>
    cases u with
    | notANumber | infinity => cases hu
    | zero s => rfl
    | finite s => exact isNaN_roundWithAccuracy _ _ _ _

theorem isNaN_ofScientific (m : Nat) (e : Int) : (ofScientific binary64 m e).isNaN = false := by
  rw [ofScientific]
  split_ifs
  · rfl
  · rfl
  · rfl
  · exact isNaN_roundWithAccuracy _ _ _ _
  · exact isNaN_roundWithAccuracy _ _ _ _

theorem isFinite_toFloat {k : Nat} (hk : k < 2 ^ 53) :
    k.toUInt64.toFloat.toModel.unpack.isFinite = true := by
  rcases Nat.eq_zero_or_pos k with rfl | hpos
  · rfl
  · have hlog : k.log2 < 53 := (Nat.log2_lt hpos.ne').2 hk
    have hj : (k * 2 ^ (52 - k.log2)).log2 = 52 := by
      rw [log2_mul_two_pow hpos.ne']
      omega
    rw [unpack_toFloat hj hpos]
    rfl

theorem isFinite_of_wide {u : UnpackedFloat} (h : wide u = true) : u.isFinite = true := by
  cases u with
  | finite => rfl
  | notANumber | infinity | zero => cases h

theorem isNaN_nearest (digits : Nat) (scale : Int) : (nearest digits scale).isNaN = false := by
  have h : ∀ (s : Bool) (e : Nat), (Float.ofScientific digits s e).isNaN = false := fun s e => by
    by_cases hsmall : digits < 2 ^ 53 ∧ e ≤ 22
    · have hword := isFinite_toFloat hsmall.1
      have hpower := wide_powerOfTen ⟨e, by omega⟩
      rw [Float.ofScientific, dif_pos hsmall]
      cases s with
      | true => exact isNaN_unpack_pack (isNaN_div hword hpower)
      | false => exact isNaN_unpack_pack (isNaN_mul hword (isFinite_of_wide hpower))
    · rw [Float.ofScientific, dif_neg hsmall]
      exact isNaN_unpack_pack (isNaN_ofScientific _ _)
  rw [nearest]
  split_ifs <;> exact h _ _

theorem isNaN_ofNat (k : Nat) : (Float.ofNat k).isNaN = false := by
  rcases Nat.eq_zero_or_pos k with rfl | hpos
  · rfl
  · obtain ⟨m, e, h0, -, -, -, h⟩ := exists_unpack_ofNat hpos
    have hunfold : (Float.ofNat k).isNaN = (Float.ofNat k).toModel.unpack.isNaN := rfl
    rw [hunfold, h]
    exact isNaN_unpack_pack rfl

theorem isNaN_neg (x : Float) : (-x).isNaN = x.isNaN := by
  have hunfold : ∀ y : Float, y.isNaN = y.toModel.unpack.isNaN := fun _ => rfl
  rw [hunfold, hunfold, unpack_neg]
  cases x.toModel.unpack <;> rfl

theorem isNaN_signed (negative : Bool) (x : Float) : (signed negative x).isNaN = x.isNaN := by
  cases negative with
  | false => rfl
  | true => exact isNaN_neg x

theorem isNaN_ofInt (n : Int) : (Float.ofInt n).isNaN = false := by
  cases n with
  | ofNat k => exact isNaN_ofNat k
  | negSucc k => exact (isNaN_neg _).trans (isNaN_ofNat (k + 1))

/-- What is taken from zero stays a number. -/
theorem isNaN_zero_sub {x : Float} (h : x.isNaN = false) : (0 - x : Float).isNaN = false := by
  have hunfold : (0 - x : Float).isNaN =
      (unpack binary64 (pack binary64 (sub binary64 (.zero .positive) x.toModel.unpack))).isNaN :=
    rfl
  have hnumber : x.toModel.unpack.isNaN = false := h
  rw [hunfold]
  refine isNaN_unpack_pack ?_
  rcases hx : x.toModel.unpack with s | _ | s | s
  · cases s <;> rfl
  · rw [hx] at hnumber
    cases hnumber
  · cases s <;> rfl
  · rfl

namespace Wide

theorem isNaN_toDouble (w : Wide) : w.toDouble.isNaN = false := by
  rw [toDouble]
  split_ifs
  · rfl
  · rfl
  · exact isNaN_nearest _ _
  · exact isNaN_nearest _ _

theorem isNaN_read (n : Numeral) : (read n).isNaN = false := by
  simp only [read, ofScaled]
  split_ifs
  · rfl
  · exact isNaN_toDouble _
  · exact isNaN_toDouble _

end Wide

end TableTalk.Decimal
