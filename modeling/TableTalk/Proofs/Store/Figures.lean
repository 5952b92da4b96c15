import TableTalk.Proofs.Decimal.Double
import TableTalk.Proofs.Decimal.Spelling
import TableTalk.Proofs.Store.Loading
import TableTalk.Store.Function
import TableTalk.Table.Category

/-!
# What columns keep of figures

A number or a text of a row is read as a figure in two ways: from the row (`Row.figure?`), and from
the cell that a loaded table keeps of it (`Cell.tryCastDouble`). A column of texts turns a number
into text and a column of numbers turns a text into a number, so the two can differ.
`Declared.KeepsFigure` says when they agree, and `Store.load_keeps_iff` that they do exactly then.
-/

namespace TableTalk

open Decimal
open Float.Model (UnpackedFloat)
open Float.Model.UnpackedFloat

namespace Cell

theorem unsignedZero_of_zero {x : Float} {s : Sign} (h : x.toModel.unpack = .zero s) :
    unsignedZero x = 0 := by
  rw [unsignedZero, if_pos ((beq_zero_iff x).2 ⟨s, h⟩)]

theorem unsignedZero_of_ne {x : Float} (h : ∀ s, x.toModel.unpack ≠ .zero s) :
    unsignedZero x = x := by
  rw [unsignedZero, if_neg]
  rw [beq_zero_iff]
  rintro ⟨s, hs⟩
  exact h s hs

/-- Only the negative zero loses its sign. -/
theorem unsignedZero_eq_self_iff {x : Float} : unsignedZero x = x ↔ x ≠ -0 := by
  have hneg : (-0 : Float).toModel.unpack = .zero .negative := rfl
  have hzero : (0 : Float).toModel.unpack = .zero .positive := rfl
  by_cases h : ∃ s, x.toModel.unpack = .zero s
  · obtain ⟨s, hs⟩ := h
    rw [unsignedZero_of_zero hs, Ne, ← unpack_inj, ← unpack_inj, hs, hneg, hzero]
    cases s <;> simp
  · push Not at h
    rw [unsignedZero_of_ne h]
    refine iff_of_true rfl fun hx => h .negative ?_
    rw [hx, hneg]

/-- Whole numbers have no negative zero. -/
theorem unsignedZero_ofInt (n : Int) : unsignedZero (Float.ofInt n) = Float.ofInt n := by
  rcases n with (_ | k) | k
  · rfl
  · exact unsignedZero_of_ne (unpack_ofNat_ne_zero (Nat.succ_pos k))
  · refine unsignedZero_of_ne fun s hs => ?_
    have hunfold : Float.ofInt (Int.negSucc k) = -Float.ofNat (k + 1) := rfl
    rw [hunfold, unpack_neg] at hs
    have hne := unpack_ofNat_ne_zero (Nat.succ_pos k)
    rcases hu : (Float.ofNat (k + 1)).toModel.unpack with s' | _ | s' | s' <;> rw [hu] at hs
    · cases hs
    · cases hs
    · exact hne s' hu
    · cases hs

/-- The whole number of some digits and an exponent is read back from them. -/
theorem unpack_ofNat_whole {b : BitVec Float.Model.Format.binary64.numBits} {s : Sign} {m : Nat}
    {e : Int} {h0 : 0 < m} (hb : unpack Float.Model.Format.binary64 b = .finite s m e h0)
    (hwhole : 0 ≤ e ∨ m % 2 ^ (-e).toNat = 0) :
    (Float.ofNat (m * 2 ^ e.toNat / 2 ^ (-e).toNat)).toModel.unpack =
      .finite .positive m e h0 := by
  have hdvd : 2 ^ (-e).toNat ∣ m * 2 ^ e.toNat := by
    rcases hwhole with hpos | hmod
    · rw [show (-e).toNat = 0 by omega]
      exact one_dvd _
    · exact (Nat.dvd_of_mod_eq_zero hmod).mul_right _
  have hnormal : m.log2 = 52 ∧ e ≤ 971 := by
    rcases unpack_finite hb with h | ⟨hm, rfl⟩
    · exact ⟨h.1, h.2.2⟩
    · -- what is below the smallest number with all digits is far below one
      rcases hwhole with hpos | hmod
      · omega
      · have hle := Nat.le_of_dvd h0 (Nat.dvd_of_mod_eq_zero hmod)
        have hpow : 2 ^ 52 ≤ 2 ^ (-(-1074 : Int)).toNat :=
          Nat.pow_le_pow_right (by decide) (by decide)
        exact absurd (hpow.trans hle) (by omega)
  have hpos : 0 < m * 2 ^ e.toNat := by positivity
  exact unpack_ofNat hnormal.1 h0 (Nat.div_pos (Nat.le_of_dvd hpos hdvd) (by positivity)) hnormal.2
    (Nat.div_mul_cancel hdvd)

/-- A double that is a whole number is the double of that number. -/
theorem ofInt_of_whole {x : Float} {n : Int} (h : whole? x = some n) :
    Float.ofInt n = unsignedZero x := by
  rw [whole?, Binary.ofDouble] at h
  rcases hu : x.toModel.unpack with s | _ | s | ⟨s, m, e, h0⟩ <;>
    simp only [hu, Binary.ofUnpacked] at h
  · cases h
  · cases h
  · rw [unsignedZero_of_zero hu]
    have hn : n = 0 := by
      simp at h
      exact h.symm
    rw [hn]
    rfl
  · rw [unsignedZero_of_ne (by rw [hu]; nofun)]
    split_ifs at h with hwhole hsize hsign
    all_goals
      have hk := unpack_ofNat_whole hu hwhole
      generalize m * 2 ^ e.toNat / 2 ^ (-e).toNat = k at h hk
      rw [← unpack_inj, hu, ← Option.some.inj h]
    · obtain rfl : s = .negative := by simpa using hsign
      have hpos : 0 < k := by
        rcases Nat.eq_zero_or_pos k with rfl | h
        · cases unpack_ofNat_zero.symm.trans hk
        · exact h
      rw [ofInt_neg k hpos, unpack_neg, hk]
      rfl
    · cases s with
      | positive => exact hk
      | negative => exact absurd rfl hsign

theorem whole?_of_zero {x : Float} {s : Sign} (h : x.toModel.unpack = .zero s) :
    whole? x = some 0 := by
  rw [whole?, Binary.ofDouble, h]
  simp [Binary.ofUnpacked]

theorem unsignedZero_idem (x : Float) : unsignedZero (unsignedZero x) = unsignedZero x := by
  rw [unsignedZero_eq_self_iff]
  by_cases h : (x == 0) = true
  · rw [unsignedZero, if_pos h]
    decide
  · rw [unsignedZero, if_neg h]
    rintro rfl
    exact h rfl

theorem unsignedZero_signed {x : Float} (hx : unsigned x.toModel.unpack = true) (negative : Bool) :
    unsignedZero (signed negative x) = signed negative x ↔ (negative = true → x ≠ 0) := by
  rw [unsignedZero_eq_self_iff]
  cases negative with
  | false =>
    refine iff_of_true ?_ nofun
    rintro rfl
    cases hx
  | true =>
    rw [Ne, show (-0 : Float) = signed true 0 from rfl, signed_inj]
    simp

theorem eq_zero_of_unsigned {x : Float} {s : Sign} (hx : unsigned x.toModel.unpack = true)
    (h : x.toModel.unpack = .zero s) : x = 0 := by
  rw [h] at hx
  obtain rfl : s = .positive := by simpa [unsigned] using hx
  rw [← unpack_inj, h]
  rfl

/-- Two numbers without a sign, one of them kept without the sign of a zero, are told apart. -/
theorem unsignedZero_signed_eq {x y : Float} (hx : unsigned x.toModel.unpack = true)
    (hy : unsigned y.toModel.unpack = true) (negative : Bool) :
    unsignedZero (signed negative x) = signed negative y ↔
      (negative = true → y ≠ 0) ∧ x = y := by
  rw [← unsignedZero_signed hy]
  constructor
  · intro h
    have hidem : unsignedZero (signed negative y) = signed negative y := by
      rw [← h, unsignedZero_idem]
    refine ⟨hidem, ?_⟩
    by_cases hzero : ∃ s, (signed negative x).toModel.unpack = .zero s
    · obtain ⟨s, hs⟩ := hzero
      rw [unsignedZero_of_zero hs] at h
      cases negative with
      | false => exact (eq_zero_of_unsigned hx hs).trans h
      | true =>
        have hy0 : y = -0 := neg_double_inj.1 h.symm
        rw [hy0] at hy
        cases hy
    · push Not at hzero
      rwa [unsignedZero_of_ne hzero, signed_inj] at h
  · rintro ⟨h, rfl⟩
    exact h

theorem tryCastDouble_integral (x : Float) :
    (integral x).tryCastDouble = some (unsignedZero x) := by
  rw [integral]
  split
  · rename_i n hn
    rw [tryCastDouble, ofInt_of_whole hn]
  · rename_i hn
    refine congrArg some (unsignedZero_of_ne fun s hs => ?_).symm
    rw [whole?_of_zero hs] at hn
    cases hn

end Cell

namespace Decimal

/-- A whole number with a sign. -/
def signedInt (negative : Bool) (n : Nat) : Int := if negative then -(n : Int) else n

theorem ofInt_signedInt (negative : Bool) (n : Nat) :
    Float.ofInt (signedInt negative n) = Cell.unsignedZero (signed negative (Float.ofNat n)) := by
  rw [← Cell.unsignedZero_ofInt]
  cases negative with
  | false => rfl
  | true =>
    rcases Nat.eq_zero_or_pos n with rfl | hn
    · decide
    · exact congrArg Cell.unsignedZero (ofInt_neg n hn)

theorem value_of_plainDigits {n : Numeral} (hplain : n.plainDigits = true)
    (hexponent : n.marked = false → n.exponent = 0) : n.value = Float.ofNat n.digits := by
  obtain ⟨hpoint, hmark⟩ := Bool.and_eq_true_iff.1 hplain
  have hscale : n.scale = 0 := by
    rw [Numeral.scale, hexponent (by simpa using hmark), Option.isNone_iff_eq_none.1 hpoint]
    rfl
  rw [Numeral.value, hscale]
  rfl

/-- A decimal that a column of numbers keeps as the double nearest to it. -/
structure Kept (negative : Bool) (n : Numeral) : Prop where
  /-- It is in the range of doubles. -/
  finite : (signed negative n.value).isFinite = true
  /-- It is no negative zero. -/
  ne_zero : negative = true → n.value ≠ 0
  /-- It is a whole number of 64 bits, or a store reads it as precisely as others do. -/
  near : n.plainDigits = true ∧ Cell.fits (signedInt negative n.digits) = true ∨
    Wide.read n = n.value

theorem numberText?_of_numericText? {s : String} {negative : Bool} {n : Numeral}
    (h : numericText? s.toList = some (negative, n)) :
    numberText? s = if (signed negative n.value).isFinite then some (signed negative n.value)
      else none := by
  rw [numberText?, (readNumber?_of_numericText? h).1, Option.filter_some]

theorem numeric?_of_numericText? {s : String} {negative : Bool} {n : Numeral}
    (h : numericText? s.toList = some (negative, n)) :
    Cell.numeric? s = some (if n.plainDigits && Cell.fits (signedInt negative n.digits) then
      .int (signedInt negative n.digits) else .real (signed negative (Wide.read n))) := by
  rw [Cell.numeric?, h]
  rfl

/-- A whole number of 64 bits is far inside the range of doubles. -/
theorem isFinite_of_fits {negative : Bool} {n : Nat}
    (h : Cell.fits (signedInt negative n) = true) :
    (signed negative (Float.ofNat n)).isFinite = true := by
  rw [isFinite_signed]
  refine isFinite_ofNat (n := 64) ?_ (by decide)
  simp only [Cell.fits, Bool.and_eq_true, decide_eq_true_eq] at h
  rw [signedInt] at h
  split_ifs at h <;> omega

theorem ofInt_eq_signed (n : Int) :
    Float.ofInt n = signed (decide (n < 0)) (Float.ofNat n.natAbs) := by
  rcases n with k | k
  · rw [decide_eq_false (by simp)]
    rfl
  · rw [decide_eq_true (by omega)]
    rfl

/-- A whole number of 64 bits is read back from its text. -/
theorem numberText?_toString {n : Int} (h : Cell.fits n = true) :
    numberText? (toString n) = some (Float.ofInt n) := by
  have hdigits : (Numeral.ofNat n.natAbs).digits = n.natAbs := by
    rw [Numeral.digits, Numeral.ofNat, Option.getD_none, List.append_nil, digitsValue_toDigits]
  have hsigned : signedInt (decide (n < 0)) n.natAbs = n := by
    rw [signedInt]
    split_ifs with hneg <;> simp only [decide_eq_true_eq] at hneg <;> omega
  have hvalue := value_of_plainDigits (n := .ofNat n.natAbs) rfl fun _ => rfl
  rw [hdigits] at hvalue
  rw [numberText?_of_numericText? (numericText?_toString n), hvalue,
    if_pos (isFinite_of_fits (by rwa [hsigned])), ← ofInt_eq_signed]

end Decimal

namespace Declared

variable {type : Declared}

theorem tryCastDouble_store_int (h : type ≠ .varchar) (n : Int) :
    (type.store (.int n)).tryCastDouble = some (Float.ofInt n) := by
  cases type with
  | varchar => exact absurd rfl h
  | double | boolean | integer | unnamed => rfl

theorem tryCastDouble_store_real (h : type ≠ .varchar) (x : Float) :
    (type.store (.real x)).tryCastDouble = some (Cell.unsignedZero x) := by
  cases type with
  | varchar => exact absurd rfl h
  | double => rfl
  | boolean | integer | unnamed => exact Cell.tryCastDouble_integral x

/-- A column of numbers keeps a text that spells one like the number. -/
theorem store_text (h : type ≠ .varchar) (s : String) :
    type.store (.text s) = ((Cell.numeric? s).map type.store).getD (.text s) := by
  rcases hs : Cell.numeric? s with - | c
  · cases type <;> first | exact absurd rfl h | simp [store, hs]
  · have hc := Cell.isNumber_of_numeric? hs
    cases c with
    | int n | real x => cases type <;> first | exact absurd rfl h | simp [store, hs]
    | null | text | loose | blob => cases hc

theorem tryCastDouble_store_text (h : type ≠ .varchar) (s : String) :
    (type.store (.text s)).tryCastDouble = numberText? s ↔
      ∀ negative n, numericText? s.toList = some (negative, n) → Kept negative n := by
  rw [store_text h]
  rcases hs : numericText? s.toList with - | ⟨negative, n⟩
  · simp [Cell.numeric?, hs, Cell.tryCastDouble]
  · have hall : (∀ negative' n', some (negative, n) = some (negative', n') → Kept negative' n') ↔
        Kept negative n :=
      ⟨fun h => h negative n rfl, by rintro h _ _ ⟨⟩; exact h⟩
    have hvalue : unsigned n.value.toModel.unpack = true := unsigned_nearest _ _
    rw [hall, numberText?_of_numericText? hs, numeric?_of_numericText? hs, Option.map_some,
      Option.getD_some]
    split_ifs with hfit hfinite hfinite
    · -- a whole number of 64 bits only loses the sign of a zero
      obtain ⟨hplain, hsize⟩ := Bool.and_eq_true_iff.1 hfit
      have hdigits := value_of_plainDigits hplain (readNumber?_of_numericText? hs).2
      rw [tryCastDouble_store_int h, ofInt_signedInt, ← hdigits, Option.some.injEq,
        Cell.unsignedZero_signed hvalue]
      exact ⟨fun hzero => ⟨hfinite, hzero, .inl ⟨hplain, hsize⟩⟩, Kept.ne_zero⟩
    · obtain ⟨hplain, hsize⟩ := Bool.and_eq_true_iff.1 hfit
      have hdigits := value_of_plainDigits hplain (readNumber?_of_numericText? hs).2
      rw [hdigits, isFinite_of_fits hsize] at hfinite
      exact absurd rfl hfinite
    · rw [tryCastDouble_store_real h, Option.some.injEq,
        Cell.unsignedZero_signed_eq (Wide.unsigned_read n) hvalue]
      constructor
      · rintro ⟨hzero, hread⟩
        exact ⟨hfinite, hzero, .inr hread⟩
      · intro hkept
        refine ⟨hkept.ne_zero, hkept.near.resolve_left fun hnear => hfit ?_⟩
        rw [hnear.1, hnear.2]
        rfl
    · rw [tryCastDouble_store_real h]
      exact iff_of_false nofun fun hkept => hfinite hkept.finite

end Declared

/-- Whether a number, as a text of fifteen digits, reads back as itself. -/
def Decimal.ReadsBack (x : Float) : Prop := numberText? (general x) = some x

/-- Whether a column of a type keeps what number a value is or spells. -/
def Declared.KeepsFigure : Declared → Json → Prop
  | varchar, .int n => Cell.fits n = true ∨ ReadsBack (Float.ofInt n)
  | varchar, .double x => ReadsBack x
  | varchar, _ => True
  | _, .double x => x ≠ -0
  | _, .str s => ∀ negative n, numericText? s.toList = some (negative, n) → Kept negative n
  | _, _ => True

/-- Numbers and texts. -/
def Json.Plain : Json → Prop
  | int _ => True
  | double _ => True
  | str _ => True
  | _ => False

/-- All columns but those of texts keep the same figures. -/
theorem Declared.keepsFigure_of_ne {type : Declared} (h : type ≠ .varchar) (v : Json) :
    type.KeepsFigure v ↔ double.KeepsFigure v := by
  cases type with
  | varchar => exact absurd rfl h
  | double | boolean | integer | unnamed => cases v <;> rfl

theorem Declared.keepsFigure_iff (type : Declared) {v : Json} (hv : v.Plain) :
    (type.store (Cell.ofJson (some v))).tryCastDouble = v.figure? ↔ type.KeepsFigure v := by
  by_cases htype : type = .varchar
  · subst htype
    cases v with
    | int n =>
      rcases hfits : Cell.fits n
      · simp only [Cell.ofJson, hfits, KeepsFigure]
        simp [store, Cell.tryCastDouble, Cell.shown, ReadsBack, Json.figure?, Json.number]
      · simp only [Cell.ofJson, hfits, if_true, KeepsFigure, true_or, iff_true]
        exact numberText?_toString hfits
    | double x => rfl
    | str s => exact iff_of_true rfl trivial
    | null | bool | arr | obj => cases hv
  · rw [keepsFigure_of_ne htype]
    cases v with
    | int n =>
      refine iff_of_true ?_ trivial
      rw [Cell.ofJson]
      split
      · exact tryCastDouble_store_int htype n
      · rw [tryCastDouble_store_real htype, Cell.unsignedZero_ofInt]
        rfl
    | double x =>
      have hfigure : (Json.double x).figure? = some x := rfl
      rw [Cell.ofJson, tryCastDouble_store_real htype, hfigure, Option.some.injEq,
        Cell.unsignedZero_eq_self_iff]
      rfl
    | str s => exact tryCastDouble_store_text htype s
    | null | bool | arr | obj => cases hv

namespace Store

/-- Reading a loaded cell gives what reading the row gives, or nothing as it does, exactly if the
column of the cell keeps the figure. -/
theorem load_keeps_iff {s : Store} {name c : String} {first r : Row} {rest : List Row}
    {w v : Json} {i j : Nat} (hload : Store.empty.load name (first :: rest) = .ok s)
    (hcolumn : first.cells[j]? = some (c, w)) (hrow : (first :: rest)[i]? = some r)
    (hcell : r.get? c = some v) (hv : v.Plain) :
    ∃ t record cell, s.table? name = some t ∧ t.records[i]? = some record ∧
      record[j]? = some cell ∧
      (cell.tryCastDouble = r.figure? c ↔ (Declared.ofCell (some w)).KeepsFigure v) := by
  have htable : s.table? name = some (Table.ofRows name (first :: rest)) := by
    rw [eq_of_load hload]
    exact List.find?_cons_of_pos (Text.sameAscii_refl name)
  have hcolumns : (Table.columnsOf (first :: rest))[j]? =
      some ⟨c, some (.ofCell (some w))⟩ := by
    rw [Table.columnsOf, List.getElem?_map, hcolumn]
    rfl
  have hfigure : r.figure? c = v.figure? := by
    rw [Row.figure?, hcell]
    rfl
  refine ⟨Table.ofRows name (first :: rest), Table.record (Table.columnsOf (first :: rest)) r,
    (Declared.ofCell (some w)).store (Cell.ofJson (some v)), htable, ?_, ?_, ?_⟩
  · rw [Table.ofRows, List.getElem?_map, hrow]
    rfl
  · rw [Table.record, List.getElem?_map, hcolumns]
    simp only [Option.map_some, hcell]
  · rw [hfigure]
    exact Declared.keepsFigure_iff _ hv

theorem load_keeps_iff_overflow :
    ∃ first r s t record cell, first.cells[0]? = some ("a", .int 1) ∧
      r.get? "a" = some (.str "1e400") ∧ Store.empty.load "t" [first, r] = .ok s ∧
      s.table? "t" = some t ∧ t.records[1]? = some record ∧ record[0]? = some cell ∧
      cell.tryCastDouble ≠ r.figure? "a" := by
  let first : Row := ⟨[("a", .int 1)], by decide⟩
  let r : Row := ⟨[("a", .str "1e400")], by decide⟩
  obtain ⟨s, hload⟩ : ∃ s, Store.empty.load "t" [first, r] = .ok s :=
    Store.load_isOk_iff.2 ⟨by decide, by decide, by decide, nofun, by decide, by decide, nofun,
      by decide⟩
  obtain ⟨t, record, cell, ht, hrecord, hcell, hiff⟩ :=
    load_keeps_iff (j := 0) (i := 1) hload rfl rfl (r := r) rfl trivial
  refine ⟨first, r, s, t, record, cell, rfl, rfl, hload, ht, hrecord, hcell, fun h => ?_⟩
  have hkept := hiff.1 h false ⟨['1'], none, 400, true⟩ (by decide)
  have hinfinite : (signed false (Numeral.value ⟨['1'], none, 400, true⟩)).isFinite = false := by
    decide +kernel
  cases hinfinite.symm.trans hkept.finite

end Store

end TableTalk
