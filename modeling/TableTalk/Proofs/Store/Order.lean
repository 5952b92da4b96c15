import Mathlib.Algebra.Order.Field.Power
import Mathlib.Data.Rat.Cast.Order
import Mathlib.Data.List.Pairwise
import Mathlib.Data.List.Sort
import Mathlib.Order.WithBot
import Mathlib.Tactic.Linarith
import Mathlib.Tactic.SplitIfs
import TableTalk.Store.Selection

/-!
# The order of cells

Cells are compared by their kind first, then as exact numbers, as code points or as bytes. Each of
these is a linear order on what it looks at, so the order of cells is total and transitive
(`Cell.instTransCmp`), cells that are the same key are so for all purposes (`Cell.same_trans`), and
sorting by it sorts (`Cell.pairwise_mergeSort`).
-/

namespace TableTalk

/-- The other direction. -/
def SortOrder.flip : SortOrder → SortOrder
  | desc => asc
  | asc => desc

namespace Cell

namespace Exact

/-- An extended number as one of the rational numbers with two ends. -/
def value : Exact → WithBot (WithTop ℚ)
  | below => ⊥
  | number n e => ((n * 2 ^ e : ℚ) : WithTop ℚ)
  | above => (⊤ : WithTop ℚ)

theorem compare_number (a b : Int) (e f : Int) :
    (number a e).compare (number b f) = Ord.compare (a * 2 ^ e : ℚ) (b * 2 ^ f) := by
  have hscale : ∀ (n g : Int), min e f ≤ g →
      ((n * 2 ^ (g - min e f).toNat : Int) : ℚ) = n * 2 ^ g * 2 ^ (-min e f) := fun n g hg => by
    have htwo : (2 : ℚ) ≠ 0 := two_ne_zero
    rw [mul_assoc, ← zpow_add₀ htwo, Int.cast_mul, Int.cast_pow, ← zpow_natCast,
      Int.toNat_of_nonneg (by omega), ← sub_eq_add_neg]
    rfl
  have hpos : (0 : ℚ) < 2 ^ (-min e f) := zpow_pos two_pos _
  have hlt : ∀ (m n g h : Int), min e f ≤ g → min e f ≤ h →
      (m * 2 ^ (g - min e f).toNat < n * 2 ^ (h - min e f).toNat ↔
        (m * 2 ^ g : ℚ) < n * 2 ^ h) := fun m n g h hg hh => by
    rw [← Int.cast_lt (R := ℚ), hscale m g hg, hscale n h hh, mul_lt_mul_iff_left₀ hpos]
  have hab := hlt a b e f (min_le_left _ _) (min_le_right _ _)
  have hba := hlt b a f e (min_le_right _ _) (min_le_left _ _)
  rw [compare]
  rcases lt_trichotomy (a * 2 ^ e : ℚ) (b * 2 ^ f) with h | h | h
  · rw [compare_lt_iff_lt.2 h, compare_lt_iff_lt]
    exact hab.2 h
  · rw [compare_eq_iff_eq.2 h, compare_eq_iff_eq]
    exact le_antisymm (not_lt.1 fun hn => h.not_gt (hba.1 hn))
      (not_lt.1 fun hn => h.not_lt (hab.1 hn))
  · rw [compare_gt_iff_gt.2 h, compare_gt_iff_gt]
    exact hba.2 h

theorem compare_eq (a b : Exact) : a.compare b = Ord.compare a.value b.value := by
  have hlow : ∀ x : WithTop ℚ, (⊥ : WithBot (WithTop ℚ)) < x := WithBot.bot_lt_coe
  have hhigh : ∀ q : ℚ, ((q : WithTop ℚ) : WithBot (WithTop ℚ)) < (⊤ : WithTop ℚ) := fun q =>
    WithBot.coe_lt_coe.2 (WithTop.coe_lt_top q)
  cases a <;> cases b
  case number.number a e b f =>
    rw [compare_number]
    rcases lt_trichotomy (a * 2 ^ e : ℚ) (b * 2 ^ f) with h | h | h
    · rw [compare_lt_iff_lt.2 h, eq_comm, compare_lt_iff_lt]
      exact WithBot.coe_lt_coe.2 (WithTop.coe_lt_coe.2 h)
    · rw [compare_eq_iff_eq.2 h, eq_comm, compare_eq_iff_eq, value, value, h]
    · rw [compare_gt_iff_gt.2 h, eq_comm, compare_gt_iff_gt]
      exact WithBot.coe_lt_coe.2 (WithTop.coe_lt_coe.2 h)
  case below.below | above.above => exact (compare_eq_iff_eq.2 rfl).symm
  case below.number | below.above => exact (compare_lt_iff_lt.2 (hlow _)).symm
  case number.below | above.below => exact (compare_gt_iff_gt.2 (hlow _)).symm
  case number.above => exact (compare_lt_iff_lt.2 (hhigh _)).symm
  case above.number => exact (compare_gt_iff_gt.2 (hhigh _)).symm

instance instTransCmp : Std.TransCmp Exact.compare := by
  have hon : Exact.compare = compareOn value := funext₂ compare_eq
  rw [hon]
  infer_instance

end Exact

section Lists

theorem map_toNat_lt : ∀ {s t : List Char}, s.map Char.toNat < t.map Char.toNat ↔ s < t
  | [], [] => by simp
  | [], c :: t => by simp
  | c :: s, [] => by simp
  | c :: s, d :: t => by
    rw [List.map_cons, List.map_cons, List.cons_lt_cons_iff, List.cons_lt_cons_iff, map_toNat_lt,
      Char.toNat_inj]
    rfl

/-- Texts are compared as code points are. -/
theorem compareText_eq (s t : String) :
    compareText s t = compareCodes (text s).codes (text t).codes := by
  have heq : s = t ↔ (text s).codes = (text t).codes := by
    rw [codes, codes, List.map_inj_right fun _ _ => Char.toNat_inj.1, String.toList_inj]
  have hlt : s < t ↔ (text s).codes < (text t).codes := String.lt_iff.trans map_toNat_lt.symm
  simp only [compareText, compareCodes, heq, hlt]

instance instTransCmpCodes : Std.TransCmp compareCodes :=
  Std.TransCmp.compareOfLessAndEq_of_irrefl_of_trans_of_antisymm List.lt_irrefl List.lt_trans
    fun h h' => List.le_antisymm h' h

instance instTransCmpBytes : Std.TransCmp compareBytes :=
  Std.TransCmp.compareOfLessAndEq_of_irrefl_of_trans_of_antisymm List.lt_irrefl List.lt_trans
    fun h h' => List.le_antisymm h' h

end Lists

/-- The bytes of a cell of bytes. -/
def bytes : Cell → List UInt8
  | blob bytes => bytes
  | _ => []

theorem compare_eq : compare = compareLex (compareOn rank) (compareLex
    (fun a b => a.exact.compare b.exact) (compareLex (fun a b => compareCodes a.codes b.codes)
      fun a b => compareBytes a.bytes b.bytes)) := by
  have hthen : ∀ o : Ordering, o = o.then .eq := by decide
  funext a b
  cases a <;> cases b
  case text.text s t => exact (compareText_eq s t).trans (hthen _)
  case int.int | int.real | real.int | real.real => exact hthen _
  case text.loose | loose.text | loose.loose => exact hthen _
  all_goals rfl

/-- What is compared by a view of it is ordered as the view is. -/
theorem transCmp_on {α β : Type} (cmp : β → β → Ordering) [Std.TransCmp cmp] (f : α → β) :
    Std.TransCmp fun a b => cmp (f a) (f b) where
  eq_swap := Std.OrientedCmp.eq_swap
  isLE_trans := Std.TransCmp.isLE_trans

instance instTransCmp : Std.TransCmp compare := by
  have hexact := transCmp_on Exact.compare exact
  have hcodes := transCmp_on compareCodes codes
  have hbytes := transCmp_on compareBytes bytes
  rw [compare_eq]
  infer_instance

section Same

variable {a b c : Cell}

theorem same_iff : a.same b = true ↔ a.compare b = .eq := beq_iff_eq

theorem same_refl (a : Cell) : a.same a = true :=
  same_iff.2 Std.ReflCmp.compare_self

theorem same_comm (a b : Cell) : a.same b = b.same a := by
  rw [Bool.eq_iff_iff, same_iff, same_iff]
  exact Std.OrientedCmp.eq_comm

theorem same_trans (h : a.same b = true) (h' : b.same c = true) : a.same c = true :=
  same_iff.2 (Std.TransCmp.eq_trans (same_iff.1 h) (same_iff.1 h'))

/-- Cells that are the same are so to all others. -/
theorem same_congr (h : a.same b = true) (c : Cell) : a.same c = b.same c := by
  rw [Bool.eq_iff_iff]
  exact ⟨same_trans (same_comm a b ▸ h), same_trans h⟩

theorem compare_congr {d : Cell} (h : a.same b = true) (h' : c.same d = true) :
    a.compare c = b.compare d :=
  (Std.TransCmp.congr_left (same_iff.1 h)).trans (Std.TransCmp.congr_right (same_iff.1 h'))

theorem notAfter_congr {o : SortOrder} {d : Cell} (h : a.same b = true) (h' : c.same d = true) :
    a.notAfter o c = b.notAfter o d := by
  simp only [notAfter, compare_congr h h']

end Same

section Sorting

variable {a b c : Cell} {o : SortOrder}

theorem notAfter_total (o : SortOrder) (a b : Cell) :
    (a.notAfter o b || b.notAfter o a) = true := by
  have hswap : a.compare b = (b.compare a).swap := Std.OrientedCmp.eq_swap
  cases o <;> simp only [notAfter, hswap] <;> cases b.compare a <;> decide

theorem notAfter_trans (h : a.notAfter o b = true) (h' : b.notAfter o c = true) :
    a.notAfter o c = true := by
  cases o with
  | asc =>
    simp only [notAfter, bne_iff_ne, ← Ordering.isLE_iff_ne_gt] at h h' ⊢
    exact Std.TransCmp.isLE_trans h h'
  | desc =>
    simp only [notAfter, bne_iff_ne, ← Ordering.isGE_iff_ne_lt] at h h' ⊢
    exact Std.TransCmp.isGE_trans h h'

/-- Cells of which none is after the other are the same. -/
theorem same_of_notAfter (h : a.notAfter o b = true) (h' : b.notAfter o a = true) :
    a.same b = true := by
  have hswap : a.compare b = (b.compare a).swap := Std.OrientedCmp.eq_swap
  have hasc : ∀ p : Ordering, (p.swap != .gt) = true → (p != .gt) = true → p.swap = .eq := by
    decide
  have hdesc : ∀ p : Ordering, (p.swap != .lt) = true → (p != .lt) = true → p.swap = .eq := by
    decide
  rw [same_iff]
  cases o <;> simp only [notAfter, hswap] at h h' ⊢
  case asc => exact hasc _ h h'
  case desc => exact hdesc _ h h'

theorem pairwise_mergeSort (o : SortOrder) (cs : List Cell) :
    (cs.mergeSort (notAfter o)).Pairwise fun a b => a.notAfter o b = true :=
  @List.pairwise_mergeSort Cell (notAfter o) (fun _ _ _ => notAfter_trans) (notAfter_total o) cs

theorem notAfter_flip (o : SortOrder) (a b : Cell) : a.notAfter o.flip b = b.notAfter o a := by
  have hswap : a.compare b = (b.compare a).swap := Std.OrientedCmp.eq_swap
  cases o <;> simp only [SortOrder.flip, notAfter, hswap] <;> cases b.compare a <;> rfl

/-- What is sorted by cells that are all apart has one order in each direction. -/
theorem eq_reverse_of_apart {α : Type} {f : α → Cell} {xs ys : List α} (hperm : xs.Perm ys)
    (hxs : xs.Pairwise fun a b => (f a).notAfter o (f b) = true)
    (hys : ys.Pairwise fun a b => (f a).notAfter o.flip (f b) = true)
    (happart : xs.Pairwise fun a b => (f a).same (f b) = false) : ys = xs.reverse := by
  have hback : xs.reverse.Pairwise fun a b => (f a).notAfter o.flip (f b) = true :=
    List.pairwise_reverse.2 (hxs.imp fun hab => (notAfter_flip _ _ _).trans hab)
  have hsymm : Std.Symm fun a b => (f a).same (f b) = false :=
    ⟨fun a b hab => (same_comm _ _).trans hab⟩
  have hne : ∀ a ∈ xs, ∀ b ∈ xs, (f a).same (f b) = true → a = b := fun a ha b hb hsame => by
    by_contra hne
    rw [happart.forall ha hb hne] at hsame
    cases hsame
  refine List.Perm.eq_of_pairwise (fun a b ha hb hab hba => ?_) hys hback
    (hperm.symm.trans xs.reverse_perm.symm)
  exact hne a (hperm.mem_iff.2 ha) b (List.mem_reverse.1 hb) (same_of_notAfter hab hba)

end Sorting

end Cell

theorem Plan.pairwise_sorted {α : Type} (o : SortOrder) (keyed : List (Cell × α)) :
    (sorted o keyed).Pairwise fun a b => a.1.notAfter o b.1 = true :=
  @List.pairwise_mergeSort (Cell × α) (fun a b => a.1.notAfter o b.1)
    (fun _ _ _ => Cell.notAfter_trans) (fun a b => Cell.notAfter_total o a.1 b.1) keyed

theorem Plan.sorted_perm {α : Type} (o : SortOrder) (keyed : List (Cell × α)) :
    (sorted o keyed).Perm keyed :=
  List.mergeSort_perm _ _

/-- Where keys are made of the elements, the elements are put in order with them. -/
theorem Plan.exists_sorted {α β : Type} (o : SortOrder) (key : α → Cell) (f : α → β) (xs : List α) :
    ∃ ys : List α, ys.Perm xs ∧ (ys.Pairwise fun x y => (key x).notAfter o (key y) = true) ∧
      sorted o (xs.map fun x => (key x, f x)) = ys.map fun x => (key x, f x) := by
  have hsorted : sorted o (xs.map fun x => (key x, f x)) =
      (xs.mergeSort fun x y => (key x).notAfter o (key y)).map fun x => (key x, f x) :=
    (List.map_mergeSort (s := fun a b : Cell × β => a.1.notAfter o b.1)
      (f := fun x => (key x, f x)) fun _ _ _ _ => rfl).symm
  refine ⟨_, List.mergeSort_perm _ _, ?_, hsorted⟩
  exact @List.pairwise_mergeSort α (fun x y => (key x).notAfter o (key y))
    (fun _ _ _ => Cell.notAfter_trans) (fun x y => Cell.notAfter_total o _ _) xs

end TableTalk
