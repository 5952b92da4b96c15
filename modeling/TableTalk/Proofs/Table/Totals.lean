import Mathlib
import TableTalk.Proofs.Table.Columns
import TableTalk.Table.Category

/-!
# Totals by category

Adding one value at a time comes to this: the categories in order of first occurrence, each with the
sum of its values from left to right (`totals_eq`). Where the order of adding does not matter, the
totals have the sum of all values (`sum_totals`). The largest total is the first of those that no
other one exceeds (`split_of_largest?`).
-/

namespace TableTalk

variable {α : Type}

/-- The values of a category. -/
def valuesOf (values : List (String × α)) (c : String) : List α :=
  (values.filter fun v => v.1 = c).map Prod.snd

theorem valuesOf_concat (values : List (String × α)) (v : String × α) (c : String) :
    valuesOf (values ++ [v]) c =
      if v.1 = c then valuesOf values c ++ [v.2] else valuesOf values c := by
  rw [valuesOf, List.filter_append, List.map_append, ← valuesOf]
  split_ifs with h <;> simp [h]

theorem valuesOf_of_notMem {values : List (String × α)} {c : String}
    (h : c ∉ values.map Prod.fst) : valuesOf values c = [] := by
  rw [valuesOf, List.map_eq_nil_iff, List.filter_eq_nil_iff]
  intro v hv hc
  exact h (List.mem_map.2 ⟨v, hv, of_decide_eq_true hc⟩)

section Sums

variable [Add α] [OfNat α 0]

theorem sumOf_concat (xs : List α) (x : α) : sumOf (xs ++ [x]) = sumOf xs + x := by
  rw [sumOf, List.foldl_append]
  rfl

/-- What is missing can count as zero in a sum that zero does not change. -/
theorem sumOf_getD (hzero : ∀ xs : List α, sumOf xs + 0 = sumOf xs) (xs : List (Option α)) :
    sumOf (xs.map fun x => x.getD 0) = sumOf (xs.filterMap id) := by
  induction xs using List.reverseRecOn with
  | nil => rfl
  | append_singleton xs x ih =>
    rw [List.map_append, List.map_singleton, sumOf_concat, ih, List.filterMap_append]
    cases x with
    | none => exact (hzero _).trans (by simp)
    | some x => exact (sumOf_concat _ x).symm

theorem totals_concat (values : List (String × α)) (v : String × α) :
    totals (values ++ [v]) = addTotal v.1 v.2 (totals values) := by
  rw [totals, List.foldl_append]
  rfl

theorem addTotal_of_notMem {c : String} (x : α) : ∀ {ts : List (String × α)},
    c ∉ ts.map Prod.fst → addTotal c x ts = ts ++ [(c, 0 + x)]
  | [], _ => rfl
  | (d, t) :: ts, h => by
    rw [List.map_cons, List.mem_cons, not_or] at h
    rw [addTotal, if_neg fun e => h.1 e.symm, addTotal_of_notMem x h.2, List.cons_append]

theorem addTotal_of_mem {c : String} (x : α) (f : String → α) : ∀ {cs : List String}, cs.Nodup →
    c ∈ cs → addTotal c x (cs.map fun d => (d, f d)) =
      cs.map fun d => (d, if c = d then f d + x else f d)
  | d :: cs, hnodup, hc => by
    obtain ⟨hd, hcs⟩ := List.nodup_cons.1 hnodup
    rw [List.map_cons, List.map_cons, addTotal]
    by_cases h : d = c
    · subst h
      have hrest : ∀ e ∈ cs, (e, f e) = (e, if d = e then f e + x else f e) := fun e he => by
        rw [if_neg fun hde : d = e => hd (hde ▸ he)]
      rw [if_pos rfl, if_pos rfl, List.map_congr_left hrest]
    · rw [if_neg h, if_neg fun e => h e.symm,
        addTotal_of_mem x f hcs ((List.mem_cons.1 hc).resolve_left fun e => h e.symm)]

/-- The total of each category is the sum of its values. -/
theorem totals_eq (values : List (String × α)) : totals values =
    (Profile.fresh [] (values.map Prod.fst)).map fun c => (c, sumOf (valuesOf values c)) := by
  induction values using List.reverseRecOn with
  | nil => rfl
  | append_singleton values v ih =>
    have hfirsts := Profile.firsts_fresh (values.map Prod.fst)
    rw [totals_concat, ih, List.map_append, List.map_singleton, Profile.fresh_concat]
    by_cases hv : v.1 ∈ values.map Prod.fst
    · rw [if_pos (.inr hv), addTotal_of_mem _ _ hfirsts.nodup ((hfirsts.mem_iff _).2 hv)]
      refine List.map_congr_left fun c _ => ?_
      rw [valuesOf_concat]
      split_ifs
      · rw [sumOf_concat]
      · rfl
    · -- a new category has no values yet, and its total starts from zero
      have hnew : v.1 ∉ Profile.fresh [] (values.map Prod.fst) := fun h =>
        hv ((hfirsts.mem_iff _).1 h)
      rw [if_neg (by simpa using hv), addTotal_of_notMem _ (by simpa [Function.comp_def] using hnew),
        List.map_append, List.map_singleton, valuesOf_concat, if_pos rfl, valuesOf_of_notMem hv]
      congr 1
      refine List.map_congr_left fun c hc => ?_
      rw [valuesOf_concat, if_neg fun e : v.1 = c => hnew (e ▸ hc)]

end Sums

section Exact

variable [AddCommMonoid α]

theorem sumOf_eq_sum (xs : List α) : sumOf xs = xs.sum := List.sum_eq_foldl.symm

theorem sum_addTotal (c : String) (x : α) : ∀ ts : List (String × α),
    ((addTotal c x ts).map Prod.snd).sum = (ts.map Prod.snd).sum + x
  | [] => by simp [addTotal]
  | (d, t) :: ts => by
    rw [addTotal]
    split_ifs
    · simp [add_right_comm]
    · simp [sum_addTotal c x ts, add_assoc]

/-- The totals have the sum of all values. -/
theorem sum_totals (values : List (String × α)) :
    ((totals values).map Prod.snd).sum = (values.map Prod.snd).sum := by
  induction values using List.reverseRecOn with
  | nil => rfl
  | append_singleton values v ih =>
    rw [totals_concat, sum_addTotal, ih, List.map_append, List.sum_append, List.map_singleton,
      List.sum_singleton]

end Exact

section Largest

variable [LT α] [DecidableRel (LT.lt (α := α))]

theorem largest?_concat (ts : List (String × α)) (t : String × α) : largest? (ts ++ [t]) =
      some ((largest? ts).elim t fun best => if best.2 < t.2 then t else best) := by
  cases ts with
  | nil => rfl
  | cons first ts =>
    rw [List.cons_append, largest?, largest?, List.foldl_append]
    rfl

theorem largest?_eq_none {ts : List (String × α)} : largest? ts = none ↔ ts = [] := by
  cases ts <;> simp [largest?]

theorem mem_of_largest? {ts : List (String × α)} {t : String × α} (h : largest? ts = some t) :
    t ∈ ts := by
  induction ts using List.reverseRecOn generalizing t with
  | nil => cases h
  | append_singleton ts u ih =>
    rw [largest?_concat] at h
    rcases hbest : largest? ts with _ | best
    · rw [hbest] at h
      cases h
      simp
    · rw [hbest, Option.elim_some, Option.some.injEq] at h
      split_ifs at h <;> subst h
      · simp
      · exact List.mem_append_left _ (ih hbest)

/-- The choice is the same for other numbers in the same order. -/
theorem largest?_map {β : Type} [LT β] [DecidableRel (LT.lt (α := β))] (f : α → β)
    {ts : List (String × α)}
    (h : ∀ t ∈ ts, ∀ u ∈ ts, t.2 < u.2 ↔ f t.2 < f u.2) :
    largest? (ts.map fun t => (t.1, f t.2)) = (largest? ts).map fun t => (t.1, f t.2) := by
  induction ts using List.reverseRecOn with
  | nil => rfl
  | append_singleton ts u ih =>
    have hrest := ih fun t ht v hv => h t (List.mem_append_left _ ht) v (List.mem_append_left _ hv)
    rw [List.map_append, List.map_singleton, largest?_concat, largest?_concat, hrest]
    rcases hbest : largest? ts with _ | best
    · rfl
    · have hlt := h best (List.mem_append_left _ (mem_of_largest? hbest)) u (by simp)
      simp only [Option.map_some, Option.elim_some, ← hlt]
      split_ifs <;> rfl

end Largest

/-- The totals in front of the largest one are smaller, and those behind it are not larger. -/
theorem split_of_largest? [LinearOrder α] {ts : List (String × α)} {t : String × α}
    (h : largest? ts = some t) : ∃ before after, ts = before ++ t :: after ∧
      (∀ u ∈ before, u.2 < t.2) ∧ ∀ u ∈ after, u.2 ≤ t.2 := by
  induction ts using List.reverseRecOn generalizing t with
  | nil => cases h
  | append_singleton ts u ih =>
    rw [largest?_concat] at h
    rcases hbest : largest? ts with _ | best
    · rw [largest?_eq_none.1 hbest] at h ⊢
      cases h
      exact ⟨[], [], rfl, nofun, nofun⟩
    · obtain ⟨before, after, rfl, hbefore, hafter⟩ := ih hbest
      rw [hbest, Option.elim_some, Option.some.injEq] at h
      split_ifs at h with hlt <;> subst h
      -- a larger total has all others in front of it; an equal one stays behind
      · refine ⟨_, [], rfl, fun v hv => ?_, nofun⟩
        rcases List.mem_append.1 hv with hv | hv
        · exact (hbefore v hv).trans hlt
        · rcases List.mem_cons.1 hv with rfl | hv
          · exact hlt
          · exact (hafter v hv).trans_lt hlt
      · refine ⟨before, after ++ [u], by simp, hbefore, fun v hv => ?_⟩
        rcases List.mem_append.1 hv with hv | hv
        · exact hafter v hv
        · rw [List.mem_singleton.1 hv]
          exact not_lt.1 hlt

end TableTalk
