import Mathlib.Data.Set.List
import TableTalk.Proofs.Store.Order
import TableTalk.Proofs.Store.Results

/-!
# Groups of a result

Records are split by their labels: each group has all records of one label, no two groups have the
same, and no record is left over (`Splits`). So the groups together are the records in another order
(`Splits.flatten_perm`). A plan with a label and a value for each group (`Plan.Labels`) makes such
groups of the records that it selects, in an order in which none is after the next by what the plan
orders by, and its result has a record for each of them in front of the limit (`Plan.Labels.run`).
-/

namespace TableTalk

open Sql

/-- Elements split by a key: each group has all of one key in their order, no two groups share one,
and each element is in some group. -/
structure Splits {α : Type} (key : α → Cell) (xs : List α) (gs : List (List α)) : Prop where
  group : ∀ g ∈ gs, ∃ x ∈ g, g = xs.filter fun y => (key x).same (key y)
  apart : gs.Pairwise fun g h => ∀ x ∈ g, ∀ y ∈ h, (key x).same (key y) = false
  cover : ∀ x ∈ xs, ∃ g ∈ gs, x ∈ g

namespace Splits

variable {α : Type} {key : α → Cell} {xs : List α} {gs : List (List α)}

theorem mem (h : Splits key xs gs) {g : List α} (hg : g ∈ gs) {x : α} (hx : x ∈ g) : x ∈ xs := by
  obtain ⟨z, -, rfl⟩ := h.group g hg
  exact (List.mem_filter.1 hx).1

/-- Any element of a group has the key that all of it share. -/
theorem eq_filter (h : Splits key xs gs) {g : List α} (hg : g ∈ gs) {x : α} (hx : x ∈ g) :
    g = xs.filter fun y => (key x).same (key y) := by
  obtain ⟨z, -, hz⟩ := h.group g hg
  have hsame : (key z).same (key x) = true := by
    rw [hz] at hx
    exact (List.mem_filter.1 hx).2
  refine hz.trans (List.filter_congr fun y _ => Cell.same_congr hsame (key y))

theorem ne_nil (h : Splits key xs gs) {g : List α} (hg : g ∈ gs) : g ≠ [] := by
  obtain ⟨x, hx, -⟩ := h.group g hg
  exact List.ne_nil_of_mem hx

/-- Without the first group the others split what is left. -/
theorem tail {g : List α} (h : Splits key xs (g :: gs)) {x : α} (hx : x ∈ g) :
    Splits key (xs.filter fun y => !(key x).same (key y)) gs := by
  obtain ⟨hfirst, happart⟩ := List.pairwise_cons.1 h.apart
  have hg : g = xs.filter fun y => (key x).same (key y) := h.eq_filter List.mem_cons_self hx
  refine ⟨fun k hk => ?_, happart, fun y hy => ?_⟩
  · obtain ⟨z, hz, -⟩ := h.group k (List.mem_cons_of_mem g hk)
    refine ⟨z, hz, ?_⟩
    rw [List.filter_filter, h.eq_filter (List.mem_cons_of_mem g hk) hz]
    refine List.filter_congr fun y _ => ?_
    rcases hzy : (key z).same (key y)
    · rfl
    · rw [Cell.same_comm, Cell.same_congr (Cell.same_comm _ _ ▸ hzy), Cell.same_comm,
        hfirst k hk x hx z hz]
      rfl
  · obtain ⟨hy, hne⟩ := List.mem_filter.1 hy
    obtain ⟨k, hk, hyk⟩ := h.cover y hy
    rcases List.mem_cons.1 hk with rfl | hk
    · rw [hg] at hyk
      rw [(List.mem_filter.1 hyk).2] at hne
      cases hne
    · exact ⟨k, hk, hyk⟩

/-- The groups together are the elements in another order. -/
theorem flatten_perm : ∀ {gs : List (List α)} {xs : List α}, Splits key xs gs → gs.flatten.Perm xs
  | [], xs, h => by
    have hnil : xs = [] := List.eq_nil_iff_forall_not_mem.2 fun x hx => by
      obtain ⟨g, hg, -⟩ := h.cover x hx
      cases hg
    rw [hnil]
    exact .nil
  | g :: gs, xs, h => by
    obtain ⟨x, hx, -⟩ := h.group g List.mem_cons_self
    have hg := h.eq_filter List.mem_cons_self hx
    have ih := flatten_perm (h.tail hx)
    rw [List.flatten_cons]
    exact ((List.Perm.refl g).append ih).trans (hg ▸ List.filter_append_perm _ xs)

theorem sum_length (h : Splits key xs gs) : (gs.map List.length).sum = xs.length := by
  rw [← List.length_flatten]
  exact h.flatten_perm.length_eq

/-- The groups may come in any order. -/
theorem perm (h : Splits key xs gs) {hs : List (List α)} (hperm : hs.Perm gs) :
    Splits key xs hs := by
  refine ⟨fun g hg => h.group g (hperm.mem_iff.1 hg), ?_, fun x hx => ?_⟩
  · refine hperm.symm.pairwise h.apart fun hab y hy x hx => ?_
    rw [Cell.same_comm]
    exact hab x hx y hy
  · obtain ⟨g, hg, hxg⟩ := h.cover x hx
    exact ⟨g, hperm.mem_iff.2 hg, hxg⟩

theorem nodup (h : Splits key xs gs) : gs.Nodup := by
  refine h.apart.imp_of_mem fun {a b} ha _ happart hab => ?_
  obtain ⟨x, hx, -⟩ := h.group a ha
  have hne := happart x hx x (hab ▸ hx)
  rw [Cell.same_refl] at hne
  cases hne

/-- Elements are split by a key in one way, up to the order of the groups. -/
theorem unique {hs : List (List α)} (h : Splits key xs gs) (h' : Splits key xs hs) :
    gs.Perm hs := by
  have hsub : ∀ {gs hs : List (List α)}, Splits key xs gs → Splits key xs hs →
      ∀ g ∈ gs, g ∈ hs := fun h h' g hg => by
    obtain ⟨x, hx, -⟩ := h.group g hg
    obtain ⟨k, hk, hxk⟩ := h'.cover x (h.mem hg hx)
    rw [h.eq_filter hg hx, ← h'.eq_filter hk hxk]
    exact hk
  exact (List.perm_ext_iff_of_nodup h.nodup h'.nodup).2 fun g => ⟨hsub h h' g, hsub h' h g⟩

/-- Groups keep what their elements are read as. -/
theorem map {β : Type} (f : α → β) {key' : β → Cell} (hkey : ∀ x, key' (f x) = key x)
    (h : Splits key xs gs) : Splits key' (xs.map f) (gs.map (List.map f)) := by
  refine ⟨fun g hg => ?_, ?_, fun y hy => ?_⟩
  · obtain ⟨k, hk, rfl⟩ := List.mem_map.1 hg
    obtain ⟨x, hx, hfilter⟩ := h.group k hk
    refine ⟨f x, List.mem_map_of_mem hx, ?_⟩
    simp only [List.filter_map, Function.comp_def, hkey]
    exact congrArg (List.map f) hfilter
  · refine List.pairwise_map.2 (h.apart.imp fun happart y hy z hz => ?_)
    obtain ⟨v, hv, rfl⟩ := List.mem_map.1 hy
    obtain ⟨w, hw, rfl⟩ := List.mem_map.1 hz
    rw [hkey, hkey]
    exact happart v hv w hw
  · obtain ⟨x, hx, rfl⟩ := List.mem_map.1 hy
    obtain ⟨g, hg, hxg⟩ := h.cover x hx
    exact ⟨_, List.mem_map_of_mem hg, List.mem_map_of_mem hxg⟩

end Splits

/-- The label of a group, which its first record shows. -/
def labelOf {α : Type} (key : α → Cell) (g : List α) : Cell := g.head?.elim .null key

theorem Splits.labelOf_same {α : Type} {key : α → Cell} {xs : List α} {gs : List (List α)}
    (h : Splits key xs gs) {g : List α} (hg : g ∈ gs) {x : α} (hx : x ∈ g) :
    (labelOf key g).same (key x) = true := by
  rcases g with - | ⟨y, g⟩
  · cases hx
  · rw [h.eq_filter hg (List.mem_cons_self (a := y))] at hx
    exact (List.mem_filter.1 hx).2

/-- Where two keys are the same exactly if two views are equal, there is a group for each view. -/
theorem Splits.exists_views {α β : Type} [DecidableEq β] (view : α → β) (shown : β → Cell)
    {xs : List α} {gs : List (List α)} (hsame : ∀ b c, (shown b).same (shown c) = true → b = c)
    (h : Splits (fun x => shown (view x)) xs gs) : ∃ bs : List β, bs.Nodup ∧
      (∀ b, b ∈ bs ↔ ∃ x ∈ xs, view x = b) ∧ (gs = bs.map fun b => xs.filter (view · = b)) ∧
      ∀ b ∈ bs, labelOf (fun x => shown (view x)) (xs.filter (view · = b)) = shown b := by
  have hview : ∀ {g x}, g ∈ gs → x ∈ g → g = xs.filter (view · = view x) := fun {g x} hg hx => by
    rw [h.eq_filter hg hx]
    refine List.filter_congr fun y _ => Bool.eq_iff_iff.2 ?_
    rw [decide_eq_true_iff]
    exact ⟨fun hxy => (hsame _ _ hxy).symm, fun hyx => hyx ▸ Cell.same_refl _⟩
  obtain ⟨bs, rfl⟩ : gs ∈ Set.range (List.map fun b => xs.filter (view · = b)) := by
    rw [Set.range_list_map]
    intro g hg
    obtain ⟨x, hx, -⟩ := h.group g hg
    exact ⟨view x, (hview hg hx).symm⟩
  have hmem : ∀ b ∈ bs, ∃ x ∈ xs, view x = b := fun b hb => by
    obtain ⟨x, hx, -⟩ := h.group _ (List.mem_map_of_mem hb)
    obtain ⟨hx, hview⟩ := List.mem_filter.1 hx
    exact ⟨x, hx, of_decide_eq_true hview⟩
  refine ⟨bs, h.nodup.of_map _, fun b => ⟨hmem b, ?_⟩, rfl, fun b hb => ?_⟩
  · rintro ⟨x, hx, rfl⟩
    obtain ⟨g, hg, hxg⟩ := h.cover x hx
    obtain ⟨b, hb, rfl⟩ := List.mem_map.1 hg
    rwa [of_decide_eq_true (List.mem_filter.1 hxg).2]
  · obtain ⟨x, hx, rfl⟩ := hmem b hb
    rcases hg : xs.filter (view · = view x) with - | ⟨y, g⟩
    · exact absurd (decide_eq_true rfl) (List.filter_eq_nil_iff.1 hg x hx)
    · have hy : y ∈ xs.filter (view · = view x) := hg ▸ List.mem_cons_self
      rw [← of_decide_eq_true (List.mem_filter.1 hy).2]
      rfl

section Distinct

namespace Cell

theorem pairwise_distinct : ∀ cs : List Cell, (distinct cs).Pairwise fun a b => a.same b = false
  | [] => .nil
  | c :: cs => by
    rw [distinct, List.pairwise_cons]
    refine ⟨fun d hd => ?_, (pairwise_distinct cs).filter _⟩
    simpa using (List.mem_filter.1 hd).2

theorem exists_mem_distinct {c : Cell} : ∀ {cs : List Cell}, c ∈ cs →
    ∃ d ∈ distinct cs, d.same c = true
  | d :: cs, h => by
    rw [distinct]
    rcases hdc : d.same c
    · have hc : c ∈ cs := by
        rcases List.mem_cons.1 h with rfl | h
        · rw [same_refl] at hdc
          cases hdc
        · exact h
      obtain ⟨e, he, hec⟩ := exists_mem_distinct hc
      refine ⟨e, List.mem_cons_of_mem d (List.mem_filter.2 ⟨he, ?_⟩), hec⟩
      rw [same_comm, same_congr hec, same_comm, hdc]
      rfl
    · exact ⟨d, List.mem_cons_self, hdc⟩

end Cell

end Distinct

namespace Plan

variable {o : SortOrder} {kept : List Record} {label : Record → Cell}

/-- The groups of a plan split the records, and come in the order of their labels. -/
theorem splits_groups (o : SortOrder) (label : Record → Cell) (kept : List Record) :
    Splits label kept (groups o (kept.map fun x => (label x, x))) ∧
      (groups o (kept.map fun x => (label x, x))).Pairwise fun g h =>
        (labelOf label g).notAfter o (labelOf label h) = true := by
  let keys := (Cell.distinct (kept.map label)).mergeSort (Cell.notAfter o)
  have hgroups : groups o (kept.map fun x => (label x, x)) =
      keys.map fun k => kept.filter fun x => k.same (label x) := by
    have hkeys : (kept.map fun x => (label x, x)).map Prod.fst = kept.map label := by
      rw [List.map_map]
      rfl
    rw [groups, hkeys]
    refine List.map_congr_left fun k _ => ?_
    rw [List.filter_map, List.map_map]
    exact List.map_id _
  have hmem : ∀ {k}, k ∈ keys ↔ k ∈ Cell.distinct (kept.map label) := List.mem_mergeSort
  have hkey : ∀ k ∈ keys, ∃ x ∈ kept, label x = k := fun k hk =>
    List.mem_map.1 (Cell.mem_of_mem_distinct (hmem.1 hk))
  have happart : keys.Pairwise fun a b => a.same b = false :=
    (List.mergeSort_perm _ _).symm.pairwise (Cell.pairwise_distinct _) fun h =>
      (Cell.same_comm _ _).trans h
  have hgroup : ∀ k ∈ keys, ∃ x, x ∈ kept.filter (fun x => k.same (label x)) ∧ label x = k :=
    fun k hk => by
      obtain ⟨x, hx, rfl⟩ := hkey k hk
      exact ⟨x, List.mem_filter.2 ⟨hx, Cell.same_refl _⟩, rfl⟩
  have hlabel : ∀ k ∈ keys, k.same (labelOf label (kept.filter fun x => k.same (label x))) = true :=
    fun k hk => by
      obtain ⟨x, hx, -⟩ := hgroup k hk
      rcases hg : kept.filter (fun x => k.same (label x)) with - | ⟨y, g⟩
      · rw [hg] at hx
        cases hx
      · have hy : y ∈ kept.filter fun x => k.same (label x) := hg ▸ List.mem_cons_self
        exact (List.mem_filter.1 hy).2
  rw [hgroups]
  refine ⟨⟨fun g hg => ?_, ?_, fun x hx => ?_⟩, ?_⟩
  · obtain ⟨k, hk, rfl⟩ := List.mem_map.1 hg
    obtain ⟨x, hx, rfl⟩ := hgroup k hk
    exact ⟨x, hx, rfl⟩
  · refine List.pairwise_map.2 (happart.imp fun hab x hx y hy => ?_)
    have hx := (List.mem_filter.1 hx).2
    have hy := (List.mem_filter.1 hy).2
    rw [← Cell.same_congr hx, Cell.same_comm, ← Cell.same_congr hy, Cell.same_comm]
    exact hab
  · obtain ⟨k, hk, hsame⟩ := Cell.exists_mem_distinct (List.mem_map_of_mem (f := label) hx)
    exact ⟨_, List.mem_map_of_mem (hmem.2 hk), List.mem_filter.2 ⟨hx, hsame⟩⟩
  · refine List.pairwise_map.2 ((Cell.pairwise_mergeSort o _).imp_of_mem fun ha hb hab => ?_)
    rwa [Cell.notAfter_congr (hlabel _ ha) (hlabel _ hb)] at hab

/-- A plan with a label and a figure for each group. The groups come in the order of their labels or
of their figures. -/
structure Labels (p : Plan) (label : Record → Cell) (figure place : List Record → Cell)
    (o : SortOrder) : Prop where
  items : ∃ l e, p.items = [l, e] ∧ p.groupBy = some l ∧
    (∀ f x c, f.record = some x → l.evaluate f = .ok c → c = label x) ∧
    ∀ g, e.evaluate (.ofGroup g) = .ok (figure g)
  order : (p.orderBy = none ∧ o = .asc ∧ place = labelOf label) ∨
    ∃ k, p.orderBy = some (k, o) ∧ ∀ g c, g ≠ [] → k.evaluate (.ofGroup g) = .ok c → c = place g

section Labels

variable {p : Plan} {figure place : List Record → Cell} {rs : List Record}

theorem keyed_eq_ok {α : Type} {key : α → Except Fault Cell} {xs : List α}
    {ks : List (Cell × α)} {f : α → Cell} (h : keyed key xs = .ok ks)
    (hkey : ∀ x ∈ xs, ∀ c, key x = .ok c → c = f x) : ks = xs.map fun x => (f x, x) := by
  refine eq_map_of_mapM h fun x hx k hk => ?_
  obtain ⟨c, hc, rfl⟩ := map_eq_ok.1 hk
  rw [hkey x hx c hc]

theorem limited_map {α β : Type} (p : Plan) (f : α → β) (xs : List α) :
    p.limited (xs.map f) = (p.limited xs).map f := by
  unfold limited
  rcases p.limit with _ | n
  · rfl
  · exact List.map_take.symm

/-- The frames of such a plan are groups of the records that it selects, in their order. -/
theorem Labels.arranged (h : p.Labels label figure place o) {fs : List Frame}
    (hfs : p.arranged rs = .ok fs) : ∃ kept gs, p.selected rs = .ok kept ∧ Splits label kept gs ∧
      fs = gs.map Frame.ofGroup ∧ gs.Pairwise fun g h => (place g).notAfter o (place h) = true := by
  obtain ⟨l, e, -, hgroup, hlabel, -⟩ := h.items
  obtain ⟨kept, hkept, hfs⟩ := bind_eq_ok.1 hfs
  obtain ⟨frames, hframes, hordered⟩ := bind_eq_ok.1 hfs
  simp only [Plan.frames, hgroup] at hframes
  obtain ⟨ks, hks, hframes⟩ := bind_eq_ok.1 hframes
  have hks : ks = kept.map fun x => (label x, x) :=
    keyed_eq_ok hks fun x _ c hc => hlabel _ x c rfl hc
  obtain ⟨hsplits, hsorted⟩ := splits_groups p.direction label kept
  rw [← hks] at hsplits hsorted
  cases hframes
  rcases h.order with ⟨hnone, rfl, rfl⟩ | ⟨k, horder, hplace⟩
  · have hdirection : p.direction = .asc := by
      rw [direction, hnone]
      exact ite_self _
    rw [ordered, hnone] at hordered
    cases hordered
    exact ⟨kept, _, hkept, hsplits, rfl, hdirection ▸ hsorted⟩
  · rw [ordered, horder] at hordered
    obtain ⟨keyed, hkeyed, hordered⟩ := bind_eq_ok.1 hordered
    cases hordered
    -- each frame stands for its group, which is not empty
    have hkeyed : keyed = (groups p.direction ks).map fun g => (place g, Frame.ofGroup g) := by
      rw [keyed_eq_ok (f := fun f => place f.group) hkeyed fun f hf c hc => ?_, List.map_map]
      · rfl
      · obtain ⟨g, hg, rfl⟩ := List.mem_map.1 hf
        exact hplace g c (hsplits.ne_nil hg) hc
    obtain ⟨gs, hperm, hplaced, hgs⟩ :=
      exists_sorted o place Frame.ofGroup (groups p.direction ks)
    refine ⟨kept, gs, hkept, hsplits.perm hperm, ?_, hplaced⟩
    rw [hkeyed, hgs, List.map_map]
    rfl

/-- The result of such a plan has a record for each group in front of the limit. -/
theorem Labels.run (h : p.Labels label figure place o) {out : List (List Cell)}
    (hout : p.run rs = .ok out) : ∃ kept gs, p.selected rs = .ok kept ∧ Splits label kept gs ∧
      (gs.Pairwise fun g h => (place g).notAfter o (place h) = true) ∧
      out = p.limited (gs.map fun g => [labelOf label g, figure g]) := by
  obtain ⟨fs, hfs, hout⟩ := run_eq_ok.1 hout
  obtain ⟨kept, gs, hkept, hsplits, rfl, hsorted⟩ := h.arranged hfs
  obtain ⟨l, e, hitems, -, hlabel, hfigure⟩ := h.items
  refine ⟨kept, gs, hkept, hsplits, hsorted, ?_⟩
  rw [limited_map, List.mapM_map] at hout
  rw [limited_map]
  refine eq_map_of_mapM hout fun g hg cells hcells => ?_
  rw [Function.comp_apply, record, hitems] at hcells
  obtain ⟨c, rest, hc, hrest, rfl⟩ := mapM_cons_eq_ok.1 hcells
  obtain ⟨v, none, hv, hnone, rfl⟩ := mapM_cons_eq_ok.1 hrest
  rw [mapM_eq_ok_nil.1 hnone, Except.ok.inj (hv.symm.trans (hfigure g))]
  obtain ⟨x, g, rfl⟩ := List.exists_cons_of_ne_nil (hsplits.ne_nil (mem_limited hg))
  rw [hlabel _ x c rfl hc]
  rfl

end Labels

end Plan

end TableTalk
