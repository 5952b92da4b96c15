import TableTalk.Proofs.Chart.Slices

/-!
# The category that leads

The top category is found among the totals of the rows with a figure. These are slices of the pie,
with the same totals (`totals_figures`), but not all slices: a category without a figure does not
take part. They stand in order of the first row with a figure (`firstFigure_lt`), and the first of
the largest ones is taken (`Insight.topCategory_leads`).
-/

namespace TableTalk.Insight

open Recommendation

variable {α : Type} {rows : List Row} {category metric : String}

/-- A category with a figure in some row. -/
def Eligible (rows : List Row) (category metric name : String) : Prop :=
  ∃ r ∈ rows, r.category category = name ∧ r.figure? metric ≠ none

/-- The category of a row with a figure. -/
def figured? (category metric : String) (r : Row) : Option String :=
  (r.figure? metric).map fun _ => r.category category

/-- The place of the first row of a category with a figure. -/
def firstFigure (rows : List Row) (category metric name : String) : Nat :=
  rows.findIdx fun r => figured? category metric r = some name

/-- An eligible category with its slice, which no slice of an eligible category exceeds. Among equals
it is the one with the earliest figure. -/
structure Leads [Add α] [OfNat α 0] [LE α] (num : Float → α) (rows : List Row)
    (category metric name : String) (total : α) : Prop where
  eligible : Eligible rows category metric name
  slice : (sliceSums num rows category metric).lookup name = some total
  largest : ∀ other, Eligible rows category metric other →
    ∃ sum, (sliceSums num rows category metric).lookup other = some sum ∧ sum ≤ total
  first : ∀ other, Eligible rows category metric other → other ≠ name →
    (sliceSums num rows category metric).lookup other = some total →
      firstFigure rows category metric name < firstFigure rows category metric other

/-- No sum of a category is rounded, and the sums keep their order. -/
structure Unrounded [Add α] [OfNat α 0] [LT α] (num : Float → α) (rows : List Row)
    (category metric : String) : Prop where
  sum : ∀ name, num (sumOf (figures (rowsOf rows category name) metric)) =
    sumOf ((figures (rowsOf rows category name) metric).map num)
  lt : ∀ name other, sumOf (figures (rowsOf rows category name) metric) <
      sumOf (figures (rowsOf rows category other) metric) ↔
    num (sumOf (figures (rowsOf rows category name) metric)) <
      num (sumOf (figures (rowsOf rows category other) metric))

theorem figured?_eq_some {r : Row} {name : String} : figured? category metric r = some name ↔
    r.category category = name ∧ r.figure? metric ≠ none := by
  rw [figured?]
  cases r.figure? metric <;> simp

theorem mem_figured {name : String} :
    name ∈ rows.filterMap (figured? category metric) ↔ Eligible rows category metric name := by
  simp only [List.mem_filterMap, figured?_eq_some, Eligible]

/-- Of two categories the one that first has a figure is the first one among those with figures. -/
theorem firstFigure_lt {name other : String}
    (h : (rows.filterMap (figured? category metric)).idxOf name <
      (rows.filterMap (figured? category metric)).idxOf other) :
    firstFigure rows category metric name < firstFigure rows category metric other := by
  induction rows with
  | nil => simp at h
  | cons r rows ih =>
    rw [firstFigure, firstFigure, List.findIdx_cons, List.findIdx_cons]
    rcases hr : figured? category metric r with _ | key
    · rw [List.filterMap_cons_none hr] at h
      simpa [firstFigure] using ih h
    · rw [List.filterMap_cons_some hr] at h
      by_cases hother : key = other
      · subst hother
        simp at h
      · by_cases hname : key = name
        · simp [hname, show name ≠ other from hname ▸ hother]
        · rw [List.idxOf_cons_ne _ hname, List.idxOf_cons_ne _ hother] at h
          simpa [firstFigure, hname, hother] using ih (by omega)

theorem figured_entries (num : Float → α) (rows : List Row) (category metric : String) :
    (rows.filterMap fun r => (r.figure? metric).map fun x => (r.category category, num x)).map
      Prod.fst = rows.filterMap (figured? category metric) := by
  simp only [List.map_filterMap, Option.map_map]
  rfl

theorem valuesOf_entries (num : Float → α) (rows : List Row) (category metric name : String) :
    valuesOf (rows.filterMap fun r => (r.figure? metric).map fun x => (r.category category, num x))
      name = (figures (rowsOf rows category name) metric).map num := by
  induction rows with
  | nil => rfl
  | cons r rows ih =>
    rcases hfigure : r.figure? metric with _ | x <;> by_cases hname : r.category category = name <;>
      simpa [valuesOf, rowsOf, figures, hfigure, hname] using ih

/-- The categories with figures, in order of the first one, and their slices. -/
theorem totals_figures [Add α] [OfNat α 0] (num : Float → α) (rows : List Row)
    (category metric : String) :
    totals (rows.filterMap fun r => (r.figure? metric).map fun x => (r.category category, num x)) =
      (Profile.fresh [] (rows.filterMap (figured? category metric))).map fun name =>
        (name, sumOf ((figures (rowsOf rows category name) metric).map num)) := by
  rw [totals_eq, figured_entries]
  simp only [valuesOf_entries]

theorem lookup_sliceSums [Add α] [OfNat α 0] (hzero : ∀ xs : List α, sumOf xs + 0 = sumOf xs)
    (num : Float → α) {name : String} (h : Eligible rows category metric name) :
    (sliceSums num rows category metric).lookup name =
      some (sumOf ((figures (rowsOf rows category name) metric).map num)) := by
  obtain ⟨r, hr, hname, -⟩ := h
  have hmem : name ∈ names rows category :=
    ((firsts_names rows category).mem_iff _).2 (List.mem_map.2 ⟨r, hr, hname⟩)
  rw [sliceSums_eq hzero, Profile.lookup_map, if_pos hmem]

theorem topSum?_eq_none [Add α] [OfNat α 0] [LT α] [DecidableRel (LT.lt (α := α))]
    {num : Float → α} :
    topSum? num rows category metric = none ↔ ∀ r ∈ rows, r.figure? metric = none := by
  have hfirsts := Profile.firsts_fresh (rows.filterMap (figured? category metric))
  rw [topSum?, largest?_eq_none, totals_figures, List.map_eq_nil_iff,
    List.eq_nil_iff_forall_not_mem]
  constructor
  · intro h r hr
    by_contra hfigure
    exact h _ ((hfirsts.mem_iff _).2 (mem_figured.2 ⟨r, hr, rfl, hfigure⟩))
  · intro h name hname
    obtain ⟨r, hr, -, hfigure⟩ := mem_figured.1 ((hfirsts.mem_iff _).1 hname)
    exact hfigure (h r hr)

/-- What is taken is the slice of an eligible category. -/
theorem eligible_of_topSum? [Add α] [OfNat α 0] [LT α] [DecidableRel (LT.lt (α := α))]
    {num : Float → α} {name : String} {total : α}
    (h : topSum? num rows category metric = some (name, total)) :
    Eligible rows category metric name ∧
      total = sumOf ((figures (rowsOf rows category name) metric).map num) := by
  have hmem := mem_of_largest? h
  rw [totals_figures, List.mem_map] at hmem
  obtain ⟨other, hother, he⟩ := hmem
  cases he
  exact ⟨mem_figured.1 (((Profile.firsts_fresh _).mem_iff _).1 hother), rfl⟩

theorem topSum?_of_unrounded [Add α] [OfNat α 0] [LT α] [DecidableRel (LT.lt (α := α))]
    {num : Float → α} (h : Unrounded num rows category metric) :
    topSum? num rows category metric =
      (topCategory? rows category metric).map fun t => (t.1, num t.2) := by
  have htotals : totals (rows.filterMap fun r =>
      (r.figure? metric).map fun x => (r.category category, num x)) =
        (totals (rows.filterMap fun r =>
          (r.figure? metric).map fun x => (r.category category, id x))).map
            fun t => (t.1, num t.2) := by
    rw [totals_figures, totals_figures, List.map_map]
    refine List.map_congr_left fun name _ => ?_
    simp only [Function.comp, List.map_id, h.sum]
  rw [topSum?, htotals, topCategory?, topSum?]
  refine largest?_map num fun t ht u hu => ?_
  rw [totals_figures, List.mem_map] at ht hu
  obtain ⟨name, -, rfl⟩ := ht
  obtain ⟨other, -, rfl⟩ := hu
  simpa only [List.map_id] using h.lt name other

theorem leads_of_topSum? [AddCommMonoid α] [LinearOrder α] {num : Float → α} {name : String}
    {total : α} (h : topSum? num rows category metric = some (name, total)) :
    Leads num rows category metric name total := by
  obtain ⟨heligible, htotal⟩ := eligible_of_topSum? h
  obtain ⟨before, after, hsplit, hbefore, hafter⟩ := split_of_largest? h
  have hslice : ∀ other, Eligible rows category metric other →
      (sliceSums num rows category metric).lookup other =
        some (sumOf ((figures (rowsOf rows category other) metric).map num)) :=
    fun _ hother => lookup_sliceSums (fun _ => add_zero _) num hother
  have hfirsts := Profile.firsts_fresh (rows.filterMap (figured? category metric))
  rw [totals_figures] at hsplit
  obtain ⟨earlier, rest, hnames, rfl, hrest⟩ := List.map_eq_append_iff.1 hsplit
  obtain ⟨leader, later, rfl, hleader, rfl⟩ := List.map_eq_cons_iff.1 hrest
  obtain rfl : leader = name := congrArg Prod.fst hleader
  have hplace : ∀ other, Eligible rows category metric other →
      other ∈ earlier ∨ other = leader ∨ other ∈ later := fun other hother => by
    have hmem := (hfirsts.mem_iff _).2 (mem_figured.2 hother)
    rwa [hnames, List.mem_append, List.mem_cons] at hmem
  refine ⟨heligible, ?_, fun other hother => ?_, fun other hother hne hequal => ?_⟩
  · rw [hslice leader heligible, htotal]
  · refine ⟨_, hslice other hother, ?_⟩
    rcases hplace other hother with he | rfl | hl
    · exact (hbefore _ (List.mem_map_of_mem he)).le
    · exact htotal.ge
    · exact hafter _ (List.mem_map_of_mem hl)
  · rw [hslice other hother, Option.some.injEq] at hequal
    rcases hplace other hother with he | rfl | hl
    · exact absurd hequal (hbefore _ (List.mem_map_of_mem he)).ne
    · exact absurd rfl hne
    · have horder := hfirsts.order
      rw [hnames] at horder
      exact firstFigure_lt ((List.pairwise_cons.1 (List.pairwise_append.1 horder).2.1).1 _ hl)

/-- The top category is none only without any figure. Else it is a slice of the pie, and in exact
numbers the one that leads, as it does in doubles wherever no sum is rounded. -/
theorem topCategory_leads (rows : List Row) (category metric : String) :
    (topCategory? rows category metric = none ↔ ∀ r ∈ rows, r.figure? metric = none) ∧
      (∀ name total, topCategory? rows category metric = some (name, total) →
        Eligible rows category metric name ∧
          (sliceTotals rows category metric).lookup name = some total) ∧
      ∀ {α : Type} [AddCommMonoid α] [LinearOrder α] (num : Float → α),
        (topSum? num rows category metric = none ↔ ∀ r ∈ rows, r.figure? metric = none) ∧
        (∀ name total, topSum? num rows category metric = some (name, total) →
          Leads num rows category metric name total) ∧
        (Unrounded num rows category metric →
          ∀ name total, topCategory? rows category metric = some (name, total) →
            Leads num rows category metric name (num total)) := by
  refine ⟨topSum?_eq_none, fun name total h => ?_, fun num =>
    ⟨topSum?_eq_none, fun name total h => leads_of_topSum? h, fun hsums name total h => ?_⟩⟩
  · obtain ⟨heligible, rfl⟩ := eligible_of_topSum? h
    exact ⟨heligible, lookup_sliceSums Decimal.sumOf_add_zero id heligible⟩
  · refine leads_of_topSum? ?_
    rw [topSum?_of_unrounded hsums, h]
    rfl

end TableTalk.Insight
