import TableTalk.Insight.Overview
import TableTalk.Proofs.Decimal.Sums

/-!
# The slices of a pie

Each row belongs to the slice of its category and to no other one (`perm_rowsOf`). A cell without a
figure adds zero, which no sum notices, so the total of a slice is the sum of the figures of its rows
(`sliceSums_eq`), rounded in the same way. In exact numbers the slices have the total of the column
(`Recommendation.slicesOf_conserve`).
-/

namespace TableTalk.Recommendation

variable {rows : List Row} {category value : String}

/-- The rows of a category. -/
def rowsOf (rows : List Row) (category name : String) : List Row :=
  rows.filter fun r => r.category category = name

theorem valuesOf_map {α : Type} (rows : List Row) (category name : String) (f : Row → α) :
    valuesOf (rows.map fun r => (r.category category, f r)) name =
      (rowsOf rows category name).map f := by
  rw [valuesOf, List.filter_map, List.map_map]
  rfl

/-- The categories of some rows, in order of first occurrence. -/
def names (rows : List Row) (category : String) : List String :=
  Profile.fresh [] (rows.map fun r => r.category category)

theorem firsts_names (rows : List Row) (category : String) :
    Firsts (rows.map fun r => r.category category) (names rows category) :=
  Profile.firsts_fresh _

theorem perm_rowsOf (rows : List Row) (category : String) :
    ((names rows category).flatMap (rowsOf rows category)).Perm rows :=
  perm_flatMap_filter _ _ (firsts_names rows category).nodup fun _ hr =>
    ((firsts_names rows category).mem_iff _).2 (List.mem_map_of_mem hr)

theorem map_figures {α : Type} (num : Float → α) (rows : List Row) (value : String) :
    (Insight.figures rows value).map num =
      (rows.map fun r => (r.figure? value).map num).filterMap id := by
  rw [Insight.figures, List.map_filterMap, List.filterMap_map]
  rfl

/-- The total of a slice is the sum of the figures of its rows. -/
theorem sliceSums_eq {α : Type} [Add α] [OfNat α 0] (hzero : ∀ xs : List α, sumOf xs + 0 = sumOf xs)
    (num : Float → α) (rows : List Row) (category value : String) :
    sliceSums num rows category value = (names rows category).map fun name =>
      (name, sumOf ((Insight.figures (rowsOf rows category name) value).map num)) := by
  have hkeys : (rows.map fun r => (r.category category, ((r.figure? value).map num).getD 0)).map
      Prod.fst = rows.map fun r => r.category category := by
    rw [List.map_map]
    rfl
  rw [sliceSums, totals_eq, hkeys]
  refine List.map_congr_left fun name _ => ?_
  rw [valuesOf_map, map_figures, ← sumOf_getD hzero, List.map_map]
  rfl

theorem cells_slicesOf (h : value ≠ category) : (slicesOf rows category value).map Row.cells =
    (sliceTotals rows category value).map fun t =>
      [(category, .str t.1), (value, .ofFloat t.2)] := by
  rw [slicesOf, List.map_map]
  refine List.map_congr_left fun t _ => ?_
  exact Row.cells_ofMembers (by simpa using h.symm)

/-- One slice for each category in order of first occurrence, each row in one of them, with the sum
of the figures of its rows. In numbers that can be added in any order the slices have the total of
all figures. -/
theorem slicesOf_conserve (rows : List Row) {category value : String} (h : value ≠ category) :
    ∃ names, Firsts (rows.map fun r => r.category category) names ∧
      (names.flatMap (rowsOf rows category)).Perm rows ∧
      ((slicesOf rows category value).map Row.cells = names.map fun name =>
        [(category, .str name),
          (value, .ofFloat (sumOf (Insight.figures (rowsOf rows category name) value)))]) ∧
      ∀ {α : Type} [AddCommMonoid α] (num : Float → α),
        (sliceSums num rows category value = names.map fun name =>
          (name, sumOf ((Insight.figures (rowsOf rows category name) value).map num))) ∧
        sumOf ((sliceSums num rows category value).map Prod.snd) =
          sumOf ((Insight.figures rows value).map num) := by
  refine ⟨names rows category, firsts_names rows category, perm_rowsOf rows category, ?_,
    fun {α} _ num => ?_⟩
  · rw [cells_slicesOf h, sliceTotals, sliceSums_eq Decimal.sumOf_add_zero, List.map_map]
    simp only [List.map_id, Function.comp_def]
  · have hzero : ∀ xs : List α, sumOf xs + 0 = sumOf xs := fun _ => add_zero _
    refine ⟨sliceSums_eq hzero num rows category value, ?_⟩
    rw [map_figures, ← sumOf_getD hzero, sumOf_eq_sum, sumOf_eq_sum, sliceSums, sum_totals,
      List.map_map, List.map_map]
    rfl

/-- A missing category, a text that spells a figure, and a cell without one. -/
theorem slicesOf_conserve_ragged : ∃ rows : List Row,
    rows.map Row.cells = [[("c", .str "a"), ("v", .int 1)], [("v", .str "2")],
      [("c", .str "null"), ("v", .null)]] ∧
    (slicesOf rows "c" "v").map (fun r => r.get? "c") = [some (.str "a"), some (.str "null")] ∧
    ∀ num : Float → ℕ, sumOf ((sliceSums num rows "c" "v").map Prod.snd) =
      sumOf ((Insight.figures rows "v").map num) := by
  let rows : List Row := [⟨[("c", .str "a"), ("v", .int 1)], by decide⟩,
    ⟨[("v", .str "2")], by decide⟩, ⟨[("c", .str "null"), ("v", .null)], by decide⟩]
  obtain ⟨names, hfirsts, -, hcells, hsums⟩ := slicesOf_conserve rows (show "v" ≠ "c" by decide)
  have hnames : names = ["a", "null"] := hfirsts.unique (Profile.firsts_fresh _)
  refine ⟨rows, rfl, ?_, fun num => (hsums num).2⟩
  have hget : ((slicesOf rows "c" "v").map Row.cells).map (List.lookup "c") =
      [some (.str "a"), some (.str "null")] := by
    rw [hcells, hnames]
    rfl
  rwa [List.map_map] at hget

end TableTalk.Recommendation
