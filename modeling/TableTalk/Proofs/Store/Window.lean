import Mathlib.Data.List.Induction
import TableTalk.Proofs.Store.Drilling
import TableTalk.Proofs.Store.Order

/-!
# Each period beside the one before

A comparison puts its periods in the order of their labels and gives each the one in front of it,
then turns the order round and cuts it off. So each row of a result has the period behind it in the
result, or what would be behind it, as the one to be compared with (`comparisonPlan_run`).
-/

namespace TableTalk

open Sql

/-- Each element beside the next. -/
def beside {α : Type} : List α → List (α × Option α)
  | [] => []
  | x :: xs => (x, xs.head?) :: beside xs

section Beside

variable {α β : Type}

theorem map_beside (f : α → β) : ∀ xs : List α,
    beside (xs.map f) = (beside xs).map fun x => (f x.1, x.2.map f)
  | [] => rfl
  | x :: xs => by rw [List.map_cons, beside, beside, map_beside f xs, List.head?_map]; rfl

theorem exists_of_mem_beside {x : α × Option α} : ∀ {xs : List α}, x ∈ beside xs →
    ∃ before behind, xs = before ++ x.1 :: behind ∧ x.2 = behind.head?
  | y :: xs, h => by
    rcases List.mem_cons.1 h with rfl | h
    · exact ⟨[], xs, rfl, rfl⟩
    · obtain ⟨before, behind, rfl, hnext⟩ := exists_of_mem_beside h
      exact ⟨y :: before, behind, rfl, hnext⟩

theorem getElem?_beside : ∀ (xs : List α) (i : Nat),
    (beside xs)[i]? = (xs[i]?).map fun x => (x, xs[i + 1]?)
  | [], _ => rfl
  | x :: xs, 0 => by
    rw [beside, List.getElem?_cons_zero, List.getElem?_cons_zero, List.getElem?_cons_succ,
      List.head?_eq_getElem?]
    rfl
  | x :: xs, i + 1 => by
    rw [beside, List.getElem?_cons_succ, List.getElem?_cons_succ, List.getElem?_cons_succ,
      getElem?_beside xs i]

end Beside

namespace Plan

/-- A record of a window with the one that it is compared with. -/
def windowed (x : Record × Option Record) : Frame := ⟨some x.1, [x.1], x.2⟩

/-- The frames of a window from the last record to the first. -/
theorem reverse_linked (rs : List Record) :
    (linked none (rs.map Frame.single)).reverse = (beside rs.reverse).map windowed := by
  have hlink : ∀ (rs : List Record) (b : Option Record) (r : Record),
      linked b ((rs ++ [r]).map Frame.single) =
        linked b (rs.map Frame.single) ++ [windowed (r, rs.getLast?.or b)] := by
    intro rs
    induction rs with
    | nil => exact fun b r => rfl
    | cons x rs ih =>
      intro b r
      have hlast : (x :: rs).getLast?.or b = rs.getLast?.or (some x) := by
        rw [List.getLast?_cons]
        cases rs.getLast? <;> rfl
      rw [List.cons_append, List.map_cons, linked, ih, hlast]
      rfl
  induction rs using List.reverseRecOn with
  | nil => rfl
  | append_singleton rs r ih =>
    rw [hlink, List.reverse_append, ih, List.reverse_append]
    simp [beside, windowed]

/-- What is sorted already stays so, and goes back to front in the other direction. -/
theorem sorted_of_apart {α : Type} {o : SortOrder} {ks : List (Cell × α)}
    (h : (ks.map Prod.fst).Pairwise fun a b => a.notAfter o b = true)
    (happart : (ks.map Prod.fst).Pairwise fun a b => a.same b = false) :
    sorted o ks = ks ∧ sorted o.flip ks = ks.reverse := by
  rw [List.pairwise_map] at h happart
  exact ⟨List.mergeSort_of_pairwise h, Cell.eq_reverse_of_apart (sorted_perm _ _).symm h
    (pairwise_sorted _ _) happart⟩

end Plan

theorem Cell.minus_null (c : Cell) : c.minus null = null := by
  rw [minus]
  rcases c.operand with _ | _ | _ | _ | _ | _ | _ <;> rfl

/-- The change against a total before. -/
def Cell.rate (change before : Cell) : Cell :=
  ((change.divide (if before.same (int 0) then null else before)).times (int 100)).round (int 2)

/-- The label of a period and its total. -/
structure Period where
  date : Cell
  total : Cell

namespace Period

def ofCells (cells : List Cell) : Period := ⟨(cells[0]?).getD .null, (cells[1]?).getD .null⟩

def ofRecord (r : Record) : Period := ofCells r.cells

/-- What a comparison says of a period and the one before. -/
def compared (x : Period × Option Period) : List Cell :=
  let before := x.2.elim .null total
  let change := x.1.total.minus before
  [x.1.date, x.1.total, before, change, change.rate before]

end Period

theorem Table.map_numbered {β : Type} (t : Table) (f : List Cell → β) :
    t.numbered.map (fun x => f x.cells) = t.records.map f := by
  refine List.ext_getElem? fun i => ?_
  rw [numbered, List.getElem?_map, List.getElem?_map, List.getElem?_mapIdx, Option.map_map]
  rfl

namespace Plan

theorem map_record_linked : ∀ {before : Option Record} (fs : List Frame),
    (linked before fs).map Frame.record = fs.map Frame.record
  | _, [] => rfl
  | _, f :: fs => congrArg (f.record :: ·) (map_record_linked fs)

theorem record_comparison (date total : Option Declared) (x : Record × Option Record) :
    (comparisonPlan date total).record (windowed x) =
      .ok (Period.compared (.ofRecord x.1, x.2.map .ofRecord)) := by
  have hzero : Cell.literal "0" = .int 0 := by decide
  have hhundred : Cell.literal "100" = .int 100 := by decide
  have htwo : Cell.literal "2" = .int 2 := by decide
  obtain ⟨r, _ | b⟩ := x <;>
  · simp only [record, comparisonPlan, List.mapM_cons, List.mapM_nil, Expr.evaluate, bind_ok, hzero,
      hhundred, htwo]
    rfl

variable {date total : Option Declared} {rs : List Record}

section Sorted

variable (hsorted : (rs.map fun r => (Ref.cell 0 date).read (some r)).Pairwise fun a b =>
    a.notAfter .asc b = true)
  (happart : (rs.map fun r => (Ref.cell 0 date).read (some r)).Pairwise fun a b => a.same b = false)

include hsorted happart

/-- Records whose dates are in order and apart are linked as they stand. -/
theorem frames_comparison :
    (comparisonPlan date total).frames rs = .ok (linked none (rs.map Frame.single)) := by
  let keyed := rs.map fun r => ((Ref.cell 0 date).read (some r), r)
  have hkeys : keyed.map Prod.fst = rs.map fun r => (Ref.cell 0 date).read (some r) := by
    rw [List.map_map]
    rfl
  have hkeep := (sorted_of_apart (hkeys ▸ hsorted) (hkeys ▸ happart)).1
  have hwindow : (comparisonPlan date total).items.findSome? Expr.lagOrder? =
      some (.column (.cell 0 date)) := rfl
  have hgroup : (comparisonPlan date total).groupBy = none := rfl
  have hagg : (comparisonPlan date total).items.any (fun e => e.aggregate?.isSome) = false := rfl
  simp only [Plan.frames, hgroup, hagg, hwindow, keyed_column, bind_ok, Bool.false_eq_true,
    if_false]
  rw [hkeep, List.map_map]
  rfl

/-- Linked records are listed from the last date to the first. -/
theorem ordered_comparison : (comparisonPlan date total).ordered
    (linked none (rs.map Frame.single)) = .ok (linked none (rs.map Frame.single)).reverse := by
  let frames := linked none (rs.map Frame.single)
  let keyed := frames.map fun f => ((Ref.cell 0 date).read f.record, f)
  have hrecords : frames.map Frame.record = rs.map some := by
    rw [map_record_linked, List.map_map]
    rfl
  have hkeys : keyed.map Prod.fst = rs.map fun r => (Ref.cell 0 date).read (some r) := calc
    keyed.map Prod.fst = (frames.map Frame.record).map (Ref.cell 0 date).read := by
      rw [List.map_map, List.map_map]
      rfl
    _ = rs.map fun r => (Ref.cell 0 date).read (some r) := by
      rw [hrecords, List.map_map]
      rfl
  have hback : sorted .desc keyed = keyed.reverse :=
    (sorted_of_apart (o := .asc) (hkeys ▸ hsorted) (hkeys ▸ happart)).2
  have horder : (comparisonPlan date total).orderBy = some (.column (.cell 0 date), .desc) := rfl
  have hcolumn : Plan.keyed (fun f => (Expr.column (.cell 0 date)).evaluate f) frames = .ok keyed :=
    mapM_eq_ok_map fun _ _ => rfl
  rw [ordered, horder]
  dsimp only
  rw [hcolumn, bind_ok, hback, ← List.map_reverse, List.map_map]
  exact congrArg _ (List.map_id _)

end Sorted

/-- A comparison of periods in the order of their dates, which are all apart. -/
theorem run_comparison {ps : List Period} (hps : rs.map Period.ofRecord = ps)
    (hsorted : (ps.map Period.date).Pairwise fun a b => a.notAfter .asc b = true)
    (happart : (ps.map Period.date).Pairwise fun a b => a.same b = false) :
    (comparisonPlan date total).run rs =
      .ok (((beside ps.reverse).take compareCap).map Period.compared) := by
  have hdates : ps.map Period.date = rs.map fun r => (Ref.cell 0 date).read (some r) := by
    rw [← hps, List.map_map]
    rfl
  rw [hdates] at hsorted happart
  rw [run, selected_all rfl, bind_ok, frames_comparison hsorted happart, bind_ok,
    ordered_comparison hsorted happart, bind_ok, reverse_linked, ← hps]
  show (((beside rs.reverse).map windowed).take compareCap).mapM _ = _
  rw [← List.map_take, List.mapM_map, ← List.map_reverse, map_beside, ← List.map_take, List.map_map]
  exact mapM_eq_ok_map fun x _ => record_comparison date total x

end Plan

end TableTalk
