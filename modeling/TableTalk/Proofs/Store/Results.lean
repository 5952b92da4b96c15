import TableTalk.Proofs.Store.Drilling
import TableTalk.Proofs.Table.Rows

/-!
# Results of selections

The columns of a result go by the names of the items, and each record has a cell for each of them.
So if no two items have one name, a row of the result has just these names as keys, in this order
(`Table.keys_select`).

A limit is the last step of a run. Without it there is the same result with more behind it perhaps,
unless a record behind the limit fails (`Table.select_unlimited`). None does where the selection
reads the table: a group that was made has a value, for its dates have their buckets already
(`Scope.record_isOk`).
-/

namespace TableTalk

open Sql

section Names

variable {s : Scope} {q : Select} {p : Plan} {items : List (Item Name)}

theorem Scope.names_of_plan (h : s.plan q = .ok p) (hitems : q.items = .list items) :
    p.columns.map Column.name = items.map itemName ∧ p.items.length = items.length := by
  obtain ⟨all, _, _, _, hall, -, -, -, -, rfl⟩ := plan_eq_ok.1 h
  rw [hitems] at hall
  have hname : all.map (fun i => i.2.1.name) = items.map itemName :=
    map_of_mapM (fun i x hx => by
      obtain ⟨e, -, hx⟩ := bind_eq_ok.1 hx
      cases hx
      rfl) hall
  refine ⟨?_, ?_⟩
  · rw [List.map_map]
    exact hname
  · rw [List.length_map]
    exact length_of_mapM hall

theorem Plan.length_of_run {rs : List Record} {out : List (List Cell)} (h : p.run rs = .ok out) :
    ∀ cells ∈ out, cells.length = p.items.length := by
  intro cells hcells
  obtain ⟨kept, -, h⟩ := bind_eq_ok.1 h
  obtain ⟨fs, -, h⟩ := bind_eq_ok.1 h
  obtain ⟨gs, -, h⟩ := bind_eq_ok.1 h
  obtain ⟨f, -, hrecord⟩ := mem_of_mapM h cells hcells
  exact length_of_mapM hrecord

theorem Table.keys_rows {u : Table} (hnodup : (u.columns.map Column.name).Nodup)
    (hlength : ∀ cells ∈ u.records, cells.length = u.columns.length) :
    ∀ row ∈ u.rows, row.keys = u.columns.map Column.name := by
  intro row hrow
  obtain ⟨cells, hcells, rfl⟩ := List.mem_map.1 hrow
  have hzip : (u.columns.zip cells).map Prod.fst = u.columns :=
    List.map_fst_zip (hlength cells hcells).ge
  have hnames : (u.columns.zip cells).map (Column.name ∘ Prod.fst) = u.columns.map Column.name :=
    List.map_map.symm.trans (congrArg _ hzip)
  rw [Row.keys_ofMembers, List.map_map]
  · exact hnames
  · rw [List.map_map]
    exact hnames ▸ hnodup

theorem Table.keys_select {T u : Table} {numbered : Bool} {name : String}
    (h : T.select numbered q name = .ok u) (hitems : q.items = .list items)
    (hnodup : (items.map Scope.itemName).Nodup) :
    ∀ row ∈ u.rows, row.keys = items.map Scope.itemName := by
  obtain ⟨p, records, hp, hrecords, rfl⟩ := Store.select_eq_ok.1 h
  obtain ⟨hnames, hlength⟩ := Scope.names_of_plan hp hitems
  have hcolumns : p.columns.length = items.length := by
    rw [← List.length_map (f := Column.name), hnames, List.length_map]
  rw [← hnames] at hnodup ⊢
  refine keys_rows hnodup fun cells hcells => ?_
  rw [Plan.length_of_run hrecords cells hcells, hlength]
  exact hcolumns.symm

end Names

/-- The selection without its limit. -/
def Sql.Select.unlimited (s : Select) : Select := { s with limit := none }

/-- The query without the limit of its result. -/
def Sql.Query.unlimited (q : Query) : Query := { q with main := q.main.unlimited }

namespace Plan

/-- The plan without its limit. -/
def unlimited (p : Plan) : Plan := { p with limit := none }

/-- The frames of a result in their order, those behind the limit too. -/
def arranged (p : Plan) (rs : List Record) : Except Fault (List Frame) := do
  let kept ← p.selected rs
  let fs ← p.frames kept
  p.ordered fs

variable {p : Plan} {rs kept : List Record} {fs : List Frame} {out : List (List Cell)}

theorem run_eq_ok : p.run rs = .ok out ↔
    ∃ fs, p.arranged rs = .ok fs ∧ (p.limited fs).mapM p.record = .ok out := by
  simp only [run, arranged, bind_eq_ok]
  constructor
  · rintro ⟨kept, hkept, gs, hgs, fs, hfs, hout⟩
    exact ⟨fs, ⟨kept, hkept, gs, hgs, hfs⟩, hout⟩
  · rintro ⟨fs, ⟨kept, hkept, gs, hgs, hfs⟩, hout⟩
    exact ⟨kept, hkept, gs, hgs, fs, hfs, hout⟩

theorem arranged_unlimited (p : Plan) (rs : List Record) :
    p.unlimited.arranged rs = p.arranged rs := by
  rw [arranged, @selected_congr p.unlimited p rfl]
  rfl

theorem limited_of_mapM {α β : Type} {f : α → Except Fault β} {xs : List α} {ys : List β}
    (h : xs.mapM f = .ok ys) : (p.limited xs).mapM f = .ok (p.limited ys) := by
  unfold limited
  rcases p.limit with _ | n
  · exact h
  · exact take_of_mapM h n

/-- Without the limit there is perhaps more behind the result. -/
theorem run_unlimited (h : p.run rs = .ok out)
    (hrecord : ∀ fs, p.arranged rs = .ok fs → ∀ f ∈ fs, ∃ cells, p.record f = .ok cells) :
    ∃ all, p.unlimited.run rs = .ok all ∧ out = p.limited all := by
  obtain ⟨fs, hfs, hout⟩ := run_eq_ok.1 h
  obtain ⟨all, hall⟩ := isOk_of_mapM (hrecord fs hfs)
  refine ⟨all, run_eq_ok.2 ⟨fs, (arranged_unlimited p rs).trans hfs, hall⟩, ?_⟩
  rw [limited_of_mapM hall] at hout
  exact (Except.ok.inj hout).symm

section Whole

variable {e : Expr Ref} (hgroup : p.groupBy = none) (horder : p.orderBy = none)
  (hlimit : p.limit = none) (hitems : p.items = [e]) (hagg : ∃ f, e.aggregate? = some f)

include hgroup horder hlimit hitems hagg

/-- An aggregate of all records is that of one group. -/
theorem run_whole_eq_ok : p.run rs = .ok out ↔ ∃ kept v, p.selected rs = .ok kept ∧
    e.evaluate (.ofGroup kept) = .ok v ∧ out = [[v]] := by
  obtain ⟨f, hf⟩ := hagg
  have hone : ∀ kept, p.frames kept = .ok [.ofGroup kept] := fun kept => by
    simp [frames, hgroup, hitems, hf]
  have hrecord : ∀ g, (p.limited [g]).mapM p.record = (e.evaluate g).map fun v => [[v]] := by
    intro g
    simp only [limited, hlimit, List.mapM_cons, List.mapM_nil, record, hitems]
    rcases e.evaluate g with _ | v <;> rfl
  rw [run, bind_eq_ok]
  refine exists_congr fun kept => ?_
  rw [hone, bind_ok, ordered, horder, bind_ok, hrecord, map_eq_ok]
  simp only [exists_and_left, eq_comm]

/-- It gives one record, even over none. -/
theorem length_of_single (h : p.run rs = .ok out) : out.length = 1 := by
  obtain ⟨kept, v, -, -, rfl⟩ := (run_whole_eq_ok hgroup horder hlimit hitems hagg).1 h
  rfl

end Whole

/-- The key of a grouping has a value for each record. -/
theorem exists_of_frames {key : Expr Ref} (hgroup : p.groupBy = some key)
    (h : p.frames kept = .ok fs) : ∀ x ∈ kept, ∃ c, key.evaluate (.single x) = .ok c := by
  intro x hx
  simp only [frames, hgroup] at h
  obtain ⟨ks, hks, -⟩ := bind_eq_ok.1 h
  obtain ⟨k, -, hkey⟩ := exists_of_mapM hks x hx
  obtain ⟨c, hc, -⟩ := map_eq_ok.1 hkey
  exact ⟨c, hc⟩

end Plan

theorem Scope.plan_unlimited {s : Scope} {q : Select} {p : Plan} (h : s.plan q = .ok p) :
    s.plan q.unlimited = .ok p.unlimited ∧ p.limit = q.limit := by
  obtain ⟨all, conditions, orderBy, groupBy, hall, hc, ho, hg, hagg, rfl⟩ := plan_eq_ok.1 h
  exact ⟨plan_eq_ok.2 ⟨all, conditions, orderBy, groupBy, hall, hc, ho, hg, hagg, rfl⟩, rfl⟩

/-- Each record of a result can be made, those behind the limit too. -/
def Table.Complete (T : Table) (numbered : Bool) (q : Select) : Prop :=
  ∀ p fs, Scope.plan ⟨T.columns, [], numbered⟩ q = .ok p → p.arranged T.numbered = .ok fs →
    ∀ f ∈ fs, ∃ cells, p.record f = .ok cells

theorem Table.select_unlimited {T u : Table} {numbered : Bool} {q : Select} {name : String}
    (h : T.select numbered q name = .ok u) (hcomplete : T.Complete numbered q) :
    ∃ all, T.select numbered q.unlimited name = .ok all ∧
      u.rows = q.limit.elim all.rows all.rows.take := by
  obtain ⟨p, records, hp, hrecords, rfl⟩ := Store.select_eq_ok.1 h
  obtain ⟨hunlimited, hlimit⟩ := Scope.plan_unlimited hp
  obtain ⟨all, hall, rfl⟩ := Plan.run_unlimited hrecords fun fs => hcomplete p fs hp
  refine ⟨_, Store.select_eq_ok.2 ⟨p.unlimited, all, hunlimited, hall, rfl⟩, ?_⟩
  rw [← hlimit]
  unfold Plan.limited
  rcases p.limit with _ | n
  · rfl
  · exact List.map_take

namespace Scope

variable {s : Scope} {t : Target} {schema : Schema} {a : Analysis} {p : Plan}
  (hd : t.dialect = .directColumn)

include hd

theorem groupBy_bucket {cs : List (Expr Name)} (h : s.plan (a.data t schema cs) = .ok p)
    {b : Grain × String} (hb : b ∈ a.bucket?) {n : Ref} (hn : s.ref? b.2 = some n) :
    p.groupBy = some (.call2 .dateTrunc (.text b.1.name)
      (.call .tryCastTimestamp (.column n))) := by
  obtain ⟨name, hlabel, hgrouping⟩ : ∃ name, a.label? t = some (name, t.bucket b.1 b.2) ∧
      a.grouping t = some (.number (Nat.repr (0 + 1))) := by
    cases a <;> cases hb <;> exact ⟨_, rfl, rfl⟩
  obtain ⟨all, _, _, groupBy, hall, -, -, hgroup, -, rfl⟩ := plan_eq_ok.1 h
  have hnamed := named_items hall
  rw [hlabel] at hnamed
  obtain ⟨i, rest, hi, -, hall⟩ := mapM_cons_eq_ok.1 hnamed
  obtain ⟨e, he, rfl⟩ := map_eq_ok.1 hi
  rw [resolve_bucket [] hd, lookup, hn] at he
  cases he
  have hkey : Option.mapM (s.groupKey (named all)) (a.grouping t) = .ok groupBy := hgroup
  rw [hgrouping, Option.mapM_some, groupKey, ordinal?_digit, hall] at hkey
  cases hkey
  rfl

/-- Each group of a result has a value. -/
theorem record_isOk {fs : List Filter} (h : s.plan (a.data t schema (t.conditions fs)) = .ok p)
    {rs : List Record} {frames : List Frame} (hframes : p.arranged rs = .ok frames) :
    ∀ f ∈ frames, ∃ cells, p.record f = .ok cells := by
  intro f hf
  obtain ⟨kept, hkept, hframes⟩ := bind_eq_ok.1 hframes
  obtain ⟨gs, hgs, hordered⟩ := bind_eq_ok.1 hframes
  have hwithin : f.Within (· ∈ kept) :=
    Plan.within_of_frames (fun _ hr => hr) hgs f (Plan.mem_of_ordered hordered hf)
  have hdates : s.Dates (· ∈ kept) a := fun b hb n hn x hx =>
    Plan.exists_of_frames (groupBy_bucket hd h hb hn) hgs x hx
  obtain ⟨all, hall, hresolved⟩ := exists_items hd (binds_of_plan hd h).items hdates
  obtain ⟨_, _, _, _, hitems, -, -, -, -, rfl⟩ := plan_eq_ok.1 h
  cases hall.symm.trans hitems
  refine isOk_of_mapM fun e he => ?_
  obtain ⟨i, hi, rfl⟩ := List.mem_map.1 he
  exact hresolved.safe _ (List.mem_map_of_mem hi) f hwithin

end Scope

namespace Table

theorem complete_comparison {u : Table} {date total : Option Declared}
    (hu : u.columns = [⟨"period_date", date⟩, ⟨"total_value", total⟩]) :
    u.Complete false Analysis.comparison := by
  intro p fs hp _ f _
  have hsafe := safe_comparisonPlan date total fun _ => True
  rw [hu, Scope.plan_comparison] at hp
  cases hp
  exact isOk_of_mapM fun e he => hsafe.items e he f ⟨fun _ _ => trivial, fun _ _ => trivial,
    fun _ _ => trivial⟩

end Table

namespace Store

variable {T : Table} {t : Target} {schema : Schema} {a : Analysis} {fs : List Filter}

/-- The main selection of a query reads the table, or the periods that it compares. -/
theorem exists_main (hd : t.dialect = .directColumn) (hname : t.source.text = T.name) {u : Table}
    (h : ({ tables := [T] } : Store).run (a.query t schema (t.conditions fs)) = .ok u) :
    ∃ (T' : Table) (numbered : Bool),
      T'.Complete numbered (a.query t schema (t.conditions fs)).main ∧
      T'.select numbered (a.query t schema (t.conditions fs)).main "" = .ok u ∧
      ({ tables := [T] } : Store).run (a.query t schema (t.conditions fs)).unlimited =
        T'.select numbered (a.query t schema (t.conditions fs)).main.unlimited "" := by
  rw [Analysis.query_eq] at h ⊢
  split_ifs at h ⊢ with hkind
  · have hcomparison : Text.sameAscii "period_stats" Analysis.comparison.source.text = true := by
      decide
    simp only [run, hcomparison, if_true] at h
    split_ifs at h with hcircular
    obtain ⟨c, hc, hu⟩ := bind_eq_ok.1 h
    obtain ⟨metric, date, period, rfl⟩ : ∃ m d r, a = .compare m d r := by
      cases a <;> first | exact ⟨_, _, _, rfl⟩ | cases hkind
    obtain ⟨p, records, hp, -, rfl⟩ := (select_data hname _).1 hc
    obtain ⟨x, y, hcolumns⟩ := columns_periods hp
    refine ⟨_, false, Table.complete_comparison hcolumns, hu, ?_⟩
    have hunlimited : Text.sameAscii "period_stats" Analysis.comparison.unlimited.source.text =
        true := hcomparison
    simp only [run, Query.unlimited, hunlimited, if_true, if_neg hcircular, hc, bind_ok]
  · refine ⟨T, true, fun p frames hp hframes => Scope.record_isOk hd hp hframes, ?_, ?_⟩
    · exact (select_only T hname "").symm.trans h
    · exact select_only T hname ""

end Store

end TableTalk
