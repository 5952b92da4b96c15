import TableTalk.Proofs.Intent.Counting
import TableTalk.Proofs.Intent.Drilling
import TableTalk.Proofs.Store.Conjunction

/-!
# Filters as an intersection

A query keeps the records that each of its filters keeps alone (`Analysis.alone`), and its result
comes from these records whatever the filters are (`Analysis.summary`). So it does not matter in
which order the filters stand and how often, and one more of them keeps no more rows.

The store does not take every list of the same filters, though. It refuses too many of them, and a
filter that fails on a record is only looked at if those in front of it hold (`Analysis.Refused`).
-/

namespace TableTalk

open Sql

namespace Analysis

/-- Whether a filter alone keeps a record. -/
def alone (t : Target) (schema : Schema) (a : Analysis) (rows : List Row) (f : Filter)
    (x : Record) : Except Fault Bool := do
  let p ← (Scope.ofRows rows).plan (a.data t schema (t.conditions [f]))
  Expr.allHold x p.conditions

/-- The rows that an analysis makes of some records, without any filters. -/
def summary (t : Target) (schema : Schema) (a : Analysis) (rows : List Row) (kept : List Record) :
    Except Fault (List Row) := do
  let p ← (Scope.ofRows rows).plan (a.data t schema [])
  let cells ← p.run kept
  let u ← a.finish ⟨"", p.columns, cells⟩
  .ok u.rows

/-- The ways in which the store refuses filters that it can resolve: they are too many, or one of
them fails on a record alone. -/
def Refused (t : Target) (schema : Schema) (a : Analysis) (rows : List Row) (fs : List Filter)
    (e : StoreError) : Prop :=
  Select.depthLimit < Select.joined 0 (t.conditions fs) ∧ e = .refused .tooDeep ∨
    ∃ f ∈ fs, ∃ x ∈ (Table.ofRows t.source.text rows).numbered, ∃ fault,
      a.alone t schema rows f x = .error fault ∧
        e = Store.located (a.query t schema (t.conditions fs)).text fault

variable {t : Target} {schema : Schema} {a : Analysis} {rows : List Row} {fs gs : List Filter}
  {kept : List Record}

section Plans

variable (hd : t.dialect = .directColumn) {p : Plan}
  (hp : (Scope.ofRows rows).plan (a.data t schema (t.conditions fs)) = .ok p)

include hd hp

/-- Each filter alone is one of the conditions, and the other way round. -/
theorem alone_of_plan :
    (∀ f ∈ fs, ∃ e ∈ p.conditions, ∀ x, a.alone t schema rows f x = Expr.allHold x [e]) ∧
      ∀ e ∈ p.conditions, ∃ f ∈ fs, ∀ x, a.alone t schema rows f x = Expr.allHold x [e] := by
  rw [Target.conditions_direct hd] at hp
  obtain ⟨items, hconditions, hagg, hplan⟩ := Scope.plan_conditions hp
  -- the items are the same whatever the filters are, so a name means the same among them
  have halone : ∀ f e, (Scope.ofRows rows).resolve items (t.condition f) = .ok e →
      e ∈ p.conditions → ∀ x, a.alone t schema rows f x = Expr.allHold x [e] := by
    intro f e he hmem x
    have hone : (t.conditions [f]).mapM ((Scope.ofRows rows).resolve items) = .ok [e] := by
      rw [Target.conditions_direct hd]
      exact mapM_cons_eq_ok.2 ⟨e, [], he, rfl, rfl⟩
    rw [alone, hplan _ _ hone (by simpa using hagg e hmem), bind_ok]
  refine ⟨fun f hf => ?_, fun e he => ?_⟩
  · obtain ⟨e, he, hresolve⟩ := exists_of_mapM hconditions _ (List.mem_map_of_mem hf)
    exact ⟨e, he, halone f e hresolve he⟩
  · obtain ⟨c, hc, hresolve⟩ := mem_of_mapM hconditions e he
    obtain ⟨f, hf, rfl⟩ := List.mem_map.1 hc
    exact ⟨f, hf, halone f e hresolve he⟩

theorem allHold_iff {x : Record} {b : Bool} (h : Expr.allHold x p.conditions = .ok b) :
    b = true ↔ ∀ f ∈ fs, a.alone t schema rows f x = .ok true := by
  obtain ⟨hfilter, hcondition⟩ := alone_of_plan hd hp
  rw [Expr.allHold_eq_iff h]
  constructor
  · intro h f hf
    obtain ⟨e, he, halone⟩ := hfilter f hf
    exact (halone x).trans (h e he)
  · intro h e he
    obtain ⟨f, hf, halone⟩ := hcondition e he
    exact (halone x).symm.trans (h f hf)

/-- Filters keep what each of them keeps alone. -/
theorem kept_eq_alone (h : a.kept t schema fs rows = .ok kept) :
    kept = (Table.ofRows t.source.text rows).numbered.filter fun x =>
      fs.all fun f => decide (a.alone t schema rows f x = .ok true) := by
  rw [Analysis.kept, hp, bind_ok] at h
  refine Plan.selected_eq_filter h fun x _ b hb => ?_
  rw [Bool.eq_iff_iff, allHold_iff hd hp hb]
  simp

omit hp in
theorem mem_kept_iff (h : a.kept t schema fs rows = .ok kept) :
    ∀ x ∈ (Table.ofRows t.source.text rows).numbered,
      x ∈ kept ↔ ∀ f ∈ fs, a.alone t schema rows f x = .ok true := fun x hx => by
  obtain ⟨p, hp, -⟩ := bind_eq_ok.1 h
  rw [kept_eq_alone hd hp h, List.mem_filter, and_iff_right hx]
  simp

theorem exists_alone {e : Fault} (h : a.kept t schema fs rows = .error e) :
    ∃ f ∈ fs, ∃ x ∈ (Table.ofRows t.source.text rows).numbered,
      a.alone t schema rows f x = .error e := by
  rw [Analysis.kept, hp, bind_ok] at h
  obtain ⟨x, hx, herror⟩ := Plan.exists_of_selected h
  obtain ⟨c, hc, herror⟩ := Expr.exists_of_allHold herror
  obtain ⟨f, hf, halone⟩ := (alone_of_plan hd hp).2 c hc
  exact ⟨f, hf, x, hx, (halone x).trans herror⟩

theorem plan_of_subset (hgs : ∀ g ∈ gs, g ∈ fs) :
    ∃ q, (Scope.ofRows rows).plan (a.data t schema (t.conditions gs)) = .ok q := by
  rw [Target.conditions_direct hd] at hp ⊢
  obtain ⟨items, hconditions, hagg, hplan⟩ := Scope.plan_conditions hp
  have hresolve : ∀ c ∈ gs.map t.condition, ∃ e, (Scope.ofRows rows).resolve items c = .ok e ∧
      e ∈ p.conditions := fun c hc => by
    obtain ⟨g, hg, rfl⟩ := List.mem_map.1 hc
    obtain ⟨e, he, h⟩ := exists_of_mapM hconditions _ (List.mem_map_of_mem (hgs g hg))
    exact ⟨e, h, he⟩
  obtain ⟨es, hes⟩ := isOk_of_mapM fun c hc => (hresolve c hc).imp fun _ h => h.1
  refine ⟨_, hplan _ es hes fun e he => ?_⟩
  obtain ⟨c, hc, h⟩ := mem_of_mapM hes e he
  obtain ⟨d, hd, hmem⟩ := hresolve c hc
  rw [Except.ok.inj (h.symm.trans hd)]
  exact hagg d hmem

/-- A filter more is one condition more if the table has its column. -/
theorem plan_insert {before after : List Filter} {f : Filter} (hfs : fs = before ++ after)
    (hf : (Scope.ofRows rows).Names f.column)
    (hfinite : ∀ x, f.value = .number x → x.isFinite = true) :
    ∃ items cb e ca, p.conditions = cb ++ ca ∧
      (Scope.ofRows rows).resolve items (t.condition f) = .ok e ∧
      ((∀ q ∈ f.pattern?, q.utf8ByteSize ≤ Cell.patternLimit) → e.Safe fun _ => True) ∧
      (Scope.ofRows rows).plan (a.data t schema (t.conditions (before ++ f :: after))) =
        .ok { p with conditions := cb ++ e :: ca } := by
  rw [Target.conditions_direct hd, hfs, List.map_append] at hp
  obtain ⟨items, hconditions, hagg, hplan⟩ := Scope.plan_conditions hp
  obtain ⟨cb, ca, hcb, hca, hall⟩ := mapM_append_eq_ok.1 hconditions
  obtain ⟨r, -, hlookup⟩ := Scope.lookup_of_names hf items
  obtain ⟨e, he, heagg, hsafe⟩ := Scope.exists_condition items hd hlookup
    (Expr.safe_column (P := fun _ => True) r) rfl hfinite
  rw [hall, List.forall_mem_append] at hagg
  refine ⟨items, cb, e, ca, hall, he, hsafe, hplan _ (cb ++ e :: ca) ?_ (List.forall_mem_append.2
    ⟨hagg.1, List.forall_mem_cons.2 ⟨heagg, hagg.2⟩⟩)⟩
  rw [Target.conditions_direct hd, List.map_append, List.map_cons]
  exact mapM_append_eq_ok.2 ⟨cb, _, hcb, mapM_cons_eq_ok.2 ⟨e, ca, he, hca, rfl⟩, rfl⟩

end Plans

/-- The rows of a query come from the records that it keeps. -/
theorem kept_bind_summary (fs : List Filter) : (do
      let p ← (Scope.ofRows rows).plan (a.data t schema (t.conditions fs))
      let cells ← p.run (Table.ofRows t.source.text rows).numbered
      a.finish ⟨"", p.columns, cells⟩ : Except Fault Table).map Table.rows =
      a.kept t schema fs rows >>= a.summary t schema rows := by
  rw [Analysis.kept]
  rcases hp : (Scope.ofRows rows).plan (a.data t schema (t.conditions fs)) with e | p
  · rfl
  · obtain ⟨items, -, -, hplan⟩ := Scope.plan_conditions hp
    have hempty := hplan [] [] rfl (List.forall_mem_nil _)
    rw [bind_ok, bind_ok, Plan.run_eq]
    rcases p.selected (Table.ofRows t.source.text rows).numbered with e | kept
    · rfl
    · rw [bind_ok, bind_ok, summary, hempty, bind_ok]
      rcases ({ p with conditions := [] } : Plan).run kept with e | cells
      · rfl
      · rw [bind_ok, bind_ok]
        rcases a.finish ⟨"", p.columns, cells⟩ with e | u <;> rfl

theorem summary_count {total : String} (h : aggregateCountsRows schema total .count = true)
    (kept : List Record) : (Analysis.aggregate total .count none).summary t schema rows kept =
      .ok [Row.ofMembers [("value", .int kept.length)]] := by
  have hplan : (Scope.ofRows rows).plan ((Analysis.aggregate total .count none).data t schema []) =
      .ok ⟨[⟨"value", none⟩], [.countRows], [], none, none, none⟩ :=
    Scope.plan_single (Scope.resolve_count h) rfl nofun
  have hrun : (Plan.mk [⟨"value", none⟩] [.countRows] [] none none none).run kept =
      .ok [[.int kept.length]] :=
    (Plan.run_whole_eq_ok rfl rfl rfl rfl ⟨_, rfl⟩).2 ⟨kept, _, Plan.selected_all rfl _, rfl, rfl⟩
  rw [summary, hplan, bind_ok]
  exact bind_eq_ok.2 ⟨_, hrun, rfl⟩

end Analysis

/-- The name of a table that was made, and those of its columns, are written in full. -/
theorem Store.clean_of_load {name : String} {rows : List Row}
    (h : ∃ s, Store.empty.load name rows = .ok s) :
    Clean name ∧ ∀ first ∈ rows.head?, ∀ c ∈ first.keys, Clean c := by
  obtain ⟨-, hname, -, -, hmakes⟩ := load_isOk_iff.1 h
  refine ⟨hname, fun first hfirst c hc => ?_⟩
  obtain ⟨rest, rfl⟩ := List.head?_eq_some_iff.1 hfirst
  obtain ⟨m, hm, rfl⟩ := List.mem_map.1 hc
  exact hmakes.clean _ (List.mem_map_of_mem hm)

namespace Intent

variable {t : Target} {schema : Schema} {rows out : List Row} {a : Analysis} {fs gs : List Filter}

/-- The text of a query that is closed gives what its records make, unless its filters are too
many. -/
theorem executeOnce_closed (hd : t.dialect = .directColumn)
    (hload : ∃ s, Store.empty.load t.source.text rows = .ok s)
    (hclosed : ∀ u ∈ (a.query t schema (t.conditions fs)).tokens, u.broken = false)
    (hapart : a.kind = .compare → Text.sameAscii "period_stats" t.source.text = false) :
    Store.executeOnce t.source.text rows (a.query t schema (t.conditions fs)).text =
      if Select.joined 0 (t.conditions fs) ≤ Select.depthLimit then
        (a.kept t schema fs rows >>= a.summary t schema rows).mapError
          (Store.located (a.query t schema (t.conditions fs)).text)
      else .error (.refused .tooDeep) := by
  obtain ⟨s, hload⟩ := hload
  split_ifs with hdepth
  · have hfits : (a.query t schema (t.conditions fs)).Fits .directColumn :=
      (Analysis.fits_query a).2 hdepth
    have hrun : ({ tables := [Table.ofRows t.source.text rows] } : Store).run
        (a.query t schema (t.conditions fs)) = _ := Store.run_query_eq rfl a hapart
    have hread := Store.ofTokens_text (a.wellFormed_direct hd fs) hclosed
    rw [if_pos hfits] at hread
    rw [Store.executeOnce, hload, bind_ok, Store.eq_of_load hload, Store.execute_of_read hread,
      ← Analysis.kept_bind_summary]
    exact congrArg (fun x => (Except.map Table.rows x).mapError _) hrun
  · exact execute_deep hd hload hclosed (Nat.not_le.1 hdepth)

theorem exists_summary (hd : t.dialect = .directColumn)
    (hout : Store.executeOnce t.source.text rows (a.query t schema (t.conditions fs)).text =
      .ok out) : ∃ kept, a.kept t schema fs rows = .ok kept ∧
        a.summary t schema rows kept = .ok out := by
  obtain ⟨hload, hclosed, hdepth, hapart, -⟩ := (executeOnce_query hd a).1 hout
  rw [executeOnce_closed hd hload hclosed hapart, if_pos hdepth, mapError_eq_ok] at hout
  exact bind_eq_ok.1 hout

/-- The store makes rows of what filters keep that have a plan, or it refuses them. -/
theorem execute_or_refused (hd : t.dialect = .directColumn)
    (hload : ∃ s, Store.empty.load t.source.text rows = .ok s)
    (hclosed : ∀ u ∈ (a.query t schema (t.conditions fs)).tokens, u.broken = false)
    (hapart : a.kind = .compare → Text.sameAscii "period_stats" t.source.text = false)
    (hp : ∃ p, (Scope.ofRows rows).plan (a.data t schema (t.conditions fs)) = .ok p) :
    (∃ kept, a.kept t schema fs rows = .ok kept ∧
      Store.executeOnce t.source.text rows (a.query t schema (t.conditions fs)).text =
        (a.summary t schema rows kept).mapError
          (Store.located (a.query t schema (t.conditions fs)).text)) ∨
      ∃ e, Store.executeOnce t.source.text rows (a.query t schema (t.conditions fs)).text =
        .error e ∧ a.Refused t schema rows fs e := by
  obtain ⟨p, hp⟩ := hp
  rw [executeOnce_closed hd hload hclosed hapart]
  split_ifs with hdepth
  · rcases hkept : a.kept t schema fs rows with e | kept
    · obtain ⟨f, hf, x, hx, halone⟩ := Analysis.exists_alone hd hp hkept
      exact .inr ⟨_, rfl, .inr ⟨f, hf, x, hx, e, halone, rfl⟩⟩
    · exact .inl ⟨kept, rfl, rfl⟩
  · exact .inr ⟨_, rfl, .inl ⟨Nat.not_le.1 hdepth, rfl⟩⟩

theorem compile_filters {c : Float} {r text : String}
    (h : (analyze a fs c r).compile t schema = .ok text)
    (hgs : ∀ g ∈ gs, g ∉ fs → schema.contains g.column = true) :
    (analyze a gs c r).compile t schema = .ok (a.query t schema (t.conditions gs)).text := by
  obtain ⟨q, hq, -⟩ := map_eq_ok.1 h
  obtain ⟨hcolumns, -⟩ := query_eq_ok.1 hq
  refine map_eq_ok.2 ⟨_, query_eq_ok.2 ⟨fun d hd => ?_, rfl⟩, rfl⟩
  rcases List.mem_append.1 hd with hd | hd
  · exact hcolumns d (List.mem_append_left _ hd)
  · obtain ⟨g, hg, rfl⟩ := List.mem_map.1 hd
    by_cases hmem : g ∈ fs
    · exact hcolumns _ (List.mem_append_right _ (List.mem_map_of_mem hmem))
    · exact hgs g hg hmem

theorem closed_filters (hd : t.dialect = .directColumn)
    (h : ∀ u ∈ (a.query t schema (t.conditions fs)).tokens, u.broken = false)
    (hgs : ∀ g ∈ gs, g ∉ fs → (∀ x, g.value = .number x → x.isFinite = true) ∧
      Clean g.column ∧ ∀ s ∈ g.value.text?, Clean s) :
    ∀ u ∈ (a.query t schema (t.conditions gs)).tokens, u.broken = false := by
  rw [unbroken_query, Target.conditions_direct hd] at h ⊢
  refine ⟨h.1, h.2.1, fun e he l hl => ?_⟩
  obtain ⟨g, hg, rfl⟩ := List.mem_map.1 he
  by_cases hmem : g ∈ fs
  · exact h.2.2 _ (List.mem_map_of_mem hmem) l hl
  · obtain ⟨hfinite, hcolumn, htext⟩ := hgs g hg hmem
    rw [Target.literals_condition hfinite] at hl
    exact broken_filter hfinite hcolumn htext l hl

section Inserted

variable {before after : List Filter} {f : Filter}

theorem eq_of_mem_insert {g : Filter} (h : g ∈ before ++ f :: after) (hg : g ∉ before ++ after) :
    g = f := by
  grind

theorem compile_insert {c : Float} {r text : String}
    (h : (analyze a (before ++ after) c r).compile t schema = .ok text)
    (hf : schema.contains f.column = true) :
    (analyze a (before ++ f :: after) c r).compile t schema =
      .ok (a.query t schema (t.conditions (before ++ f :: after))).text :=
  compile_filters h fun _ hg hmem => (eq_of_mem_insert hg hmem).symm ▸ hf

/-- A filter for a column of a table that was made leaves a query closed. -/
theorem closed_insert {first : Row} {rest : List Row} (hd : t.dialect = .directColumn)
    (hload : ∃ s, Store.empty.load t.source.text (first :: rest) = .ok s)
    (h : ∀ u ∈ (a.query t schema (t.conditions (before ++ after))).tokens, u.broken = false)
    (hcolumn : f.column ∈ first.keys) (hfinite : ∀ x, f.value = .number x → x.isFinite = true)
    (hclean : ∀ s ∈ f.value.text?, Clean s) :
    ∀ u ∈ (a.query t schema (t.conditions (before ++ f :: after))).tokens, u.broken = false :=
  closed_filters hd h fun g hg hmem => by
    rw [eq_of_mem_insert hg hmem]
    exact ⟨hfinite, (Store.clean_of_load hload).2 first rfl _ hcolumn, hclean⟩

theorem count_insert {total : String} {kept : List Record} {out' : List Row}
    (hd : t.dialect = .directColumn) (htotal : aggregateCountsRows schema total .count = true)
    (hkept : (Analysis.aggregate total .count none).kept t schema (before ++ after) rows = .ok kept)
    (hout : Store.executeOnce t.source.text rows ((Analysis.aggregate total .count none).query t
      schema (t.conditions (before ++ f :: after))).text = .ok out') :
    ∃ m ≤ kept.length, out' = [Row.ofMembers [("value", .int m)]] := by
  obtain ⟨kept', hkept', hsummary⟩ := exists_summary hd hout
  rw [Analysis.summary_count htotal, Except.ok.injEq] at hsummary
  obtain ⟨p, hp, -⟩ := bind_eq_ok.1 hkept
  obtain ⟨q, hq, -⟩ := bind_eq_ok.1 hkept'
  refine ⟨kept'.length, ?_, hsummary.symm⟩
  rw [Analysis.kept_eq_alone hd hp hkept, Analysis.kept_eq_alone hd hq hkept']
  refine (List.monotone_filter_right _ fun x hx => ?_).length_le
  rw [List.all_eq_true] at hx ⊢
  exact fun g hg => hx g (by grind)

end Inserted

/-- The rows that contribute are those that each filter keeps alone. -/
theorem execute_conjunction {c : Float} {r text : String} (hd : t.dialect = .directColumn)
    (h : (analyze a fs c r).compile t (Profile.ofRows rows) = .ok text)
    (hout : Store.executeOnce t.source.text rows text = .ok out) :
    ∃ kept, a.kept t (Profile.ofRows rows) fs rows = .ok kept ∧
      a.summary t (Profile.ofRows rows) rows kept = .ok out ∧
      kept.Sublist (Table.ofRows t.source.text rows).numbered ∧
      (∀ x ∈ (Table.ofRows t.source.text rows).numbered,
        x ∈ kept ↔ ∀ f ∈ fs, a.alone t (Profile.ofRows rows) rows f x = .ok true) ∧
      (∀ f ks, a.kept t (Profile.ofRows rows) [f] rows = .ok ks →
        ∀ x ∈ (Table.ofRows t.source.text rows).numbered,
          x ∈ ks ↔ a.alone t (Profile.ofRows rows) rows f x = .ok true) ∧
      (∀ gs, (∀ g, g ∈ gs ↔ g ∈ fs) → ∃ text',
        (analyze a gs c r).compile t (Profile.ofRows rows) = .ok text' ∧
          (Store.executeOnce t.source.text rows text' = .ok out ∨
            ∃ e, Store.executeOnce t.source.text rows text' = .error e ∧
              a.Refused t (Profile.ofRows rows) rows gs e)) ∧
      ∀ total, a = .aggregate total .count none →
        aggregateCountsRows (Profile.ofRows rows) total .count = true →
        out = [Row.ofMembers [("value", .int kept.length)]] ∧
        ∀ before after f, fs = before ++ after → (∃ first ∈ rows.head?, f.column ∈ first.keys) →
          ∃ text', (analyze a (before ++ f :: after) c r).compile t (Profile.ofRows rows) =
              .ok text' ∧
            (∀ out', Store.executeOnce t.source.text rows text' = .ok out' →
              ∃ m ≤ kept.length, out' = [Row.ofMembers [("value", .int m)]]) ∧
            ((∀ x, f.value = .number x → x.isFinite = true) → (∀ s ∈ f.value.text?, Clean s) →
              (∃ out', Store.executeOnce t.source.text rows text' = .ok out') ∨
                ∃ e, Store.executeOnce t.source.text rows text' = .error e ∧
                  a.Refused t (Profile.ofRows rows) rows (before ++ f :: after) e) := by
  obtain ⟨_, _, _, _, ⟨⟩, -, rfl⟩ := exists_analyze h
  obtain ⟨kept, hkept, hsummary⟩ := exists_summary hd hout
  obtain ⟨hload, hclosed, -, hapart, -⟩ := (executeOnce_query hd a).1 hout
  obtain ⟨p, hp, -⟩ := bind_eq_ok.1 hkept
  have hfilter := Analysis.kept_eq_alone hd hp hkept
  have hsublist : kept.Sublist (Table.ofRows t.source.text rows).numbered := by
    rw [hfilter]
    exact List.filter_sublist
  refine ⟨kept, hkept, hsummary, hsublist, Analysis.mem_kept_iff hd hkept,
    fun f ks hks x hx => ?_, fun gs hgs => ?_, ?_⟩
  · simpa using Analysis.mem_kept_iff hd hks x hx
  · refine ⟨_, compile_filters h fun g hg hmem => absurd ((hgs g).1 hg) hmem, ?_⟩
    have hclosed' : ∀ u ∈ (a.query t (Profile.ofRows rows) (t.conditions gs)).tokens,
        u.broken = false :=
      closed_filters hd hclosed fun g hg hmem => absurd ((hgs g).1 hg) hmem
    have hq := Analysis.plan_of_subset hd hp fun g hg => (hgs g).1 hg
    refine (execute_or_refused hd hload hclosed' hapart hq).imp_left ?_
    rintro ⟨kept', hkept', hrows⟩
    obtain ⟨q, hq⟩ := hq
    -- what all of some filters say depends on which they are only
    have hsame : kept' = kept := by
      rw [hfilter, Analysis.kept_eq_alone hd hq hkept']
      refine List.filter_congr fun x _ => ?_
      rw [Bool.eq_iff_iff, List.all_eq_true, List.all_eq_true]
      exact forall_congr' fun g => imp_congr_left (hgs g)
    rw [hrows, hsame, hsummary]
    rfl
  · rintro total rfl htotal
    rw [Analysis.summary_count htotal, Except.ok.injEq] at hsummary
    refine ⟨hsummary.symm, ?_⟩
    rintro before after f rfl ⟨first, hfirst, hcolumn⟩
    obtain ⟨rest, rfl⟩ := List.head?_eq_some_iff.1 hfirst
    have hcontains : (Profile.ofRows (first :: rest)).contains f.column = true :=
      Profile.contains_ofRows.2 ⟨first, List.mem_cons_self, hcolumn⟩
    refine ⟨_, compile_insert h hcontains, fun out' hout' => count_insert hd htotal hkept hout',
      fun hfinite hclean => ?_⟩
    have hclosed' := closed_insert hd hload hclosed hcolumn hfinite hclean
    obtain ⟨_, _, _, _, -, -, -, hq⟩ := Analysis.plan_insert hd hp rfl
      (Scope.names_ofRows.2 (Row.answers_of_mem hcolumn)) hfinite
    refine (execute_or_refused hd hload hclosed' hapart ⟨_, hq⟩).imp_left ?_
    rintro ⟨kept', -, hrows⟩
    rw [hrows, Analysis.summary_count htotal]
    exact ⟨_, rfl⟩

/-- A filter more leaves two rows of three. -/
theorem execute_conjunction_letters : ∃ (text : String) (out : List Row) (kept : List Record),
    (analyze (.aggregate "*" .count none) [⟨"letter", .neq, .text "C"⟩] 1 "").compile
      ⟨.directColumn, none, none⟩ (Profile.ofRows letters) = .ok text ∧
    Store.executeOnce defaultTable letters text = .ok out ∧
    out = [Row.ofMembers [("value", .int kept.length)]] ∧
    (∀ x ∈ (Table.ofRows defaultTable letters).numbered, x ∈ kept ↔
      ∀ f ∈ [(⟨"letter", .neq, .text "C"⟩ : Filter)],
        (Analysis.aggregate "*" .count none).alone ⟨.directColumn, none, none⟩
          (Profile.ofRows letters) letters f x = .ok true) ∧
    ∃ text', (analyze (.aggregate "*" .count none)
        [⟨"letter", .neq, .text "C"⟩, ⟨"letter", .eq, .text "A"⟩] 1 "").compile
        ⟨.directColumn, none, none⟩ (Profile.ofRows letters) = .ok text' ∧
      ∀ out', Store.executeOnce defaultTable letters text' = .ok out' →
        ∃ m ≤ kept.length, out' = [Row.ofMembers [("value", .int m)]] := by
  have hload : ∃ s, Store.empty.load defaultTable letters = .ok s := Store.load_default (by decide)
  have hl : Limits ⟨.directColumn, none, none⟩ letters
      (analyze (.aggregate "*" .count none) [⟨"letter", .neq, .text "C"⟩] 1 "") :=
    ⟨by decide, by decide, by decide, by rintro a fs c r ⟨⟩ b ⟨⟩⟩
  obtain ⟨text, out, htext, hout⟩ := exists_execute hload (by decide +kernel) hl (by simp)
    (by decide)
  obtain ⟨kept, -, -, -, hmem, -, -, hcount⟩ :=
    execute_conjunction (t := ⟨.directColumn, none, none⟩) rfl htext hout
  obtain ⟨hrows, hinsert⟩ := hcount "*" rfl (by decide)
  obtain ⟨text', htext', hless, -⟩ := hinsert [⟨"letter", .neq, .text "C"⟩] []
    ⟨"letter", .eq, .text "A"⟩ rfl ⟨_, rfl, by decide⟩
  exact ⟨text, out, kept, htext, hout, hrows, hmem, text', htext', hless⟩

section Refused

def letterRun (n : Nat) : String := String.ofList (List.replicate n 'x')

theorem utf8ByteSize_letterRun (n : Nat) : (letterRun n).utf8ByteSize = n := by
  rw [letterRun, String.utf8ByteSize_ofList]
  induction n with
  | zero => rfl
  | succ n ih =>
    rw [List.replicate_succ, String.utf8Len_cons, ih]
    rfl

theorem clean_letterRun (n : Nat) : Clean (letterRun n) := by
  rw [Clean, letterRun, String.toList_ofList, List.mem_replicate]
  rintro ⟨-, h⟩
  cases h

/-- A filter that nothing in a lone row satisfies, and one whose pattern is as long as wanted. -/
def unlike : Filter := ⟨"p", .neq, .text "A"⟩

def containing (n : Nat) : Filter := ⟨"p", .contains, .text (letterRun n)⟩

variable {n : Nat}

theorem resolve_unlike (items : List (Option String × Expr Ref)) :
    (Scope.ofRows lone).resolve items (Target.condition ⟨.directColumn, none, none⟩ unlike) =
      .ok (.compare .ne (.column (.cell 0 (some .varchar))) (.text "A")) := by
  have hcondition : Target.condition ⟨.directColumn, none, none⟩ unlike =
      .compare .ne (Target.column ⟨.directColumn, none, none⟩ .text "p") (.text "A") := rfl
  rw [hcondition]
  exact Scope.resolve_comparison rfl rfl items .ne "A"

theorem resolve_containing (n : Nat) (items : List (Option String × Expr Ref)) :
    (Scope.ofRows lone).resolve items
        (Target.condition ⟨.directColumn, none, none⟩ (containing n)) =
      .ok (.like (.call .lower (.column (.cell 0 (some .varchar))))
        (.call .lower (.text ("%" ++ letterRun n ++ "%")))) := by
  have hcondition : Target.condition ⟨.directColumn, none, none⟩ (containing n) =
      Target.pattern ⟨.directColumn, none, none⟩ "p" ("%" ++ letterRun n ++ "%") := rfl
  rw [hcondition]
  exact Scope.resolve_pattern items rfl rfl _

/-- The record of the lone row is kept if all conditions hold of it. -/
theorem kept_lone {f g : Filter} {d e : Expr Ref}
    (hf : ∀ items, (Scope.ofRows lone).resolve items
      (Target.condition ⟨.directColumn, none, none⟩ f) = .ok d)
    (hg : ∀ items, (Scope.ofRows lone).resolve items
      (Target.condition ⟨.directColumn, none, none⟩ g) = .ok e)
    (hd : d.aggregate? = none) (he : e.aggregate? = none) :
    (Analysis.aggregate "*" .count none).kept ⟨.directColumn, none, none⟩ (Profile.ofRows lone)
      [f, g] lone = (do
        let keep ← Expr.allHold ⟨1, [.text "A"]⟩ [d, e]
        .ok (if keep then [⟨1, [.text "A"]⟩] else [])) := by
  have hconditions : (Target.conditions ⟨.directColumn, none, none⟩ [f, g]).mapM
      ((Scope.ofRows lone).resolve [(some "value", .countRows)]) = .ok [d, e] :=
    mapM_cons_eq_ok.2 ⟨d, [e], hf _, mapM_cons_eq_ok.2 ⟨e, [], hg _, rfl, rfl⟩, rfl⟩
  have hplan : (Scope.ofRows lone).plan ((Analysis.aggregate "*" .count none).data
      ⟨.directColumn, none, none⟩ (Profile.ofRows lone)
      (Target.conditions ⟨.directColumn, none, none⟩ [f, g])) =
      .ok ⟨[⟨"value", none⟩], [.countRows], [d, e], none, none, none⟩ :=
    Scope.plan_single (Scope.resolve_count (by decide)) hconditions (by simp [hd, he])
  rw [Analysis.kept, hplan]
  rfl

/-- Where the first filter does not hold, the second is not looked at. -/
theorem kept_unlike (n : Nat) : (Analysis.aggregate "*" .count none).kept
    ⟨.directColumn, none, none⟩ (Profile.ofRows lone) [unlike, containing n] lone = .ok [] := by
  rw [kept_lone resolve_unlike (resolve_containing n) rfl rfl]
  rfl

theorem kept_containing {n : Nat} (hn : Cell.patternLimit ≤ n) :
    (Analysis.aggregate "*" .count none).kept ⟨.directColumn, none, none⟩ (Profile.ofRows lone)
      [containing n, unlike] lone = .error .longPattern := by
  have hsign : "%".utf8ByteSize = 1 := rfl
  have hpattern : Cell.patternLimit <
      (Text.lowerAscii ("%" ++ letterRun n ++ "%")).utf8ByteSize := by
    rw [Text.utf8ByteSize_lowerAscii, String.utf8ByteSize_append, String.utf8ByteSize_append,
      utf8ByteSize_letterRun]
    omega
  rw [kept_lone (resolve_containing n) resolve_unlike rfl rfl, Expr.allHold,
    Expr.evaluate_like_long rfl rfl hpattern]
  rfl

/-- The count of the lone row, under two filters, is that of what they keep. -/
theorem execute_lone {f g : Filter} (hf : f.column = "p") (hg : g.column = "p")
    (hfinite : ∀ k ∈ [f, g], ∀ x, k.value = .number x → x.isFinite = true)
    (hclean : ∀ k ∈ [f, g], ∀ s ∈ k.value.text?, Clean s)
    (hdepth : Select.joined 0 (Target.conditions ⟨.directColumn, none, none⟩ [f, g]) ≤
      Select.depthLimit) :
    ∃ text, (analyze (.aggregate "*" .count none) [f, g] 1 "").compile
        ⟨.directColumn, none, none⟩ (Profile.ofRows lone) = .ok text ∧
      Store.executeOnce defaultTable lone text =
        ((Analysis.aggregate "*" .count none).kept ⟨.directColumn, none, none⟩
          (Profile.ofRows lone) [f, g] lone >>=
            (Analysis.aggregate "*" .count none).summary ⟨.directColumn, none, none⟩
              (Profile.ofRows lone) lone).mapError (Store.located text) := by
  obtain ⟨text, htext⟩ : ∃ text, (analyze (.aggregate "*" .count none) [] 1 "").compile
      ⟨.directColumn, none, none⟩ (Profile.ofRows lone) = .ok text :=
    isOk_of_isSome (by decide +kernel)
  obtain ⟨_, _, _, _, ⟨⟩, hq, -⟩ := exists_analyze htext
  have hp : Clean "p" := by decide
  have hcolumn : ∀ k ∈ [f, g], k.column = "p" := by simp [hf, hg]
  have hempty : ∀ u ∈ ((Analysis.aggregate "*" .count none).query ⟨.directColumn, none, none⟩
      (Profile.ofRows lone) (Target.conditions ⟨.directColumn, none, none⟩ [])).tokens,
      u.broken = false := unbroken_tokens hq nofun (by decide)
  have hclosed : ∀ u ∈ ((Analysis.aggregate "*" .count none).query ⟨.directColumn, none, none⟩
      (Profile.ofRows lone) (Target.conditions ⟨.directColumn, none, none⟩ [f, g])).tokens,
      u.broken = false := closed_filters rfl hempty fun k hk _ =>
    ⟨hfinite k hk, (hcolumn k hk).symm ▸ hp, hclean k hk⟩
  have hcontains : ∀ k ∈ [f, g], k ∉ ([] : List Filter) →
      (Profile.ofRows lone).contains k.column = true := fun k hk _ => by
    rw [hcolumn k hk]
    decide
  have hcompile := compile_filters htext hcontains
  have hrows := executeOnce_closed (t := ⟨.directColumn, none, none⟩) rfl load_lone hclosed nofun
  rw [if_pos hdepth] at hrows
  exact ⟨_, hcompile, hrows⟩

theorem mem_repeated (n : Nat) (f : Filter) :
    f ∈ (repeated (n + 1)).filters ↔ f = ⟨"p", .eq, .text "A"⟩ :=
  List.mem_replicate.trans (and_iff_right (Nat.succ_ne_zero n))

/-- The same filter once more, or two filters the other way round, can be refused. -/
theorem execute_conjunction_refused :
    (∃ text text', (repeated 999).compile ⟨.directColumn, none, none⟩ (Profile.ofRows lone) =
        .ok text ∧
      (repeated 1000).compile ⟨.directColumn, none, none⟩ (Profile.ofRows lone) = .ok text' ∧
      (∀ f, f ∈ (repeated 1000).filters ↔ f ∈ (repeated 999).filters) ∧
      (∃ out, Store.executeOnce defaultTable lone text = .ok out) ∧
      ¬∃ out, Store.executeOnce defaultTable lone text' = .ok out) ∧
    ∃ text text', (analyze (.aggregate "*" .count none) [unlike, containing 50000] 1 "").compile
        ⟨.directColumn, none, none⟩ (Profile.ofRows lone) = .ok text ∧
      (analyze (.aggregate "*" .count none) [containing 50000, unlike] 1 "").compile
        ⟨.directColumn, none, none⟩ (Profile.ofRows lone) = .ok text' ∧
      Store.executeOnce defaultTable lone text = .ok [Row.ofMembers [("value", .int 0)]] ∧
      ¬∃ out, Store.executeOnce defaultTable lone text' = .ok out := by
  have hrefused : ∀ {x : Except StoreError (List Row)} {e}, x = .error e → ¬∃ out, x = .ok out := by
    rintro _ e rfl ⟨out, h⟩
    cases h
  refine ⟨?_, ?_⟩
  · obtain ⟨s, hload⟩ := load_lone
    obtain ⟨text, htext, hout⟩ := execute_repeated (n := 999) (by decide) hload
    have hclosed : ∀ u ∈ ((Analysis.aggregate "p" .count (some "p")).query
        ⟨.directColumn, none, none⟩ (Profile.ofRows lone)
        (Target.conditions ⟨.directColumn, none, none⟩
          (List.replicate 1000 ⟨"p", .eq, .text "A"⟩))).tokens, u.broken = false :=
      unbroken_tokens (query_repeated 1000) (by
        rintro f hf x hx
        rw [(List.mem_replicate.1 hf).2] at hx
        cases hx) (clean_repeated 1000)
    have hdepth : Select.depthLimit < Select.joined 0 (Target.conditions
        ⟨.directColumn, none, none⟩ (List.replicate 1000 ⟨"p", .eq, .text "A"⟩)) := by
      rw [joined_repeated 999]
      decide
    have hmany : (repeated 1000).compile ⟨.directColumn, none, none⟩ (Profile.ofRows lone) =
        .ok _ := map_eq_ok.2 ⟨_, query_repeated 1000, rfl⟩
    have hdeep := execute_deep (t := ⟨.directColumn, none, none⟩) rfl hload hclosed hdepth
    have hsame : ∀ f, f ∈ (repeated 1000).filters ↔ f ∈ (repeated 999).filters := fun f =>
      (mem_repeated 999 f).trans (mem_repeated 998 f).symm
    exact ⟨text, _, htext, hmany, hsame, ⟨_, hout⟩, hrefused hdeep⟩
  · have hfinite : ∀ k ∈ [unlike, containing 50000], ∀ x, k.value = .number x →
        x.isFinite = true := by simp [unlike, containing]
    have hclean : ∀ k ∈ [unlike, containing 50000], ∀ s ∈ k.value.text?, Clean s := by
      have hA : Clean "A" := by decide
      simp [unlike, containing, FilterValue.text?, hA, clean_letterRun]
    obtain ⟨text, htext, hout⟩ := execute_lone rfl rfl hfinite hclean (by decide)
    obtain ⟨text', htext', hout'⟩ := execute_lone (f := containing 50000) (g := unlike) rfl rfl
      (by grind) (by grind) (by decide)
    refine ⟨text, text', htext, htext', ?_, hrefused (e := Store.located text' .longPattern) ?_⟩
    · rw [hout, kept_unlike, bind_ok, Analysis.summary_count (by decide)]
      rfl
    · rw [hout', kept_containing (by decide), bind_error]
      rfl

end Refused

end Intent

end TableTalk
