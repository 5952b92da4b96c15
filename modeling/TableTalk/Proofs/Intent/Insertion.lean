import TableTalk.Proofs.Intent.Conjunction
import TableTalk.Proofs.Intent.Matching
import TableTalk.Proofs.Store.Results

/-!
# One filter more

A filter that is put among others keeps, of the records that they keep, those of whose cells it
holds (`Analysis.kept_insert`). What a result can be made of, it can be made of a part of too
(`Analysis.summary_isOk`), so the query with the filter gives rows if the one without it does
(`Intent.execute_insert`).
-/

namespace TableTalk

open Sql

variable {t : Target} {schema : Schema} {rows out : List Row} {a : Analysis}
  {before after : List Filter} {f : Filter} {base kept : List Record}

namespace Analysis

/-- A filter keeps the records of whose cells it holds, whatever stands around it. -/
theorem kept_insert (hd : t.dialect = .directColumn)
    (h : a.kept t schema (before ++ after) rows = .ok base) (hf : f.Asks (.ofRows rows))
    (hpattern : ∀ p ∈ f.pattern?, p.utf8ByteSize ≤ Cell.patternLimit) :
    a.kept t schema (before ++ f :: after) rows = .ok (base.filter fun x =>
      f.holds ((Scope.ofRows rows).type? f.column) ((Scope.ofRows rows).cell f.column x)) := by
  obtain ⟨p, hp, hselected⟩ := bind_eq_ok.1 h
  obtain ⟨r, hr⟩ := hf.column
  have hnames : (Scope.ofRows rows).Names f.column :=
    Scope.ref?_isSome_iff.1 (Option.isSome_iff_exists.2 ⟨r, hr⟩)
  obtain ⟨items, cb, e, ca, hall, he, hsafe, hplan⟩ := plan_insert hd hp rfl hnames hf.finite
  rw [kept, hplan, bind_ok]
  refine Plan.selected_insert hall rfl (fun x _ => ?_) hselected
  obtain ⟨d, hvalue⟩ := hsafe hpattern (.single x) (Frame.within_single trivial)
  exact ⟨d, hvalue, Scope.holds_of_condition hd hr hvalue hf.finite hf.words he⟩

theorem summary_isOk (hd : t.dialect = .directColumn)
    (h : a.summary t schema rows base = .ok out) (hsub : ∀ x ∈ kept, x ∈ base) :
    ∃ out', a.summary t schema rows kept = .ok out' := by
  obtain ⟨p, hp, h⟩ := bind_eq_ok.1 h
  obtain ⟨cells, hcells, -⟩ := bind_eq_ok.1 h
  obtain ⟨selected, hselected, hcells⟩ := bind_eq_ok.1 hcells
  obtain ⟨frames, hframes, -⟩ := bind_eq_ok.1 hcells
  obtain ⟨_, -, -, hplan⟩ := Scope.plan_conditions hp
  have hempty : p.conditions = [] := by
    have := hplan [] [] rfl nofun
    rw [hp, Except.ok.injEq] at this
    rw [this]
  rw [Plan.selected_all hempty, Except.ok.injEq] at hselected
  subst hselected
  -- the run over `base` shows that all its dates have a bucket, which a part of it needs too
  have hdates : (Scope.ofRows rows).Dates (· ∈ base) a := fun b hb n hn x hx =>
    Plan.exists_of_frames (Scope.groupBy_bucket hd hp hb hn) hframes x hx
  have hnone : t.conditions [] = [] := Target.conditions_direct hd []
  have hbinds : (Scope.ofRows rows).Binds t schema a [] :=
    Scope.binds_of_plan hd (hnone.symm ▸ hp)
  obtain ⟨q, hq, hsafe⟩ := Scope.exists_plan hd hbinds nofun nofun hdates
  rw [hnone, hp, Except.ok.injEq] at hq
  subst hq
  obtain ⟨out', hout'⟩ := Plan.run_isOk hsafe hsub
  obtain ⟨u, hu⟩ := Store.finish_isOk hp out'
  exact ⟨u.rows, by rw [summary, hp, bind_ok, hout', bind_ok, hu, bind_ok]⟩

end Analysis

namespace Intent

theorem execute_insert {c : Float} {r text : String} {first : Row} {rest : List Row}
    (hd : t.dialect = .directColumn)
    (h : (analyze a (before ++ after) c r).compile t (Profile.ofRows (first :: rest)) = .ok text)
    (hout : Store.executeOnce t.source.text (first :: rest) text = .ok out)
    (hbase : a.kept t (Profile.ofRows (first :: rest)) (before ++ after) (first :: rest) = .ok base)
    (hf : f.Clear first) (hpattern : ∀ p ∈ f.pattern?, p.utf8ByteSize ≤ Cell.patternLimit) :
    ∃ kept, kept = (base.filter fun x => f.holds (some (.ofCell (first.get? f.column)))
        ((Scope.ofRows (first :: rest)).cell f.column x)) ∧
      a.kept t (Profile.ofRows (first :: rest)) (before ++ f :: after) (first :: rest) = .ok kept ∧
      ∃ text', (analyze a (before ++ f :: after) c r).compile t (Profile.ofRows (first :: rest)) =
          .ok text' ∧
        ((∀ s ∈ f.value.text?, Clean s) →
          Select.joined 0 (t.conditions (before ++ f :: after)) ≤ Select.depthLimit →
          ∃ out', Store.executeOnce t.source.text (first :: rest) text' = .ok out' ∧
            a.summary t (Profile.ofRows (first :: rest)) (first :: rest) kept = .ok out') := by
  obtain ⟨_, _, _, _, ⟨⟩, -, rfl⟩ := exists_analyze h
  obtain ⟨hload, hclosed, -, hapart, -⟩ := (executeOnce_query hd a).1 hout
  obtain ⟨base', hbase', hsummary⟩ := exists_summary hd hout
  rw [hbase, Except.ok.injEq] at hbase'
  subst hbase'
  have hkept := Analysis.kept_insert hd hbase (hf.asks hload) hpattern
  rw [Scope.type?_ofRows hload hf.column] at hkept
  have hcontains : (Profile.ofRows (first :: rest)).contains f.column = true :=
    Profile.contains_ofRows.2 ⟨first, List.mem_cons_self, hf.column⟩
  refine ⟨_, rfl, hkept, _, compile_insert h hcontains, fun hclean hdepth => ?_⟩
  have hclosed' := closed_insert hd hload hclosed hf.column hf.finite hclean
  obtain ⟨out', hout'⟩ := Analysis.summary_isOk hd hsummary fun x hx =>
    (List.mem_filter.1 hx).1
  refine ⟨out', ?_, hout'⟩
  rw [executeOnce_closed hd hload hclosed' hapart, if_pos hdepth, hkept, bind_ok, hout']
  rfl

end Intent

end TableTalk
