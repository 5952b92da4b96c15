import TableTalk.Proofs.Store.Execution
import TableTalk.Proofs.Store.Planning

/-!
# When an intent can be run

The query of an intent is run on the selection that reads the table (`Store.run_query`). What a
comparison makes of its periods always gives a result (`Table.select_comparison`), so the query has
one if the selection has (`Store.finish_isOk`).
-/

namespace TableTalk

open Sql

section Comparison

/-- The plan of a comparison of periods, whose columns have these types. -/
def comparisonPlan (date total : Option Declared) : Plan :=
  let d : Expr Ref := .column (.cell 0 date)
  let v : Expr Ref := .column (.cell 1 total)
  let change : Expr Ref := .arithmetic .minus v (.lag v d)
  { columns := [⟨"date", date⟩, ⟨"current_value", total⟩, ⟨"previous_value", none⟩,
      ⟨"change_value", none⟩, ⟨"percentage_change", none⟩]
    items := [d, v, .lag v d, change, .call2 .round (.arithmetic .times (.arithmetic .divide
      (.paren change) (.call2 .nullif (.lag v d) (.number "0"))) (.number "100")) (.number "2")]
    conditions := []
    groupBy := none
    orderBy := some (d, .desc)
    limit := some compareCap }

variable (date total : Option Declared)

/-- The names that a comparison of periods goes by are the columns of the periods. -/
theorem Scope.plan_comparison :
    Scope.plan ⟨[⟨"period_date", date⟩, ⟨"total_value", total⟩], [], false⟩ Analysis.comparison =
      .ok (comparisonPlan date total) := by
  let s : Scope := ⟨[⟨"period_date", date⟩, ⟨"total_value", total⟩], [], false⟩
  have hdate : s.ref? "period_date" = some (.cell 0 date) := by
    have hsame : Text.sameAscii "period_date" "period_date" = true := by decide
    simp [s, Scope.ref?, Scope.column?, hsame]
  have htotal : s.ref? "total_value" = some (.cell 1 total) := by
    have happart : Text.sameAscii "period_date" "total_value" = false := by decide
    have hsame : Text.sameAscii "total_value" "total_value" = true := by decide
    simp [s, Scope.ref?, Scope.column?, hsame, happart]
  have hlookup : ∀ items, s.lookup items "period_date" = .ok (.column (.cell 0 date)) ∧
      s.lookup items "total_value" = .ok (.column (.cell 1 total)) := fun items => by
    simp [Scope.lookup, hdate, htotal]
  let d : Expr Ref := .column (.cell 0 date)
  let v : Expr Ref := .column (.cell 1 total)
  let change : Expr Ref := .arithmetic .minus v (.lag v d)
  let rate : Expr Ref := .call2 .round (.arithmetic .times (.arithmetic .divide (.paren change)
    (.call2 .nullif (.lag v d) (.number "0"))) (.number "100")) (.number "2")
  have hitems : s.items Analysis.comparison.items = .ok
      [(some "date", ⟨"date", date⟩, d), (some "current_value", ⟨"current_value", total⟩, v),
        (some "previous_value", ⟨"previous_value", none⟩, .lag v d),
        (some "change_value", ⟨"change_value", none⟩, change),
        (some "percentage_change", ⟨"percentage_change", none⟩, rate)] := by
    simp only [Analysis.comparison, previousTotal, Scope.items, List.mapM_cons, List.mapM_nil,
      Scope.resolve, Expr.bind, Name.text, hlookup, bind_ok]
    rfl
  refine Scope.plan_eq_ok.2 ⟨_, [], some (d, .desc), none, hitems, rfl, ?_, rfl, by simp, rfl⟩
  have hfirst : Analysis.comparison.orderBy = some (.number (Nat.repr (0 + 1)), .desc) := rfl
  rw [hfirst, Option.mapM_some, Scope.orderKey_digit (i := (some "date", d)) _ rfl]
  rfl

theorem safe_comparisonPlan (P : Record → Prop) : (comparisonPlan date total).Safe P := by
  let d : Expr Ref := .column (.cell 0 date)
  let v : Expr Ref := .column (.cell 1 total)
  have hd : d.Safe P := Expr.safe_column _
  have hv : v.Safe P := Expr.safe_column _
  have hlag : (Expr.lag v d).Safe P := hv.lag d
  have hchange : (Expr.arithmetic .minus v (.lag v d)).Safe P := hv.arithmetic .minus hlag
  have hrate : (Expr.call2 .round (.arithmetic .times (.arithmetic .divide
      (.paren (.arithmetic .minus v (.lag v d))) (.call2 .nullif (.lag v d) (.number "0")))
        (.number "100")) (.number "2")).Safe P := by
    have hnullif := hlag.call2 (g := .nullif) (by decide) (Expr.safe_number "0")
    have hquotient := hchange.paren.arithmetic .divide hnullif
    exact (hquotient.arithmetic .times (Expr.safe_number "100")).call2 (by decide)
      (Expr.safe_number "2")
  refine ⟨nofun, ?_, nofun, ?_, fun _ => ?_⟩
  · simp only [comparisonPlan, List.forall_mem_cons]
    exact ⟨hd, hv, hlag, hchange, hrate, by simp⟩
  · rintro k ⟨⟩
    exact hd
  · have hwindow : ∀ o ∈ (Expr.lag v d).lagOrder?, o.Safe P := by
      rintro o ⟨⟩
      exact hd
    have hnone : ∀ o ∈ (none : Option (Expr Ref)), o.Safe P := by simp
    simp only [comparisonPlan, List.forall_mem_cons]
    exact ⟨hnone, hnone, hwindow, hwindow, hwindow, by simp⟩

variable {date total}

theorem Table.select_comparison {u : Table}
    (hu : u.columns = [⟨"period_date", date⟩, ⟨"total_value", total⟩]) :
    ∃ v, u.select false Analysis.comparison "" = .ok v := by
  obtain ⟨out, hout⟩ : ∃ out, (comparisonPlan date total).run u.numbered = .ok out :=
    Plan.run_isOk (safe_comparisonPlan date total fun _ => True) fun _ _ => trivial
  exact ⟨_, Store.select_eq_ok.2 ⟨_, out, hu ▸ Scope.plan_comparison date total, hout, rfl⟩⟩

end Comparison

/-- What is made of the selection that reads the table: a comparison looks at its periods. -/
def Analysis.finish (a : Analysis) (u : Table) : Except Fault Table :=
  if a.kind = .compare then u.select false comparison "" else .ok u

namespace Store

variable {T : Table} {t : Target} {schema : Schema} {cs : List (Expr Name)}

/-- The periods of a comparison are two columns. -/
theorem columns_periods {s : Scope} {metric date : String} {period : ComparePeriod} {p : Plan}
    (h : s.plan ((Analysis.compare metric date period).data t schema cs) = .ok p) :
    ∃ x y, p.columns = [⟨"period_date", x⟩, ⟨"total_value", y⟩] := by
  obtain ⟨all, _, _, _, hall, -, -, -, -, rfl⟩ := Scope.plan_eq_ok.1 h
  obtain ⟨i, rest, hi, hrest, rfl⟩ := mapM_cons_eq_ok.1 hall
  obtain ⟨j, none, hj, hnone, rfl⟩ := mapM_cons_eq_ok.1 hrest
  obtain ⟨e, -, hi⟩ := bind_eq_ok.1 hi
  obtain ⟨f, -, hj⟩ := bind_eq_ok.1 hj
  rw [mapM_eq_ok_nil.1 hnone]
  cases hi
  cases hj
  exact ⟨_, _, rfl⟩

theorem select_data (hname : t.source.text = T.name) (a : Analysis) {name : String} {u : Table} :
    ({ tables := [T] } : Store).select (a.data t schema cs) name = .ok u ↔
      ∃ p out, Scope.plan ⟨T.columns, [], true⟩ (a.data t schema cs) = .ok p ∧
        p.run T.numbered = .ok out ∧ u = ⟨name, p.columns, out⟩ := by
  rw [select_only T hname, select_eq_ok]

/-- A query runs as the selection that reads the table, and then it is finished. -/
theorem run_query_eq (hname : t.source.text = T.name) (a : Analysis)
    (hapart : a.kind = .compare → Text.sameAscii "period_stats" T.name = false) :
    ({ tables := [T] } : Store).run (a.query t schema cs) = (do
      let p ← Scope.plan ⟨T.columns, [], true⟩ (a.data t schema cs)
      let out ← p.run T.numbered
      a.finish ⟨"", p.columns, out⟩) := by
  have hselect : ∀ name, ({ tables := [T] } : Store).select (a.data t schema cs) name =
      T.select true (a.data t schema cs) name := select_only T hname
  rw [Analysis.query_eq]
  unfold Analysis.finish
  split_ifs with hkind
  · have hcomparison : Text.sameAscii "period_stats" Analysis.comparison.source.text = true := by
      decide
    have hsource : Text.sameAscii "period_stats" (a.data t schema cs).source.text = false :=
      (congrArg _ hname).trans (hapart hkind)
    simp only [run, hsource, hselect, hcomparison, if_true, Bool.false_eq_true, if_false]
    unfold Table.select
    rcases Scope.plan ⟨T.columns, [], true⟩ (a.data t schema cs) with f | p
    · rfl
    · dsimp only [bind_ok]
      rcases p.run T.numbered with f | out <;> rfl
  · exact hselect ""

/-- The result of a query comes from the selection that reads the table. A comparison cannot read a
table that is named like its periods. -/
theorem run_query (hname : t.source.text = T.name) (a : Analysis) {u : Table} :
    ({ tables := [T] } : Store).run (a.query t schema cs) = .ok u ↔
      (a.kind = .compare → Text.sameAscii "period_stats" T.name = false) ∧
        ∃ p out, Scope.plan ⟨T.columns, [], true⟩ (a.data t schema cs) = .ok p ∧
          p.run T.numbered = .ok out ∧ a.finish ⟨"", p.columns, out⟩ = .ok u := by
  by_cases hapart : a.kind = .compare → Text.sameAscii "period_stats" T.name = false
  · rw [run_query_eq hname a hapart, and_iff_right hapart]
    simp only [bind_eq_ok]
    constructor
    · rintro ⟨p, hp, out, hout, hu⟩
      exact ⟨p, out, hp, hout, hu⟩
    · rintro ⟨p, out, hp, hout, hu⟩
      exact ⟨p, hp, out, hout, hu⟩
  · refine iff_of_false (fun hu => ?_) fun h => hapart h.1
    obtain ⟨hkind, hsame⟩ := Classical.not_imp.1 hapart
    rw [Bool.not_eq_false] at hsame
    have hsource : Text.sameAscii "period_stats" (a.data t schema cs).source.text = true :=
      (congrArg _ hname).trans hsame
    rw [Analysis.query_eq, if_pos hkind] at hu
    simp only [run, if_pos hsource] at hu
    cases hu

/-- The query of an analysis that compares nothing is the selection that reads the table. -/
theorem run_query_eq_ok (hname : t.source.text = T.name) {a : Analysis} (ha : a.kind ≠ .compare)
    {u : Table} : ({ tables := [T] } : Store).run (a.query t schema cs) = .ok u ↔
      ∃ p out, Scope.plan ⟨T.columns, [], true⟩ (a.data t schema cs) = .ok p ∧
        p.run T.numbered = .ok out ∧ u = ⟨"", p.columns, out⟩ := by
  rw [Analysis.query_eq, if_neg ha]
  exact select_data hname a

/-- Whatever the periods are, they can be compared. -/
theorem finish_isOk {s : Scope} {a : Analysis} {p : Plan}
    (hp : s.plan (a.data t schema cs) = .ok p) (out : List (List Cell)) :
    ∃ u, a.finish ⟨"", p.columns, out⟩ = .ok u := by
  unfold Analysis.finish
  split_ifs with hkind
  · obtain ⟨metric, date, period, rfl⟩ : ∃ m d r, a = .compare m d r := by
      cases a <;> first | exact ⟨_, _, _, rfl⟩ | cases hkind
    obtain ⟨x, y, hcolumns⟩ := columns_periods hp
    exact Table.select_comparison hcolumns
  · exact ⟨_, rfl⟩

end Store

end TableTalk
