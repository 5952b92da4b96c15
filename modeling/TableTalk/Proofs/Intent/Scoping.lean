import TableTalk.Proofs.Intent.Data
import TableTalk.Proofs.Intent.Literals
import TableTalk.Proofs.Sql.Keywords
import TableTalk.Proofs.Store.Drilling
import Mathlib.Data.List.Forall2

/-!
# Queries of one source

A query of documents that is made for one source has a single condition in front of all tests of
its filters: that a row is of the source (`Select.Scoped`). Whatever the texts of the intent and the
name of the source say, the text of the query is read back as this query, and its only `WHERE` is in
the one selection that reads the table (`Intent.compile_scoped`). So an engine that keeps the rows
of which all conditions are true keeps none of another source (`Select.Scoped.sourceOf_eq`); the
store is such an engine (`Engine.store`).
-/

namespace TableTalk

open Sql

/-- The condition that a row is of a source. -/
def sourceIs (s : String) : Expr Name := .compare .eq (.column (.bare "data_source_id")) (.text s)

/-- The member of the document in a row. -/
def documentMember (c : String) : Expr Name :=
  .paren (.member (.column (.bare documentColumn)) (.text c))

namespace Sql

/-- A value alone. -/
def Expr.IsValue : Expr Name → Prop
  | truth _ => True
  | text _ => True
  | number _ => True
  | negate (number _) => True
  | _ => False

end Sql

/-- A condition that is the test of a filter: its column beside one value, or one pattern. -/
def Filter.Tests (f : Filter) (e : Expr Name) : Prop :=
  match f.operator.comparison? with
  | some op => ∃ member value, e = .compare op member value ∧ value.IsValue ∧
      (member = documentMember f.column ∨ ∃ type, member = .cast (documentMember f.column) type)
  | none => ∃ pattern, e = .ilike (documentMember f.column) (.text pattern)

namespace Sql

/-- The selection reads the documents of one source, with one more condition for each filter. -/
structure Select.Scoped (table s : String) (filters : List Filter) (q : Select) : Prop where
  source : q.source = .quoted table
  conditions : ∃ tests, q.conditions = sourceIs s :: tests ∧ List.Forall₂ Filter.Tests filters tests

/-- The only selection that reads the table is scoped. If it has a name, the main one reads from it,
without conditions. -/
def Query.Scoped (table s : String) (filters : List Filter) (q : Query) : Prop :=
  match q.common with
  | none => q.main.Scoped table s filters
  | some (name, inner) =>
    inner.Scoped table s filters ∧ q.main.source = .bare name ∧ q.main.conditions = []

end Sql

/-- What an engine makes of conditions: whether one is true of a row, or not known. That a row is of
a source it knows from the row. -/
structure Engine (ρ : Type) where
  sourceOf : ρ → Option String
  truth : ρ → Expr Name → Option Bool
  truth_source : ∀ r s, truth r (sourceIs s) = (sourceOf r).map (· == s)

/-- All conditions are true of a row. -/
def Engine.Keeps {ρ : Type} (e : Engine ρ) (cs : List (Expr Name)) (r : ρ) : Prop :=
  ∀ c ∈ cs, e.truth r c = some true

theorem Sql.Select.Scoped.sourceOf_eq {table s : String} {fs : List Filter} {q : Select}
    (h : q.Scoped table s fs) {ρ : Type} (e : Engine ρ) {r : ρ} (hr : e.Keeps q.conditions r) :
    e.sourceOf r = some s := by
  obtain ⟨tests, hq, -⟩ := h.conditions
  have htrue := hr (sourceIs s) (hq ▸ List.mem_cons_self)
  rw [e.truth_source] at htrue
  obtain ⟨u, hu, hs⟩ := Option.map_eq_some_iff.1 htrue
  rw [hu, eq_of_beq hs]

section Store

/-- A row of the table of documents. -/
structure SourcedDocument where
  sourceId : Option String
  data : String

namespace SourcedDocument

def record (r : SourcedDocument) : Record := ⟨1, [.ofText? r.sourceId, .text r.data]⟩

def scope : Scope :=
  ⟨[⟨"data_source_id", some .varchar⟩, ⟨documentColumn, some .varchar⟩], [], true⟩

/-- Whether a condition holds of a row in the store, unless it has no value. -/
def truth (r : SourcedDocument) (e : Expr Name) : Option Bool :=
  match (scope.resolve [] e).bind fun e => e.evaluate (.single r.record) with
  | .error _ => none
  | .ok .null => none
  | .ok c => some c.holds

end SourcedDocument

/-- The store as an engine. -/
def Engine.store : Engine SourcedDocument where
  sourceOf := SourcedDocument.sourceId
  truth := SourcedDocument.truth
  truth_source r s := by
    obtain ⟨_ | u, data⟩ := r
    · rfl
    · have htext : ∀ v, Declared.varchar.Holds (.text v) := fun _ => Or.inl rfl
      have hholds : (Comparison.eq.apply (some .varchar) (.text u) (.text s)).holds = (u == s) := by
        rw [Cell.holds_eq_text (htext u) (htext s), Bool.beq_eq_decide_eq]
        simp
      exact congrArg some hholds

end Store

namespace Target

variable {t : Target}

theorem column_document (hd : t.dialect = .jsonDocument) (r : Reading) (c : String) :
    t.column r c = documentMember c ∨ ∃ type, t.column r c = .cast (documentMember c) type := by
  unfold column
  rw [hd]
  cases r
  · exact .inr ⟨_, rfl⟩
  · exact .inr ⟨_, rfl⟩
  · exact .inr ⟨_, rfl⟩
  · exact .inl rfl

theorem isValue_expr {v : FilterValue} (h : ∀ x, v = .number x → x.isFinite = true) :
    v.expr.IsValue := by
  cases v with
  | bool b => trivial
  | number x =>
    rw [FilterValue.expr, expr_number (h x rfl)]
    split_ifs <;> trivial
  | text s => trivial

theorem tests_condition (hd : t.dialect = .jsonDocument) {f : Filter}
    (hf : ∀ x, f.value = .number x → x.isFinite = true) : f.Tests (t.condition f) := by
  have hcolumn : t.column .text f.column = documentMember f.column := by
    unfold column
    rw [hd]
    rfl
  have hpattern : ∀ p, t.pattern f.column p = .ilike (documentMember f.column) (.text p) :=
    fun p => by
      unfold pattern
      rw [hcolumn, hd]
  unfold Filter.Tests condition
  cases f.operator
  case contains => exact ⟨_, hpattern _⟩
  case ilike => exact ⟨_, hpattern _⟩
  all_goals exact ⟨_, _, rfl, isValue_expr hf, column_document hd _ _⟩

end Target

namespace Analysis

theorem scoped_data {t : Target} {s : String} (hd : t.dialect = .jsonDocument)
    (hs : t.sourceId = some s) (schema : Schema) {fs : List Filter}
    (hf : ∀ f ∈ fs, ∀ x, f.value = .number x → x.isFinite = true) (a : Analysis) :
    (a.data t schema (t.conditions fs)).Scoped (t.table.getD documentTable) s fs where
  source := by
    show t.source = _
    unfold Target.source
    rw [hd]
  conditions := by
    refine ⟨fs.map t.condition, ?_, ?_⟩
    · show t.conditions fs = _
      unfold Target.conditions
      rw [hd, hs]
      rfl
    · rw [List.forall₂_map_right_iff]
      exact List.forall₂_same.2 fun f h => Target.tests_condition hd (hf f h)

theorem scoped_query {t : Target} {s : String} (hd : t.dialect = .jsonDocument)
    (hs : t.sourceId = some s) (schema : Schema) {fs : List Filter}
    (hf : ∀ f ∈ fs, ∀ x, f.value = .number x → x.isFinite = true) (a : Analysis) :
    (a.query t schema (t.conditions fs)).Scoped (t.table.getD documentTable) s fs := by
  have hdata := a.scoped_data hd hs schema hf
  rw [query_eq]
  split_ifs
  · exact ⟨hdata, rfl, rfl⟩
  · exact hdata

theorem isSome_common (t : Target) (schema : Schema) (cs : List (Expr Name)) (a : Analysis) :
    (a.query t schema cs).common.isSome ↔ a.kind = .compare := by
  rw [query_eq]
  split_ifs with h
  · exact iff_of_true rfl h
  · exact iff_of_false nofun h

end Analysis

theorem Sql.Query.Scoped.count_where {table s : String} {fs : List Filter} {q : Query}
    (h : q.Scoped table s fs) : q.tokens.count (.keyword .whereTrue) = 1 := by
  rw [count_tokens]
  obtain ⟨_ | ⟨name, inner⟩, main⟩ := q
  · obtain ⟨tests, hmain, -⟩ := h.conditions
    have hmain : main.conditions = _ := hmain
    simp [hmain]
  · obtain ⟨hinner, -, hmain⟩ := h
    obtain ⟨tests, hinner, -⟩ := hinner.conditions
    have hmain : main.conditions = [] := hmain
    simp [hinner, hmain]

namespace Intent

/-- The text of a query of documents is read back. -/
theorem ofTokens_compile {t : Target} {schema : Schema} {i : Intent} {text : String}
    (hd : t.dialect = .jsonDocument) (h : i.compile t schema = .ok text)
    (hf : ∀ f ∈ i.filters, ∀ x, f.value = .number x → x.isFinite = true)
    (hclean : ∀ u ∈ i.texts t, Clean u) : ∃ q, i.query t schema = .ok q ∧
      Token.lex text = q.tokens ∧ Query.ofTokens .jsonDocument (Token.lex text) = .ok q := by
  obtain ⟨q, hq, -, hlex⟩ := lex_compile_clean h hf hclean
  refine ⟨q, hq, hlex, ?_⟩
  rw [hlex, Query.ofTokens_tokens (hd ▸ query_wellFormed hq), if_pos q.fits_document]

/-- The text of a query for one source is read back as one query that is scoped to the source. Its
only `WHERE` is that of the selection that reads the table, and no row of another source satisfies
its conditions. -/
theorem compile_scoped {json text s : String} {i : Intent} {table : Option String}
    {schema : Schema} (hread : read json = .ok i)
    (h : i.compile ⟨.jsonDocument, table, some s⟩ schema = .ok text)
    (hclean : ∀ u ∈ i.texts ⟨.jsonDocument, table, some s⟩, Clean u) :
    ∃ q, Query.ofTokens .jsonDocument (Token.lex text) = .ok q ∧
      (Token.lex text).count (.keyword .whereTrue) = 1 ∧
      q.Scoped (table.getD documentTable) s i.filters ∧
      (q.common.isSome ↔ i.kind = .compare) ∧
      ∀ {ρ : Type} (e : Engine ρ) (r : ρ), e.Keeps q.data.conditions r → e.sourceOf r = some s := by
  have hf := finite_of_read hread
  obtain ⟨q, hq, hlex, hparse⟩ := ofTokens_compile rfl h hf hclean
  cases i with
  | unknown => cases hq
  | analyze a fs c r =>
    obtain ⟨-, rfl⟩ := query_eq_ok.1 hq
    have hdata := Analysis.scoped_data (t := ⟨.jsonDocument, table, some s⟩) rfl rfl schema hf a
    have hscoped := Analysis.scoped_query (t := ⟨.jsonDocument, table, some s⟩) rfl rfl schema hf a
    refine ⟨_, hparse, hlex ▸ hscoped.count_where, hscoped, a.isSome_common _ _ _, fun e r hr => ?_⟩
    rw [a.data_query] at hr
    exact hdata.sourceOf_eq e hr

/-- Neither the source nor a column nor a value that looks like the end of a quotation gets out of
it, and the store keeps a row of the source. -/
theorem compile_scoped_quotes :
    ∃ json i text q r, read json = .ok i ∧
      i.filters = [⟨"a'b", .neq, .text "x' OR '1'='1"⟩] ∧
      i.compile ⟨.jsonDocument, none, some "s' --"⟩ (Schema.ofPairs [("a'b", .text)]) = .ok text ∧
      (∀ u ∈ i.texts ⟨.jsonDocument, none, some "s' --"⟩, Clean u) ∧
      Query.ofTokens .jsonDocument (Token.lex text) = .ok q ∧
      q.Scoped "data_rows" "s' --" i.filters ∧
      Engine.store.Keeps q.data.conditions r ∧ Engine.store.sourceOf r = some "s' --" := by
  have hread : read ("\x7b\"type\":\"AGGREGATE_METRIC\"," ++ "\"metricColumn\":\"*\"," ++
      "\"aggregateFunction\":\"COUNT\"," ++ "\"filters\":[\x7b\"column\":" ++
      "\"a'b\",\"operator\":\"neq\"," ++ "\"value\":\"x' OR '1'='1\"\x7d]," ++
      "\"confidence\":1,\"reasoning\":\"\"\x7d") =
      .ok (.analyze (.aggregate "*" .count none) [⟨"a'b", .neq, .text "x' OR '1'='1"⟩] 1 "") := by
    simp only [Intent.read, String.toList_append]
    exact eq_ok_of_toOption (by decide +kernel)
  let t : Target := ⟨.jsonDocument, none, some "s' --"⟩
  let schema := Schema.ofPairs [("a'b", .text)]
  let i := analyze (.aggregate "*" .count none) [⟨"a'b", .neq, .text "x' OR '1'='1"⟩] 1 ""
  let r : SourcedDocument := ⟨some "s' --", "\x7b\"a'b\":\"x\"\x7d"⟩
  obtain ⟨text, htext⟩ : ∃ text, i.compile t schema = .ok text := ⟨_, rfl⟩
  have hclean : ∀ u ∈ i.texts t, Clean u := by decide
  obtain ⟨q, hparse, -, hscoped, -, hrows⟩ := compile_scoped hread htext hclean
  obtain ⟨q', hq, -, hparse'⟩ := ofTokens_compile rfl htext (finite_of_read hread) hclean
  obtain rfl : q = q' := Except.ok.inj (hparse.symm.trans hparse')
  have hkept : ((i.query t schema).toOption.all fun q =>
      q.data.conditions.all fun c => r.truth c = some true) = true := by decide +kernel
  have hkeeps : Engine.store.Keeps q.data.conditions r := fun c hc => by
    rw [hq] at hkept
    simp only [Except.toOption, Option.all_some, List.all_eq_true, decide_eq_true_eq] at hkept
    exact hkept c hc
  exact ⟨_, i, text, q, r, hread, rfl, htext, hclean, hparse, hscoped, hkeeps,
    hrows Engine.store r hkeeps⟩

end Intent

end TableTalk
