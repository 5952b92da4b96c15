import TableTalk.Proofs.Sql.Clauses
import TableTalk.Proofs.Sql.Refusal
import TableTalk.Proofs.Store.Loading
import TableTalk.Store.Run

/-!
# Running the text of a query

The text of a well-formed query is run as that query (`Store.execute_eq_ok`). It is refused if
U+0000 stands in one of its quotations, since then a token is never closed, and if its conditions
make too deep a tree (`Store.execute_tooDeep`).
-/

namespace TableTalk

open Sql

namespace Store

variable {s : Store} {q : Query}

theorem ofTokens_text (h : q.WellFormed .directColumn) (hb : ∀ u ∈ q.tokens, u.broken = false) :
    Query.ofTokens .directColumn (Token.lex q.text) =
      if q.Fits .directColumn then .ok q else .error .tooDeep := by
  rw [Query.lex_text h, Token.foldr_seen hb, Query.ofTokens_tokens h]

/-- A query is read from a single line as it is from its text. -/
theorem ofTokens_line (h : q.WellFormed .directColumn) (hb : ∀ u ∈ q.tokens, u.broken = false) :
    Query.ofTokens .directColumn (Token.lex q.line) =
      if q.Fits .directColumn then .ok q else .error .tooDeep := by
  rw [Query.lex_line h, ofTokens_text h hb]

/-- What is read as a query is run as that query. -/
theorem execute_of_read {text : String}
    (h : Query.ofTokens .directColumn (Token.lex text) = .ok q) :
    s.execute text = ((s.run q).map Table.rows).mapError (located text) := by
  rw [execute, h]
  dsimp only
  rcases s.run q with f | u <;> rfl

theorem execute_tooDeep (h : q.WellFormed .directColumn) (hb : ∀ u ∈ q.tokens, u.broken = false)
    (hf : ¬q.Fits .directColumn) : s.execute q.text = .error (.refused .tooDeep) := by
  rw [execute, ofTokens_text h hb, if_neg hf]
  rfl

/-- The text of a query gives rows exactly if it is read as a whole and the query has a result. -/
theorem execute_eq_ok (h : q.WellFormed .directColumn) {out : List Row} :
    s.execute q.text = .ok out ↔ (∀ u ∈ q.tokens, u.broken = false) ∧ q.Fits .directColumn ∧
      ∃ t, s.run q = .ok t ∧ t.rows = out := by
  by_cases hb : ∀ u ∈ q.tokens, u.broken = false
  · by_cases hf : q.Fits .directColumn
    · have hread := ofTokens_text h hb
      rw [if_pos hf] at hread
      rw [execute_of_read hread, mapError_eq_ok, map_eq_ok]
      exact ⟨fun hout => ⟨hb, hf, hout⟩, fun hout => hout.2.2⟩
    · rw [execute_tooDeep h hb hf]
      simp [hf]
  · refine iff_of_false (fun hout => ?_) fun hall => hb hall.1
    have hbroken : ∃ u ∈ q.tokens, u.broken = true := by
      simpa using hb
    obtain ⟨c, hc⟩ := Token.exists_bad_of_broken hbroken
    rw [execute, Query.lex_text h] at hout
    split at hout
    · cases hout
    · exact Query.ofTokens_bad hc ‹_›

/-- A statement is run on a table of its own if the rows can be loaded. -/
theorem executeOnce_eq_ok {name : String} {rows out : List Row} (h : q.WellFormed .directColumn) :
    Store.executeOnce name rows q.text = .ok out ↔
      (∃ s, Store.empty.load name rows = .ok s) ∧ (∀ u ∈ q.tokens, u.broken = false) ∧
        q.Fits .directColumn ∧
        ∃ u, ({ tables := [Table.ofRows name rows] } : Store).run q = .ok u ∧ u.rows = out := by
  rw [executeOnce, bind_eq_ok]
  constructor
  · rintro ⟨s, hload, hout⟩
    rw [eq_of_load hload, execute_eq_ok h] at hout
    exact ⟨⟨s, hload⟩, hout⟩
  · rintro ⟨⟨s, hload⟩, hout⟩
    refine ⟨s, hload, ?_⟩
    rw [eq_of_load hload]
    exact (execute_eq_ok h).2 hout

/-- The only table of a store is found under its name. -/
theorem select_only (t : Table) {q : Select} (hq : q.source.text = t.name) (name : String) :
    ({ tables := [t] } : Store).select q name = t.select true q name := by
  have ht : ({ tables := [t] } : Store).table? t.name = some t := by
    simp [table?, Text.sameAscii_refl]
  simp only [select, hq, ht, Option.some_or]

theorem select_eq_ok {t u : Table} {numbered : Bool} {q : Select} {name : String} :
    t.select numbered q name = .ok u ↔ ∃ p records, Scope.plan ⟨t.columns, [], numbered⟩ q = .ok p ∧
      p.run t.numbered = .ok records ∧ u = ⟨name, p.columns, records⟩ := by
  simp only [Table.select, bind_eq_ok, Except.ok.injEq]
  constructor
  · rintro ⟨p, hp, records, hr, rfl⟩
    exact ⟨p, records, hp, hr, rfl⟩
  · rintro ⟨p, records, hp, hr, rfl⟩
    exact ⟨p, hp, records, hr, rfl⟩

end Store

end TableTalk
