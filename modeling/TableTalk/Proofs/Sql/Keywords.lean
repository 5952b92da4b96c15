import TableTalk.Proofs.Sql.Clauses
import TableTalk.Proofs.Sql.Outline

/-!
# Where selections and their conditions start

Only the keyword in front of a selection is `SELECT`, and only the one in front of its conditions is
`WHERE`, whatever its names and texts say (`Select.count_pieces`): expressions and the other clauses
have neither (`Plain`).
-/

namespace TableTalk.Sql

/-- Tokens that start no selection and no conditions. -/
def Plain (ts : List Token) : Prop :=
  ∀ t ∈ ts, t ≠ .keyword .select ∧ t ≠ .keyword .whereTrue

section Plain

@[simp] theorem plain_nil : Plain [] := nofun

@[simp] theorem plain_cons {t : Token} {ts : List Token} :
    Plain (t :: ts) ↔ (t ≠ .keyword .select ∧ t ≠ .keyword .whereTrue) ∧ Plain ts :=
  List.forall_mem_cons

@[simp] theorem plain_append {ts us : List Token} : Plain (ts ++ us) ↔ Plain ts ∧ Plain us :=
  List.forall_mem_append

theorem plain_joinWith {b : List Token} (hb : Plain b) : ∀ {xss : List (List Token)},
    (∀ xs ∈ xss, Plain xs) → Plain (joinWith b xss)
  | [], _ => plain_nil
  | [xs], h => h xs List.mem_cons_self
  | xs :: _ :: _, h =>
    plain_append.2 ⟨plain_append.2 ⟨h xs List.mem_cons_self, hb⟩,
      plain_joinWith hb fun zs hzs => h zs (List.mem_cons_of_mem xs hzs)⟩

theorem Plain.count_where {ts : List Token} (h : Plain ts) :
    ts.count (.keyword .whereTrue) = 0 :=
  List.count_eq_zero.2 fun hs => (h _ hs).2 rfl

@[simp] theorem Expr.plain_pieces (e : Expr Name) : Plain (tokensOf e.pieces) := by
  induction e with
  | column n => cases n <;> simp [pieces, Name.token]
  | truth b => cases b <;> simp [pieces]
  | _ => simp_all [pieces, infixed]

@[simp] theorem Item.plain_pieces (i : Item Name) : Plain (tokensOf i.pieces) := by
  obtain ⟨e, _ | a⟩ := i <;> simp [pieces]

theorem Items.plain_pieces (layout : Layout) (items : Items Name) :
    Plain (tokensOf (items.pieces layout)) := by
  cases items with
  | all => simp [pieces]
  | list items =>
    have hitems : ∀ g, Plain (tokensOf (joinWith [Piece.mark .comma, .gap g]
        (items.map Item.pieces))) := fun g => by
      rw [tokensOf_joinWith]
      exact plain_joinWith (by simp) (by simp)
    rw [pieces]
    split_ifs
    · exact hitems .indent
    · exact hitems .space

end Plain

namespace Select

theorem plain_group (g : Gap) (key? : Option (Expr Name)) :
    Plain (tokensOf (groupPieces g key?)) := by
  cases key? <;> simp [groupPieces]

theorem plain_order (g : Gap) (key? : Option (Expr Name × SortOrder)) :
    Plain (tokensOf (orderPieces g key?)) := by
  rcases key? with _ | ⟨e, _ | _⟩ <;> simp [orderPieces, SortOrder.keyword]

theorem plain_limit (g : Gap) (n? : Option Nat) : Plain (tokensOf (limitPieces g n?)) := by
  cases n? <;> simp [limitPieces, numeral]

theorem plain_joined (cs : List (Expr Name)) :
    Plain (tokensOf (joinWith [Piece.space, Piece.key .and, Piece.space] (cs.map Expr.pieces))) := by
  rw [tokensOf_joinWith]
  exact plain_joinWith (by simp) (by simp)

/-- A selection starts with its only `SELECT`, and its conditions with its only `WHERE`. -/
theorem exists_plain (layout : Layout) (s : Select) : ∃ before joined after,
    Plain before ∧ Plain joined ∧ Plain after ∧ tokensOf (s.pieces layout) = .keyword .select ::
      (before ++ (if s.conditions = [] then [] else .keyword .whereTrue :: joined) ++ after) := by
  have hsource : s.source.token ≠ .keyword .select ∧ s.source.token ≠ .keyword .whereTrue := by
    cases s.source <;> simp [Name.token]
  have hafter : Plain (tokensOf (groupPieces layout.line s.groupBy) ++
      (tokensOf (orderPieces layout.line s.orderBy) ++
        tokensOf (limitPieces layout.line s.limit))) :=
    plain_append.2 ⟨plain_group _ _, plain_append.2 ⟨plain_order _ _, plain_limit _ _⟩⟩
  refine ⟨tokensOf (s.items.pieces layout) ++ [.keyword .fromTable, s.source.token], _, _,
    by simp [s.items.plain_pieces, hsource], plain_joined s.conditions, hafter, ?_⟩
  rw [tokens_pieces]
  cases s.conditions <;> simp [conditionPieces]

/-- No second `SELECT` follows. -/
theorem exists_tail (layout : Layout) (s : Select) : ∃ ts,
    tokensOf (s.pieces layout) = .keyword .select :: ts ∧ ∀ t ∈ ts, t ≠ .keyword .select := by
  obtain ⟨before, joined, after, hbefore, hjoined, hafter, h⟩ := s.exists_plain layout
  refine ⟨_, h, fun t ht => ?_⟩
  simp only [List.mem_append] at ht
  rcases ht with (ht | ht) | ht
  · exact (hbefore t ht).1
  · split_ifs at ht
    · cases ht
    · rcases List.mem_cons.1 ht with rfl | ht
      · simp
      · exact (hjoined t ht).1
  · exact (hafter t ht).1

theorem count_pieces (layout : Layout) (s : Select) :
    (tokensOf (s.pieces layout)).count (.keyword .whereTrue) =
      if s.conditions = [] then 0 else 1 := by
  obtain ⟨before, joined, after, hbefore, hjoined, hafter, h⟩ := s.exists_plain layout
  rw [h]
  split_ifs <;>
    simp [hbefore.count_where, hjoined.count_where, hafter.count_where]

end Select

/-- The tokens of a query have a `WHERE` for each selection with conditions. -/
theorem Query.count_tokens (q : Query) : q.tokens.count (.keyword .whereTrue) =
    (q.common.elim 0 fun c => if c.2.conditions = [] then 0 else 1) +
      if q.main.conditions = [] then 0 else 1 := by
  obtain ⟨_ | ⟨w, s⟩, main⟩ := q
  · simp [tokens, pieces, Select.count_pieces]
  · simp [tokens, pieces, Select.count_pieces]

end TableTalk.Sql
