import TableTalk.Proofs.Sql.Reading
import Std.Data.String.ToNat

/-!
# Well-formed queries are read back

The reader gives back the query whose tokens it is given, unless the tree of some conditions is too
deep (`Query.ofTokens_tokens`). The clauses come in the order of the levels of their keywords, so one
that is left out is passed over (`Follows`). Joining a condition to others never makes the tree less
deep (`le_joined`); so what decides is its depth in the end.
-/

namespace TableTalk.Sql

theorem Read.name_token (n : Name) (ts : List Token) : Read.name (n.token :: ts) = .ok (n, ts) := by
  cases n <;> rfl

namespace Select

variable {d : Dialect}

section Items

theorem readItem_tokens {i : Item Name} (h : i.expr.WellFormed d) {fuel : Nat}
    {rest : List Token} (hf : 8 * (tokensOf i.pieces).length + 4 ≤ fuel) (hr : Follows 5 rest) :
    readItem d fuel (tokensOf i.pieces ++ rest) = .ok (i, rest) := by
  obtain ⟨e, _ | a⟩ := i
  · have htok : tokensOf (Item.pieces ⟨e, none⟩) = e.tokens := by simp [Item.pieces, Expr.tokens]
    rw [htok] at hf ⊢
    rw [readItem, (Expr.readable h).whole fuel rest hf (hr.mono (by omega)), bind_ok]
    dsimp only
    split
    · exact absurd (hr _ rfl) (by decide)
    · rfl
  · have htok : tokensOf (Item.pieces ⟨e, some a⟩) = e.tokens ++ [Token.keyword .as, .name a] := by
      simp [Item.pieces, Expr.tokens]
    rw [htok] at hf ⊢
    simp only [List.length_append] at hf
    have hread := (Expr.readable h).whole fuel (.keyword .as :: .name a :: rest) (by dsimp only; omega)
      (Follows.cons (by decide) _)
    rw [List.append_assoc]
    simp only [List.cons_append, List.nil_append, readItem]
    rw [hread]
    rfl

theorem readItems_tokens (g : Gap) : ∀ (items : List (Item Name)) (fuel : Nat) (rest : List Token),
    items ≠ [] → (∀ i ∈ items, i.expr.WellFormed d) →
    8 * (tokensOf (joinWith [Piece.mark .comma, .gap g] (items.map Item.pieces))).length + 5 ≤ fuel →
    Follows 6 rest →
    readItems d fuel (tokensOf (joinWith [Piece.mark .comma, .gap g] (items.map Item.pieces)) ++ rest)
      = .ok (items, rest)
  | [], _, _, hne, _, _, _ => absurd rfl hne
  | [i], 0, _, _, _, hf, _ => by omega
  | [i], fuel + 1, rest, _, h, hf, hr => by
    simp only [List.map_cons, List.map_nil, joinWith] at hf ⊢
    rw [readItems, readItem_tokens (h i List.mem_cons_self) (by omega) (hr.mono (by omega)), bind_ok]
    dsimp only
    split
    · exact absurd (hr _ rfl) (by decide)
    · rfl
  | i :: j :: is, 0, _, _, _, hf, _ => by omega
  | i :: j :: is, fuel + 1, rest, _, h, hf, hr => by
    have htok : tokensOf (joinWith [Piece.mark .comma, .gap g] ((i :: j :: is).map Item.pieces)) =
        tokensOf i.pieces ++ .mark .comma ::
          tokensOf (joinWith [Piece.mark .comma, .gap g] ((j :: is).map Item.pieces)) := by
      simp [joinWith]
    rw [htok] at hf ⊢
    simp only [List.length_append, List.length_cons] at hf
    have ih := readItems_tokens g (j :: is) fuel rest (by simp)
      (fun k hk => h k (List.mem_cons_of_mem i hk)) (by omega) hr
    rw [List.append_assoc, List.cons_append, readItems,
      readItem_tokens (h i List.mem_cons_self) (by omega) (Follows.cons (by decide) _), bind_ok]
    simp only [ih, bind_ok]

end Items

section Conditions

/-- The levels of the tree of some conditions below one of a depth. -/
def joined (depth : Nat) (cs : List (Expr Name)) : Nat :=
  cs.foldl (fun n c => joinedDepth n c.height) depth

/-- The levels of the tree of all conditions of a selection. -/
def depth (s : Select) : Nat := joined 0 s.conditions

theorem le_joinedDepth (depth height : Nat) : depth ≤ joinedDepth depth height := by
  unfold joinedDepth
  split_ifs <;> omega

theorem le_joined : ∀ (cs : List (Expr Name)) (depth : Nat), depth ≤ joined depth cs
  | [], _ => Nat.le_refl _
  | c :: cs, depth => Nat.le_trans (le_joinedDepth depth c.height) (le_joined cs _)

theorem tooDeep_mono {depth depth' : Nat} (h : depth ≤ depth') :
    tooDeep d depth = true → tooDeep d depth' = true := by
  cases d with
  | directColumn =>
    simp only [tooDeep, decide_eq_true_eq]
    omega
  | jsonDocument => exact id

theorem not_foreign {rest : List Token} (hr : Follows 1 rest) : foreign rest = false := by
  unfold foreign
  split
  · exact absurd (hr _ rfl) (by simp [Token.level])
  · exact absurd (hr _ rfl) (by decide)
  · rfl

theorem readConditions_tokens : ∀ (cs : List (Expr Name)) (fuel depth : Nat) (rest : List Token),
    cs ≠ [] → (∀ c ∈ cs, c.WellFormed d) →
    8 * (tokensOf (joinWith [Piece.space, Piece.key .and, Piece.space]
      (cs.map Expr.pieces))).length + 5 ≤ fuel → Follows 6 rest →
    readConditions d fuel depth (tokensOf (joinWith [Piece.space, Piece.key .and, Piece.space]
      (cs.map Expr.pieces)) ++ rest) =
      if tooDeep d (joined depth cs) then .error .tooDeep else .ok (cs, rest)
  | [], _, _, _, hne, _, _, _ => absurd rfl hne
  | [c], 0, _, _, _, _, hf, _ => by omega
  | [c], fuel + 1, depth, rest, _, h, hf, hr => by
    have htok : tokensOf (joinWith [Piece.space, Piece.key .and, Piece.space]
        ([c].map Expr.pieces)) = c.tokens := by
      simp [joinWith, Expr.tokens]
    rw [htok] at hf ⊢
    rw [readConditions, (Expr.readable (h c List.mem_cons_self)).whole fuel rest (by omega)
      (hr.mono (by omega)), bind_ok]
    have hj : joined depth [c] = joinedDepth depth c.height := rfl
    simp only [not_foreign (hr.mono (by omega)), Bool.not_false, and_true, hj]
    by_cases hd : tooDeep d (joinedDepth depth c.height) = true
    · rw [if_pos hd, if_pos hd]
    rw [if_neg hd, if_neg hd]
    split
    · exact absurd (hr _ rfl) (by decide)
    · rfl
  | c :: c' :: cs, 0, _, _, _, _, hf, _ => by omega
  | c :: c' :: cs, fuel + 1, depth, rest, _, h, hf, hr => by
    have htok : tokensOf (joinWith [Piece.space, Piece.key .and, Piece.space]
        ((c :: c' :: cs).map Expr.pieces)) = c.tokens ++ .keyword .and ::
          tokensOf (joinWith [Piece.space, Piece.key .and, Piece.space]
            ((c' :: cs).map Expr.pieces)) := by
      simp [joinWith, Expr.tokens]
    rw [htok] at hf ⊢
    simp only [List.length_append, List.length_cons] at hf
    have ih := readConditions_tokens (c' :: cs) fuel (joinedDepth depth c.height) rest (by simp)
      (fun e he => h e (List.mem_cons_of_mem c he)) (by omega) hr
    have hmono := tooDeep_mono (d := d) (le_joined (c' :: cs) (joinedDepth depth c.height))
    rw [List.append_assoc, List.cons_append, readConditions,
      (Expr.readable (h c List.mem_cons_self)).whole fuel _ (by omega)
        (Follows.cons (by decide) _), bind_ok]
    simp only [foreign, Bool.not_false, and_true, ih]
    have hj : joined depth (c :: c' :: cs) = joined (joinedDepth depth c.height) (c' :: cs) := rfl
    rw [hj]
    by_cases hd : tooDeep d (joinedDepth depth c.height) = true
    · rw [if_pos hd, if_pos (hmono hd)]
    rw [if_neg hd]
    split_ifs <;> rfl

end Conditions

section Clauses

theorem readWhere_tokens (g : Gap) {cs : List (Expr Name)} (h : ∀ c ∈ cs, c.WellFormed d)
    {fuel : Nat} {rest : List Token} (hf : 8 * (tokensOf (conditionPieces g cs)).length ≤ fuel)
    (hr : Follows 7 rest) :
    readWhere d fuel (tokensOf (conditionPieces g cs) ++ rest) =
      if tooDeep d (joined 0 cs) then .error .tooDeep else .ok (cs, rest) := by
  rcases cs with _ | ⟨c, cs⟩
  · simp only [conditionPieces, tokensOf_nil, List.nil_append]
    unfold readWhere
    split
    · exact absurd (hr _ rfl) (by decide)
    · cases d <;> rfl
  · have htok : tokensOf (conditionPieces g (c :: cs)) = .keyword .whereTrue ::
        tokensOf (joinWith [Piece.space, Piece.key .and, Piece.space]
          ((c :: cs).map Expr.pieces)) := by
      simp [conditionPieces]
    rw [htok] at hf ⊢
    simp only [List.length_cons] at hf
    exact readConditions_tokens _ _ _ _ (by simp) h (by omega) (hr.mono (by omega))

theorem readGroup_tokens (g : Gap) {key? : Option (Expr Name)} (h : ∀ e ∈ key?, e.WellFormed d)
    {fuel : Nat} {rest : List Token} (hf : 8 * (tokensOf (groupPieces g key?)).length ≤ fuel)
    (hr : Follows 8 rest) :
    readGroup d fuel (tokensOf (groupPieces g key?) ++ rest) = .ok (key?, rest) := by
  rcases key? with _ | e
  · simp only [groupPieces, tokensOf_nil, List.nil_append]
    unfold readGroup
    split
    · exact absurd (hr _ rfl) (by decide)
    · rfl
  · have htok : tokensOf (groupPieces g (some e)) =
        .keyword .group :: .keyword .byKey :: e.tokens := by
      simp [groupPieces, Expr.tokens]
    rw [htok] at hf ⊢
    simp only [List.length_cons] at hf
    have hread := (Expr.readable (h e rfl)).whole fuel rest (by omega) (hr.mono (by omega))
    simp only [List.cons_append, readGroup, Read.key, Read.expect, if_true, bind_ok, hread]

theorem readOrder_tokens (g : Gap) {key? : Option (Expr Name × SortOrder)}
    (h : ∀ e ∈ key?, e.1.WellFormed d) {fuel : Nat} {rest : List Token}
    (hf : 8 * (tokensOf (orderPieces g key?)).length ≤ fuel) (hr : Follows 9 rest) :
    readOrder d fuel (tokensOf (orderPieces g key?) ++ rest) = .ok (key?, rest) := by
  rcases key? with _ | ⟨e, o⟩
  · simp only [orderPieces, tokensOf_nil, List.nil_append]
    unfold readOrder
    split
    · exact absurd (hr _ rfl) (by decide)
    · rfl
  · have htok : tokensOf (orderPieces g (some (e, o))) =
        .keyword .order :: .keyword .byKey :: e.tokens ++ [Token.keyword (SortOrder.keyword o)] := by
      simp [orderPieces, Expr.tokens]
    rw [htok] at hf ⊢
    simp only [List.length_cons, List.length_append] at hf
    have hread := (Expr.readable (h (e, o) rfl)).whole fuel
      (.keyword (SortOrder.keyword o) :: rest) (by dsimp only; omega)
      (Follows.cons (by cases o <;> decide) _)
    simp only [List.cons_append, List.append_assoc, List.nil_append, readOrder, Read.key,
      Read.expect, if_true, bind_ok, hread]
    cases o <;> rfl

theorem readLimit_tokens (g : Gap) (n? : Option Nat) {rest : List Token} (hr : Follows 10 rest) :
    readLimit (tokensOf (limitPieces g n?) ++ rest) = .ok (n?, rest) := by
  rcases n? with _ | n
  · simp only [limitPieces, tokensOf_nil, List.nil_append]
    unfold readLimit
    split
    · exact absurd (hr _ rfl) (by decide)
    · rfl
  · have htok : tokensOf (limitPieces g (some n)) = [.keyword .limit, .number n.repr] := by
      simp [limitPieces, numeral, Nat.repr]
    simp only [htok, List.cons_append, List.nil_append, readLimit, Nat.toNat?_repr]

end Clauses

section Selection

theorem follows_limit (g : Gap) (n? : Option Nat) {rest : List Token} (hr : Follows 10 rest) :
    Follows 9 (tokensOf (limitPieces g n?) ++ rest) := by
  cases n? with
  | none => exact hr.mono (by omega)
  | some n => exact Follows.cons (by decide) _

theorem follows_order (g : Gap) (key? : Option (Expr Name × SortOrder)) {rest : List Token}
    (hr : Follows 9 rest) : Follows 8 (tokensOf (orderPieces g key?) ++ rest) := by
  cases key? with
  | none => exact hr.mono (by omega)
  | some e => exact Follows.cons (by decide) _

theorem follows_group (g : Gap) (key? : Option (Expr Name)) {rest : List Token}
    (hr : Follows 8 rest) : Follows 7 (tokensOf (groupPieces g key?) ++ rest) := by
  cases key? with
  | none => exact hr.mono (by omega)
  | some e => exact Follows.cons (by decide) _

theorem readSelection_tokens {items : Items Name} (h : items.WellFormed d) (layout : Layout)
    {fuel : Nat} (hf : 8 * (tokensOf (items.pieces layout)).length + 5 ≤ fuel) {rest : List Token}
    (hr : Follows 6 rest) :
    readSelection d fuel (tokensOf (items.pieces layout) ++ rest) = .ok (items, rest) := by
  cases items with
  | all => rfl
  | list items =>
    obtain ⟨hne, hi⟩ := h
    obtain ⟨g, hg⟩ : ∃ g, tokensOf ((Items.list items).pieces layout) =
        tokensOf (joinWith [Piece.mark .comma, .gap g] (items.map Item.pieces)) := by
      rw [Items.pieces]
      split_ifs
      · exact ⟨.indent, rfl⟩
      · exact ⟨.space, rfl⟩
    rw [hg] at hf ⊢
    have hread := readItems_tokens g items fuel rest hne hi (by omega) hr
    obtain ⟨i, is, rfl⟩ := List.exists_cons_of_ne_nil hne
    obtain ⟨xs, hx⟩ : ∃ xs, tokensOf (joinWith [Piece.mark .comma, .gap g]
        ((i :: is).map Item.pieces)) = i.expr.tokens ++ xs := by
      rcases is with _ | ⟨j, is⟩ <;> simp [joinWith, Item.pieces, Expr.tokens]
    obtain ⟨t, ts, he, ht⟩ := i.expr.tokens_head (xs ++ rest)
    rw [hx, List.append_assoc, he] at hread ⊢
    unfold readSelection
    split
    · rename_i heq
      exact absurd (List.cons.inj heq).1 ht
    · rw [hread, bind_ok]

end Selection

variable {s : Select}

/-- The tokens of a selection, clause by clause. -/
theorem tokens_pieces (layout : Layout) (s : Select) : tokensOf (s.pieces layout) =
    .keyword .select :: (tokensOf (s.items.pieces layout) ++
      .keyword .fromTable :: s.source.token ::
        (tokensOf (conditionPieces layout.line s.conditions) ++
          (tokensOf (groupPieces layout.line s.groupBy) ++
            (tokensOf (orderPieces layout.line s.orderBy) ++
              tokensOf (limitPieces layout.line s.limit))))) := by
  simp only [pieces, List.append_assoc, List.cons_append, List.nil_append, tokensOf_append,
    tokensOf_key, tokensOf_gap, tokensOf_space, tokensOf_piece]

theorem read_tokens (h : s.WellFormed d) (layout : Layout) (fuel : Nat) (rest : List Token)
    (hf : 8 * (tokensOf (s.pieces layout)).length ≤ fuel) (hr : Follows 10 rest) :
    read d fuel (tokensOf (s.pieces layout) ++ rest) =
      if tooDeep d s.depth then .error .tooDeep else .ok (s, rest) := by
  rw [tokens_pieces] at hf ⊢
  simp only [List.length_cons, List.length_append] at hf
  have hlimit := follows_limit layout.line s.limit hr
  have horder := follows_order layout.line s.orderBy hlimit
  have hgroup := follows_group layout.line s.groupBy horder
  simp only [List.cons_append, List.append_assoc, read, Read.key, Read.expect, if_true, bind_ok]
  rw [readSelection_tokens h.items layout (by omega) (Follows.cons (by decide) _)]
  simp only [bind_ok, Read.name_token, if_true]
  rw [readWhere_tokens layout.line h.conditions (by omega) hgroup]
  by_cases hd : tooDeep d s.depth = true
  · rw [if_pos hd, if_pos (show tooDeep d (joined 0 s.conditions) = true from hd), bind_error]
  rw [if_neg hd, if_neg (show ¬tooDeep d (joined 0 s.conditions) = true from hd), bind_ok]
  dsimp only
  rw [readGroup_tokens layout.line h.groupBy (by omega) horder, bind_ok]
  dsimp only
  rw [readOrder_tokens layout.line h.orderBy (by omega) hlimit, bind_ok]
  dsimp only
  rw [readLimit_tokens layout.line s.limit hr, bind_ok]

end Select

namespace Query

variable {d : Dialect} {q : Query}

/-- The trees of conditions are not too deep for a dialect. -/
def Fits (d : Dialect) (q : Query) : Prop :=
  Select.tooDeep d q.main.depth = false ∧ ∀ c ∈ q.common, Select.tooDeep d c.2.depth = false

instance : Decidable (q.Fits d) := inferInstanceAs (Decidable (_ ∧ _))

theorem fits_document (q : Query) : q.Fits .jsonDocument := ⟨rfl, fun _ _ => rfl⟩

/-- A well-formed query is read back from its tokens, or its conditions are too many. -/
theorem ofTokens_tokens (h : q.WellFormed d) :
    ofTokens d q.tokens = if q.Fits d then .ok q else .error .tooDeep := by
  obtain ⟨common, main⟩ := q
  have hmain : main.WellFormed d := h.main
  have hfuel : ∀ ts : List Token, 8 * ts.length ≤ fuelFor ts.length := fun ts => by
    unfold fuelFor
    omega
  rcases common with _ | ⟨name, s⟩
  · have htok : tokens ⟨none, main⟩ = tokensOf (main.pieces ⟨.line, false⟩) := rfl
    have hread := Select.read_tokens hmain ⟨.line, false⟩ _ [] (hfuel _) (by rintro t ⟨⟩)
    obtain ⟨ts, hts⟩ : ∃ ts, tokensOf (main.pieces ⟨.line, false⟩) = .keyword .select :: ts :=
      ⟨_, tokensOf_key _ _⟩
    rw [ofTokens, htok]
    rw [List.append_nil] at hread
    rw [hts] at hread ⊢
    simp only [readAll, readCommon, bind_ok, hread]
    by_cases hd : Select.tooDeep d main.depth = true
    · rw [if_pos hd, if_neg fun hq => Bool.false_ne_true (hq.1.symm.trans hd), bind_error]
    · rw [if_neg hd, if_pos ⟨Bool.eq_false_iff.2 hd, by rintro c ⟨⟩⟩, bind_ok]
      rfl
  · have hs : s.WellFormed d := (h.common _ rfl).2
    have htok : tokens ⟨some (name, s), main⟩ = .keyword .withName :: .word name :: .keyword .as ::
        .mark .lparen :: (tokensOf (s.pieces ⟨.indent, false⟩) ++ .mark .rparen ::
          tokensOf (main.pieces ⟨.line, true⟩)) := by
      simp [tokens, pieces]
    have hlen := hfuel (tokens ⟨some (name, s), main⟩)
    rw [ofTokens]
    generalize fuelFor (tokens ⟨some (name, s), main⟩).length = fuel at hlen ⊢
    rw [htok] at hlen ⊢
    simp only [List.length_cons, List.length_append] at hlen
    have hcommon := Select.read_tokens hs ⟨.indent, false⟩ fuel
      (.mark .rparen :: tokensOf (main.pieces ⟨.line, true⟩)) (by omega)
      (Follows.cons (by decide) _)
    have hread := Select.read_tokens hmain ⟨.line, true⟩ fuel [] (by omega) (by rintro t ⟨⟩)
    rw [List.append_nil] at hread
    simp only [readAll, readCommon, hcommon]
    by_cases hd : Select.tooDeep d s.depth = true
    · rw [if_pos hd, if_neg fun hq => Bool.false_ne_true ((hq.2 _ rfl).symm.trans hd)]
      rfl
    rw [if_neg hd]
    simp only [bind_ok, Read.mark, Read.expect, if_true, hread]
    by_cases hd' : Select.tooDeep d main.depth = true
    · rw [if_pos hd', if_neg fun hq => Bool.false_ne_true (hq.1.symm.trans hd'), bind_error]
    · have hfits : Fits d ⟨some (name, s), main⟩ := ⟨Bool.eq_false_iff.2 hd',
        by rintro c ⟨⟩; exact Bool.eq_false_iff.2 hd⟩
      rw [if_neg hd', if_pos hfits, bind_ok]
      rfl

end Query

end TableTalk.Sql
