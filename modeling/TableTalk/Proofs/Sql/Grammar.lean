import TableTalk.Proofs.Sql.Lexing

/-!
# Well-formed queries and their texts

An expression is well formed if each operand binds at least as closely as its place asks for
(`Expr.level`), its names and numbers are spelled as such, and it belongs to the dialect. So a
well-formed query is read as it was meant. Here its text is split into its tokens
(`Query.lex_text`), except that nothing is read behind a quotation with U+0000 in it.
-/

namespace TableTalk.Sql

/-- A bare name is a word. Between quotes anything is a name. -/
def Name.WellFormed : Name → Prop
  | .bare s => Token.isWord s.toList
  | .quoted _ => True

/-- The level of a difference, a product or a quotient. -/
def Arithmetic.level : Arithmetic → Nat
  | .minus => 3
  | .times => 2
  | .divide => 2

namespace Expr

variable {ν : Type}

/-- How loosely an expression binds: operands, members and casts, products, differences,
comparisons. -/
def level : Expr ν → Nat
  | member .. => 1
  | cast .. => 1
  | arithmetic op .. => op.level
  | compare .. => 4
  | like .. => 4
  | ilike .. => 4
  | _ => 0

def WellFormed (d : Dialect) : Expr Name → Prop
  | column n => n.WellFormed
  | number s => Token.IsNumeral s.toList
  | text _ => True
  | truth _ => True
  | paren e => e.WellFormed d
  | negate (number s) => Token.IsNumeral s.toList
  | negate (column (.bare s)) => Token.isWord s.toList
  | negate _ => False
  | compare _ l r => l.level ≤ 3 ∧ r.level ≤ 3 ∧ l.WellFormed d ∧ r.WellFormed d
  | like l r => l.level ≤ 3 ∧ r.level ≤ 3 ∧ l.WellFormed d ∧ r.WellFormed d
  | ilike l r =>
    d = .jsonDocument ∧ l.level ≤ 3 ∧ r.level ≤ 3 ∧ l.WellFormed d ∧ r.WellFormed d
  | arithmetic op l r =>
    l.level ≤ op.level ∧ r.level < op.level ∧ l.WellFormed d ∧ r.WellFormed d
  | member doc k => doc.level ≤ 1 ∧ k.level = 0 ∧ doc.WellFormed d ∧ k.WellFormed d
  | cast e t =>
    d = .jsonDocument ∧ e.level ≤ 1 ∧ Token.isWord t.toList ∧ e.WellFormed d
  | call _ e => e.WellFormed d
  | call2 _ l r => l.WellFormed d ∧ r.WellFormed d
  | aggregate _ e => e.WellFormed d
  | countRows => True
  | lag e o => e.WellFormed d ∧ o.WellFormed d

end Expr

def Items.WellFormed (d : Dialect) : Items Name → Prop
  | .all => True
  | .list items => items ≠ [] ∧ ∀ i ∈ items, i.expr.WellFormed d

structure Select.WellFormed (d : Dialect) (s : Select) : Prop where
  items : s.items.WellFormed d
  source : s.source.WellFormed
  conditions : ∀ e ∈ s.conditions, e.WellFormed d
  groupBy : ∀ e ∈ s.groupBy, e.WellFormed d
  orderBy : ∀ e ∈ s.orderBy, e.1.WellFormed d

structure Query.WellFormed (d : Dialect) (q : Query) : Prop where
  common : ∀ c ∈ q.common, Token.isWord c.1.toList ∧ c.2.WellFormed d
  main : q.main.WellFormed d

section Text

@[simp] theorem charsOf_cons (p : Piece) (ps : List Piece) :
    charsOf (p :: ps) = p.chars ++ charsOf ps := rfl

@[simp] theorem charsOf_append (ps qs : List Piece) :
    charsOf (ps ++ qs) = charsOf ps ++ charsOf qs := by
  simp [charsOf]

/-- Characters in front of which an expression ends. -/
def Closed (cs : List Char) : Prop := ∀ c ∈ cs.head?, c ∈ [' ', '\n', ')', ',', '-', ':']

theorem Closed.cons {c : Char} (h : c ∈ [' ', '\n', ')', ',', '-', ':']) (cs : List Char) :
    Closed (c :: cs) := by
  intro d hd
  rw [List.head?_cons, Option.mem_some] at hd
  exact hd ▸ h

/-- Tokens that an expression can end with. -/
def Token.Closing : Token → Prop
  | .mark .rparen => True
  | .mark _ => False
  | .bad _ => False
  | _ => True

theorem separate_closing {t : Token} (ht : t.Proper) (hc : t.Closing) {ps : List Piece}
    (hps : Closed (charsOf ps)) (h : Separate ps) : Separate (.token t :: ps) := by
  refine ⟨ht, fun c hc' => ?_, h⟩
  have hm := hps c hc'
  cases t with
  | mark m => cases m <;> first | exact hc.elim | trivial
  | bad s => exact hc.elim
  | _ =>
    simp only [List.mem_cons, List.not_mem_nil, or_false] at hm
    rcases hm with rfl | rfl | rfl | rfl | rfl | rfl <;> simp [Token.EndsBefore] <;> decide

/-- Pieces that stay apart from whatever an expression ends in front of. -/
def Ended (xs : List Piece) : Prop :=
  ∀ ps, Closed (charsOf ps) → Separate ps → Separate (xs ++ ps)

theorem ended_closing {t : Token} (ht : t.Proper) (hc : t.Closing) : Ended [.token t] :=
  fun _ hps h => separate_closing ht hc hps h

theorem Token.endsBefore_space {t : Token} (h : t.Proper) : t.EndsBefore ' ' := by
  cases t with
  | word | keyword => exact (by decide : wordChar ' ' = false)
  | name => exact (by decide : ' ' ≠ '"')
  | text => exact (by decide : ' ' ≠ '\'')
  | number => exact ⟨by decide, by decide⟩
  | mark m => cases m <;> simp [EndsBefore]
  | bad => exact h.elim

/-- On a single line the same stands behind a token, or a space. -/
theorem head_flat : ∀ (ps : List Piece),
    ∀ c ∈ (charsOf (ps.map Piece.flat)).head?, c = ' ' ∨ c ∈ (charsOf ps).head?
  | [], c, hc => .inr hc
  | .gap _ :: ps, c, hc => by
    cases hc
    exact .inl rfl
  | .token t :: ps, c, hc => by
    rw [List.map_cons, Piece.flat, charsOf_cons, Piece.chars] at hc
    rw [charsOf_cons, Piece.chars]
    rcases ht : t.chars with - | ⟨d, ds⟩ <;> rw [ht] at hc
    · exact head_flat ps c hc
    · exact .inr hc

theorem Separate.flat : ∀ {ps : List Piece}, Separate ps → Separate (ps.map Piece.flat)
  | [], _ => trivial
  | .gap _ :: ps, h => @Separate.flat ps h
  | .token t :: ps, ⟨ht, hend, h⟩ => by
    refine ⟨ht, fun c hc => ?_, h.flat⟩
    rcases head_flat ps c hc with rfl | hc
    · exact Token.endsBefore_space ht
    · exact hend c hc

theorem tokensOf_flat (ps : List Piece) : tokensOf (ps.map Piece.flat) = tokensOf ps := by
  rw [tokensOf, tokensOf, List.filterMap_map]
  refine congrArg (fun f => ps.filterMap f) (funext fun p => ?_)
  cases p <;> rfl

/-- A token with a blank behind it. -/
theorem separate_spaced {t : Token} (ht : t.Proper) (he : t.EndsBefore ' ') {ps : List Piece}
    (h : Separate ps) : Separate (.token t :: Piece.space :: ps) := by
  refine ⟨ht, fun c hc => ?_, h⟩
  simp only [Piece.space, charsOf_cons, Piece.chars, Gap.chars, List.cons_append, List.head?_cons,
    Option.mem_some] at hc
  exact hc ▸ he

theorem ended_infixed {l r : List Piece} {op : Token} (hl : Ended l) (hr : Ended r)
    (hop : op.Proper) (he : op.EndsBefore ' ') : Ended (infixed l (.token op) r) := by
  intro ps hps h
  simp only [infixed, List.append_assoc]
  exact hl _ (Closed.cons (by simp) _) (separate_spaced hop he (hr ps hps h))

/-- A sign in front of an operand that starts otherwise. -/
theorem ended_minus {t : Token} (ht : t.Proper) (hc : t.Closing)
    (hs : ∃ a w, t.chars = a :: w ∧ a ≠ '-' ∧ a ≠ '>') : Ended [Piece.mark .minus, .token t] := by
  obtain ⟨a, w, hs, ha⟩ := hs
  intro ps hps h
  refine ⟨trivial, fun c hc' => ?_, separate_closing ht hc hps h⟩
  have hc' : c ∈ (t.chars ++ charsOf ps).head? := hc'
  rw [hs] at hc'
  cases hc'
  exact ha

theorem separate_word {w : String} (hw : Token.isWord w.toList = true) {c : Char}
    (hc : Token.wordChar c = false) {ps : List Piece} (hps : (charsOf ps).head? = some c)
    (h : Separate ps) : Separate (Piece.word w :: ps) :=
  ⟨hw, fun d hd => by rw [hps, Option.mem_some] at hd; exact hd ▸ hc, h⟩

theorem separate_keyword (k : Keyword) (g : Gap) {ps : List Piece} (h : Separate ps) :
    Separate (Piece.key k :: .gap g :: ps) := by
  refine ⟨trivial, fun c hc => ?_, h⟩
  cases g <;> cases hc <;> simp only [Token.EndsBefore] <;> decide

theorem ended_paren {xs : List Piece} (h : Ended xs) :
    Ended (Piece.mark .lparen :: xs ++ [Piece.mark .rparen]) := by
  intro ps hps hs
  rw [List.append_assoc, List.cons_append]
  refine ⟨trivial, fun _ _ => trivial, h _ (Closed.cons (by simp) _) ?_⟩
  exact ⟨trivial, fun _ _ => trivial, hs⟩

theorem ended_call {w : String} (hw : Token.isWord w.toList = true) {xs : List Piece}
    (h : Ended xs) : Ended (Piece.word w :: Piece.mark .lparen :: xs ++ [Piece.mark .rparen]) :=
  fun ps hps hs => separate_word hw (by decide) rfl (ended_paren h ps hps hs)

theorem ended_pair {l r : List Piece} (hl : Ended l) (hr : Ended r) :
    Ended (l ++ [Piece.mark .comma, Piece.space] ++ r) := by
  intro ps hps h
  rw [List.append_assoc, List.append_assoc]
  exact hl _ (Closed.cons (by simp) _) ⟨trivial, fun _ _ => trivial, hr ps hps h⟩

end Text

theorem Function.isWord_spelling (f : Function) : Token.isWord f.spelling.toList = true := by
  cases f <;> decide

theorem Function2.isWord_spelling (f : Function2) : Token.isWord f.spelling.toList = true := by
  cases f <;> decide

theorem isWord_aggregateSpelling (f : AggregateFunction) :
    Token.isWord (aggregateSpelling f).toList = true := by
  cases f <;> decide

namespace Expr

theorem ended_pieces {d : Dialect} : ∀ {e : Expr Name}, e.WellFormed d → Ended e.pieces
  | column (.bare _), h => ended_closing h trivial
  | column (.quoted _), _ => ended_closing trivial trivial
  | number _, h => ended_closing h trivial
  | text _, _ => ended_closing trivial trivial
  | truth b, _ => by cases b <;> exact ended_closing trivial trivial
  | paren e, h => ended_paren (ended_pieces (e := e) h)
  | negate (number _), h =>
    ended_minus h trivial (by
      obtain ⟨whole, rest, hn, hne, hw, -⟩ := id h
      obtain ⟨a, w, rfl⟩ := List.exists_cons_of_ne_nil hne
      refine ⟨a, w ++ rest, hn, ?_⟩
      have ha := hw a List.mem_cons_self
      constructor <;> rintro rfl <;> cases ha)
  | negate (column (.bare s)), h =>
    ended_minus (t := .word s) h trivial (by
      obtain ⟨a, w, hs, ha⟩ := Token.exists_of_isWord h
      refine ⟨a, w, hs, ?_⟩
      constructor <;> rintro rfl <;> cases ha)
  | compare op l r, ⟨_, _, hl, hr⟩ => by
    refine ended_infixed (ended_pieces hl) (ended_pieces hr) trivial ?_
    cases op <;> simp [Comparison.mark, Token.EndsBefore]
  | like l r, ⟨_, _, hl, hr⟩ =>
    ended_infixed (ended_pieces hl) (ended_pieces hr) trivial (by simp only [Token.EndsBefore]; decide)
  | ilike l r, ⟨_, _, _, hl, hr⟩ =>
    ended_infixed (ended_pieces hl) (ended_pieces hr) trivial (by simp only [Token.EndsBefore]; decide)
  | arithmetic op l r, ⟨_, _, hl, hr⟩ => by
    refine ended_infixed (ended_pieces hl) (ended_pieces hr) trivial ?_
    cases op <;> simp [Arithmetic.mark, Token.EndsBefore]
  | member doc k, ⟨_, _, hd, hk⟩ => by
    intro ps hps hs
    rw [pieces, List.append_assoc]
    exact ended_pieces hd _ (Closed.cons (by simp) _)
      ⟨trivial, fun _ _ => trivial, ended_pieces hk ps hps hs⟩
  | cast e t, ⟨_, _, ht, he⟩ => by
    intro ps hps hs
    rw [pieces, List.append_assoc]
    exact ended_pieces he _ (Closed.cons (by simp) _)
      ⟨trivial, fun _ _ => trivial,
        separate_closing (show Token.Proper (.word t) from ht) trivial hps hs⟩
  | call f e, h => ended_call f.isWord_spelling (ended_pieces (e := e) h)
  | call2 f l r, ⟨hl, hr⟩ => by
    have := ended_call f.isWord_spelling (ended_pair (ended_pieces hl) (ended_pieces hr))
    simpa only [pieces, List.append_assoc, List.cons_append] using this
  | aggregate f e, h => ended_call (isWord_aggregateSpelling f) (ended_pieces (e := e) h)
  | countRows, _ => by
    have hstar : Ended [Piece.mark .star] := fun _ _ hs => ⟨trivial, fun _ _ => trivial, hs⟩
    exact ended_call (isWord_aggregateSpelling .count) hstar
  | lag e o, ⟨he, ho⟩ => by
    intro ps hps hs
    have hover : Separate (Piece.space :: Piece.key .overRows :: Piece.space :: Piece.mark .lparen ::
        Piece.key .order :: Piece.space :: Piece.key .byKey :: Piece.space ::
        (o.pieces ++ [Piece.mark .rparen] ++ ps)) := by
      refine separate_keyword .overRows .space ⟨trivial, fun _ _ => trivial, ?_⟩
      refine separate_keyword .order .space (separate_keyword .byKey .space ?_)
      rw [List.append_assoc]
      exact ended_pieces ho _ (Closed.cons (by simp) _) ⟨trivial, fun _ _ => trivial, hs⟩
    have hcall := ended_call (w := "LAG") (by decide) (ended_pieces he)
    have h := hcall _ (by exact Closed.cons (by simp) _) hover
    simpa only [pieces, List.append_assoc, List.cons_append, List.nil_append] using h

end Expr

section Clauses

/-- Pieces in front of which an expression ends, if it ends in front of what is behind them. -/
def Opened (xs : List Piece) : Prop := ∀ ps, Closed (charsOf ps) → Closed (charsOf (xs ++ ps))

theorem opened_gap (g : Gap) (xs : List Piece) : Opened (.gap g :: xs) := by
  intro ps _
  cases g <;> exact Closed.cons (by simp) _

theorem ended_nil : Ended [] := fun _ _ h => h

theorem Ended.append {xs ys : List Piece} (hx : Ended xs) (ho : Opened ys) (hy : Ended ys) :
    Ended (xs ++ ys) := by
  intro ps hps h
  rw [List.append_assoc]
  exact hx _ (ho ps hps) (hy ps hps h)

theorem ended_gap (g : Gap) {xs : List Piece} (h : Ended xs) : Ended (.gap g :: xs) :=
  fun ps hps hs => h ps hps hs

theorem ended_keyword (k : Keyword) (g : Gap) {xs : List Piece} (h : Ended xs) :
    Ended (Piece.key k :: .gap g :: xs) :=
  fun ps hps hs => separate_keyword k g (h ps hps hs)

theorem ended_lastKeyword (k : Keyword) : Ended [Piece.key k] := ended_closing trivial trivial

theorem ended_joinWith {between : List Piece} (ho : ∀ xs, Opened (between ++ xs))
    (hb : ∀ xs, Ended xs → Ended (between ++ xs)) : ∀ {xss : List (List Piece)},
    (∀ xs ∈ xss, Ended xs) → Ended (joinWith between xss)
  | [], _ => ended_nil
  | [xs], h => h xs List.mem_cons_self
  | xs :: ys :: xss, h => by
    have ih := ended_joinWith ho hb fun zs hz => h zs (List.mem_cons_of_mem xs hz)
    rw [joinWith, List.append_assoc]
    · exact (h xs List.mem_cons_self).append (ho _) (hb _ ih)
    · simp

theorem Item.ended_pieces {d : Dialect} {i : Item Name} (h : i.expr.WellFormed d) :
    Ended i.pieces := by
  unfold Item.pieces
  split
  · rw [List.append_nil]
    exact Expr.ended_pieces h
  · refine (Expr.ended_pieces h).append (opened_gap .space _) (ended_gap .space ?_)
    exact ended_keyword .as .space (ended_closing trivial trivial)

theorem Items.ended_pieces {d : Dialect} {items : Items Name} (h : items.WellFormed d)
    (layout : Layout) : ∃ g xs, items.pieces layout = .gap g :: xs ∧ Ended xs := by
  cases items with
  | all => exact ⟨.space, _, rfl, fun _ _ h => ⟨trivial, fun _ _ => trivial, h⟩⟩
  | list items =>
    obtain ⟨_, hi⟩ := h
    have hall : ∀ xs ∈ items.map Item.pieces, Ended xs := by
      intro xs hx
      obtain ⟨i, hi', rfl⟩ := List.mem_map.1 hx
      exact Item.ended_pieces (hi i hi')
    have hbetween : ∀ g xs, Ended xs → Ended ([Piece.mark .comma, .gap g] ++ xs) :=
      fun _ _ h ps hps hs => ⟨trivial, fun _ _ => trivial, h ps hps hs⟩
    have hjoin : ∀ g, Ended (joinWith [Piece.mark .comma, .gap g] (items.map Item.pieces)) :=
      fun g => ended_joinWith (fun _ _ _ => by exact Closed.cons (c := ',') (by simp) _)
        (hbetween g) hall
    rw [Items.pieces]
    split_ifs
    · exact ⟨_, _, rfl, hjoin .indent⟩
    · exact ⟨_, _, rfl, hjoin .space⟩

theorem Name.ended_piece {n : Name} (h : n.WellFormed) : Ended [n.piece] := by
  cases n with
  | bare s => exact ended_closing (t := .word s) h trivial
  | quoted s => exact ended_closing (t := .name s) trivial trivial

namespace Select

/-- A clause is left out, or stands on a line of its own. -/
def Clause (xs : List Piece) : Prop := Opened xs ∧ Ended xs

theorem clause_nil : Clause [] := ⟨fun _ h => h, ended_nil⟩

theorem clause_gap (g : Gap) {xs : List Piece} (h : Ended xs) : Clause (.gap g :: xs) :=
  ⟨opened_gap g xs, ended_gap g h⟩

theorem Clause.append {xs ys : List Piece} (hx : Clause xs) (hy : Clause ys) :
    Clause (xs ++ ys) := by
  refine ⟨fun ps hps => ?_, hx.2.append hy.1 hy.2⟩
  rw [List.append_assoc]
  exact hx.1 _ (hy.1 ps hps)

variable {d : Dialect} {s : Select}

theorem clause_conditions (g : Gap) {cs : List (Expr Name)} (h : ∀ e ∈ cs, e.WellFormed d) :
    Clause (conditionPieces g cs) := by
  cases cs with
  | nil => exact clause_nil
  | cons c cs =>
    refine clause_gap g (ended_keyword .whereTrue .space ?_)
    refine ended_joinWith (fun _ => opened_gap .space _)
      (fun xs hx => ended_gap .space (ended_keyword .and .space hx)) ?_
    intro xs hx
    obtain ⟨e, he, rfl⟩ := List.mem_map.1 hx
    exact Expr.ended_pieces (h e he)

theorem clause_group (g : Gap) {key? : Option (Expr Name)} (h : ∀ e ∈ key?, e.WellFormed d) :
    Clause (groupPieces g key?) := by
  cases key? with
  | none => exact clause_nil
  | some e =>
    exact clause_gap g (ended_keyword .group .space (ended_keyword .byKey .space
      (Expr.ended_pieces (h e rfl))))

theorem clause_order (g : Gap) {key? : Option (Expr Name × SortOrder)}
    (h : ∀ e ∈ key?, e.1.WellFormed d) : Clause (orderPieces g key?) := by
  cases key? with
  | none => exact clause_nil
  | some e =>
    refine clause_gap g (ended_keyword .order .space (ended_keyword .byKey .space ?_))
    refine (Expr.ended_pieces (h e rfl)).append (opened_gap .space _) (ended_gap .space ?_)
    exact ended_lastKeyword _

theorem isNumeral_toDigits (n : Nat) : Token.IsNumeral (Nat.toDigits 10 n) :=
  ⟨_, [], (List.append_nil _).symm, Nat.toDigits_ne_nil,
    fun _ hc => Nat.isDigit_of_mem_toDigits (by decide) (by decide) hc, .inl rfl⟩

theorem clause_limit (g : Gap) (n? : Option Nat) : Clause (limitPieces g n?) := by
  cases n? with
  | none => exact clause_nil
  | some n =>
    refine clause_gap g (ended_keyword .limit .space (ended_closing ?_ trivial))
    simp only [Token.Proper, String.toList_ofList]
    exact isNumeral_toDigits n

theorem ended_pieces (h : s.WellFormed d) (layout : Layout) : Ended (s.pieces layout) := by
  obtain ⟨g, xs, hitems, hx⟩ := Items.ended_pieces h.items layout
  have hrest := ((clause_conditions layout.line h.conditions).append
    (clause_group layout.line h.groupBy)).append
    ((clause_order layout.line h.orderBy).append (clause_limit layout.line s.limit))
  have hsource : Clause (.gap layout.line :: Piece.key .fromTable :: Piece.space ::
      [s.source.piece]) :=
    clause_gap _ (ended_keyword _ _ (Name.ended_piece h.source))
  have hall := ended_keyword .select g (hx.append hsource.1 hsource.2)
  have := hall.append hrest.1 hrest.2
  simpa only [pieces, hitems, List.append_assoc, List.cons_append, List.nil_append] using this

end Select

end Clauses

namespace Query

variable {d : Dialect} {q : Query}

theorem ended_pieces (h : q.WellFormed d) : Ended q.pieces := by
  unfold pieces
  split
  · exact Select.ended_pieces h.main _
  · rename_i name s hq
    obtain ⟨hname, hs⟩ := h.common _ hq
    have hmain := Select.ended_pieces h.main ⟨.line, true⟩
    have hparen : Ended (.gap .line :: Piece.mark .rparen :: .gap .line ::
        q.main.pieces ⟨.line, true⟩) :=
      fun ps hps hp => ⟨trivial, fun _ _ => trivial, hmain ps hps hp⟩
    have hbody := (Select.ended_pieces hs ⟨.indent, false⟩).append (opened_gap _ _) hparen
    have hopen : Ended (Piece.mark .lparen :: .gap .indent ::
        (s.pieces ⟨.indent, false⟩ ++ .gap .line :: Piece.mark .rparen :: .gap .line ::
          q.main.pieces ⟨.line, true⟩)) :=
      fun ps hps hp => ⟨trivial, fun _ _ => trivial, hbody ps hps hp⟩
    have hall := ended_keyword .withName .space
      ((ended_closing (t := .word name) hname trivial).append (opened_gap .space _)
        (ended_gap .space (ended_keyword .as .space hopen)))
    rw [List.append_assoc, List.append_assoc]
    exact hall

/-- The text of a well-formed query is split into its tokens, up to the first one that cannot be
read. -/
theorem lex_text (h : q.WellFormed d) : Token.lex q.text = q.tokens.foldr Token.seen [] := by
  have hs := ended_pieces h [] (by rintro c ⟨⟩) trivial
  rw [List.append_nil] at hs
  rw [text, Token.lex_ofList, lexChars_charsOf hs, tokens]

/-- On a single line a query has the same tokens. -/
theorem lex_line (h : q.WellFormed d) : Token.lex q.line = Token.lex q.text := by
  have hs := ended_pieces h [] (by rintro c ⟨⟩) trivial
  rw [List.append_nil] at hs
  rw [lex_text h, line, Token.lex_ofList, lexChars_charsOf hs.flat, tokensOf_flat, tokens]

end Query

end TableTalk.Sql
