import TableTalk.Proofs.Sql.Reading

/-!
# Outlines and literals of tokens

Tokens fall apart into their outline, in which no quotation, number or truth value has a content, and
their literals, the contents in order. Names, numbers and texts do not show in the outline of a query
(`Query.outline_blank`), and its literals are those of its parts (`Select.literals_pieces`).
-/

namespace TableTalk.Sql

/-- What a token is, without its content. -/
def Token.outline : Token → Token
  | name _ => name ""
  | text _ => text ""
  | number _ => number ""
  | keyword .false => keyword .true
  | t => t

/-- Whether a token has a content: a quotation, a number or a truth value. -/
def Token.isLiteral : Token → Bool
  | name _ => true
  | text _ => true
  | number _ => true
  | keyword .true => true
  | keyword .false => true
  | _ => false

/-- The tokens with a content. -/
def literals (ts : List Token) : List Token := ts.filter Token.isLiteral

section Blank

def Name.blank : Name → Name
  | .bare s => .bare s
  | .quoted _ => .quoted ""

namespace Expr

/-- An expression without the contents of its quotations, numbers and truth values. -/
def blank : Expr Name → Expr Name
  | column n => column n.blank
  | number _ => number ""
  | text _ => text ""
  | truth _ => truth true
  | paren e => paren e.blank
  | negate e => negate e.blank
  | compare op l r => compare op l.blank r.blank
  | like l r => like l.blank r.blank
  | ilike l r => ilike l.blank r.blank
  | arithmetic op l r => arithmetic op l.blank r.blank
  | member d k => member d.blank k.blank
  | cast e t => cast e.blank t
  | call f e => call f e.blank
  | call2 f l r => call2 f l.blank r.blank
  | aggregate f e => aggregate f e.blank
  | countRows => countRows
  | lag e o => lag e.blank o.blank

theorem outline_blank (e : Expr Name) :
    (tokensOf e.blank.pieces).map Token.outline = (tokensOf e.pieces).map Token.outline := by
  induction e with
  | column n => cases n <;> rfl
  | truth b => cases b <;> rfl
  | _ => simp_all [blank, pieces, infixed, Token.outline]

end Expr

def Item.blank (i : Item Name) : Item Name := ⟨i.expr.blank, i.alias?⟩

def Items.blank : Items Name → Items Name
  | .all => .all
  | .list items => .list (items.map Item.blank)

def Select.blank (s : Select) : Select where
  items := s.items.blank
  source := s.source.blank
  conditions := s.conditions.map Expr.blank
  groupBy := s.groupBy.map Expr.blank
  orderBy := s.orderBy.map fun (e, o) => (e.blank, o)
  limit := s.limit

def Query.blank (q : Query) : Query := ⟨q.common.map fun (w, s) => (w, s.blank), q.main.blank⟩

theorem tokensOf_joinWith (b : List Piece) : ∀ xss : List (List Piece),
    tokensOf (joinWith b xss) = joinWith (tokensOf b) (xss.map tokensOf)
  | [] => rfl
  | [_] => rfl
  | xs :: ys :: xss => by
    have ih := tokensOf_joinWith b (ys :: xss)
    simp only [joinWith, tokensOf_append, List.map_cons] at ih ⊢
    rw [ih]

theorem map_joinWith {α β : Type} (f : α → β) (b : List α) : ∀ xss : List (List α),
    (joinWith b xss).map f = joinWith (b.map f) (xss.map (List.map f))
  | [] => rfl
  | [_] => rfl
  | xs :: ys :: xss => by
    have ih := map_joinWith f b (ys :: xss)
    simp only [joinWith, List.map_append, List.map_cons] at ih ⊢
    rw [ih]

/-- Lists of pieces with one outline each have one outline when joined. -/
theorem outline_joinWith {α : Type} {f g : α → List Piece} (b : List Piece) {xs : List α}
    (h : ∀ x ∈ xs, (tokensOf (f x)).map Token.outline = (tokensOf (g x)).map Token.outline) :
    (tokensOf (joinWith b (xs.map f))).map Token.outline =
      (tokensOf (joinWith b (xs.map g))).map Token.outline := by
  have hmap : xs.map (List.map Token.outline ∘ tokensOf ∘ f) =
      xs.map (List.map Token.outline ∘ tokensOf ∘ g) := List.map_congr_left h
  simp only [tokensOf_joinWith, map_joinWith, List.map_map, hmap]

theorem Item.outline_blank (i : Item Name) :
    (tokensOf i.blank.pieces).map Token.outline = (tokensOf i.pieces).map Token.outline := by
  simp [Item.blank, pieces, Expr.outline_blank]

namespace Select

theorem outline_items (layout : Layout) (items : Items Name) :
    (tokensOf (items.blank.pieces layout)).map Token.outline =
      (tokensOf (items.pieces layout)).map Token.outline := by
  cases items with
  | all => rfl
  | list items =>
    have h : ∀ b, (tokensOf (joinWith b (items.map (Item.pieces ∘ Item.blank)))).map Token.outline =
        (tokensOf (joinWith b (items.map Item.pieces))).map Token.outline :=
      fun b => outline_joinWith b fun i _ => i.outline_blank
    simp only [Items.blank, Items.pieces, List.map_map]
    split_ifs <;> exact h _

theorem outline_blank (layout : Layout) (s : Select) :
    (tokensOf (s.blank.pieces layout)).map Token.outline =
      (tokensOf (s.pieces layout)).map Token.outline := by
  obtain ⟨items, source, conditions, groupBy, orderBy, limit⟩ := s
  have hitems := outline_items layout items
  have hconditions : (tokensOf (conditionPieces layout.line (conditions.map Expr.blank))).map
      Token.outline = (tokensOf (conditionPieces layout.line conditions)).map Token.outline := by
    rcases conditions with _ | ⟨c, cs⟩
    · rfl
    · have h := outline_joinWith [Piece.space, Piece.key .and, Piece.space]
        fun e (_ : e ∈ c :: cs) => e.outline_blank
      simpa [conditionPieces, Function.comp_def] using h
  have hgroup : (tokensOf (groupPieces layout.line (groupBy.map Expr.blank))).map
      Token.outline = (tokensOf (groupPieces layout.line groupBy)).map Token.outline := by
    cases groupBy <;> simp [groupPieces, Expr.outline_blank]
  have horder : (tokensOf (orderPieces layout.line (orderBy.map fun (e, o) => (e.blank, o)))).map
      Token.outline = (tokensOf (orderPieces layout.line orderBy)).map Token.outline := by
    cases orderBy <;> simp [orderPieces, Expr.outline_blank]
  have hsource : source.blank.token.outline = source.token.outline := by
    cases source <;> rfl
  simp only [pieces, blank, tokensOf_append, tokensOf_key, tokensOf_gap, tokensOf_space,
    tokensOf_piece, tokensOf_nil, List.map_append, List.map_cons, List.cons_append, hitems, hsource,
    hconditions, hgroup, horder]

end Select

/-- A query has the outline of the blank one. -/
theorem Query.outline_blank (q : Query) :
    q.blank.tokens.map Token.outline = q.tokens.map Token.outline := by
  obtain ⟨_ | ⟨w, s⟩, main⟩ := q
  · exact Select.outline_blank _ _
  · simp [blank, tokens, pieces, Select.outline_blank]

end Blank

section Literals

@[simp] theorem literals_nil : literals [] = [] := rfl

@[simp] theorem literals_append (ts us : List Token) :
    literals (ts ++ us) = literals ts ++ literals us := List.filter_append ts us

theorem literals_cons (t : Token) (ts : List Token) :
    literals (t :: ts) = if t.isLiteral then t :: literals ts else literals ts := by
  rw [literals, List.filter_cons]
  rfl

theorem literals_joinWith {b : List Piece} (hb : literals (tokensOf b) = []) :
    ∀ xss : List (List Piece), literals (tokensOf (joinWith b xss)) =
      xss.flatMap fun xs => literals (tokensOf xs)
  | [] => rfl
  | [_] => by simp [joinWith]
  | xs :: ys :: xss => by
    have ih := literals_joinWith hb (ys :: xss)
    rw [joinWith, tokensOf_append, tokensOf_append, literals_append, literals_append, hb, ih]
    · simp
    · simp

theorem Select.literals_conditions (g : Gap) (cs : List (Expr Name)) :
    literals (tokensOf (conditionPieces g cs)) =
      cs.flatMap fun c => literals (tokensOf c.pieces) := by
  rcases cs with _ | ⟨c, cs⟩
  · rfl
  · have h := literals_joinWith (b := [Piece.space, Piece.key .and, Piece.space]) rfl
      ((c :: cs).map Expr.pieces)
    rw [List.flatMap_map] at h
    rw [← h]
    rfl

theorem Items.literals_pieces (layout : Layout) (items : List (Item Name)) :
    literals (tokensOf ((Items.list items).pieces layout)) =
      items.flatMap fun i => literals (tokensOf i.pieces) := by
  have h : ∀ g, literals (tokensOf (joinWith [Piece.mark .comma, .gap g] (items.map Item.pieces))) =
      items.flatMap fun i => literals (tokensOf i.pieces) := fun g => by
    rw [literals_joinWith (b := [Piece.mark .comma, .gap g]) rfl, List.flatMap_map]
  rw [pieces]
  split_ifs
  · exact h .indent
  · exact h .space

/-- The literals of a selection are those of its items, its table and its clauses. -/
theorem Select.literals_pieces (layout : Layout) (items : List (Item Name)) (source : Name)
    (cs : List (Expr Name)) (groupBy : Option (Expr Name)) (orderBy : Option (Expr Name × SortOrder))
    (limit : Option Nat) :
    literals (tokensOf (pieces layout ⟨.list items, source, cs, groupBy, orderBy, limit⟩)) =
      (items.flatMap fun i => literals (tokensOf i.pieces)) ++ literals [source.token] ++
        (cs.flatMap fun c => literals (tokensOf c.pieces)) ++
        (groupBy.elim [] fun e => literals (tokensOf e.pieces)) ++
        (orderBy.elim [] fun e => literals (tokensOf e.1.pieces)) ++
        (limit.elim [] fun n => [Token.number n.repr]) := by
  have hgroup : literals (tokensOf (groupPieces layout.line groupBy)) =
      groupBy.elim [] fun e => literals (tokensOf e.pieces) := by
    cases groupBy <;> simp [groupPieces, literals_cons, Token.isLiteral]
  have horder : literals (tokensOf (orderPieces layout.line orderBy)) =
      orderBy.elim [] fun e => literals (tokensOf e.1.pieces) := by
    rcases orderBy with _ | ⟨e, o⟩
    · rfl
    · cases o <;> simp [orderPieces, literals_cons, Token.isLiteral, SortOrder.keyword]
  have hlimit : literals (tokensOf (limitPieces layout.line limit)) =
      limit.elim [] fun n => [Token.number n.repr] := by
    cases limit <;> rfl
  have hitems := Items.literals_pieces layout items
  have hcs := literals_conditions layout.line cs
  simp only [pieces, tokensOf_append, tokensOf_key, tokensOf_gap, tokensOf_space, tokensOf_piece,
    tokensOf_nil, literals_append, literals_cons, List.cons_append, hitems, hgroup, horder, hlimit,
    hcs, Token.isLiteral]
  rfl

theorem Query.literals_common (w : String) (s main : Select) :
    literals (tokens ⟨some (w, s), main⟩) = literals (tokensOf (s.pieces ⟨.indent, false⟩)) ++
      literals (tokensOf (main.pieces ⟨.line, true⟩)) := by
  simp [tokens, pieces, literals_cons, Token.isLiteral]

end Literals

end TableTalk.Sql
