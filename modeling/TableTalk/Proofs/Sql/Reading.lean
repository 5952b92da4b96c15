import TableTalk.Proofs.Outcome
import TableTalk.Proofs.Sql.Grammar
import TableTalk.Sql.Parser

/-!
# Well-formed expressions are read back

The reader gives back the expression whose tokens it is given, with the tokens behind them
(`Expr.readable`).

A token goes on with what is in front of it at some level (`Token.level`), and an expression is read
as a whole where nothing follows that goes on at its level (`Follows`). Sums, products and members
lean to the left: reading one comes to the point where all of it is read and the rest of a loop is
left to do (`ReadsSum`, `ReadsProduct`, `ReadsSuffixed`), with as much fuel as its tokens have not
taken.
-/

namespace TableTalk.Sql

/-- How closely a token goes on with what is in front of it. -/
def Token.level : Token → Nat
  | bad _ => 0
  | mark .lparen => 0
  | mark .arrow => 1
  | mark .cast => 1
  | mark .star => 2
  | mark .slash => 2
  | mark .minus => 3
  | mark .eq => 4
  | mark .ne => 4
  | mark .lt => 4
  | mark .gt => 4
  | mark .le => 4
  | mark .ge => 4
  | keyword .like => 4
  | keyword .ilike => 4
  | keyword .as => 5
  | mark .comma => 6
  | keyword .and => 6
  | keyword .whereTrue => 7
  | keyword .group => 8
  | keyword .order => 9
  | keyword .limit => 10
  | _ => 11

/-- What follows goes on at no level up to this one. -/
def Follows (level : Nat) (ts : List Token) : Prop := ∀ t ∈ ts.head?, level < t.level

theorem Follows.mono {l m : Nat} {ts : List Token} (h : Follows m ts) (hl : l ≤ m) :
    Follows l ts := fun t ht => Nat.lt_of_le_of_lt hl (h t ht)

theorem Follows.cons {l : Nat} {t : Token} (h : l < t.level) (ts : List Token) :
    Follows l (t :: ts) := by
  intro u hu
  cases hu
  exact h

section Tokens

def Name.token : Name → Token
  | bare s => .word s
  | quoted s => .name s

@[simp] theorem tokensOf_nil : tokensOf [] = [] := rfl

@[simp] theorem tokensOf_token (t : Token) (ps : List Piece) :
    tokensOf (.token t :: ps) = t :: tokensOf ps := rfl

@[simp] theorem tokensOf_gap (g : Gap) (ps : List Piece) :
    tokensOf (.gap g :: ps) = tokensOf ps := rfl

@[simp] theorem tokensOf_mark (m : Mark) (ps : List Piece) :
    tokensOf (Piece.mark m :: ps) = .mark m :: tokensOf ps := rfl

@[simp] theorem tokensOf_word (w : String) (ps : List Piece) :
    tokensOf (Piece.word w :: ps) = .word w :: tokensOf ps := rfl

@[simp] theorem tokensOf_key (k : Keyword) (ps : List Piece) :
    tokensOf (Piece.key k :: ps) = .keyword k :: tokensOf ps := rfl

@[simp] theorem tokensOf_space (ps : List Piece) : tokensOf (Piece.space :: ps) = tokensOf ps := rfl

@[simp] theorem tokensOf_piece (n : Name) (ps : List Piece) :
    tokensOf (n.piece :: ps) = n.token :: tokensOf ps := by
  cases n <;> rfl

@[simp] theorem tokensOf_append (ps qs : List Piece) :
    tokensOf (ps ++ qs) = tokensOf ps ++ tokensOf qs := by
  simp [tokensOf]

end Tokens

namespace Expr

/-- The tokens of an expression. -/
def tokens (e : Expr Name) : List Token := tokensOf e.pieces

/-- No expression starts with a star. -/
theorem tokens_head : ∀ (e : Expr Name) (ts : List Token),
    ∃ t us, e.tokens ++ ts = t :: us ∧ t ≠ .mark .star
  | column (.bare _), _ => ⟨_, _, rfl, by simp⟩
  | column (.quoted _), _ => ⟨_, _, rfl, by simp⟩
  | number _, _ => ⟨_, _, rfl, by simp⟩
  | text _, _ => ⟨_, _, rfl, by simp⟩
  | truth _, _ => ⟨_, _, rfl, by simp⟩
  | paren _, _ => ⟨_, _, rfl, by simp⟩
  | negate _, _ => ⟨_, _, rfl, by simp⟩
  | compare op l r, ts => by
    simpa [tokens, pieces, infixed] using tokens_head l (.mark op.mark :: r.tokens ++ ts)
  | like l r, ts => by
    simpa [tokens, pieces, infixed] using tokens_head l (.keyword .like :: r.tokens ++ ts)
  | ilike l r, ts => by
    simpa [tokens, pieces, infixed] using tokens_head l (.keyword .ilike :: r.tokens ++ ts)
  | arithmetic op l r, ts => by
    simpa [tokens, pieces, infixed] using tokens_head l (.mark op.mark :: r.tokens ++ ts)
  | member l k, ts => by
    simpa [tokens, pieces] using tokens_head l (.mark .arrow :: k.tokens ++ ts)
  | cast e t, ts => by
    simpa [tokens, pieces] using tokens_head e (.mark .cast :: .word t :: ts)
  | call _ _, _ => ⟨_, _, rfl, by simp⟩
  | call2 _ _ _, _ => ⟨_, _, rfl, by simp⟩
  | aggregate _ _, _ => ⟨_, _, rfl, by simp⟩
  | countRows, _ => ⟨_, _, rfl, by simp⟩
  | lag _ _, _ => ⟨_, _, rfl, by simp⟩

theorem tokens_pos (e : Expr Name) : 0 < e.tokens.length := by
  obtain ⟨t, us, he, -⟩ := tokens_head e []
  rw [List.append_nil] at he
  rw [he]
  exact Nat.succ_pos _

variable {d : Dialect} {e l r k : Expr Name}

section Levels

def ReadsOperand (d : Dialect) (e : Expr Name) : Prop :=
  ∀ fuel rest, 8 * e.tokens.length ≤ fuel → Follows 0 rest →
    readOperand d fuel (e.tokens ++ rest) = .ok (e, rest)

def ReadsSuffixed (d : Dialect) (e : Expr Name) : Prop :=
  ∀ fuel rest, 8 * e.tokens.length + 1 ≤ fuel → Follows 0 rest → ∃ left,
    fuel ≤ left + e.tokens.length ∧
      readSuffixed d fuel (e.tokens ++ rest) = readSuffixes d left e rest

def ReadsProduct (d : Dialect) (e : Expr Name) : Prop :=
  ∀ fuel rest, 8 * e.tokens.length + 2 ≤ fuel → Follows 1 rest → ∃ left,
    fuel ≤ left + e.tokens.length ∧
      readProduct d fuel (e.tokens ++ rest) = readProductRest d left e rest

def ReadsSum (d : Dialect) (e : Expr Name) : Prop :=
  ∀ fuel rest, 8 * e.tokens.length + 3 ≤ fuel → Follows 2 rest → ∃ left,
    fuel ≤ left + e.tokens.length ∧
      readSum d fuel (e.tokens ++ rest) = readSumRest d left e rest

def ReadsWhole (d : Dialect) (e : Expr Name) : Prop :=
  ∀ fuel rest, 8 * e.tokens.length + 4 ≤ fuel → Follows 4 rest →
    read d fuel (e.tokens ++ rest) = .ok (e, rest)

theorem readSuffixes_stop {fuel : Nat} {rest : List Token} (h : Follows 1 rest) :
    readSuffixes d (fuel + 1) e rest = .ok (e, rest) := by
  unfold readSuffixes
  split
  · exact absurd (h _ rfl) (by decide)
  · exact absurd (h _ rfl) (by decide)
  · rfl

theorem readProductRest_stop {fuel : Nat} {rest : List Token} (h : Follows 2 rest) :
    readProductRest d (fuel + 1) e rest = .ok (e, rest) := by
  unfold readProductRest
  split
  · exact absurd (h _ rfl) (by decide)
  · exact absurd (h _ rfl) (by decide)
  · rfl

theorem readSumRest_stop {fuel : Nat} {rest : List Token} (h : Follows 3 rest) :
    readSumRest d (fuel + 1) e rest = .ok (e, rest) := by
  unfold readSumRest
  split
  · exact absurd (h _ rfl) (by decide)
  · rfl

/-- A suffixed operand is read where no suffix follows. -/
theorem ReadsSuffixed.stop (h : ReadsSuffixed d e) {fuel : Nat} {rest : List Token}
    (hf : 8 * e.tokens.length + 1 ≤ fuel) (hr : Follows 1 rest) :
    readSuffixed d fuel (e.tokens ++ rest) = .ok (e, rest) := by
  obtain ⟨left, hl, he⟩ := h fuel rest hf (hr.mono (by omega))
  obtain ⟨left, rfl⟩ : ∃ n, left = n + 1 := ⟨left - 1, by omega⟩
  rw [he, readSuffixes_stop hr]

theorem ReadsProduct.stop (h : ReadsProduct d e) {fuel : Nat} {rest : List Token}
    (hf : 8 * e.tokens.length + 2 ≤ fuel) (hr : Follows 2 rest) :
    readProduct d fuel (e.tokens ++ rest) = .ok (e, rest) := by
  obtain ⟨left, hl, he⟩ := h fuel rest hf (hr.mono (by omega))
  obtain ⟨left, rfl⟩ : ∃ n, left = n + 1 := ⟨left - 1, by omega⟩
  rw [he, readProductRest_stop hr]

theorem ReadsSum.stop (h : ReadsSum d e) {fuel : Nat} {rest : List Token}
    (hf : 8 * e.tokens.length + 3 ≤ fuel) (hr : Follows 3 rest) :
    readSum d fuel (e.tokens ++ rest) = .ok (e, rest) := by
  obtain ⟨left, hl, he⟩ := h fuel rest hf (hr.mono (by omega))
  obtain ⟨left, rfl⟩ : ∃ n, left = n + 1 := ⟨left - 1, by omega⟩
  rw [he, readSumRest_stop hr]

theorem ReadsOperand.suffixed (h : ReadsOperand d e) : ReadsSuffixed d e := by
  intro fuel rest hf hr
  obtain ⟨fuel, rfl⟩ : ∃ n, fuel = n + 1 := ⟨fuel - 1, by omega⟩
  have := tokens_pos e
  refine ⟨fuel, by omega, ?_⟩
  rw [readSuffixed, h fuel rest (by omega) hr, bind_ok]

theorem ReadsSuffixed.product (h : ReadsSuffixed d e) : ReadsProduct d e := by
  intro fuel rest hf hr
  obtain ⟨fuel, rfl⟩ : ∃ n, fuel = n + 1 := ⟨fuel - 1, by omega⟩
  have := tokens_pos e
  refine ⟨fuel, by omega, ?_⟩
  rw [readProduct, h.stop (by omega) hr, bind_ok]

theorem ReadsProduct.sum (h : ReadsProduct d e) : ReadsSum d e := by
  intro fuel rest hf hr
  obtain ⟨fuel, rfl⟩ : ∃ n, fuel = n + 1 := ⟨fuel - 1, by omega⟩
  have := tokens_pos e
  refine ⟨fuel, by omega, ?_⟩
  rw [readSum, h.stop (by omega) hr, bind_ok]

theorem ReadsSum.whole (h : ReadsSum d e) : ReadsWhole d e := by
  intro fuel rest hf hr
  obtain ⟨fuel, rfl⟩ : ∃ n, fuel = n + 1 := ⟨fuel - 1, by omega⟩
  rw [read, h.stop (by omega) (hr.mono (by omega)), bind_ok]
  rcases rest with _ | ⟨t, rest⟩
  · rfl
  have ht := hr t rfl
  cases t with
  | keyword k => cases k <;> first | rfl | exact absurd ht (by decide)
  | mark m => cases m <;> first | rfl | exact absurd ht (by decide)
  | _ => rfl

/-- An expression is read at each level that its own one allows. -/
structure Readable (d : Dialect) (e : Expr Name) : Prop where
  operand : e.level = 0 → ReadsOperand d e
  suffixed : e.level ≤ 1 → ReadsSuffixed d e
  product : e.level ≤ 2 → ReadsProduct d e
  sum : e.level ≤ 3 → ReadsSum d e
  whole : ReadsWhole d e

theorem ReadsOperand.readable (h : ReadsOperand d e) : Readable d e :=
  ⟨fun _ => h, fun _ => h.suffixed, fun _ => h.suffixed.product, fun _ => h.suffixed.product.sum,
    h.suffixed.product.sum.whole⟩

theorem ReadsSuffixed.readable (h : ReadsSuffixed d e) (hl : e.level = 1) : Readable d e :=
  ⟨fun h0 => absurd h0 (by omega), fun _ => h, fun _ => h.product, fun _ => h.product.sum,
    h.product.sum.whole⟩

theorem ReadsProduct.readable (h : ReadsProduct d e) (hl : e.level = 2) : Readable d e :=
  ⟨fun h0 => absurd h0 (by omega), fun h1 => absurd h1 (by omega), fun _ => h, fun _ => h.sum,
    h.sum.whole⟩

theorem ReadsSum.readable (h : ReadsSum d e) (hl : e.level = 3) : Readable d e :=
  ⟨fun h0 => absurd h0 (by omega), fun h1 => absurd h1 (by omega), fun h2 => absurd h2 (by omega),
    fun _ => h, h.whole⟩

theorem ReadsWhole.readable (h : ReadsWhole d e) (hl : e.level = 4) : Readable d e :=
  ⟨fun h0 => absurd h0 (by omega), fun h1 => absurd h1 (by omega), fun h2 => absurd h2 (by omega),
    fun h3 => absurd h3 (by omega), h⟩

end Levels

section Operands

theorem readsOperand_single {t : Token} (ht : e.tokens = [t])
    (h : ∀ fuel rest, Follows 0 rest → readOperand d (fuel + 1) (t :: rest) = .ok (e, rest)) :
    ReadsOperand d e := by
  intro fuel rest hf hr
  rw [ht] at hf ⊢
  obtain ⟨fuel, rfl⟩ : ∃ n, fuel = n + 1 := ⟨fuel - 1, by simp at hf; omega⟩
  exact h fuel rest hr

theorem readOperand_word (s : String) (fuel : Nat) {rest : List Token} (hr : Follows 0 rest) :
    readOperand d (fuel + 1) (.word s :: rest) = .ok (column (.bare s), rest) := by
  rcases rest with _ | ⟨t, rest⟩
  · rfl
  have ht := hr t rfl
  cases t with
  | mark m => cases m <;> first | rfl | exact absurd ht (by decide)
  | _ => rfl

theorem readsOperand_column (n : Name) : ReadsOperand d (column n) := by
  cases n with
  | bare s => exact readsOperand_single rfl fun fuel _ hr => readOperand_word s fuel hr
  | quoted s => exact readsOperand_single rfl fun _ _ _ => rfl

theorem readsOperand_truth (b : Bool) : ReadsOperand d (truth b) := by
  cases b <;> exact readsOperand_single rfl fun _ _ _ => rfl

theorem readsOperand_negate (h : ReadsOperand d e) : ReadsOperand d (negate e) := by
  intro fuel rest hf hr
  have hneg : (negate e).tokens = .mark .minus :: e.tokens := by simp [tokens, pieces]
  rw [hneg, List.length_cons] at hf
  obtain ⟨fuel, rfl⟩ : ∃ n, fuel = n + 1 := ⟨fuel - 1, by omega⟩
  rw [hneg, List.cons_append, readOperand, h fuel rest (by omega) hr, bind_ok]

theorem readsOperand_paren (h : ReadsWhole d e) : ReadsOperand d (paren e) := by
  intro fuel rest hf _
  have htok : (paren e).tokens = .mark .lparen :: e.tokens ++ [Token.mark .rparen] := by
    simp [tokens, pieces]
  rw [htok] at hf ⊢
  simp only [List.length_append, List.length_cons, List.length_nil] at hf
  obtain ⟨fuel, rfl⟩ : ∃ n, fuel = n + 1 := ⟨fuel - 1, by omega⟩
  simp only [List.append_assoc, List.cons_append, List.nil_append, readOperand]
  rw [h fuel _ (by omega) (Follows.cons (by decide) rest)]
  rfl

theorem ofWord?_function (f : Function) : Callee.ofWord? f.spelling = some (.one f) := by
  cases f <;> decide

theorem ofWord?_function2 (f : Function2) : Callee.ofWord? f.spelling = some (.two f) := by
  cases f <;> decide

theorem ofWord?_aggregate (f : AggregateFunction) :
    Callee.ofWord? (aggregateSpelling f) = some (.many f) := by
  cases f <;> decide

/-- The word in front of a parenthesis calls a function. -/
theorem readOperand_call {w : String} {c : Callee} (hw : Callee.ofWord? w = some c) (fuel : Nat)
    (ts : List Token) : readOperand d (fuel + 1) (.word w :: .mark .lparen :: ts) =
      readCall d fuel c ts := by
  simp only [readOperand, hw]

theorem readsOperand_call (f : Function) (h : ReadsWhole d e) : ReadsOperand d (call f e) := by
  intro fuel rest hf _
  have htok : (call f e).tokens =
      .word f.spelling :: .mark .lparen :: e.tokens ++ [Token.mark .rparen] := by
    simp [tokens, pieces]
  rw [htok] at hf ⊢
  simp only [List.length_append, List.length_cons, List.length_nil] at hf
  obtain ⟨fuel, rfl⟩ : ∃ n, fuel = n + 2 := ⟨fuel - 2, by omega⟩
  simp only [List.append_assoc, List.cons_append, List.nil_append,
    readOperand_call (ofWord?_function f), readCall]
  rw [h fuel _ (by omega) (Follows.cons (by decide) rest)]
  rfl

theorem readsOperand_aggregate (f : AggregateFunction) (h : ReadsWhole d e) :
    ReadsOperand d (aggregate f e) := by
  intro fuel rest hf _
  have htok : (aggregate f e).tokens =
      .word (aggregateSpelling f) :: .mark .lparen :: e.tokens ++ [Token.mark .rparen] := by
    simp [tokens, pieces]
  rw [htok] at hf ⊢
  simp only [List.length_append, List.length_cons, List.length_nil] at hf
  obtain ⟨fuel, rfl⟩ : ∃ n, fuel = n + 2 := ⟨fuel - 2, by omega⟩
  obtain ⟨t, us, he, ht⟩ := tokens_head e (.mark .rparen :: rest)
  simp only [List.append_assoc, List.cons_append, List.nil_append,
    readOperand_call (ofWord?_aggregate f), readCall]
  have hread := h fuel _ (by omega) (Follows.cons (l := 4) (t := .mark .rparen) (by decide) rest)
  split
  · rename_i heq
    rw [he] at heq
    exact absurd (List.cons.inj heq).1 ht
  · rw [hread]
    rfl

theorem readsOperand_countRows : ReadsOperand d countRows := by
  intro fuel rest hf _
  have htok : countRows.tokens = [.word (aggregateSpelling .count), .mark .lparen, .mark .star,
      .mark .rparen] := rfl
  rw [htok] at hf ⊢
  simp only [List.length_cons, List.length_nil] at hf
  obtain ⟨fuel, rfl⟩ : ∃ n, fuel = n + 2 := ⟨fuel - 2, by omega⟩
  simp only [List.cons_append, List.nil_append, readOperand_call (ofWord?_aggregate .count),
    readCall]

theorem readsOperand_call2 (f : Function2) (hl : ReadsWhole d l) (hr : ReadsWhole d r) :
    ReadsOperand d (call2 f l r) := by
  intro fuel rest hf _
  have htok : (call2 f l r).tokens =
      .word f.spelling :: .mark .lparen :: l.tokens ++ .mark .comma :: r.tokens
        ++ [Token.mark .rparen] := by
    simp [tokens, pieces]
  rw [htok] at hf ⊢
  simp only [List.length_append, List.length_cons, List.length_nil] at hf
  obtain ⟨fuel, rfl⟩ : ∃ n, fuel = n + 2 := ⟨fuel - 2, by omega⟩
  simp only [List.append_assoc, List.cons_append, List.nil_append,
    readOperand_call (ofWord?_function2 f), readCall]
  rw [hl fuel _ (by omega) (Follows.cons (by decide) _)]
  simp only [bind_ok, Read.mark, Read.expect, if_true]
  rw [hr fuel _ (by omega) (Follows.cons (by decide) rest)]
  rfl

theorem readsOperand_lag (hl : ReadsWhole d l) (hr : ReadsWhole d r) :
    ReadsOperand d (lag l r) := by
  intro fuel rest hf _
  have htok : (lag l r).tokens =
      .word "LAG" :: .mark .lparen :: l.tokens ++ .mark .rparen :: .keyword .overRows ::
        .mark .lparen :: .keyword .order :: .keyword .byKey :: r.tokens ++ [Token.mark .rparen] := by
    simp [tokens, pieces]
  rw [htok] at hf ⊢
  simp only [List.length_append, List.length_cons, List.length_nil] at hf
  obtain ⟨fuel, rfl⟩ : ∃ n, fuel = n + 2 := ⟨fuel - 2, by omega⟩
  simp only [List.append_assoc, List.cons_append, List.nil_append,
    readOperand_call (show Callee.ofWord? "LAG" = some .lag by decide), readCall]
  rw [hl fuel _ (by omega) (Follows.cons (by decide) _)]
  simp only [bind_ok, Read.mark, Read.key, Read.expect, if_true]
  rw [hr fuel _ (by omega) (Follows.cons (by decide) rest)]
  rfl

end Operands

section Operators

theorem readsSuffixed_member (hl : ReadsSuffixed d l) (hk : ReadsOperand d k) :
    ReadsSuffixed d (member l k) := by
  intro fuel rest hf hr
  have htok : (member l k).tokens = l.tokens ++ .mark .arrow :: k.tokens := by
    simp [tokens, pieces]
  rw [htok] at hf ⊢
  simp only [List.length_append, List.length_cons] at hf ⊢
  rw [List.append_assoc, List.cons_append]
  obtain ⟨left, hleft, he⟩ := hl fuel (.mark .arrow :: (k.tokens ++ rest)) (by omega)
    (Follows.cons (by decide) _)
  obtain ⟨left, rfl⟩ : ∃ n, left = n + 1 := ⟨left - 1, by omega⟩
  refine ⟨left, by omega, ?_⟩
  rw [he, readSuffixes, hk left rest (by omega) hr, bind_ok]

theorem readsSuffixed_cast (t : String) (h : ReadsSuffixed .jsonDocument e) :
    ReadsSuffixed .jsonDocument (cast e t) := by
  intro fuel rest hf _
  have htok : (cast e t).tokens = e.tokens ++ [Token.mark .cast, .word t] := by
    simp [tokens, pieces]
  rw [htok] at hf ⊢
  simp only [List.length_append, List.length_cons, List.length_nil] at hf ⊢
  rw [List.append_assoc]
  obtain ⟨left, hleft, he⟩ := h fuel (.mark .cast :: .word t :: rest) (by omega)
    (Follows.cons (by decide) _)
  obtain ⟨left, rfl⟩ : ∃ n, left = n + 1 := ⟨left - 1, by omega⟩
  exact ⟨left, by omega, he⟩

theorem readsProduct_arithmetic {op : Arithmetic} (hop : op.level = 2) (hl : ReadsProduct d l)
    (hr : ReadsSuffixed d r) : ReadsProduct d (arithmetic op l r) := by
  intro fuel rest hf hrest
  have htok : (arithmetic op l r).tokens = l.tokens ++ .mark op.mark :: r.tokens := by
    simp [tokens, pieces, infixed]
  rw [htok] at hf ⊢
  simp only [List.length_append, List.length_cons] at hf ⊢
  rw [List.append_assoc, List.cons_append]
  obtain ⟨left, hleft, he⟩ := hl fuel (.mark op.mark :: (r.tokens ++ rest)) (by omega)
    (Follows.cons (by cases op <;> decide) _)
  obtain ⟨left, rfl⟩ : ∃ n, left = n + 1 := ⟨left - 1, by omega⟩
  refine ⟨left, by omega, ?_⟩
  have hread : readSuffixed d left (r.tokens ++ rest) = .ok (r, rest) :=
    hr.stop (by omega) hrest
  rw [he]
  cases op with
  | minus => cases hop
  | times => rw [Arithmetic.mark, readProductRest, hread, bind_ok]
  | divide => rw [Arithmetic.mark, readProductRest, hread, bind_ok]

theorem readsSum_minus (hl : ReadsSum d l) (hr : ReadsProduct d r) :
    ReadsSum d (arithmetic .minus l r) := by
  intro fuel rest hf hrest
  have htok : (arithmetic .minus l r).tokens = l.tokens ++ .mark .minus :: r.tokens := by
    simp [tokens, pieces, infixed, Arithmetic.mark]
  rw [htok] at hf ⊢
  simp only [List.length_append, List.length_cons] at hf ⊢
  rw [List.append_assoc, List.cons_append]
  obtain ⟨left, hleft, he⟩ := hl fuel (.mark .minus :: (r.tokens ++ rest)) (by omega)
    (Follows.cons (by decide) _)
  obtain ⟨left, rfl⟩ : ∃ n, left = n + 1 := ⟨left - 1, by omega⟩
  refine ⟨left, by omega, ?_⟩
  rw [he, readSumRest, hr.stop (by omega) hrest, bind_ok]

/-- Two sums with an operator of conditions between them. -/
theorem readsWhole_of_operator (op : Token) (htok : e.tokens = l.tokens ++ op :: r.tokens)
    (hop : 3 < op.level) (hl : ReadsSum d l) (hr : ReadsSum d r)
    (h : ∀ fuel ts rest, readSum d fuel ts = .ok (l, op :: (r.tokens ++ rest)) →
      readSum d fuel (r.tokens ++ rest) = .ok (r, rest) →
      read d (fuel + 1) ts = .ok (e, rest)) : ReadsWhole d e := by
  intro fuel rest hf hrest
  rw [htok] at hf ⊢
  simp only [List.length_append, List.length_cons] at hf
  rw [List.append_assoc, List.cons_append]
  obtain ⟨fuel, rfl⟩ : ∃ n, fuel = n + 1 := ⟨fuel - 1, by omega⟩
  exact h fuel _ rest (hl.stop (by omega) (Follows.cons hop _))
    (hr.stop (by omega) (hrest.mono (by omega)))

theorem readsWhole_compare (op : Comparison) (hl : ReadsSum d l) (hr : ReadsSum d r) :
    ReadsWhole d (compare op l r) := by
  refine readsWhole_of_operator (.mark op.mark) (by simp [tokens, pieces, infixed])
    (by cases op <;> decide) hl hr fun fuel ts rest h h' => ?_
  rw [read, h, bind_ok]
  cases op <;> simp only [Comparison.mark, Comparison.ofMark?, h', bind_ok]

theorem readsWhole_like (hl : ReadsSum d l) (hr : ReadsSum d r) : ReadsWhole d (like l r) := by
  refine readsWhole_of_operator (.keyword .like) (by simp [tokens, pieces, infixed])
    (by decide) hl hr fun fuel ts rest h h' => ?_
  rw [read, h, bind_ok]
  simp only [h', bind_ok]

theorem readsWhole_ilike (hl : ReadsSum .jsonDocument l) (hr : ReadsSum .jsonDocument r) :
    ReadsWhole .jsonDocument (ilike l r) := by
  refine readsWhole_of_operator (.keyword .ilike) (by simp [tokens, pieces, infixed])
    (by decide) hl hr fun fuel ts rest h h' => ?_
  rw [read, h, bind_ok]
  simp only [h', bind_ok]

end Operators

theorem readable : ∀ {d : Dialect} {e : Expr Name}, e.WellFormed d → Readable d e
  | _, column n, _ => (readsOperand_column n).readable
  | _, number _, _ => (readsOperand_single rfl fun _ _ _ => rfl).readable
  | _, text _, _ => (readsOperand_single rfl fun _ _ _ => rfl).readable
  | _, truth b, _ => (readsOperand_truth b).readable
  | _, paren e, h => (readsOperand_paren (readable (e := e) h).whole).readable
  | _, negate (number _), _ =>
    (readsOperand_negate (readsOperand_single rfl fun _ _ _ => rfl)).readable
  | _, negate (column (.bare s)), _ =>
    (readsOperand_negate (readsOperand_column (.bare s))).readable
  | _, compare op _ _, ⟨hl, hr, l, r⟩ =>
    (readsWhole_compare op ((readable l).sum hl) ((readable r).sum hr)).readable rfl
  | _, like _ _, ⟨hl, hr, l, r⟩ =>
    (readsWhole_like ((readable l).sum hl) ((readable r).sum hr)).readable rfl
  | _, ilike _ _, ⟨hd, hl, hr, l, r⟩ => by
    subst hd
    exact (readsWhole_ilike ((readable l).sum hl) ((readable r).sum hr)).readable rfl
  | _, arithmetic .minus _ _, ⟨hl, hr, l, r⟩ =>
    (readsSum_minus ((readable l).sum hl) ((readable r).product (Nat.le_of_lt_succ hr))).readable
      rfl
  | _, arithmetic .times _ _, ⟨hl, hr, l, r⟩ =>
    (readsProduct_arithmetic rfl ((readable l).product hl)
      ((readable r).suffixed (Nat.le_of_lt_succ hr))).readable rfl
  | _, arithmetic .divide _ _, ⟨hl, hr, l, r⟩ =>
    (readsProduct_arithmetic rfl ((readable l).product hl)
      ((readable r).suffixed (Nat.le_of_lt_succ hr))).readable rfl
  | _, member _ _, ⟨hl, hk, l, k⟩ =>
    (readsSuffixed_member ((readable l).suffixed hl) ((readable k).operand hk)).readable rfl
  | _, cast _ t, ⟨hd, hl, _, e⟩ => by
    subst hd
    exact (readsSuffixed_cast t ((readable e).suffixed hl)).readable rfl
  | _, call f e, h => (readsOperand_call f (readable (e := e) h).whole).readable
  | _, call2 f _ _, ⟨l, r⟩ => (readsOperand_call2 f (readable l).whole (readable r).whole).readable
  | _, aggregate f e, h => (readsOperand_aggregate f (readable (e := e) h).whole).readable
  | _, countRows, _ => readsOperand_countRows.readable
  | _, lag _ _, ⟨l, r⟩ => (readsOperand_lag (readable l).whole (readable r).whole).readable

end Expr

end TableTalk.Sql
