import TableTalk.Intent.Compile
import TableTalk.Proofs.Sql.Keywords

/-!
# Columns in the tokens of a query

The dialects spell the reading of a column differently. `contract` takes each such spelling for one
atom, a column and what it is read as, and so each spelling of a pattern that ignores case. A name
behind `AS`, `FROM` or `ORDER BY` is no column of the table but an item or a table. In the dialect of
tables nothing is lost (`tokens_contract`): the atoms tell the tokens.

Tokens contract by themselves in front of others that cannot join them (`Sealed`, `Contracts`), so a
query is contracted part by part. Parts that contract to the same in both dialects are `Uniform`.
-/

namespace TableTalk

open Sql

/-- Numbers and dates have readings of their own. Truth values are told apart from texts in one
dialect only. -/
def Reading.merged : Reading → Reading
  | boolean => text
  | r => r

/-- The reading of a column, a column beside a pattern that ignores case, or any other token. -/
inductive Atom where
  | column (name : String) (reading : Reading)
  | pattern (name pattern : String)
  | token (t : Token)
deriving DecidableEq, Repr

namespace Atom

/-- A column in a call that casts it, or beside a pattern in small letters. -/
def called? (f c : String) (rest : List Token) : Option (List Atom × List Token) :=
  if f = Function.spelling .tryCastDouble then some ([column c .numeric], rest)
  else if f = Function.spelling .tryCastTimestamp then some ([column c .date], rest)
  else if f = Function.spelling .lower then
    match rest with
    | .keyword .like :: .word g :: .mark .lparen :: .text p :: .mark .rparen :: rest =>
      if g = Function.spelling .lower then
        some ([pattern c p], rest)
      else none
    | _ => none
  else none

/-- A member of a document with the cast or the pattern behind it. -/
def member (c : String) : List Token → Atom × List Token
  | .mark .cast :: .word "numeric" :: rest => (column c .numeric, rest)
  | .mark .cast :: .word "timestamp" :: rest => (column c .date, rest)
  | .mark .cast :: .word "boolean" :: rest => (column c .text, rest)
  | .keyword .ilike :: .text p :: rest => (pattern c p, rest)
  | rest => (column c .text, rest)

/-- The atoms of a spelling that some tokens start with, and the tokens behind it. -/
def spelled? (d : Dialect) (ts : List Token) : Option (List Atom × List Token) :=
  match d with
  | .directColumn =>
    match ts with
    | .word f :: .mark .lparen :: .name c :: .mark .rparen :: rest => called? f c rest
    | .keyword .as :: .name a :: rest =>
      some ([token (.keyword .as), token (.name a)], rest)
    | .keyword .fromTable :: .name a :: rest =>
      some ([token (.keyword .fromTable), token (.name a)], rest)
    | .keyword .order :: .keyword .byKey :: .name a :: rest =>
      some ([token (.keyword .order), token (.keyword .byKey), token (.name a)], rest)
    | .name c :: rest => some ([column c .text], rest)
    | _ => none
  | .jsonDocument =>
    match ts with
    | .mark .lparen :: .word w :: .mark .arrow :: .text c :: .mark .rparen :: rest =>
      if w = documentColumn then some ([(member c rest).1], (member c rest).2) else none
    | _ => none

theorem length_called? {f c : String} {ts rest : List Token} {as : List Atom}
    (h : called? f c ts = some (as, rest)) : rest.length ≤ ts.length := by
  unfold called? at h
  split_ifs at h
  · cases h
    exact Nat.le_refl _
  · cases h
    exact Nat.le_refl _
  · split at h
    · split_ifs at h
      cases h
      simp only [List.length_cons]
      omega
    · cases h

theorem length_member (c : String) (ts : List Token) : (member c ts).2.length ≤ ts.length := by
  unfold member
  split <;> simp only [List.length_cons] <;> omega

theorem length_spelled? {d : Dialect} {ts rest : List Token} {as : List Atom}
    (h : spelled? d ts = some (as, rest)) : rest.length < ts.length := by
  unfold spelled? at h
  cases d with
  | directColumn =>
    dsimp only at h
    split at h
    · have := length_called? h
      simp only [List.length_cons]
      omega
    all_goals
      cases h
      try simp only [List.length_cons]
      try omega
  | jsonDocument =>
    dsimp only at h
    split at h
    · rename_i c rest'
      have := length_member c rest'
      split_ifs at h
      cases h
      simp only [List.length_cons]
      omega
    · cases h

/-- The spelling of an atom in the dialect of tables. -/
def tokens : Atom → List Token
  | column c .numeric =>
    [.word (Function.spelling .tryCastDouble), .mark .lparen, .name c, .mark .rparen]
  | column c .date =>
    [.word (Function.spelling .tryCastTimestamp), .mark .lparen, .name c, .mark .rparen]
  | column c _ => [.name c]
  | pattern c p =>
    [.word (Function.spelling .lower), .mark .lparen, .name c, .mark .rparen, .keyword .like,
      .word (Function.spelling .lower), .mark .lparen, .text p, .mark .rparen]
  | token t => [t]

theorem tokens_called? {f c : String} {ts rest : List Token} {as : List Atom}
    (h : called? f c ts = some (as, rest)) : as.flatMap tokens ++ rest =
      .word f :: .mark .lparen :: .name c :: .mark .rparen :: ts := by
  unfold called? at h
  split_ifs at h with hdouble htimestamp hlower
  · cases h
    rw [hdouble]
    rfl
  · cases h
    rw [htimestamp]
    rfl
  · split at h
    · split_ifs at h with hg
      cases h
      rw [hlower, hg]
      rfl
    · cases h

theorem tokens_spelled? {ts rest : List Token} {as : List Atom}
    (h : spelled? .directColumn ts = some (as, rest)) : as.flatMap tokens ++ rest = ts := by
  unfold spelled? at h
  dsimp only at h
  split at h
  · exact tokens_called? h
  all_goals
    cases h
    try rfl

end Atom

/-- The atoms of tokens, read from the front. -/
def contract (d : Dialect) (ts : List Token) : List Atom :=
  match _h : Atom.spelled? d ts with
  | some (as, rest) => as ++ contract d rest
  | none =>
    match ts with
    | [] => []
    | t :: ts => .token t :: contract d ts
termination_by ts.length
decreasing_by
  · exact Atom.length_spelled? _h
  · exact Nat.lt_succ_self _

section Contract

variable {d : Dialect} {ts rest : List Token} {as bs : List Atom}

@[simp] theorem contract_nil (d : Dialect) : contract d [] = [] := by
  rw [contract]
  cases d <;> rfl

theorem contract_spelled (h : Atom.spelled? d ts = some (as, rest)) :
    contract d ts = as ++ contract d rest := by
  rw [contract]
  split
  · rename_i h'
    rw [h] at h'
    cases h'
    rfl
  · rename_i h'
    rw [h] at h'
    cases h'

theorem contract_token {t : Token} (h : Atom.spelled? d (t :: ts) = none) :
    contract d (t :: ts) = .token t :: contract d ts := by
  rw [contract]
  split
  · rename_i h'
    rw [h] at h'
    cases h'
  · rfl

/-- The atoms of tokens tell them. -/
theorem tokens_contract (ts : List Token) :
    (contract .directColumn ts).flatMap Atom.tokens = ts := by
  induction ts using contract.induct .directColumn with
  | case1 ts as rest h ih => rw [contract_spelled h, List.flatMap_append, ih, Atom.tokens_spelled? h]
  | case2 => rw [contract_nil, List.flatMap_nil]
  | case3 t ts h ih =>
    rw [contract_token h, List.flatMap_cons, ih]
    rfl

/-- Tokens that join what is in front of them: a cast, a pattern, or a document. -/
def joining : List Token := [.mark .cast, .keyword .ilike, .word documentColumn]

def Sealed (ts : List Token) : Prop := ∀ t ∈ ts.head?, t ∉ joining

/-- Tokens that contract to some atoms in front of whatever they end at. -/
structure Contracts (d : Dialect) (ts : List Token) (as : List Atom) : Prop where
  isSealed : ∀ rest, Sealed rest → Sealed (ts ++ rest)
  append : ∀ rest, Sealed rest → contract d (ts ++ rest) = as ++ contract d rest

theorem sealed_cons {t : Token} (h : t ∉ joining) (ts : List Token) : Sealed (t :: ts) := by
  rintro u ⟨⟩
  exact h

namespace Contracts

theorem nil (d : Dialect) : Contracts d [] [] := ⟨fun _ h => h, fun _ _ => rfl⟩

theorem trans {us : List Token} (h : Contracts d ts as) (h' : Contracts d us bs) :
    Contracts d (ts ++ us) (as ++ bs) where
  isSealed rest hr := by
    rw [List.append_assoc]
    exact h.isSealed _ (h'.isSealed rest hr)
  append rest hr := by
    rw [List.append_assoc, h.append _ (h'.isSealed rest hr), h'.append rest hr, List.append_assoc]

/-- The tokens alone. -/
theorem eq (h : Contracts d ts as) : contract d ts = as := by
  have hall := h.append [] nofun
  rw [contract_nil, List.append_nil, List.append_nil] at hall
  exact hall

theorem of_spelled {t : Token} (hj : t ∉ joining)
    (h : ∀ rest, Sealed rest → Atom.spelled? d (t :: ts ++ rest) = some (as, rest)) :
    Contracts d (t :: ts) as where
  isSealed _ _ := sealed_cons hj _
  append rest hr := contract_spelled (h rest hr)

/-- A token in front of others that are no spelling of a column with it. -/
theorem cons {t : Token} (h : Contracts d ts as) (hj : t ∉ joining)
    (hn : ∀ rest, Sealed rest → Atom.spelled? d (t :: ts ++ rest) = none) :
    Contracts d (t :: ts) (.token t :: as) where
  isSealed _ _ := sealed_cons hj _
  append rest hr := (contract_token (hn rest hr)).trans (congrArg _ (h.append rest hr))

end Contracts

/-- A token that no spelling of a column starts with, and that joins nothing. -/
def dull (d : Dialect) : Token → Bool
  | .name _ => d = .jsonDocument
  | .keyword k => k ≠ .ilike && (d = .jsonDocument || k ∉ [Keyword.as, .fromTable, .order])
  | .word w => w ≠ documentColumn && (d = .jsonDocument ||
      w ∉ [Function.tryCastDouble, .tryCastTimestamp, .lower].map Function.spelling)
  | .mark m => m ≠ .cast
  | _ => true

@[simp] theorem dull_text (s : String) : dull d (.text s) = true := rfl

@[simp] theorem dull_number (s : String) : dull d (.number s) = true := rfl

@[simp] theorem dull_mark (m : Mark) : dull d (.mark m) = decide (m ≠ .cast) := rfl

@[simp] theorem dull_keyword (k : Keyword) : dull d (.keyword k) =
    (k ≠ .ilike && (d = .jsonDocument || k ∉ [Keyword.as, .fromTable, .order])) := rfl

@[simp] theorem dull_name (s : String) : dull d (.name s) = decide (d = .jsonDocument) := rfl

theorem dull_document {t : Token} (h : dull .directColumn t = true) :
    dull .jsonDocument t = true := by
  cases t <;> simp_all [dull]

theorem spelled?_dull {t : Token} (h : dull d t = true) (hr : Sealed rest) :
    Atom.spelled? d (t :: rest) = none := by
  cases d with
  | directColumn =>
    unfold Atom.spelled?
    dsimp only
    split
    · rename_i f c rest' heq
      obtain ⟨rfl, -⟩ := List.cons.inj heq
      simp [dull] at h
      simp [Atom.called?, h]
    all_goals first
      | rfl
      | (rename_i heq
         obtain ⟨rfl, -⟩ := List.cons.inj heq
         simp [dull] at h)
  | jsonDocument =>
    unfold Atom.spelled?
    dsimp only
    split
    · rename_i w c rest' heq
      obtain ⟨-, rfl⟩ := List.cons.inj heq
      have hw : w ≠ documentColumn := fun hw => hr _ rfl (by simp [joining, hw])
      rw [if_neg hw]
    · rfl

theorem contracts_dull {t : Token} (h : dull d t = true) : Contracts d [t] [.token t] := by
  refine (Contracts.nil d).cons ?_ fun rest hr => spelled?_dull h hr
  simp only [joining, List.mem_cons, List.not_mem_nil, or_false]
  rintro (rfl | rfl | rfl) <;> simp [dull] at h

theorem contracts_dulls : ∀ {ts : List Token}, (∀ t ∈ ts, dull d t = true) →
    Contracts d ts (ts.map .token)
  | [], _ => Contracts.nil d
  | _ :: _, h => (contracts_dull (h _ List.mem_cons_self)).trans
      (contracts_dulls fun u hu => h u (List.mem_cons_of_mem _ hu))

end Contract

/-- Tokens of either dialect that contract to the same atoms. -/
def Uniform (f : Dialect → List Token) : Prop := ∃ as, ∀ d, Contracts d (f d) as

section Uniform

variable {f g : Dialect → List Token}

theorem Uniform.append (hf : Uniform f) (hg : Uniform g) : Uniform fun d => f d ++ g d := by
  obtain ⟨as, hf⟩ := hf
  obtain ⟨bs, hg⟩ := hg
  exact ⟨as ++ bs, fun d => (hf d).trans (hg d)⟩

theorem Uniform.congr (hf : Uniform f) (h : ∀ d, g d = f d) : Uniform g :=
  (funext h : g = f) ▸ hf

theorem uniform_dulls {ts : List Token} (h : ∀ t ∈ ts, dull .directColumn t = true) :
    Uniform fun _ => ts := by
  refine ⟨ts.map .token, fun d => contracts_dulls fun t ht => ?_⟩
  cases d with
  | directColumn => exact h t ht
  | jsonDocument => exact dull_document (h t ht)

theorem uniform_nil : Uniform fun _ => [] := uniform_dulls nofun

theorem Uniform.cons (hf : Uniform f) {t : Token} (h : dull .directColumn t = true) :
    Uniform fun d => t :: f d :=
  (uniform_dulls (List.forall_mem_singleton.2 h)).append hf

/-- Tokens as the arguments of a function. -/
theorem Uniform.call (hf : Uniform f) {w : String} (hw : dull .directColumn (.word w) = true) :
    Uniform fun d => .word w :: .mark .lparen :: (f d ++ [Token.mark .rparen]) :=
  ((hf.append (uniform_dulls (by simp))).cons (by simp)).cons hw

/-- Tokens behind a keyword that could make a name of them. -/
theorem uniform_keyword {k : Keyword} {ts : List Token}
    (h : ∀ t ∈ .keyword k :: ts, dull .jsonDocument t = true)
    (hdirect : Contracts .directColumn (.keyword k :: ts) ((.keyword k :: ts).map .token)) :
    Uniform fun _ => .keyword k :: ts := by
  refine ⟨(.keyword k :: ts).map .token, fun d => ?_⟩
  cases d with
  | directColumn => exact hdirect
  | jsonDocument => exact contracts_dulls h

theorem uniform_alias (a : String) : Uniform fun _ => [.keyword .as, .name a] :=
  uniform_keyword (by simp) (.of_spelled (by decide) fun _ _ => rfl)

theorem uniform_source (a : String) : Uniform fun _ => [.keyword .fromTable, .name a] :=
  uniform_keyword (by simp) (.of_spelled (by decide) fun _ _ => rfl)

theorem uniform_orderName (a : String) :
    Uniform fun _ => [.keyword .order, .keyword .byKey, .name a] :=
  uniform_keyword (by simp) (.of_spelled (by decide) fun _ _ => rfl)

theorem uniform_orderNumber (n : String) :
    Uniform fun _ => [.keyword .order, .keyword .byKey, .number n] :=
  uniform_keyword (by simp)
    ((contracts_dulls (by simp)).cons (by decide) fun _ _ => rfl)

theorem uniform_asParen : Uniform fun _ => [.keyword .as, .mark .lparen] :=
  uniform_keyword (by simp)
    ((contracts_dulls (by simp)).cons (by decide) fun _ _ => rfl)

theorem uniform_joinWith {α : Type} {b : List Token} (hb : ∀ t ∈ b, dull .directColumn t = true)
    {f : Dialect → α → List Token} : ∀ {xs : List α}, (∀ x ∈ xs, Uniform fun d => f d x) →
      Uniform fun d => joinWith b (xs.map (f d))
  | [], _ => uniform_nil
  | [x], h => h x List.mem_cons_self
  | x :: _ :: _, h => ((h x List.mem_cons_self).append (uniform_dulls hb)).append
      (uniform_joinWith hb fun z hz => h z (List.mem_cons_of_mem x hz))

end Uniform

end TableTalk
