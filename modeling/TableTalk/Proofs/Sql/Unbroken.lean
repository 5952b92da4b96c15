import TableTalk.Proofs.Sql.Grammar

/-!
# Reading on behind U+0000

An engine may take U+0000 between quotes for a character like any other. `Token.lexOn` splits a text
so, and is `Token.lex` on texts without U+0000 (`Token.lexOn_eq_lex`). Then no token of a well-formed
query is ever left open: its text is split into its tokens, whatever is quoted (`Query.lexOn_text`).
-/

namespace TableTalk.Sql

namespace Token

/-- The text up to the quote that closes it, and what follows. -/
def closingOn? (quote : Char) : List Char → Option (List Char × List Char)
  | [] => none
  | [c] => if c = quote then some ([], []) else none
  | c :: d :: cs =>
    if c = quote then
      if d = quote then (closingOn? quote cs).map fun (s, rest) => (quote :: s, rest)
      else some ([], d :: cs)
    else (closingOn? quote (d :: cs)).map fun (s, rest) => (c :: s, rest)

def quotedOn (quote : Char) (make : String → Token) (cs : List Char) : Token × List Char :=
  match closingOn? quote cs with
  | some (s, rest) => (make (String.ofList s), rest)
  | none => (bad (String.ofList (quote :: cs)), [])

/-- What a text starts with, and what follows. -/
def nextOn (c : Char) (cs : List Char) : Option Token × List Char :=
  if c = '"' then let (t, rest) := quotedOn '"' name cs; (some t, rest)
  else if c = '\'' then let (t, rest) := quotedOn '\'' text cs; (some t, rest)
  else next c cs

theorem suffix_closingOn? (q : Char) : ∀ {cs s rest : List Char},
    closingOn? q cs = some (s, rest) → rest <:+ cs
  | [], s, rest, h => by simp [closingOn?] at h
  | [c], s, rest, h => by
    simp only [closingOn?] at h
    split_ifs at h
    simp only [Option.some.injEq, Prod.mk.injEq] at h
    simp [← h.2]
  | c :: d :: cs, s, rest, h => by
    simp only [closingOn?] at h
    split_ifs at h
    · obtain ⟨⟨s', r⟩, hs, he⟩ := Option.map_eq_some_iff.1 h
      simp only [Prod.mk.injEq] at he
      exact he.2 ▸ (suffix_closingOn? q hs).trans ⟨[c, d], rfl⟩
    · simp only [Option.some.injEq, Prod.mk.injEq] at h
      exact h.2 ▸ List.suffix_cons c (d :: cs)
    · obtain ⟨⟨s', r⟩, hs, he⟩ := Option.map_eq_some_iff.1 h
      simp only [Prod.mk.injEq] at he
      exact he.2 ▸ (suffix_closingOn? q hs).trans (List.suffix_cons c (d :: cs))

theorem suffix_quotedOn (q : Char) (make : String → Token) (cs : List Char) :
    (quotedOn q make cs).2 <:+ cs := by
  unfold quotedOn
  split
  · rename_i h
    exact suffix_closingOn? q h
  · exact List.nil_suffix

theorem suffix_nextOn (c : Char) (cs : List Char) : (nextOn c cs).2 <:+ cs := by
  unfold nextOn
  split_ifs
  · exact suffix_quotedOn _ _ _
  · exact suffix_quotedOn _ _ _
  · exact suffix_next c cs

/-- The tokens of characters. -/
def lexOnChars : List Char → List Token
  | [] => []
  | c :: cs => (nextOn c cs).1.toList ++ lexOnChars (nextOn c cs).2
termination_by cs => cs.length
decreasing_by exact Nat.lt_succ_of_le (suffix_nextOn c cs).length_le

/-- The tokens of a text. -/
def lexOn (s : String) : List Token := lexOnChars s.toList

section Agreement

theorem closingOn?_eq (q : Char) : ∀ {cs : List Char}, '\x00' ∉ cs →
    closingOn? q cs = closing? q cs
  | [], _ => rfl
  | [c], _ => rfl
  | c :: d :: cs, h => by
    simp only [List.mem_cons, not_or] at h
    have hrest := closingOn?_eq q h.2.2
    have hcons : closingOn? q (d :: cs) = closing? q (d :: cs) := closingOn?_eq q (by simp [h.2])
    simp only [closingOn?, closing?, hrest, hcons, if_neg (Ne.symm h.1)]

theorem nextOn_eq {c : Char} {cs : List Char} (h : '\x00' ∉ cs) : nextOn c cs = next c cs := by
  have hquoted : ∀ q make, quotedOn q make cs = quoted q make cs := fun q make => by
    have hall : cs.takeWhile (· != '\x00') = cs :=
      List.takeWhile_eq_self_iff.2 fun d hd => by
        rw [bne_iff_ne]
        rintro rfl
        exact h hd
    rcases hclosing : closing? q cs with _ | ⟨s, rest⟩ <;>
      simp only [quotedOn, quoted, closingOn?_eq q h, hall, hclosing]
  unfold nextOn
  split_ifs with hname htext
  · subst hname
    exact congrArg (fun r : Token × List Char => (some r.1, r.2)) (hquoted '"' name)
  · subst htext
    exact congrArg (fun r : Token × List Char => (some r.1, r.2)) (hquoted '\'' text)
  · rfl

/-- Without U+0000 nothing is read otherwise. -/
theorem lexOn_eq_lex {s : String} (h : '\x00' ∉ s.toList) : lexOn s = lex s := by
  have hchars : ∀ cs : List Char, '\x00' ∉ cs → lexOnChars cs = lexChars cs := fun cs => by
    induction cs using lexOnChars.induct with
    | case1 => exact fun _ => by rw [lexOnChars]; rfl
    | case2 c cs ih =>
      intro h
      simp only [List.mem_cons, not_or] at h
      have hrest : '\x00' ∉ (nextOn c cs).2 := fun h0 => h.2 ((suffix_nextOn c cs).subset h0)
      rw [lexOnChars, ih hrest, lexChars_cons (Ne.symm h.1), nextOn_eq h.2]
  exact hchars _ h

end Agreement

section Spelling

theorem closingOn?_double {q : Char} {cs : List Char} (hcs : ∀ c ∈ cs.head?, c ≠ q) :
    ∀ s : List Char, closingOn? q (double q s ++ q :: cs) = some (s, cs)
  | [] => by
    rcases cs with _ | ⟨d, cs⟩
    · simp [double, closingOn?]
    · have hd : d ≠ q := hcs d rfl
      simp [double, closingOn?, hd]
  | c :: s => by
    have ih := closingOn?_double hcs s
    obtain ⟨d, ds, hd⟩ : ∃ d ds, double q s ++ q :: cs = d :: ds :=
      List.exists_cons_of_ne_nil (by simp)
    by_cases hc : c = q
    · subst hc
      simp [double, closingOn?, ih]
    · simp only [double, if_neg hc, List.cons_append, hd, closingOn?]
      rw [← hd, ih]
      rfl

theorem lexOnChars_cons {c : Char} {w cs : List Char} {t : Token}
    (h : nextOn c w = (some t, cs)) : lexOnChars (c :: w) = t :: lexOnChars cs := by
  rw [lexOnChars, h]
  rfl

theorem Starts.lexOnChars {xs cs : List Char} {t : Token} (h : Starts xs t cs) :
    lexOnChars xs = t :: lexOnChars cs := by
  obtain ⟨c, w, rfl, hc, hn⟩ := h
  simp only [List.mem_cons, List.not_mem_nil, or_false, not_or] at hc
  refine lexOnChars_cons ?_
  rw [nextOn, if_neg hc.2.1, if_neg hc.2.2, hn]

theorem lexOnChars_chars {t : Token} (ht : t.Proper) {cs : List Char}
    (hcs : ∀ c ∈ cs.head?, t.EndsBefore c) :
    lexOnChars (t.chars ++ cs) = t :: lexOnChars cs := by
  have hquoted : ∀ q make s, (∀ c ∈ cs.head?, c ≠ q) →
      quotedOn q make (double q s.toList ++ q :: cs) = (make s, cs) := fun q make s h => by
    simp only [quotedOn, closingOn?_double h, String.ofList_toList]
  have henclose : ∀ q s, enclose q s ++ cs = q :: (double q s.toList ++ q :: cs) := fun q s => by
    simp [enclose]
  cases t with
  | name s =>
    rw [chars, henclose]
    refine lexOnChars_cons ?_
    rw [nextOn, if_pos rfl, hquoted _ _ _ hcs]
  | text s =>
    rw [chars, henclose]
    refine lexOnChars_cons ?_
    rw [nextOn, if_neg (by decide), if_pos rfl, hquoted _ _ _ hcs]
  | bad s => exact ht.elim
  | _ => exact (starts_chars ht rfl hcs).lexOnChars

theorem lexOnChars_gap (g : Gap) (cs : List Char) : lexOnChars (g.chars ++ cs) = lexOnChars cs := by
  have hline : ∀ cs, lexOnChars ('\n' :: cs) = lexOnChars cs := fun cs => by
    rw [lexOnChars]
    rfl
  have hspace : ∀ cs, lexOnChars (' ' :: cs) = lexOnChars cs := fun cs => by
    rw [lexOnChars]
    rfl
  cases g <;> simp only [Gap.chars, List.cons_append, List.nil_append, hline, hspace]

end Spelling

end Token

theorem lexOnChars_charsOf : ∀ {ps : List Piece}, Separate ps →
    Token.lexOnChars (charsOf ps) = tokensOf ps
  | [], _ => by
    rw [charsOf, List.flatMap_nil, Token.lexOnChars]
    rfl
  | .gap g :: ps, h => by
    have hps : Separate ps := h
    rw [charsOf_cons, Piece.chars, Token.lexOnChars_gap, lexOnChars_charsOf hps]
    rfl
  | .token t :: ps, ⟨ht, hend, h⟩ => by
    rw [charsOf_cons, Piece.chars, Token.lexOnChars_chars ht hend, lexOnChars_charsOf h]
    rfl

/-- The text of a well-formed query is split into its tokens. -/
theorem Query.lexOn_text {d : Dialect} {q : Query} (h : q.WellFormed d) :
    Token.lexOn q.text = q.tokens := by
  have hs := ended_pieces h [] (by rintro c ⟨⟩) trivial
  rw [List.append_nil] at hs
  rw [text, Token.lexOn, String.toList_ofList, lexOnChars_charsOf hs, tokens]

end TableTalk.Sql
