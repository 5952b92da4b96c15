import TableTalk.Proofs.Json.Grammar

/-!
# Blanks around a value

Blanks in front of a text and behind it say nothing of what it spells (`Json.ignoresBlanks_spells`),
so texts that differ in such blanks only spell the same (`Json.Respaced`).
-/

namespace TableTalk.Json

/-- What stands behind the opening quote of a string. -/
inductive Quoted : List Char → Prop
  | close : Quoted ['"']
  | plain {c : Char} {cs : List Char} (hquote : c ≠ '"') (hslash : c ≠ '\\') (h : Quoted cs) :
    Quoted (c :: cs)
  | escape {e : Char} {cs : List Char} (h : Quoted cs) : Quoted ('\\' :: e :: cs)

theorem not_hex {e : Char} (h : hexValue? e = none) {u : Nat} {a b c d : Char}
    (hu : unit? a b c d = some u) : a ≠ e ∧ b ≠ e ∧ c ≠ e ∧ d ≠ e := by
  obtain ⟨a', ha, hu⟩ := Option.bind_eq_some_iff.1 hu
  obtain ⟨b', hb, hu⟩ := Option.bind_eq_some_iff.1 hu
  obtain ⟨c', hc, hu⟩ := Option.bind_eq_some_iff.1 hu
  obtain ⟨d', hd, -⟩ := Option.bind_eq_some_iff.1 hu
  refine ⟨?_, ?_, ?_, ?_⟩ <;>
    rintro rfl
  · rw [h] at ha
    cases ha
  · rw [h] at hb
    cases hb
  · rw [h] at hc
    cases hc
  · rw [h] at hd
    cases hd

theorem Quoted.unit {u : Nat} {a b c d : Char} {cs : List Char} (hu : unit? a b c d = some u)
    (h : Quoted cs) : Quoted ('\\' :: 'u' :: a :: b :: c :: d :: cs) := by
  obtain ⟨ha, hb, hc, hd⟩ := not_hex (e := '"') rfl hu
  obtain ⟨ha', hb', hc', hd'⟩ := not_hex (e := '\\') rfl hu
  exact .escape (.plain ha ha' (.plain hb hb' (.plain hc hc' (.plain hd hd' h))))

theorem quoted_of_stringBody? {cs s : List Char} (h : stringBody? cs = some (s, [])) :
    Quoted cs := by
  fun_induction stringBody? cs generalizing s with
  | case1 => cases h
  | case2 cs =>
    cases h
    exact .close
  | case3 a b c d cs ihPair ih =>
    obtain ⟨u, hu, h⟩ := Option.bind_eq_some_iff.1 h
    split at h
    · split at h
      · obtain ⟨low, hlow, h⟩ := Option.bind_eq_some_iff.1 h
        obtain ⟨ch, -, h⟩ := Option.bind_eq_some_iff.1 h
        obtain ⟨⟨t, rest⟩, ht, h⟩ := Option.bind_eq_some_iff.1 h
        cases h
        exact .unit hu (.unit hlow (ihPair ht))
      · cases h
    · split at h
      · cases h
      · obtain ⟨⟨t, rest⟩, ht, h⟩ := Option.bind_eq_some_iff.1 h
        cases h
        exact .unit hu (ih ht)
  | case4 e cs _ ih =>
    obtain ⟨ch, -, h⟩ := Option.bind_eq_some_iff.1 h
    obtain ⟨⟨t, rest⟩, ht, h⟩ := Option.bind_eq_some_iff.1 h
    cases h
    exact .escape (ih ht)
  | case5 => cases h
  | case6 c cs hquote _ _ hplain ih =>
    obtain ⟨⟨t, rest⟩, ht, h⟩ := Option.bind_eq_some_iff.1 h
    cases h
    have hslash : c ≠ '\\' := by
      rintro rfl
      exact hplain rfl
    exact .plain (by rintro rfl; exact hquote rfl) hslash (ih ht)

theorem Quoted.getLast? {cs : List Char} (h : Quoted cs) : cs.getLast? = some '"' := by
  induction h with
  | close => rfl
  | plain _ _ _ ih => rw [List.getLast?_cons, ih, Option.getD_some]
  | escape _ ih => rw [List.getLast?_cons, List.getLast?_cons, ih, Option.getD_some, Option.getD_some]

section Spacing

variable {d : Nat} {c : Char} {cs : List Char} {v : Json}

theorem not_blank_of_numeric (h : Numeric c) : blank c = false := by
  simp only [blank, Bool.or_eq_false_iff, beq_eq_false_iff_ne]
  refine ⟨⟨⟨?_, ?_⟩, ?_⟩, ?_⟩ <;> rintro rfl <;> rcases h with h | h <;> revert h <;> decide

theorem Spells.not_blanks (h : Spells d cs v) : ¬Blanks cs := by
  intro hblanks
  obtain ⟨rest, hread, -⟩ := h.reads [] cs.length nofun le_rfl
  rw [List.append_nil, ← value?_skip, skip_eq_nil.2 hblanks] at hread
  generalize cs.length = fuel at hread
  cases fuel <;> cases hread

/-- A value is the same without the blank in front of it. -/
theorem spells_cons (hc : blank c = true) : Spells d (c :: cs) v ↔ Spells d cs v := by
  refine ⟨fun h => ?_, .before hc⟩
  generalize hcs : c :: cs = ds at h
  induction h generalizing cs with
  | null | true | false | str _ | emptyArr _ | arr _ _ | emptyObj _ | obj _ _ _ =>
    obtain ⟨rfl, -⟩ := List.cons.inj hcs
    cases hc
  | number h =>
    obtain ⟨x, hx, -, hchars, -⟩ := number?_cut h
    rw [List.append_nil] at hx
    subst hx hcs
    rw [not_blank_of_numeric (hchars c List.mem_cons_self)] at hc
    cases hc
  | before _ h _ =>
    obtain ⟨-, rfl⟩ := List.cons.inj hcs
    exact h
  | @after d e ds v he h ih =>
    cases ds with
    | nil => exact absurd nofun h.not_blanks
    | cons b ds =>
      obtain ⟨rfl, rfl⟩ := List.cons.inj hcs
      exact .after he (ih rfl)

/-- A value is the same without the blank behind it. -/
theorem spells_concat (hc : blank c = true) : Spells d (cs ++ [c]) v ↔ Spells d cs v := by
  refine ⟨fun h => ?_, .after hc⟩
  generalize hcs : cs ++ [c] = ds at h
  have hlast : ∀ (es : List Char) {e : Char}, cs ++ [c] = es ++ [e] → blank e = true := by
    intro es e heq
    obtain ⟨-, he⟩ := List.append_inj' heq rfl
    exact (List.cons.inj he).1 ▸ hc
  induction h generalizing cs with
  | null => exact absurd (hlast ['n', 'u', 'l'] hcs) (by decide)
  | true => exact absurd (hlast ['t', 'r', 'u'] hcs) (by decide)
  | false => exact absurd (hlast ['f', 'a', 'l', 's'] hcs) (by decide)
  | emptyArr _ | arr _ _ | emptyObj _ | obj _ _ _ =>
    rw [← List.cons_append] at hcs
    exact absurd (hlast _ hcs) (by decide)
  | str h =>
    obtain ⟨es, rfl⟩ := List.getLast?_eq_some_iff.1 (quoted_of_stringBody? h).getLast?
    rw [← List.cons_append] at hcs
    exact absurd (hlast _ hcs) (by decide)
  | number h =>
    obtain ⟨x, hx, -, hchars, -⟩ := number?_cut h
    rw [List.append_nil] at hx
    subst hx hcs
    rw [not_blank_of_numeric (hchars c (by simp))] at hc
    cases hc
  | @before d e ds v he h ih =>
    cases cs with
    | nil =>
      obtain ⟨-, rfl⟩ := List.cons.inj hcs
      exact absurd nofun h.not_blanks
    | cons b cs =>
      obtain ⟨rfl, hds⟩ := List.cons.inj hcs
      refine .before he (ih hds fun es e heq => hlast (b :: es) (congrArg (b :: ·) heq))
  | after _ h _ =>
    obtain ⟨rfl, -⟩ := List.append_inj' hcs rfl
    exact h

end Spacing

/-- A text without the blanks at its ends. -/
def trim (cs : List Char) : List Char := (skip (skip cs).reverse).reverse

/-- Texts that differ in the blanks at their ends only. -/
def Respaced (p q : List Char) : Prop := trim p = trim q

/-- A property of texts that blanks at their ends do not change. -/
structure IgnoresBlanks (P : List Char → Prop) : Prop where
  cons : ∀ {c : Char} {cs : List Char}, blank c = true → (P (c :: cs) ↔ P cs)
  concat : ∀ {c : Char} {cs : List Char}, blank c = true → (P (cs ++ [c]) ↔ P cs)

namespace IgnoresBlanks

variable {P : List Char → Prop} {p q : List Char}

theorem befores (h : IgnoresBlanks P) {bs : List Char} (hb : Blanks bs) : P (bs ++ p) ↔ P p := by
  induction bs with
  | nil => exact Iff.rfl
  | cons b bs ih =>
    obtain ⟨hb, hbs⟩ := List.forall_mem_cons.1 hb
    exact (h.cons hb).trans (ih hbs)

theorem afters (h : IgnoresBlanks P) {bs : List Char} (hb : Blanks bs) : P (p ++ bs) ↔ P p := by
  induction bs generalizing p with
  | nil => rw [List.append_nil]
  | cons b bs ih =>
    obtain ⟨hb, hbs⟩ := List.forall_mem_cons.1 hb
    have hmore := ih (p := p ++ [b]) hbs
    rw [List.append_assoc] at hmore
    exact hmore.trans (h.concat hb)

theorem trim (h : IgnoresBlanks P) : P (trim p) ↔ P p := by
  obtain ⟨bs, hbs, hp⟩ := exists_blanks p
  obtain ⟨bs', hbs', hskip⟩ := exists_blanks (skip p).reverse
  have hcore : skip p = Json.trim p ++ bs'.reverse := by
    rw [← List.reverse_reverse (skip p), hskip, List.reverse_append]
    rfl
  have hbehind : Blanks bs'.reverse := fun c hc => hbs' c (List.mem_reverse.1 hc)
  rw [hp, h.befores hbs, ← hp, hcore, h.afters hbehind]

theorem respaced (h : IgnoresBlanks P) (hpq : Respaced p q) : P p ↔ P q := by
  rw [← h.trim, hpq, h.trim]

end IgnoresBlanks

theorem ignoresBlanks_spells (d : Nat) (v : Json) : IgnoresBlanks fun cs => Spells d cs v :=
  ⟨spells_cons, spells_concat⟩

end TableTalk.Json
