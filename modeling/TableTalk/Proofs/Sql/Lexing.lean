import TableTalk.Sql.Printer
import Mathlib.Data.List.TakeWhile
import Mathlib.Tactic.SplitIfs

/-!
# Pieces are read back as they were written

A token behind which stands a character that cannot belong to it (`Token.EndsBefore`) is the first
one of the text that it starts (`lexChars_chars`), whatever is quoted in it: a quote inside is
doubled, and only one that stands alone closes. So pieces whose tokens all end in front of what
follows them (`Separate`) are read as their tokens (`lexChars_charsOf`). A text ends at U+0000; a
token with one in it is never closed, becomes `bad` and is the last one (`Token.seen`).
-/

namespace TableTalk.Sql

namespace Token

section Rest

theorem suffix_closing? (q : Char) : ∀ {cs s rest : List Char},
    closing? q cs = some (s, rest) → rest <:+ cs
  | [], s, rest, h => by simp [closing?] at h
  | [c], s, rest, h => by
    simp only [closing?] at h
    split_ifs at h
    simp only [Option.some.injEq, Prod.mk.injEq] at h
    simp [← h.2]
  | c :: d :: cs, s, rest, h => by
    simp only [closing?] at h
    split_ifs at h
    · obtain ⟨⟨s', r⟩, hs, he⟩ := Option.map_eq_some_iff.1 h
      simp only [Prod.mk.injEq] at he
      exact he.2 ▸ (suffix_closing? q hs).trans ⟨[c, d], rfl⟩
    · simp only [Option.some.injEq, Prod.mk.injEq] at h
      exact h.2 ▸ List.suffix_cons c (d :: cs)
    · obtain ⟨⟨s', r⟩, hs, he⟩ := Option.map_eq_some_iff.1 h
      simp only [Prod.mk.injEq] at he
      exact he.2 ▸ (suffix_closing? q hs).trans (List.suffix_cons c (d :: cs))

theorem suffix_quoted (q : Char) (make : String → Token) (cs : List Char) :
    (quoted q make cs).2 <:+ cs := by
  unfold quoted
  split
  · rename_i h
    exact suffix_closing? q h
  · exact List.nil_suffix

/-- A numeral that starts with a digit takes that digit at least. -/
theorem suffix_numeral_cons {c : Char} (h : c.isDigit) (cs : List Char) :
    (numeral (c :: cs)).2 <:+ cs := by
  have hd := List.dropWhile_suffix (l := cs) Char.isDigit
  unfold numeral
  rw [List.dropWhile_cons_of_pos h]
  split
  · rename_i rest hr
    rw [hr] at hd
    exact ((List.dropWhile_suffix Char.isDigit).trans (List.suffix_cons '.' rest)).trans hd
  · exact hd

theorem suffix_behindLine (cs : List Char) : behindLine cs <:+ cs :=
  (List.drop_suffix 1 _).trans (List.dropWhile_suffix _)

theorem suffix_behindBlock (cs : List Char) : behindBlock cs <:+ cs := by
  induction cs using behindBlock.induct with
  | case1 => exact List.nil_suffix
  | case2 rest => exact ⟨['*', '/'], rfl⟩
  | case3 c rest h ih =>
    rw [behindBlock.eq_3 c rest h]
    exact ih.trans (List.suffix_cons c rest)

/-- What follows a token is an end of what it stood in front of. -/
theorem suffix_next (c : Char) (cs : List Char) : (next c cs).2 <:+ cs := by
  unfold next
  split_ifs
  · exact List.suffix_rfl
  split
  case h_22 =>
    split_ifs with hd
    · exact suffix_numeral_cons hd _
    · exact List.dropWhile_suffix _
    · exact List.suffix_rfl
  case h_1 => exact (suffix_behindLine _).trans (List.suffix_cons _ _)
  case h_2 => exact ⟨['>', '>'], rfl⟩
  case h_4 => exact (suffix_behindBlock _).trans (List.suffix_cons _ _)
  case h_20 => exact suffix_quoted _ _ _
  case h_21 => exact suffix_quoted _ _ _
  all_goals first
    | exact List.suffix_rfl
    | exact List.suffix_cons _ _

theorem length_next (c : Char) (cs : List Char) : (next c cs).2.length ≤ cs.length :=
  (suffix_next c cs).length_le

end Rest

/-- The tokens of characters. -/
def lexChars (cs : List Char) : List Token := (scan cs).map Lexeme.token

theorem lex_ofList (cs : List Char) : lex (String.ofList cs) = lexChars cs := by
  simp [lex, lexChars]

theorem lexemes_of_le : ∀ (fuel : Nat) (cs : List Char), cs.length ≤ fuel →
    lexemes fuel cs = scan cs
  | 0, [], _ => rfl
  | 0, _ :: _, h => by simp at h
  | _ + 1, [], _ => rfl
  | fuel + 1, c :: cs, h => by
    simp only [List.length_cons, Nat.add_le_add_iff_right] at h
    have hn := length_next c cs
    have hfuel := lexemes_of_le fuel (next c cs).2 (by omega)
    have hself := lexemes_of_le cs.length (next c cs).2 hn
    simp only [scan, List.length_cons, lexemes]
    split_ifs
    · rfl
    split
    · rename_i t rest he
      rw [he] at hfuel hself
      rw [hfuel, hself]
    · rename_i rest he
      rw [he] at hfuel hself
      rw [hfuel, hself]
  termination_by _ cs => cs.length

theorem lexChars_cons {c : Char} (hc : c ≠ '\x00') (cs : List Char) :
    lexChars (c :: cs) = (next c cs).1.toList ++ lexChars (next c cs).2 := by
  have h := lexemes_of_le _ _ (length_next c cs)
  unfold lexChars
  rw [← h]
  simp only [scan, List.length_cons, lexemes, if_neg hc]
  rcases next c cs with ⟨_ | t, rest⟩ <;> rfl

theorem lexChars_of_next {c : Char} {cs rest : List Char} {t : Token} (hc : c ≠ '\x00')
    (h : next c cs = (some t, rest)) : lexChars (c :: cs) = t :: lexChars rest := by
  rw [lexChars_cons hc, h]
  rfl

section Quotes

/-- A text between quotes is closed by the first quote that is not doubled, unless U+0000 is in
front of it. -/
theorem closing?_double {q : Char} (hq : q ≠ '\x00') {cs : List Char}
    (hcs : ∀ c ∈ cs.head?, c ≠ q) : ∀ s : List Char,
      closing? q (double q s ++ q :: cs) = if '\x00' ∈ s then none else some (s, cs)
  | [] => by
    rcases cs with _ | ⟨d, cs⟩
    · simp [double, closing?]
    · have hd : d ≠ q := hcs d rfl
      simp [double, closing?, hd]
  | c :: s => by
    have ih := closing?_double hq hcs s
    obtain ⟨d, ds, hd⟩ : ∃ d ds, double q s ++ q :: cs = d :: ds :=
      List.exists_cons_of_ne_nil (by simp)
    by_cases hc : c = q
    · subst hc
      simp only [double, if_true, List.cons_append, closing?, ih, List.mem_cons, hq.symm, false_or]
      split_ifs <;> rfl
    · simp only [double, if_neg hc, List.cons_append, hd, closing?]
      rw [← hd, ih]
      by_cases h0 : c = '\x00'
      · simp [h0]
      · simp only [if_neg h0, List.mem_cons, Ne.symm h0, false_or]
        split_ifs <;> simp

theorem mem_double {q a : Char} : ∀ {s : List Char}, a ∈ s → a ∈ double q s
  | c :: s, h => by
    unfold double
    rcases List.mem_cons.1 h with rfl | h
    · split_ifs with hq <;> simp [hq]
    · have := mem_double (q := q) h
      split_ifs <;> simp [this]

/-- What is in front of the first element that a test refuses. -/
theorem takeWhile_append_of_mem {p : Char → Bool} {a : Char} (ha : p a = false) :
    ∀ {xs : List Char} (ys : List Char), a ∈ xs → (xs ++ ys).takeWhile p = xs.takeWhile p
  | x :: xs, ys, h => by
    rcases hx : p x
    · simp [hx]
    · rcases List.mem_cons.1 h with rfl | h
      · rw [ha] at hx
        cases hx
      · simp [hx, takeWhile_append_of_mem ha ys h]

theorem quoted_double {q : Char} (hq : q ≠ '\x00') (make : String → Token) (s : String)
    {cs : List Char} (hcs : ∀ c ∈ cs.head?, c ≠ q) :
    quoted q make (double q s.toList ++ q :: cs) =
      if '\x00' ∈ s.toList then
        (bad (String.ofList ((enclose q s).takeWhile (· != '\x00'))), [])
      else (make s, cs) := by
  unfold quoted
  rw [closing?_double hq hcs]
  split_ifs with h
  · have hm : '\x00' ∈ double q s.toList := mem_double h
    simp only [enclose, List.cons_append, takeWhile_append_of_mem (p := (· != '\x00')) (by simp) _ hm]
    rw [List.takeWhile_cons_of_pos (by simpa using hq),
      takeWhile_append_of_mem (p := (· != '\x00')) (by simp) _ hm]
  · simp

end Quotes

/-- Whether characters are a word that spells no keyword. -/
def isWord : List Char → Bool
  | [] => false
  | c :: cs =>
    wordStart c && cs.all wordChar && (Keyword.ofWord? (String.ofList (c :: cs))).isNone

/-- Digits, and perhaps a point with digits behind it. -/
def IsNumeral (cs : List Char) : Prop :=
  ∃ whole rest, cs = whole ++ rest ∧ whole ≠ [] ∧ (∀ c ∈ whole, c.isDigit = true) ∧
    (rest = [] ∨ ∃ fraction, rest = '.' :: fraction ∧ ∀ c ∈ fraction, c.isDigit = true)

/-- Tokens that are spelled as what they are. What is quoted may be anything. -/
def Proper : Token → Prop
  | word s => isWord s.toList
  | number s => IsNumeral s.toList
  | bad _ => False
  | _ => True

/-- Whether a character behind a token is no part of it. -/
def EndsBefore (c : Char) : Token → Prop
  | keyword _ => wordChar c = false
  | word _ => wordChar c = false
  | name _ => c ≠ '"'
  | text _ => c ≠ '\''
  | number _ => c.isDigit = false ∧ c ≠ '.'
  | mark .minus => c ≠ '-' ∧ c ≠ '>'
  | mark .slash => c ≠ '*'
  | mark .eq => c ≠ '='
  | mark .lt => c ≠ '=' ∧ c ≠ '>'
  | mark .gt => c ≠ '='
  | mark _ => True
  | bad _ => False

/-- Whether U+0000 is in what a token quotes. -/
def broken : Token → Bool
  | name s => s.toList.contains '\x00'
  | text s => s.toList.contains '\x00'
  | _ => false

/-- A token and what stands behind it, as they are read: a broken one is bad and the last. -/
def seen (t : Token) (behind : List Token) : List Token :=
  if t.broken then [bad (String.ofList (t.chars.takeWhile (· != '\x00')))] else t :: behind

section Spelling

/-- A run of characters ends where one stands that is no part of it. -/
theorem span_append {p : Char → Bool} {w cs : List Char} (hw : ∀ c ∈ w, p c = true)
    (hcs : ∀ c ∈ cs.head?, p c = false) :
    (w ++ cs).takeWhile p = w ∧ (w ++ cs).dropWhile p = cs := by
  rw [List.takeWhile_append_of_pos hw, List.dropWhile_append_of_pos hw]
  rcases cs with _ | ⟨d, cs⟩
  · simp
  · simp [hcs d rfl]

theorem exists_of_isWord : ∀ {w : List Char}, isWord w = true →
    ∃ c cs, w = c :: cs ∧ wordStart c = true
  | c :: cs, h => by
    simp only [isWord, Bool.and_eq_true] at h
    exact ⟨c, cs, rfl, h.1.1⟩

theorem le_toNat_of_isAlpha {c : Char} (h : c.isAlpha = true) : 65 ≤ c.val.toNat := by
  rcases Bool.or_eq_true_iff.1 h with h | h
  · exact UInt32.le_iff_toNat_le.1 (of_decide_eq_true h).1
  · have ha : 97 ≤ c.val.toNat :=
      UInt32.le_iff_toNat_le.1 (of_decide_eq_true (Bool.and_eq_true_iff.1 h).1)
    omega

theorem not_isDigit_of_wordStart {c : Char} (h : wordStart c = true) : c.isDigit = false := by
  rcases hd : c.isDigit
  · rfl
  · have hu : c.val.toNat ≤ 57 := (Char.isDigit_iff_toNat.1 hd).2
    simp only [wordStart, Bool.or_eq_true, beq_iff_eq, decide_eq_true_eq, Char.toNat] at h
    rcases h with (h | rfl) | h
    · have := le_toNat_of_isAlpha h
      omega
    · cases hd
    · omega

theorem special_of_wordStart {c : Char} (h : wordStart c = true) :
    blank c = false ∧ c.isDigit = false ∧ c ≠ '\x00' ∧
      c ∉ ['-', '/', '(', ')', ',', '*', ';', '=', '!', '<', '>', ':', '"', '\''] := by
  have hne : ∀ d : Char, wordStart d = false → c ≠ d := fun d hd he => by
    rw [he, hd] at h
    cases h
  refine ⟨?_, not_isDigit_of_wordStart h, hne _ (by decide), ?_⟩
  · simp only [blank, Bool.or_eq_false_iff, beq_eq_false_iff_ne]
    refine ⟨⟨⟨⟨?_, ?_⟩, ?_⟩, ?_⟩, ?_⟩ <;> exact hne _ (by decide)
  · simp only [List.mem_cons, List.not_mem_nil, or_false, not_or]
    refine ⟨?_, ?_, ?_, ?_, ?_, ?_, ?_, ?_, ?_, ?_, ?_, ?_, ?_, ?_⟩ <;> exact hne _ (by decide)

theorem next_word {c : Char} (h : wordStart c = true) (cs : List Char) :
    next c cs = (some (ofWord (String.ofList (c :: cs.takeWhile wordChar))),
      cs.dropWhile wordChar) := by
  obtain ⟨hb, hd, -, hs⟩ := special_of_wordStart h
  unfold next
  rw [if_neg (by simp [hb])]
  split
  case h_22 => rw [if_neg (by simp [hd]), if_pos h]
  all_goals exact absurd (by decide) hs

theorem next_digit {c : Char} (h : c.isDigit = true) (cs : List Char) :
    next c cs = (some (numeral (c :: cs)).1, (numeral (c :: cs)).2) := by
  have hne : ∀ d : Char, d.isDigit = false → c ≠ d := fun d hd he => by
    rw [he, hd] at h
    cases h
  unfold next
  rw [if_neg]
  · split
    case h_22 => rw [if_pos h]
    all_goals exact absurd rfl (hne _ (by decide))
  · simp only [blank, Bool.or_eq_true, beq_iff_eq, not_or]
    refine ⟨⟨⟨⟨?_, ?_⟩, ?_⟩, ?_⟩, ?_⟩ <;> exact hne _ (by decide)

/-- Characters that start with a token, outside quotations, and what stands behind it. -/
def Starts (xs : List Char) (t : Token) (cs : List Char) : Prop :=
  ∃ c w, xs = c :: w ∧ c ∉ ['\x00', '"', '\''] ∧ next c w = (some t, cs)

theorem Starts.lexChars {xs cs : List Char} {t : Token} (h : Starts xs t cs) :
    lexChars xs = t :: lexChars cs := by
  obtain ⟨c, w, rfl, hc, hn⟩ := h
  exact lexChars_of_next (fun h0 => hc (h0 ▸ List.mem_cons_self)) hn

theorem starts_of_wordStart {c : Char} (h : wordStart c = true) {w cs : List Char} {t : Token}
    (hn : next c w = (some t, cs)) : Starts (c :: w) t cs := by
  obtain ⟨-, -, h0, hs⟩ := special_of_wordStart h
  simp only [List.mem_cons, List.not_mem_nil, or_false, not_or] at hs
  exact ⟨c, w, rfl, by simp [h0, hs], hn⟩

theorem starts_word {w cs : List Char} (hw : isWord w = true)
    (hcs : ∀ c ∈ cs.head?, wordChar c = false) :
    Starts (w ++ cs) (word (String.ofList w)) cs := by
  rcases w with _ | ⟨c, w⟩
  · cases hw
  simp only [isWord, Bool.and_eq_true, List.all_eq_true, Option.isNone_iff_eq_none] at hw
  obtain ⟨⟨hc, hall⟩, hk⟩ := hw
  obtain ⟨htake, hdrop⟩ := span_append hall hcs
  have hn := next_word hc (w ++ cs)
  rw [htake, hdrop, ofWord, hk] at hn
  exact starts_of_wordStart hc hn

theorem starts_keyword (k : Keyword) {cs : List Char}
    (hcs : ∀ c ∈ cs.head?, wordChar c = false) :
    Starts (k.name.toList ++ cs) (keyword k) cs := by
  obtain ⟨c, w, hkw, hc, hall, hk⟩ : ∃ c w, k.name.toList = c :: w ∧ wordStart c = true ∧
      (∀ d ∈ w, wordChar d = true) ∧ ofWord (String.ofList (c :: w)) = keyword k := by
    cases k <;> exact ⟨_, _, rfl, by decide, List.all_eq_true.1 (by decide), by decide⟩
  obtain ⟨htake, hdrop⟩ := span_append hall hcs
  have hn := next_word hc (w ++ cs)
  rw [htake, hdrop, hk] at hn
  rw [hkw]
  exact starts_of_wordStart hc hn

theorem starts_number {n cs : List Char} (hn : IsNumeral n)
    (hcs : ∀ c ∈ cs.head?, c.isDigit = false ∧ c ≠ '.') :
    Starts (n ++ cs) (number (String.ofList n)) cs := by
  obtain ⟨whole, rest, rfl, hne, hwhole, hrest⟩ := hn
  have hdigit : ∀ c ∈ cs.head?, c.isDigit = false := fun c hc => (hcs c hc).1
  obtain ⟨c, w, rfl⟩ := List.exists_cons_of_ne_nil hne
  have hnum : numeral (c :: w ++ rest ++ cs) =
      (number (String.ofList (c :: w ++ rest)), cs) := by
    unfold numeral
    rcases hrest with rfl | ⟨fraction, rfl, hfraction⟩
    · rw [List.append_nil]
      obtain ⟨htake, hdrop⟩ := span_append hwhole hdigit
      rw [htake, hdrop]
      split
      · exact absurd rfl (hcs _ rfl).2
      · rfl
    · obtain ⟨htake, hdrop⟩ := span_append hwhole (show ∀ c ∈ ('.' :: fraction ++ cs).head?,
        c.isDigit = false by simp)
      obtain ⟨htake', hdrop'⟩ := span_append hfraction hdigit
      rw [List.append_assoc, htake, hdrop]
      simp only [List.cons_append, htake', hdrop']
  have hc := hwhole c List.mem_cons_self
  have h0 : c ∉ ['\x00', '"', '\''] := by
    simp only [List.mem_cons, List.not_mem_nil, or_false]
    rintro (rfl | rfl | rfl) <;> cases hc
  refine ⟨c, w ++ rest ++ cs, rfl, h0, (next_digit hc _).trans ?_⟩
  show (some (numeral (c :: w ++ rest ++ cs)).1, (numeral (c :: w ++ rest ++ cs)).2) = _
  rw [hnum]

theorem lexChars_gap (g : Gap) (cs : List Char) : lexChars (g.chars ++ cs) = lexChars cs := by
  have hline : ∀ cs, lexChars ('\n' :: cs) = lexChars cs := fun cs => lexChars_cons (by decide) cs
  have hspace : ∀ cs, lexChars (' ' :: cs) = lexChars cs := fun cs => lexChars_cons (by decide) cs
  cases g <;> simp only [Gap.chars, List.cons_append, List.nil_append, hline, hspace]

theorem starts_mark (m : Mark) {cs : List Char} (hcs : ∀ c ∈ cs.head?, EndsBefore c (mark m)) :
    Starts (m.chars ++ cs) (mark m) cs := by
  rcases cs with _ | ⟨d, cs⟩
  · cases m <;> exact ⟨_, _, rfl, by decide, rfl⟩
  · have hd := hcs d rfl
    cases m <;> refine ⟨_, _, rfl, by decide, ?_⟩
    all_goals first
      | rfl
      | (simp only [EndsBefore] at hd; unfold next; simp [blank, hd])

/-- Whether a token stands between quotes. -/
def isQuoted : Token → Bool
  | name _ => true
  | text _ => true
  | _ => false

theorem starts_chars {t : Token} (ht : t.Proper) (hq : t.isQuoted = false) {cs : List Char}
    (hcs : ∀ c ∈ cs.head?, t.EndsBefore c) : Starts (t.chars ++ cs) t cs := by
  cases t with
  | keyword k => exact starts_keyword k hcs
  | word s =>
    have h := starts_word ht hcs
    rw [String.ofList_toList] at h
    exact h
  | number s =>
    have h := starts_number ht hcs
    rw [String.ofList_toList] at h
    exact h
  | mark m => exact starts_mark m hcs
  | name s => cases hq
  | text s => cases hq
  | bad s => exact ht.elim

theorem lexChars_name (s : String) {cs : List Char} (hcs : ∀ c ∈ cs.head?, c ≠ '"') :
    lexChars ((name s).chars ++ cs) = (name s).seen (lexChars cs) := by
  have hq := quoted_double (q := '"') (by decide) name s hcs
  have hn : next '"' (double '"' s.toList ++ '"' :: cs) =
      (some (quoted '"' name (double '"' s.toList ++ '"' :: cs)).1,
        (quoted '"' name (double '"' s.toList ++ '"' :: cs)).2) := rfl
  rw [hq] at hn
  have hcons := lexChars_of_next (by decide) hn
  simp only [chars, seen, broken, List.contains_iff_mem, enclose, List.cons_append,
    List.append_assoc, List.nil_append] at hcons ⊢
  rw [hcons]
  split_ifs <;> rfl

theorem lexChars_text (s : String) {cs : List Char} (hcs : ∀ c ∈ cs.head?, c ≠ '\'') :
    lexChars ((text s).chars ++ cs) = (text s).seen (lexChars cs) := by
  have hq := quoted_double (q := '\'') (by decide) text s hcs
  have hn : next '\'' (double '\'' s.toList ++ '\'' :: cs) =
      (some (quoted '\'' text (double '\'' s.toList ++ '\'' :: cs)).1,
        (quoted '\'' text (double '\'' s.toList ++ '\'' :: cs)).2) := rfl
  rw [hq] at hn
  have hcons := lexChars_of_next (by decide) hn
  simp only [chars, seen, broken, List.contains_iff_mem, enclose, List.cons_append,
    List.append_assoc, List.nil_append] at hcons ⊢
  rw [hcons]
  split_ifs <;> rfl

/-- The first token of a text that starts with it. -/
theorem lexChars_chars {t : Token} (ht : t.Proper) {cs : List Char}
    (hcs : ∀ c ∈ cs.head?, t.EndsBefore c) :
    lexChars (t.chars ++ cs) = t.seen (lexChars cs) := by
  cases t with
  | name s => exact lexChars_name s hcs
  | text s => exact lexChars_text s hcs
  | bad s => exact ht.elim
  | _ => exact (starts_chars ht rfl hcs).lexChars

end Spelling

/-- Tokens that are not broken are seen as they are. -/
theorem foldr_seen {ts : List Token} (h : ∀ t ∈ ts, t.broken = false) :
    ts.foldr seen [] = ts := by
  induction ts with
  | nil => rfl
  | cons t ts ih =>
    rw [List.foldr_cons, ih fun u hu => h u (List.mem_cons_of_mem _ hu), seen,
      h t List.mem_cons_self, if_neg (by simp)]

/-- A broken token leaves a bad one. -/
theorem exists_bad_of_broken {ts : List Token} (h : ∃ t ∈ ts, t.broken = true) :
    ∃ s, bad s ∈ ts.foldr seen [] := by
  induction ts with
  | nil => simp at h
  | cons t ts ih =>
    rw [List.foldr_cons, seen]
    split_ifs with ht
    · exact ⟨_, List.mem_singleton_self _⟩
    · obtain ⟨u, hu, hb⟩ := h
      rcases List.mem_cons.1 hu with rfl | hu
      · exact absurd hb ht
      · obtain ⟨s, hs⟩ := ih ⟨u, hu, hb⟩
        exact ⟨s, List.mem_cons_of_mem _ hs⟩

end Token

/-- Pieces whose tokens are proper and end in front of what follows them. -/
def Separate : List Piece → Prop
  | [] => True
  | .gap _ :: ps => Separate ps
  | .token t :: ps =>
    t.Proper ∧ (∀ c ∈ (charsOf ps).head?, t.EndsBefore c) ∧ Separate ps

theorem lexChars_charsOf : ∀ {ps : List Piece}, Separate ps →
    Token.lexChars (charsOf ps) = (tokensOf ps).foldr Token.seen []
  | [], _ => rfl
  | .gap g :: ps, h => by
    show Token.lexChars (g.chars ++ charsOf ps) = (tokensOf ps).foldr Token.seen []
    have hps : Separate ps := h
    rw [Token.lexChars_gap, lexChars_charsOf hps]
  | .token t :: ps, ⟨ht, hend, h⟩ => by
    show Token.lexChars (t.chars ++ charsOf ps) = t.seen ((tokensOf ps).foldr Token.seen [])
    rw [Token.lexChars_chars ht hend, lexChars_charsOf h]

end TableTalk.Sql
