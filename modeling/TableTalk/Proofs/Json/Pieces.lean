import Mathlib.Data.List.Forall2
import TableTalk.Proofs.Json.Spacing

/-!
# The pieces of an object

A piece of a text is whole if its strings and brackets end in it and no comma stands outside of them
(`Json.Whole`). What spells a value is whole (`Json.Spells.whole`), and a text is cut into whole
pieces in one way (`Json.commas_inj`). So whatever pieces an object or an array is written as, its
members or items are the ones that these pieces spell (`Json.spells_objectText`,
`Json.spells_arrayText`), and every object and array is written so (`Json.exists_objectText`,
`Json.exists_arrayText`).
-/

namespace TableTalk.Json

/-- Where a text is read: outside of strings, inside of one, or in one behind a backslash. -/
inductive Place where
  | outside
  | inside
  | escaped
deriving DecidableEq

/-- The depth of the open brackets and the place behind a character; nothing at a comma outside of
all brackets and at a bracket that closes none. -/
def track : Nat × Place → Char → Option (Nat × Place)
  | (n, .outside), c =>
    if c = '"' then some (n, .inside)
    else if c = '[' ∨ c = '{' then some (n + 1, .outside)
    else if c = ']' ∨ c = '}' then if n = 0 then none else some (n - 1, .outside)
    else if c = ',' ∧ n = 0 then none
    else some (n, .outside)
  | (n, .inside), c =>
    some (n, if c = '"' then .outside else if c = '\\' then .escaped else .inside)
  | (n, .escaped), _ => some (n, .inside)

def trackAll (s : Nat × Place) (cs : List Char) : Option (Nat × Place) := cs.foldlM track s

/-- A piece of a text in which strings and brackets end, without a comma outside of them. -/
def Whole (p : List Char) : Prop := trackAll (0, .outside) p = some (0, .outside)

instance (p : List Char) : Decidable (Whole p) :=
  inferInstanceAs (Decidable (trackAll (0, .outside) p = some (0, .outside)))

/-- A text that starts with what no whole piece goes on with. -/
def Ends (tail : List Char) : Prop := ∃ c ∈ tail.head?, c = ',' ∨ c = ']' ∨ c = '}'

section Tracking

variable {s t : Nat × Place} {cs ds p q : List Char} {c : Char}

theorem trackAll_cons (s : Nat × Place) (c : Char) (cs : List Char) :
    trackAll s (c :: cs) = (track s c).bind fun t => trackAll t cs := List.foldlM_cons

theorem trackAll_append (h : trackAll s cs = some t) (ds : List Char) :
    trackAll s (cs ++ ds) = trackAll t ds := by
  rw [trackAll, List.foldlM_append, ← trackAll, h]
  rfl

theorem track_deeper (k : Nat) (h : track s c = some t) :
    track (s.1 + k, s.2) c = some (t.1 + k, t.2) := by
  obtain ⟨n, place⟩ := s
  cases place with
  | inside | escaped =>
    cases h
    rfl
  | outside =>
    simp only [track] at h ⊢
    grind

theorem trackAll_deeper (k : Nat) (h : trackAll s cs = some t) :
    trackAll (s.1 + k, s.2) cs = some (t.1 + k, t.2) := by
  induction cs generalizing s with
  | nil =>
    cases h
    rfl
  | cons c cs ih =>
    rw [trackAll_cons] at h
    obtain ⟨u, hu, h⟩ := Option.bind_eq_some_iff.1 h
    rw [trackAll_cons, track_deeper k hu]
    exact ih h

theorem Whole.deeper (h : Whole p) (n : Nat) :
    trackAll (n, .outside) p = some (n, .outside) := by
  have hdeeper := trackAll_deeper n h
  rwa [Nat.zero_add] at hdeeper

theorem Whole.append (hp : Whole p) (hq : Whole q) : Whole (p ++ q) :=
  (trackAll_append hp q).trans hq

theorem whole_of_plain (h : ∀ c ∈ cs, track (0, .outside) c = some (0, .outside)) : Whole cs := by
  induction cs with
  | nil => rfl
  | cons c cs ih =>
    obtain ⟨hc, hcs⟩ := List.forall_mem_cons.1 h
    rw [Whole, trackAll_cons, hc]
    exact ih hcs

theorem track_blank (n : Nat) (h : blank c = true) :
    track (n, .outside) c = some (n, .outside) := by
  rcases eq_of_blank h with rfl | rfl | rfl | rfl <;> rfl

theorem Blanks.whole (h : Blanks cs) : Whole cs := whole_of_plain fun c hc => track_blank 0 (h c hc)

theorem whole_of_numeric (h : ∀ c ∈ cs, Numeric c) : Whole cs := whole_of_plain fun c hc => by
  have hne : ∀ e ∈ ['"', '[', '{', ']', '}', ','], c ≠ e := by
    rintro e he rfl
    simp only [List.mem_cons, List.not_mem_nil, or_false] at he
    rcases he with rfl | rfl | rfl | rfl | rfl | rfl <;> rcases h _ hc with hc | hc <;>
      revert hc <;> decide
  simp only [List.forall_mem_cons] at hne
  obtain ⟨hquote, hbracket, hbrace, hbracket', hbrace', hcomma, -⟩ := hne
  simp [track, hquote, hbracket, hbrace, hbracket', hbrace', hcomma]

/-- A string ends with its quote. -/
theorem Quoted.trackAll (h : Quoted cs) (n : Nat) :
    trackAll (n, .inside) cs = some (n, .outside) := by
  induction h with
  | close => rfl
  | plain hquote hslash _ ih =>
    rw [trackAll_cons, track, if_neg hquote, if_neg hslash]
    exact ih
  | escape _ ih => exact ih

theorem trackAll_commas {ps : List (List Char)} (n : Nat) (h : ∀ p ∈ ps, Whole p) :
    trackAll (n + 1, .outside) (commas ps) = some (n + 1, .outside) := by
  induction ps with
  | nil => rfl
  | cons p ps ih =>
    obtain ⟨hp, hps⟩ := List.forall_mem_cons.1 h
    cases ps with
    | nil => exact hp.deeper (n + 1)
    | cons q ps =>
      rw [commas, trackAll_append (hp.deeper (n + 1))]
      exact ih hps

end Tracking

theorem Spells.whole {d : Nat} {cs : List Char} {v : Json} (h : Spells d cs v) : Whole cs := by
  induction h with
  | null | true | false => rfl
  | number h =>
    obtain ⟨x, hx, -, hchars, -⟩ := number?_cut h
    rw [List.append_nil] at hx
    subst hx
    exact whole_of_numeric hchars
  | str h => exact (quoted_of_stringBody? h).trackAll 0
  | emptyArr hb | emptyObj hb => exact trackAll_append (hb.whole.deeper 1) _
  | @arr d ps hne h ih =>
    refine trackAll_append (trackAll_commas 0 ?_) _
    intro p hp
    obtain ⟨q, hq, rfl⟩ := List.mem_map.1 hp
    exact ih q hq
  | @obj d ms hne hkeys hvalues ihKeys ihValues =>
    refine trackAll_append (trackAll_commas 0 ?_) _
    intro p hp
    obtain ⟨m, hm, rfl⟩ := List.mem_map.1 hp
    exact (ihKeys m hm).append (ihValues m hm)
  | before hc _ ih => exact Whole.append (p := [_]) (Blanks.whole (by simpa [Blanks] using hc)) ih
  | after hc _ ih => exact ih.append (Blanks.whole (by simpa [Blanks] using hc))

section Cutting

variable {p q x y : List Char}

/-- A whole piece is no shorter part of another. -/
theorem Whole.eq_nil_of_append (hp : Whole p) (hpx : Whole (p ++ x)) {tail : List Char}
    (h : Ends (x ++ tail)) : x = [] := by
  cases x with
  | nil => rfl
  | cons c x =>
    obtain ⟨_, ⟨⟩, hc⟩ := h
    have hnone : track (0, .outside) c = none := by rcases hc with rfl | rfl | rfl <;> rfl
    rw [Whole, trackAll_append hp, trackAll_cons, hnone] at hpx
    cases hpx

/-- A text starts with one whole piece only. -/
theorem whole_cut (hp : Whole p) (hq : Whole q) (hx : Ends x) (hy : Ends y)
    (h : p ++ x = q ++ y) : p = q ∧ x = y := by
  rcases List.append_eq_append_iff.1 h with ⟨z, rfl, rfl⟩ | ⟨z, rfl, rfl⟩
  · obtain rfl := hp.eq_nil_of_append hq hx
    exact ⟨(List.append_nil p).symm, rfl⟩
  · obtain rfl := hq.eq_nil_of_append hp hy
    exact ⟨List.append_nil q, rfl⟩

/-- A text is cut into whole pieces in one way. -/
theorem commas_inj {e : Char} (he : e = ']' ∨ e = '}') : ∀ {ps qs : List (List Char)}, ps ≠ [] →
    qs ≠ [] → (∀ p ∈ ps, Whole p) → (∀ q ∈ qs, Whole q) →
    commas ps ++ e :: x = commas qs ++ e :: y → ps = qs ∧ x = y
  | p :: ps, q :: qs, _, _, hps, hqs, h => by
    obtain ⟨hp, hps⟩ := List.forall_mem_cons.1 hps
    obtain ⟨hq, hqs⟩ := List.forall_mem_cons.1 hqs
    have hcomma : ∀ cs, Ends (',' :: cs) := fun cs => ⟨',', rfl, .inl rfl⟩
    have hclose : ∀ cs, Ends (e :: cs) := fun cs => ⟨e, rfl, .inr he⟩
    have hne : e ≠ ',' := by
      rintro rfl
      simp at he
    cases ps with
    | nil =>
      cases qs with
      | nil =>
        obtain ⟨rfl, heq⟩ := whole_cut hp hq (hclose x) (hclose y) h
        exact ⟨rfl, (List.cons.inj heq).2⟩
      | cons q' qs =>
        rw [commas, commas, List.append_assoc] at h
        exact absurd (List.cons.inj (whole_cut hp hq (hclose x) (hcomma _) h).2).1 hne
    | cons p' ps =>
      cases qs with
      | nil =>
        rw [commas, commas, List.append_assoc] at h
        exact absurd (List.cons.inj (whole_cut hp hq (hcomma _) (hclose y) h).2).1.symm hne
      | cons q' qs =>
        rw [commas, commas, List.append_assoc, List.append_assoc] at h
        obtain ⟨hpq, heq⟩ := whole_cut hp hq (hcomma _) (hcomma _) h
        obtain ⟨hrest, rfl⟩ := commas_inj he (List.cons_ne_nil p' ps) (List.cons_ne_nil q' qs)
          hps hqs (List.cons.inj heq).2
        exact ⟨by rw [hpq, hrest], rfl⟩

end Cutting

/-- A whole piece that is not blank. -/
structure Piece (p : List Char) : Prop where
  whole : Whole p
  not_blanks : ¬Blanks p

instance (p : List Char) : Decidable (Piece p) :=
  decidable_of_iff (Whole p ∧ skip p ≠ [])
    ⟨fun h => ⟨h.1, skip_eq_nil.not.1 h.2⟩, fun h => ⟨h.1, skip_eq_nil.not.2 h.2⟩⟩

theorem ignoresBlanks_piece : IgnoresBlanks Piece where
  cons {c cs} hc := by
    have hwhole : Whole (c :: cs) ↔ Whole cs := by rw [Whole, trackAll_cons, track_blank 0 hc]; rfl
    have hblanks : Blanks (c :: cs) ↔ Blanks cs := by simp [Blanks, hc]
    exact ⟨fun h => ⟨hwhole.1 h.1, hblanks.not.1 h.2⟩, fun h => ⟨hwhole.2 h.1, hblanks.not.2 h.2⟩⟩
  concat {c cs} hc := by
    have hblanks : Blanks (cs ++ [c]) ↔ Blanks cs := by
      simp only [Blanks, List.forall_mem_append, List.forall_mem_singleton, hc, and_true]
    refine ⟨fun h => ⟨?_, hblanks.not.1 h.2⟩, fun h => ⟨?_, hblanks.not.2 h.2⟩⟩
    · -- a blank does not leave a string
      have hwhole := h.1
      rw [Whole, trackAll, List.foldlM_append] at hwhole
      obtain ⟨⟨n, place⟩, hs, hlast⟩ := Option.bind_eq_some_iff.1 hwhole
      rw [← trackAll, trackAll_cons] at hlast
      cases place with
      | outside =>
        rw [track_blank n hc] at hlast
        cases hlast
        exact hs
      | inside => rcases eq_of_blank hc with rfl | rfl | rfl | rfl <;> cases hlast
      | escaped => cases hlast
    · exact h.1.append (Blanks.whole (by simpa [Blanks] using hc))

/-- A piece of an object that spells a member. -/
def SpellsMember (d : Nat) (p : List Char) (m : String × Json) : Prop :=
  ∃ key text, p = key ++ ':' :: text ∧ Spells d key (.str m.1) ∧ Spells d text m.2

/-- An object that is written in some pieces. -/
def objectText (before : List Char) (ps : List (List Char)) (after : List Char) : List Char :=
  before ++ '{' :: (commas ps ++ '}' :: after)

/-- An array that is written in some pieces. -/
def arrayText (before : List Char) (ps : List (List Char)) (after : List Char) : List Char :=
  before ++ '[' :: (commas ps ++ ']' :: after)

section Members

variable {d e : Nat} {p key text : List Char} {m : String × Json}

theorem Spells.piece {v : Json} (h : Spells d p v) : Piece p := ⟨h.whole, h.not_blanks⟩

/-- The text of a member is a piece if what stands behind the colon is one. -/
theorem Spells.piece_colon {v : Json} (hkey : Spells d key v) (htext : Piece text) :
    Piece (key ++ ':' :: text) :=
  ⟨hkey.whole.append (Whole.append (p := [':']) rfl htext.whole),
    fun h => hkey.not_blanks fun c hc => h c (List.mem_append_left _ hc)⟩

theorem SpellsMember.piece (h : SpellsMember d p m) : Piece p := by
  obtain ⟨key, text, rfl, hkey, htext⟩ := h
  exact hkey.piece_colon htext.piece

theorem ignoresBlanks_spellsMember (d : Nat) (m : String × Json) :
    IgnoresBlanks fun p => SpellsMember d p m where
  cons {c p} hc := by
    constructor
    · rintro ⟨key, text, heq, hkey, htext⟩
      cases key with
      | nil => exact absurd nofun hkey.not_blanks
      | cons b key =>
        obtain ⟨rfl, rfl⟩ := List.cons.inj heq
        exact ⟨key, text, rfl, (spells_cons hc).1 hkey, htext⟩
    · rintro ⟨key, text, rfl, hkey, htext⟩
      exact ⟨c :: key, text, rfl, .before hc hkey, htext⟩
  concat {c p} hc := by
    constructor
    · rintro ⟨key, text, heq, hkey, htext⟩
      obtain rfl | ⟨text, b, rfl⟩ := List.eq_nil_or_concat text
      · exact absurd nofun htext.not_blanks
      · rw [List.concat_eq_append] at heq htext
        rw [← List.cons_append, ← List.append_assoc] at heq
        obtain ⟨rfl, hb⟩ := List.append_inj' heq rfl
        obtain rfl := (List.cons.inj hb).1
        exact ⟨key, text, rfl, hkey, (spells_concat hc).1 htext⟩
    · rintro ⟨key, text, rfl, hkey, htext⟩
      exact ⟨key, text ++ [c], by simp, hkey, .after hc htext⟩

/-- The first colon behind a string is the one behind the name of the member. -/
theorem SpellsMember.of_key {name : String} (hkey : Spells e key (.str name))
    (h : SpellsMember d (key ++ ':' :: text) m) :
    m.1 = name ∧ Spells d key (.str name) ∧ Spells d text m.2 := by
  obtain ⟨key', text', heq, hkey', htext'⟩ := h
  have hcolon : ∀ cs, Stops (':' :: cs) := stops_cons (by decide)
  obtain ⟨rest, hread, hrest⟩ := hkey.reads (':' :: text) _ (hcolon text) le_rfl
  obtain ⟨rest', hread', hrest'⟩ := hkey'.reads (':' :: text') _ (hcolon text') le_rfl
  rw [skip_of_not rfl] at hrest hrest'
  have hname := string?_of_value? hread
  rw [heq, string?_of_value? hread'] at hname
  obtain ⟨rfl, rfl⟩ := Prod.mk.inj (Option.some.inj hname)
  rw [hrest'] at hrest
  obtain rfl := (List.cons.inj hrest).2
  obtain rfl := List.append_cancel_right heq
  exact ⟨rfl, hkey', htext'⟩

theorem forall₂_spellsMember {ps : List (List Char)} {ms : List (String × Json)} :
    List.Forall₂ (SpellsMember d) ps ms ↔ ∃ qs : List Member, ps = qs.map Member.chars ∧
      ms = qs.map Member.pair ∧ ∀ q ∈ qs, Spells d q.key (.str q.name) ∧ Spells d q.text q.value := by
  constructor
  · intro h
    induction h with
    | nil => exact ⟨[], rfl, rfl, nofun⟩
    | @cons p m ps ms hp _ ih =>
      obtain ⟨key, text, rfl, hkey, htext⟩ := hp
      obtain ⟨qs, rfl, rfl, hqs⟩ := ih
      exact ⟨⟨key, m.1, text, m.2⟩ :: qs, rfl, rfl, List.forall_mem_cons.2 ⟨⟨hkey, htext⟩, hqs⟩⟩
  · rintro ⟨qs, rfl, rfl, hqs⟩
    induction qs with
    | nil => exact .nil
    | cons q qs ih =>
      obtain ⟨⟨hkey, htext⟩, hqs⟩ := List.forall_mem_cons.1 hqs
      exact .cons ⟨q.key, q.text, rfl, hkey, htext⟩ (ih hqs)

theorem forall₂_spells {ps : List (List Char)} {vs : List Json} :
    List.Forall₂ (Spells d) ps vs ↔ ∃ qs : List (List Char × Json), ps = qs.map Prod.fst ∧
      vs = qs.map Prod.snd ∧ ∀ q ∈ qs, Spells d q.1 q.2 := by
  constructor
  · intro h
    induction h with
    | nil => exact ⟨[], rfl, rfl, nofun⟩
    | @cons p v ps vs hp _ ih =>
      obtain ⟨qs, rfl, rfl, hqs⟩ := ih
      exact ⟨(p, v) :: qs, rfl, rfl, List.forall_mem_cons.2 ⟨hp, hqs⟩⟩
  · rintro ⟨qs, rfl, rfl, hqs⟩
    induction qs with
    | nil => exact .nil
    | cons q qs ih =>
      obtain ⟨hq, hqs⟩ := List.forall_mem_cons.1 hqs
      exact .cons hq (ih hqs)

end Members

section Pieces

variable {d : Nat} {before after : List Char} {ps : List (List Char)} {v : Json}

theorem Spells.enclosed {opening closing : Char} (hb : Blanks before) (ha : Blanks after)
    (h : Spells d (opening :: (commas ps ++ [closing])) v) :
    Spells d (before ++ opening :: (commas ps ++ closing :: after)) v := by
  have hspells := (h.befores hb).afters ha
  simpa using hspells

theorem spells_obj (hb : Blanks before) (ha : Blanks after) (hne : ps ≠ [])
    {ms : List (String × Json)} (h : List.Forall₂ (SpellsMember (d + 1)) ps ms) :
    Spells (d + 2) (objectText before ps after) (.obj ms) := by
  obtain ⟨qs, rfl, rfl, hqs⟩ := forall₂_spellsMember.1 h
  exact .enclosed hb ha
    (.obj (by simpa using hne) (fun q hq => (hqs q hq).1) fun q hq => (hqs q hq).2)

theorem spells_arr (hb : Blanks before) (ha : Blanks after) (hne : ps ≠ []) {vs : List Json}
    (h : List.Forall₂ (Spells (d + 1)) ps vs) :
    Spells (d + 2) (arrayText before ps after) (.arr vs) := by
  obtain ⟨qs, rfl, rfl, hqs⟩ := forall₂_spells.1 h
  exact .enclosed hb ha (.arr (by simpa using hne) hqs)

/-- No other pieces than blank ones stand in empty brackets. -/
theorem blanks_of_skip {e : Char} (he : e = ']' ∨ e = '}') {rest : List Char} (hne : ps ≠ [])
    (hps : ∀ p ∈ ps, Piece p) : skip (commas ps ++ e :: after) ≠ e :: rest := by
  intro hclose
  obtain ⟨bs, hbs, hinner⟩ := exists_blanks (commas ps ++ e :: after)
  rw [hclose] at hinner
  obtain ⟨rfl, -⟩ := commas_inj he hne (List.cons_ne_nil bs [])
    (fun p hp => (hps p hp).whole) (by simpa using hbs.whole) hinner
  exact (hps bs List.mem_cons_self).not_blanks hbs

/-- The members of an object that is written in some pieces are those that the pieces spell. -/
theorem spells_objectText (hb : Blanks before) (ha : Blanks after) (hne : ps ≠ [])
    (hps : ∀ p ∈ ps, Piece p) : Spells (d + 2) (objectText before ps after) v ↔
      ∃ ms, v = .obj ms ∧ List.Forall₂ (SpellsMember (d + 1)) ps ms := by
  refine ⟨fun h => ?_, fun ⟨ms, hv, h⟩ => hv ▸ spells_obj hb ha hne h⟩
  have hdepth : ¬d + 2 ≤ 1 := by omega
  obtain ⟨rest, hread, -⟩ := h.reads [] ((objectText before ps after).length + 1) nofun
    (Nat.le_succ _)
  rw [List.append_nil, ← value?_skip, objectText, skip_blanks hb, skip_of_not rfl, value?_brace,
    if_neg hdepth] at hread
  split at hread
  · rename_i hclose
    exact absurd hclose (blanks_of_skip (.inr rfl) hne hps)
  · obtain ⟨⟨ms, rest'⟩, hms, heq⟩ := Option.map_eq_some_iff.1 hread
    cases heq
    rw [members?_skip] at hms
    obtain ⟨qs, hqsNe, heq, rfl, hqs⟩ := (takes _).2.2 (d := d + 1) hms
    obtain ⟨rfl, -⟩ := commas_inj (.inr rfl) hne (by simpa using hqsNe)
      (fun p hp => (hps p hp).whole) (List.forall_mem_map.2 fun q hq =>
        (SpellsMember.piece (m := q.pair) ⟨q.key, q.text, rfl, hqs q hq⟩).whole) heq
    exact ⟨_, rfl, forall₂_spellsMember.2 ⟨qs, rfl, rfl, hqs⟩⟩

/-- The items of an array that is written in some pieces are those that the pieces spell. -/
theorem spells_arrayText (hb : Blanks before) (ha : Blanks after) (hne : ps ≠ [])
    (hps : ∀ p ∈ ps, Piece p) : Spells (d + 2) (arrayText before ps after) v ↔
      ∃ vs, v = .arr vs ∧ List.Forall₂ (Spells (d + 1)) ps vs := by
  refine ⟨fun h => ?_, fun ⟨vs, hv, h⟩ => hv ▸ spells_arr hb ha hne h⟩
  have hdepth : ¬d + 2 ≤ 1 := by omega
  obtain ⟨rest, hread, -⟩ := h.reads [] ((arrayText before ps after).length + 1) nofun
    (Nat.le_succ _)
  rw [List.append_nil, ← value?_skip, arrayText, skip_blanks hb, skip_of_not rfl, value?_bracket,
    if_neg hdepth] at hread
  split at hread
  · rename_i hclose
    exact absurd hclose (blanks_of_skip (.inl rfl) hne hps)
  · obtain ⟨⟨vs, rest'⟩, hvs, heq⟩ := Option.map_eq_some_iff.1 hread
    cases heq
    rw [items?_skip] at hvs
    obtain ⟨qs, hqsNe, heq, rfl, hqs⟩ := (takes _).2.1 (d := d + 1) hvs
    obtain ⟨rfl, -⟩ := commas_inj (.inl rfl) hne (by simpa using hqsNe)
      (fun p hp => (hps p hp).whole) (List.forall_mem_map.2 fun q hq => (hqs q hq).whole) heq
    exact ⟨_, rfl, forall₂_spells.2 ⟨qs, rfl, rfl, hqs⟩⟩

theorem piece_objectText (hb : Blanks before) (ha : Blanks after) (hps : ∀ p ∈ ps, Piece p) :
    Piece (objectText before ps after) := by
  refine ⟨hb.whole.append ?_, fun h => ?_⟩
  · have hcommas := trackAll_commas 0 fun p hp => (hps p hp).whole
    exact (trackAll_append hcommas ('}' :: after)).trans ha.whole
  · have hbrace := h '{' (by simp [objectText])
    cases hbrace

theorem piece_arrayText (hb : Blanks before) (ha : Blanks after) (hps : ∀ p ∈ ps, Piece p) :
    Piece (arrayText before ps after) := by
  refine ⟨hb.whole.append ?_, fun h => ?_⟩
  · have hcommas := trackAll_commas 0 fun p hp => (hps p hp).whole
    exact (trackAll_append hcommas (']' :: after)).trans ha.whole
  · have hbracket := h '[' (by simp [arrayText])
    cases hbracket

/-- Every array with items is written in pieces. -/
theorem exists_arrayText {cs : List Char} {vs : List Json} (h : Spells d cs (.arr vs))
    (hne : vs ≠ []) : ∃ before ps after, Blanks before ∧ Blanks after ∧ ps ≠ [] ∧
      (∀ p ∈ ps, Piece p) ∧ cs = arrayText before ps after := by
  generalize hv : Json.arr vs = v at h
  induction h with
  | null | true | false | str _ | emptyObj _ | obj _ _ _ => cases hv
  | number h =>
    rcases number?_eq_some h with ⟨n, rfl⟩ | ⟨x, rfl⟩ <;> cases hv
  | emptyArr _ =>
    cases hv
    exact absurd rfl hne
  | @arr d qs hqsNe hqs =>
    refine ⟨[], qs.map Prod.fst, [], nofun, nofun, by simpa using hqsNe, ?_, rfl⟩
    exact List.forall_mem_map.2 fun q hq => (hqs q hq).piece
  | @before d c cs v hc _ ih =>
    obtain ⟨before, ps, after, hb, ha, hps, hpieces, rfl⟩ := ih hv
    exact ⟨c :: before, ps, after, List.forall_mem_cons.2 ⟨hc, hb⟩, ha, hps, hpieces, rfl⟩
  | @after d c cs v hc _ ih =>
    obtain ⟨before, ps, after, hb, ha, hps, hpieces, rfl⟩ := ih hv
    refine ⟨before, ps, after ++ [c], hb, ?_, hps, hpieces, ?_⟩
    · exact List.forall_mem_append.2 ⟨ha, by simpa using hc⟩
    · simp [arrayText]

end Pieces

end TableTalk.Json
