import TableTalk.Proofs.Json.Scanning

/-!
# Which texts spell a value

A text spells a value if it is put together by the rules of `Json.Spells`: an array is a list of
pieces, joined by commas, of which each spells an item, and an object is such a list of members. The
reader takes exactly such a text off the start of a longer one (`Json.Spells.reads`,
`Json.exists_spells`), so a whole text is read as a value exactly if it spells it
(`Json.parse?_eq_some`).
-/

namespace TableTalk.Json

/-- Pieces of a text joined by commas. -/
def commas : List (List Char) → List Char
  | [] => []
  | [p] => p
  | p :: q :: ps => p ++ ',' :: commas (q :: ps)

/-- A member of an object as it is written: its key and what stands behind the colon, and what both
spell. -/
structure Member where
  key : List Char
  name : String
  text : List Char
  value : Json

namespace Member

def chars (m : Member) : List Char := m.key ++ ':' :: m.text

def pair (m : Member) : String × Json := (m.name, m.value)

end Member

/-- All characters of a text are blanks. -/
def Blanks (bs : List Char) : Prop := ∀ c ∈ bs, blank c = true

/-- Whether a text spells a value that is nested less deep than a limit. -/
inductive Spells : Nat → List Char → Json → Prop
  | null {d : Nat} : Spells d ['n', 'u', 'l', 'l'] .null
  | true {d : Nat} : Spells d ['t', 'r', 'u', 'e'] (.bool true)
  | false {d : Nat} : Spells d ['f', 'a', 'l', 's', 'e'] (.bool false)
  | number {d : Nat} {cs : List Char} {v : Json} (h : number? cs = some (v, [])) : Spells d cs v
  | str {d : Nat} {cs s : List Char} (h : stringBody? cs = some (s, [])) :
    Spells d ('"' :: cs) (.str (String.ofList s))
  | emptyArr {d : Nat} {bs : List Char} (hb : Blanks bs) :
    Spells (d + 2) ('[' :: (bs ++ [']'])) (.arr [])
  | arr {d : Nat} {ps : List (List Char × Json)} (hne : ps ≠ [])
    (h : ∀ p ∈ ps, Spells (d + 1) p.1 p.2) :
    Spells (d + 2) ('[' :: (commas (ps.map Prod.fst) ++ [']'])) (.arr (ps.map Prod.snd))
  | emptyObj {d : Nat} {bs : List Char} (hb : Blanks bs) :
    Spells (d + 2) ('{' :: (bs ++ ['}'])) (.obj [])
  | obj {d : Nat} {ms : List Member} (hne : ms ≠ [])
    (hkeys : ∀ m ∈ ms, Spells (d + 1) m.key (.str m.name))
    (hvalues : ∀ m ∈ ms, Spells (d + 1) m.text m.value) :
    Spells (d + 2) ('{' :: (commas (ms.map Member.chars) ++ ['}'])) (.obj (ms.map Member.pair))
  | before {d : Nat} {c : Char} {cs : List Char} {v : Json} (hc : blank c = true)
    (h : Spells d cs v) : Spells d (c :: cs) v
  | after {d : Nat} {c : Char} {cs : List Char} {v : Json} (hc : blank c = true)
    (h : Spells d cs v) : Spells d (cs ++ [c]) v

section Skipping

variable {c : Char} {cs bs : List Char} {fuel d : Nat}

theorem eq_of_blank (h : blank c = true) : c = ' ' ∨ c = '\t' ∨ c = '\n' ∨ c = '\r' := by
  simpa [blank, or_assoc] using h

theorem skip_cons (h : blank c = true) (cs : List Char) : skip (c :: cs) = skip cs :=
  List.dropWhile_cons_of_pos h

theorem skip_of_not (h : blank c = false) (cs : List Char) : skip (c :: cs) = c :: cs :=
  List.dropWhile_cons_of_neg (by simp [h])

theorem skip_blanks (h : Blanks bs) (cs : List Char) : skip (bs ++ cs) = skip cs :=
  List.dropWhile_append_of_pos h

theorem skip_skip (cs : List Char) : skip (skip cs) = skip cs := by
  induction cs with
  | nil => rfl
  | cons c cs ih =>
    rcases hc : blank c
    · rw [skip_of_not hc, skip_of_not hc]
    · rw [skip_cons hc, ih]

theorem skip_eq_nil : skip cs = [] ↔ Blanks cs := List.dropWhile_eq_nil_iff

theorem exists_blanks (cs : List Char) : ∃ bs, Blanks bs ∧ cs = bs ++ skip cs :=
  ⟨cs.takeWhile blank, fun _ hc => List.mem_takeWhile_imp hc, List.takeWhile_append_dropWhile.symm⟩

theorem value?_skip : value? fuel d (skip cs) = value? fuel d cs := by
  cases fuel with
  | zero => rfl
  | succ fuel => rw [value?, value?, skip_skip]

theorem items?_skip : items? fuel d (skip cs) = items? fuel d cs := by
  cases fuel with
  | zero => rfl
  | succ fuel => rw [items?, items?, value?_skip]

theorem members?_skip : members? fuel d (skip cs) = members? fuel d cs := by
  cases fuel with
  | zero => rfl
  | succ fuel => rw [members?, members?, skip_skip]

end Skipping

theorem Spells.befores {d : Nat} {bs cs : List Char} {v : Json} (hb : Blanks bs)
    (h : Spells d cs v) : Spells d (bs ++ cs) v := by
  induction bs with
  | nil => exact h
  | cons b bs ih =>
    obtain ⟨hb, hbs⟩ := List.forall_mem_cons.1 hb
    exact .before hb (ih hbs)

theorem Spells.afters {d : Nat} {bs cs : List Char} {v : Json} (hb : Blanks bs)
    (h : Spells d cs v) : Spells d (cs ++ bs) v := by
  induction bs generalizing cs with
  | nil => rwa [List.append_nil]
  | cons b bs ih =>
    obtain ⟨hb, hbs⟩ := List.forall_mem_cons.1 hb
    have hrest := ih hbs (.after hb h)
    rwa [List.append_assoc] at hrest

section Complete

variable {d fuel : Nat} {cs tail : List Char} {v : Json}

/-- The reader takes a value off the start of a text up to what does not continue it. -/
def Reads (d : Nat) (cs : List Char) (v : Json) : Prop :=
  ∀ (tail : List Char) (fuel : Nat), Stops tail → cs.length ≤ fuel →
    ∃ rest, value? fuel d (cs ++ tail) = some (v, rest) ∧ skip rest = skip tail

theorem stops_cons {c : Char} (h : c.isDigit = false ∧ c ≠ '.' ∧ c ≠ 'e' ∧ c ≠ 'E')
    (cs : List Char) : Stops (c :: cs) := by
  rintro _ ⟨⟩
  exact h

theorem stops_blank {c : Char} (h : blank c = true) (cs : List Char) : Stops (c :: cs) := by
  refine stops_cons ?_ cs
  rcases eq_of_blank h with rfl | rfl | rfl | rfl <;> decide

theorem Reads.before {c : Char} (hc : blank c = true) (h : Reads d cs v) : Reads d (c :: cs) v := by
  intro tail fuel htail hfuel
  have hskip : value? fuel d (c :: (cs ++ tail)) = value? fuel d (cs ++ tail) := by
    rw [← value?_skip, skip_cons hc, value?_skip]
  rw [List.cons_append, hskip]
  exact h tail fuel htail (Nat.le_of_succ_le hfuel)

theorem Reads.after {c : Char} (hc : blank c = true) (h : Reads d cs v) :
    Reads d (cs ++ [c]) v := by
  intro tail fuel htail hfuel
  rw [List.length_append] at hfuel
  obtain ⟨rest, hread, hrest⟩ := h (c :: tail) fuel (stops_blank hc tail) (by omega)
  refine ⟨rest, by rwa [List.append_assoc], ?_⟩
  rw [hrest, skip_cons hc]

theorem reads_of_value (hne : cs ≠ []) (h : ∀ tail fuel, Stops tail →
    value? (fuel + 1) d (cs ++ tail) = some (v, tail)) : Reads d cs v := by
  intro tail fuel htail hfuel
  cases fuel with
  | zero => exact absurd (List.eq_nil_of_length_eq_zero (Nat.le_zero.1 hfuel)) hne
  | succ fuel => exact ⟨tail, h tail fuel htail, rfl⟩

/-- What starts with a digit or a minus is read as a number. -/
theorem value?_number {c : Char} (hc : c.isDigit = true ∨ c = '-') (cs : List Char) :
    value? (fuel + 1) d (c :: cs) = number? (c :: cs) := by
  have hne : ∀ e, e.isDigit = false → e ≠ '-' → c ≠ e := by
    rintro e he hminus rfl
    rcases hc with hc | rfl
    · rw [hc] at he
      cases he
    · exact hminus rfl
  have hblank : blank c = false := by
    simp only [blank, Bool.or_eq_false_iff, beq_eq_false_iff_ne]
    exact ⟨⟨⟨hne _ rfl (by decide), hne _ rfl (by decide)⟩, hne _ rfl (by decide)⟩,
      hne _ rfl (by decide)⟩
  rw [value?, skip_of_not hblank]
  split
  all_goals first
    | rfl
    | (rename_i heq
       exact absurd (List.cons.inj heq).1 (hne _ rfl (by decide)))

theorem value?_quote (cs : List Char) : value? (fuel + 1) d ('"' :: cs) =
    (stringBody? cs).map fun (s, rest) => (str (String.ofList s), rest) := rfl

theorem value?_bracket (cs : List Char) : value? (fuel + 1) d ('[' :: cs) =
    if d ≤ 1 then none
    else match skip cs with
      | ']' :: rest => some (arr [], rest)
      | rest => (items? fuel (d - 1) rest).map fun (vs, rest) => (arr vs, rest) := rfl

theorem value?_brace (cs : List Char) : value? (fuel + 1) d ('{' :: cs) =
    if d ≤ 1 then none
    else match skip cs with
      | '}' :: rest => some (obj [], rest)
      | rest => (members? fuel (d - 1) rest).map fun (ms, rest) => (obj ms, rest) := rfl

/-- No value starts with a closing bracket. -/
theorem value?_closing (cs : List Char) : value? fuel d (']' :: cs) = none := by
  cases fuel <;> rfl

theorem value?_arr {vs : List Json} {rest : List Char}
    (h : items? fuel (d + 1) cs = some (vs, rest)) :
    value? (fuel + 1) (d + 2) ('[' :: cs) = some (.arr vs, rest) := by
  have hdepth : ¬d + 2 ≤ 1 := by omega
  rw [value?_bracket, if_neg hdepth]
  split
  · rename_i rest' heq
    rw [← items?_skip, heq] at h
    cases fuel with
    | zero => cases h
    | succ fuel =>
      rw [items?, value?_closing] at h
      cases h
  · rw [items?_skip]
    show (items? fuel (d + 1) cs).map _ = _
    rw [h]
    rfl

theorem value?_obj {ms : List (String × Json)} {rest : List Char}
    (h : members? fuel (d + 1) cs = some (ms, rest)) :
    value? (fuel + 1) (d + 2) ('{' :: cs) = some (.obj ms, rest) := by
  have hdepth : ¬d + 2 ≤ 1 := by omega
  rw [value?_brace, if_neg hdepth]
  split
  · rename_i rest' heq
    rw [← members?_skip, heq] at h
    cases fuel <;> cases h
  · rw [members?_skip]
    show (members? fuel (d + 1) cs).map _ = _
    rw [h]
    rfl

theorem number?_eq_some {rest : List Char} (h : number? cs = some (v, rest)) :
    (∃ n, v = .int n) ∨ ∃ x, v = .double x := by
  obtain ⟨⟨l, rest'⟩, -, h⟩ := Option.bind_eq_some_iff.1 h
  obtain ⟨w, hw, h⟩ := Option.bind_eq_some_iff.1 h
  cases h
  unfold Literal.value? at hw
  split at hw
  split at hw
  · cases hw
    exact .inl ⟨_, rfl⟩
  · split_ifs at hw <;> cases hw
    · exact .inr ⟨_, rfl⟩
    · exact .inl ⟨_, rfl⟩
  · obtain ⟨x, -, rfl⟩ := Option.map_eq_some_iff.1 hw
    exact .inr ⟨_, rfl⟩

/-- What is read as a string starts with a quote. -/
theorem string?_of_value? {s : String} {rest : List Char}
    (h : value? fuel d cs = some (.str s, rest)) : string? (skip cs) = some (s, rest) := by
  cases fuel with
  | zero => cases h
  | succ fuel =>
    have hmap : ∀ {α : Type} {f : α → Json} {o : Option (α × List Char)}, (∀ a, f a ≠ .str s) →
        (o.map fun (a, rest) => (f a, rest)) ≠ some (.str s, rest) := by
      intro α f o hf h
      obtain ⟨⟨a, rest'⟩, -, heq⟩ := Option.map_eq_some_iff.1 h
      exact hf a (Prod.mk.inj heq).1
    rw [value?] at h
    split at h
    · cases h
    · cases h
    · cases h
    · rename_i heq
      rw [heq, string?]
      obtain ⟨⟨t, rest'⟩, ht, heq⟩ := Option.map_eq_some_iff.1 h
      cases heq
      rw [ht]
      rfl
    · split_ifs at h
      split at h
      · cases h
      · exact absurd h (hmap nofun)
    · split_ifs at h
      split at h
      · cases h
      · exact absurd h (hmap nofun)
    · rcases number?_eq_some h with ⟨n, hn⟩ | ⟨x, hx⟩
      · cases hn
      · cases hx

theorem reads_number (h : number? cs = some (v, [])) : Reads d cs v := by
  obtain ⟨x, hx, ⟨c, hc, hdigit⟩, -, hread⟩ := number?_cut h
  rw [List.append_nil] at hx
  subst hx
  obtain ⟨cs, rfl⟩ := List.head?_eq_some_iff.1 hc
  refine reads_of_value (List.cons_ne_nil c cs) fun tail fuel htail => ?_
  rw [List.cons_append, value?_number hdigit]
  exact hread tail htail

theorem reads_str {s : List Char} (h : stringBody? cs = some (s, [])) :
    Reads d ('"' :: cs) (.str (String.ofList s)) := by
  obtain ⟨x, hx, hread⟩ := stringBody?_cut h
  rw [List.append_nil] at hx
  subst hx
  refine reads_of_value (List.cons_ne_nil _ _) fun tail fuel htail => ?_
  rw [List.cons_append, value?_quote, hread tail]
  rfl

/-- The first item of an array is read up to the comma or the bracket behind it. -/
theorem items?_first (h : Reads d cs v) (htail : Stops tail) (hfuel : cs.length ≤ fuel) :
    items? (fuel + 1) d (cs ++ tail) = match skip tail with
      | ',' :: rest => (items? fuel d rest).bind fun (vs, rest) => some (v :: vs, rest)
      | ']' :: rest => some ([v], rest)
      | _ => none := by
  obtain ⟨rest, hread, hrest⟩ := h tail fuel htail hfuel
  rw [items?, hread, ← hrest]
  rfl

theorem members?_first {m : Member} (hkey : Reads d m.key (.str m.name))
    (hvalue : Reads d m.text m.value) (htail : Stops tail) (hfuel : m.chars.length ≤ fuel) :
    members? (fuel + 1) d (m.chars ++ tail) = match skip tail with
      | ',' :: rest => (members? fuel d rest).bind fun (ms, rest) => some (m.pair :: ms, rest)
      | '}' :: rest => some ([m.pair], rest)
      | _ => none := by
  have hchars : m.chars ++ tail = m.key ++ ':' :: (m.text ++ tail) := by simp [Member.chars]
  have hlength : m.chars.length = m.key.length + (m.text.length + 1) := by simp [Member.chars]
  have hcolon : Stops (':' :: (m.text ++ tail)) := stops_cons (by decide) _
  obtain ⟨behind, hname, hbehind⟩ := hkey _ fuel hcolon (by omega)
  obtain ⟨rest, hread, hrest⟩ := hvalue tail fuel htail (by omega)
  rw [hchars, members?, string?_of_value? hname]
  rw [skip_of_not rfl] at hbehind
  simp only [Option.bind_eq_bind, Option.bind_some, hbehind, hread, hrest]
  rfl

theorem items?_commas : ∀ {ps : List (List Char × Json)} {fuel : Nat}, ps ≠ [] →
    (∀ p ∈ ps, Reads d p.1 p.2) → (commas (ps.map Prod.fst)).length + 1 ≤ fuel →
    items? fuel d (commas (ps.map Prod.fst) ++ ']' :: tail) = some (ps.map Prod.snd, tail)
  | [p], fuel + 1, _, h, hfuel => by
    have hstop : Stops (']' :: tail) := stops_cons (by decide) tail
    rw [List.map_singleton, commas, items?_first (h p List.mem_cons_self) hstop
      (Nat.le_of_succ_le_succ hfuel), skip_of_not rfl]
    rfl
  | p :: q :: ps, fuel + 1, _, h, hfuel => by
    obtain ⟨hp, hps⟩ := List.forall_mem_cons.1 h
    rw [List.map_cons, List.map_cons, commas, List.length_append, List.length_cons] at hfuel
    have hstop : ∀ cs, Stops (',' :: cs) := stops_cons (by decide)
    have hlength : (commas ((q :: ps).map Prod.fst)).length + 1 ≤ fuel := by
      rw [List.map_cons]
      omega
    have hrest := items?_commas (List.cons_ne_nil q ps) hps hlength
    rw [List.map_cons] at hrest
    rw [List.map_cons, List.map_cons, commas, List.append_assoc, List.cons_append,
      items?_first hp (hstop _) (by omega), skip_of_not rfl]
    show (items? fuel d (commas (q.1 :: ps.map Prod.fst) ++ ']' :: tail)).bind _ = _
    rw [hrest]
    rfl

theorem members?_commas : ∀ {ms : List Member} {fuel : Nat}, ms ≠ [] →
    (∀ m ∈ ms, Reads d m.key (.str m.name) ∧ Reads d m.text m.value) →
    (commas (ms.map Member.chars)).length + 1 ≤ fuel →
    members? fuel d (commas (ms.map Member.chars) ++ '}' :: tail) =
      some (ms.map Member.pair, tail)
  | [m], fuel + 1, _, h, hfuel => by
    obtain ⟨hkey, hvalue⟩ := h m List.mem_cons_self
    have hstop : Stops ('}' :: tail) := stops_cons (by decide) tail
    rw [List.map_singleton, commas, members?_first hkey hvalue hstop
      (Nat.le_of_succ_le_succ hfuel), skip_of_not rfl]
    rfl
  | m :: n :: ms, fuel + 1, _, h, hfuel => by
    obtain ⟨⟨hkey, hvalue⟩, hms⟩ := List.forall_mem_cons.1 h
    rw [List.map_cons, List.map_cons, commas, List.length_append, List.length_cons] at hfuel
    have hstop : ∀ cs, Stops (',' :: cs) := stops_cons (by decide)
    have hlength : (commas ((n :: ms).map Member.chars)).length + 1 ≤ fuel := by
      rw [List.map_cons]
      omega
    have hrest := members?_commas (List.cons_ne_nil n ms) hms hlength
    rw [List.map_cons] at hrest
    rw [List.map_cons, List.map_cons, commas, List.append_assoc, List.cons_append,
      members?_first hkey hvalue (hstop _) (by omega), skip_of_not rfl]
    show (members? fuel d (commas (n.chars :: ms.map Member.chars) ++ '}' :: tail)).bind _ = _
    rw [hrest]
    rfl

theorem reads_emptyArr {bs : List Char} (hb : Blanks bs) :
    Reads (d + 2) ('[' :: (bs ++ [']'])) (.arr []) := by
  have hdepth : ¬d + 2 ≤ 1 := by omega
  refine reads_of_value (List.cons_ne_nil _ _) fun tail fuel _ => ?_
  rw [List.cons_append, List.append_assoc, value?_bracket, if_neg hdepth, skip_blanks hb]
  rfl

theorem reads_emptyObj {bs : List Char} (hb : Blanks bs) :
    Reads (d + 2) ('{' :: (bs ++ ['}'])) (.obj []) := by
  have hdepth : ¬d + 2 ≤ 1 := by omega
  refine reads_of_value (List.cons_ne_nil _ _) fun tail fuel _ => ?_
  rw [List.cons_append, List.append_assoc, value?_brace, if_neg hdepth, skip_blanks hb]
  rfl

/-- The reader takes a text that spells a value, whatever stands behind it. -/
theorem Spells.reads (h : Spells d cs v) : Reads d cs v := by
  induction h with
  | null | true | false => exact reads_of_value nofun fun _ _ _ => rfl
  | number h => exact reads_number h
  | str h => exact reads_str h
  | emptyArr hb => exact reads_emptyArr hb
  | emptyObj hb => exact reads_emptyObj hb
  | arr hne _ ih =>
    intro tail fuel htail hfuel
    rw [List.length_cons, List.length_append, List.length_singleton] at hfuel
    obtain ⟨fuel, rfl⟩ := Nat.exists_eq_add_of_le' (Nat.le_of_add_left_le hfuel)
    refine ⟨tail, ?_, rfl⟩
    rw [List.cons_append, List.append_assoc]
    exact value?_arr (items?_commas hne ih (Nat.le_of_succ_le_succ hfuel))
  | obj hne _ _ ihKeys ihValues =>
    intro tail fuel htail hfuel
    rw [List.length_cons, List.length_append, List.length_singleton] at hfuel
    obtain ⟨fuel, rfl⟩ := Nat.exists_eq_add_of_le' (Nat.le_of_add_left_le hfuel)
    refine ⟨tail, ?_, rfl⟩
    rw [List.cons_append, List.append_assoc]
    exact value?_obj (members?_commas hne (fun m hm => ⟨ihKeys m hm, ihValues m hm⟩)
      (Nat.le_of_succ_le_succ hfuel))
  | before hc _ ih => exact ih.before hc
  | after hc _ ih => exact ih.after hc

end Complete

section Sound

variable {fuel d : Nat} {cs rest : List Char}

theorem commas_cons {ps : List (List Char)} (p : List Char) (h : ps ≠ []) :
    commas (p :: ps) = p ++ ',' :: commas ps := by
  cases ps with
  | nil => exact absurd rfl h
  | cons q ps => rfl

/-- With so much fuel, a value is taken as a text that spells it. -/
def TakesValues (fuel : Nat) : Prop :=
  ∀ {d : Nat} {cs rest : List Char} {v : Json}, value? fuel d cs = some (v, rest) →
    ∃ x, cs = x ++ rest ∧ Spells d x v

def TakesItems (fuel : Nat) : Prop :=
  ∀ {d : Nat} {cs rest : List Char} {vs : List Json}, items? fuel d cs = some (vs, rest) →
    ∃ ps : List (List Char × Json), ps ≠ [] ∧ cs = commas (ps.map Prod.fst) ++ ']' :: rest ∧
      vs = ps.map Prod.snd ∧ ∀ p ∈ ps, Spells d p.1 p.2

def TakesMembers (fuel : Nat) : Prop :=
  ∀ {d : Nat} {cs rest : List Char} {ms : List (String × Json)},
    members? fuel d cs = some (ms, rest) →
    ∃ qs : List Member, qs ≠ [] ∧ cs = commas (qs.map Member.chars) ++ '}' :: rest ∧
      ms = qs.map Member.pair ∧
      ∀ q ∈ qs, Spells d q.key (.str q.name) ∧ Spells d q.text q.value

theorem exists_key {name : String} (h : string? (skip cs) = some (name, rest)) :
    ∃ x, cs = x ++ rest ∧ Spells d x (.str name) := by
  obtain ⟨bs, hbs, hcs⟩ := exists_blanks cs
  unfold string? at h
  split at h
  · rename_i ds hds
    obtain ⟨⟨s, rest'⟩, hs, heq⟩ := Option.map_eq_some_iff.1 h
    cases heq
    obtain ⟨x, rfl, hx⟩ := stringBody?_cut hs
    have hwhole := hx []
    rw [List.append_nil] at hwhole
    refine ⟨bs ++ '"' :: x, ?_, .befores hbs (.str hwhole)⟩
    rw [hcs, hds, List.append_assoc, List.cons_append]
  · cases h

theorem takesValues_succ (hitems : TakesItems fuel) (hmembers : TakesMembers fuel) :
    TakesValues (fuel + 1) := by
  intro d cs rest v h
  obtain ⟨bs, hbs, hcs⟩ := exists_blanks cs
  -- the blanks in front of a value belong to its text
  suffices hx : ∃ x, skip cs = x ++ rest ∧ Spells d x v by
    obtain ⟨x, hx, hspells⟩ := hx
    exact ⟨bs ++ x, by rw [hcs, hx, List.append_assoc], .befores hbs hspells⟩
  have hdepth : ¬d ≤ 1 → ∃ e, d = e + 2 := fun h => ⟨d - 2, by omega⟩
  rw [value?] at h
  generalize skip cs = ds at h ⊢
  split at h
  · cases h
    exact ⟨['n', 'u', 'l', 'l'], rfl, .null⟩
  · cases h
    exact ⟨['t', 'r', 'u', 'e'], rfl, .true⟩
  · cases h
    exact ⟨['f', 'a', 'l', 's', 'e'], rfl, .false⟩
  · obtain ⟨⟨s, rest'⟩, hs, heq⟩ := Option.map_eq_some_iff.1 h
    cases heq
    obtain ⟨x, rfl, hx⟩ := stringBody?_cut hs
    have hwhole := hx []
    rw [List.append_nil] at hwhole
    exact ⟨'"' :: x, rfl, .str hwhole⟩
  · split_ifs at h with hd
    obtain ⟨d, rfl⟩ := hdepth hd
    rename_i ds
    obtain ⟨inner, hinner, hds⟩ := exists_blanks ds
    split at h
    · rename_i hclose
      cases h
      exact ⟨_, by rw [hds, hclose]; simp, .emptyArr hinner⟩
    · obtain ⟨⟨vs, rest'⟩, hvs, heq⟩ := Option.map_eq_some_iff.1 h
      cases heq
      rw [items?_skip] at hvs
      obtain ⟨ps, hne, rfl, rfl, hps⟩ := hitems hvs
      exact ⟨_, by simp, .arr hne hps⟩
  · split_ifs at h with hd
    obtain ⟨d, rfl⟩ := hdepth hd
    rename_i ds
    obtain ⟨inner, hinner, hds⟩ := exists_blanks ds
    split at h
    · rename_i hclose
      cases h
      exact ⟨_, by rw [hds, hclose]; simp, .emptyObj hinner⟩
    · obtain ⟨⟨ms, rest'⟩, hms, heq⟩ := Option.map_eq_some_iff.1 h
      cases heq
      rw [members?_skip] at hms
      obtain ⟨qs, hne, rfl, rfl, hqs⟩ := hmembers hms
      exact ⟨_, by simp, .obj hne (fun q hq => (hqs q hq).1) fun q hq => (hqs q hq).2⟩
  · obtain ⟨x, rfl, -, -, hx⟩ := number?_cut h
    have hwhole := hx [] nofun
    rw [List.append_nil] at hwhole
    exact ⟨x, rfl, .number hwhole⟩

theorem takesItems_succ (hvalues : TakesValues fuel) (hitems : TakesItems fuel) :
    TakesItems (fuel + 1) := by
  intro d cs rest vs h
  rw [items?] at h
  obtain ⟨⟨v, behind⟩, hv, hnext⟩ := Option.bind_eq_some_iff.1 h
  obtain ⟨x, rfl, hx⟩ := hvalues hv
  obtain ⟨bs, hbs, hbehind⟩ := exists_blanks behind
  have hpiece : Spells d (x ++ bs) v := hx.afters hbs
  dsimp only at hnext
  split at hnext
  · rename_i hcomma
    obtain ⟨⟨ws, rest'⟩, hws, heq⟩ := Option.bind_eq_some_iff.1 hnext
    cases heq
    obtain ⟨ps, hne, rfl, rfl, hps⟩ := hitems hws
    refine ⟨(x ++ bs, v) :: ps, List.cons_ne_nil _ _, ?_, rfl, List.forall_mem_cons.2 ⟨hpiece, hps⟩⟩
    rw [List.map_cons, commas_cons _ (by simpa using hne), hbehind, hcomma]
    simp
  · rename_i hclose
    cases hnext
    refine ⟨[(x ++ bs, v)], List.cons_ne_nil _ _, ?_, rfl, by simpa using hpiece⟩
    rw [hbehind, hclose, List.map_singleton, commas, List.append_assoc]
  · cases hnext

theorem takesMembers_succ (hvalues : TakesValues fuel) (hmembers : TakesMembers fuel) :
    TakesMembers (fuel + 1) := by
  intro d cs rest ms h
  rw [members?] at h
  obtain ⟨⟨name, colon⟩, hname, hnext⟩ := Option.bind_eq_some_iff.1 h
  obtain ⟨key, rfl, hkey⟩ := exists_key (d := d) hname
  obtain ⟨bs, hbs, hcolon⟩ := exists_blanks colon
  dsimp only at hnext
  split at hnext
  · rename_i cs heq
    rw [heq] at hcolon
    obtain ⟨⟨v, behind⟩, hv, hlast⟩ := Option.bind_eq_some_iff.1 hnext
    obtain ⟨x, rfl, hx⟩ := hvalues hv
    obtain ⟨bs', hbs', hbehind⟩ := exists_blanks behind
    let q : Member := ⟨key ++ bs, name, x ++ bs', v⟩
    have hq : Spells d q.key (.str q.name) ∧ Spells d q.text q.value :=
      ⟨hkey.afters hbs, hx.afters hbs'⟩
    dsimp only at hlast
    split at hlast
    · rename_i hcomma
      obtain ⟨⟨ns, rest'⟩, hns, heq⟩ := Option.bind_eq_some_iff.1 hlast
      cases heq
      obtain ⟨qs, hne, rfl, rfl, hqs⟩ := hmembers hns
      refine ⟨q :: qs, List.cons_ne_nil _ _, ?_, rfl, List.forall_mem_cons.2 ⟨hq, hqs⟩⟩
      rw [List.map_cons, commas_cons _ (by simpa using hne), hcolon, hbehind, hcomma]
      simp [q, Member.chars]
    · rename_i hclose
      cases hlast
      refine ⟨[q], List.cons_ne_nil _ _, ?_, rfl, by simpa using hq⟩
      rw [hcolon, hbehind, hclose]
      simp [q, Member.chars, commas]
    · cases hlast
  · cases hnext

/-- What the reader takes off a text spells the value that it gives. -/
theorem takes (fuel : Nat) : TakesValues fuel ∧ TakesItems fuel ∧ TakesMembers fuel := by
  induction fuel with
  | zero => exact ⟨nofun, nofun, nofun⟩
  | succ fuel ih =>
    obtain ⟨hvalues, hitems, hmembers⟩ := ih
    exact ⟨takesValues_succ hitems hmembers, takesItems_succ hvalues hitems,
      takesMembers_succ hvalues hmembers⟩

end Sound

end TableTalk.Json
