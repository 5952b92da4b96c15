import TableTalk.Proofs.Outcome
import TableTalk.Store.Resolve
import Mathlib.Tactic.SplitIfs

/-!
# What names stand for

An expression is resolved exactly if each of its names is (`bind_isOk_iff`), and a name is if it is
that of a column, of the number of a record, or of an item (`Scope.lookup_isOk_iff`). Conditions are
resolved one by one (`Scope.resolveAll_eq_ok`). A selection has a plan exactly if its items, its
conditions and its keys are resolved and no condition has an aggregate in it (`Scope.plan_eq_ok`).
-/

namespace TableTalk

open Sql

namespace Sql.Expr

variable {ν μ ε : Type} {f : ν → Except ε (Expr μ)} {g : Bool → Expr μ}

theorem bind_isOk_iff : ∀ {e : Expr ν},
    (∃ e', e.bind f g = .ok e') ↔ ∀ n ∈ e.names, ∃ e', f n = .ok e' := by
  intro e
  induction e with
  | column n => simp [bind, names]
  | number | text | truth | countRows => simp [bind, names]
  | paren e ih | negate e ih | cast e _ ih | call _ e ih | aggregate _ e ih =>
    rw [names, ← ih, bind]
    cases e.bind f g <;> simp
  | compare _ l r ihl ihr | like l r ihl ihr | ilike l r ihl ihr | arithmetic _ l r ihl ihr
  | member l r ihl ihr | call2 _ l r ihl ihr | lag l r ihl ihr =>
    simp only [names, List.mem_append, or_imp, forall_and]
    rw [← ihl, ← ihr, bind]
    cases l.bind f g <;> cases r.bind f g <;> simp

/-- An aggregate that a name stands for is one of the expression. -/
theorem aggregate?_of_bind : ∀ {e : Expr ν} {e' : Expr μ}, e.bind f g = .ok e' →
    e'.aggregate? = none → ∀ n ∈ e.names, ∀ d, f n = .ok d → d.aggregate? = none := by
  intro e
  induction e with
  | column n =>
    intro e' h hagg m hm d hd
    rw [List.mem_singleton.1 hm, show f n = .ok e' from h] at hd
    cases hd
    exact hagg
  | number | text | truth | countRows =>
    intro e' h hagg n hn
    cases hn
  | paren e ih | negate e ih | cast e _ ih | call _ e ih =>
    intro e' h hagg
    obtain ⟨a, ha, he⟩ := bind_eq_ok.1 h
    cases he
    exact ih ha hagg
  | aggregate _ e ih =>
    intro e' h hagg
    obtain ⟨a, ha, he⟩ := bind_eq_ok.1 h
    cases he
    cases hagg
  | compare _ l r ihl ihr | like l r ihl ihr | ilike l r ihl ihr | arithmetic _ l r ihl ihr
  | member l r ihl ihr | call2 _ l r ihl ihr | lag l r ihl ihr =>
    intro e' h hagg n hn
    obtain ⟨a, ha, h⟩ := bind_eq_ok.1 h
    obtain ⟨b, hb, he⟩ := bind_eq_ok.1 h
    cases he
    obtain ⟨hl, hr⟩ := Option.or_eq_none_iff.1 hagg
    rcases List.mem_append.1 hn with hn | hn
    · exact ihl ha hl n hn
    · exact ihr hb hr n hn

/-- What an expression becomes depends on its names only. -/
theorem bind_congr {h : ν → Except ε (Expr μ)} : ∀ {e : Expr ν} {e' : Expr μ}, e.bind f g = .ok e' →
    (∀ n ∈ e.names, ∀ d, f n = .ok d → h n = .ok d) → e.bind h g = .ok e' := by
  intro e
  induction e with
  | column n => exact fun he hn => hn n List.mem_cons_self _ he
  | number | text | truth | countRows => exact fun he _ => he
  | paren e ih | negate e ih | cast e _ ih | call _ e ih | aggregate _ e ih =>
    intro e' he hn
    obtain ⟨a, ha, he⟩ := bind_eq_ok.1 he
    cases he
    rw [bind, ih ha hn, bind_ok]
  | compare _ l r ihl ihr | like l r ihl ihr | ilike l r ihl ihr | arithmetic _ l r ihl ihr
  | member l r ihl ihr | call2 _ l r ihl ihr | lag l r ihl ihr =>
    intro e' he hn
    obtain ⟨a, ha, he⟩ := bind_eq_ok.1 he
    obtain ⟨b, hb, he⟩ := bind_eq_ok.1 he
    cases he
    rw [bind, ihl ha fun n hl => hn n (List.mem_append_left _ hl), bind_ok,
      ihr hb fun n hr => hn n (List.mem_append_right _ hr), bind_ok]

end Sql.Expr

namespace Scope

variable {s : Scope} {items : List (Option String × Expr Ref)}

theorem column?_isSome_iff (name : String) : ∀ (i : Nat) (cs : List Column),
    (column? name i cs).isSome ↔ ∃ c ∈ cs, Text.sameAscii c.name name
  | _, [] => by simp [column?]
  | i, c :: cs => by
    unfold column?
    split_ifs with h
    · simp [h]
    · rw [column?_isSome_iff name (i + 1) cs]
      simp [h]

theorem column?_eq_some {name : String} : ∀ {i : Nat} {cs : List Column} {r : Ref},
    column? name i cs = some r → ∃ k c, cs[k]? = some c ∧ Text.sameAscii c.name name = true ∧
      r = .cell (i + k) c.type
  | i, c :: cs, r, h => by
    unfold column? at h
    split_ifs at h with hsame
    · cases h
      exact ⟨0, c, rfl, hsame, rfl⟩
    · obtain ⟨k, d, hd, hname, rfl⟩ := column?_eq_some h
      exact ⟨k + 1, d, hd, hname, by rw [Nat.add_assoc, Nat.add_comm 1 k]⟩

/-- A name is that of a column or of the number of a record. -/
def Names (s : Scope) (name : String) : Prop :=
  (∃ c ∈ s.columns ++ s.hidden, Text.sameAscii c.name name) ∨
    s.numbered ∧ numberNames.any (Text.sameAscii name)

theorem ref?_isSome_iff {name : String} : (s.ref? name).isSome ↔ s.Names name := by
  rw [ref?, Option.isSome_or, Bool.or_eq_true, column?_isSome_iff, Names]
  refine or_congr Iff.rfl ?_
  by_cases h : s.numbered ∧ numberNames.any (Text.sameAscii name)
  · rw [if_pos h]
    exact ⟨fun _ => h, fun _ => rfl⟩
  · rw [if_neg h]
    exact ⟨fun h' => (nomatch h'), fun h' => absurd h' h⟩

theorem lookup_isOk_iff {name : String} : (∃ e, s.lookup items name = .ok e) ↔
    s.Names name ∨ ∃ i ∈ items, i.1.any (Text.sameAscii name) := by
  rw [← ref?_isSome_iff, ← List.find?_isSome]
  unfold lookup
  generalize (items.find? fun i => i.1.any (Text.sameAscii name)) = found
  cases s.ref? name <;> cases found <;> simp

theorem lookup_of_names {name : String} (h : s.Names name)
    (items : List (Option String × Expr Ref)) :
    ∃ r, s.ref? name = some r ∧ s.lookup items name = .ok (.column r) := by
  obtain ⟨r, hr⟩ := Option.isSome_iff_exists.1 (ref?_isSome_iff.2 h)
  exact ⟨r, hr, by rw [lookup, hr]⟩

/-- A name that no item has stands for the same beside any items. -/
theorem lookup_of_lookup {name : String} {d : Expr Ref} (h : s.lookup items name = .ok d)
    (hn : s.Names name ∨ ∀ i ∈ items, i.1.any (Text.sameAscii name) = false)
    (others : List (Option String × Expr Ref)) : s.lookup others name = .ok d := by
  by_cases hs : s.Names name
  · obtain ⟨r, hr, hlookup⟩ := lookup_of_names hs items
    rw [hlookup] at h
    rw [← h, lookup, hr]
  · rcases lookup_isOk_iff.1 ⟨d, h⟩ with hs' | ⟨i, hi, hany⟩
    · exact absurd hs' hs
    · rw [hn.resolve_left hs i hi] at hany
      cases hany

theorem resolve_isOk_iff {e : Expr Name} : (∃ e', s.resolve items e = .ok e') ↔
    ∀ n ∈ e.names, s.Names n.text ∨ ∃ i ∈ items, i.1.any (Text.sameAscii n.text) := by
  rw [resolve, Expr.bind_isOk_iff]
  exact forall₂_congr fun n _ => lookup_isOk_iff

/-- The faults of patterns are told in another order, but there are none where all is resolved. -/
theorem resolveAll_eq_ok : ∀ (cs : List (Expr Name)) {es : List (Expr Ref)},
    s.resolveAll items cs = .ok es ↔ cs.mapM (s.resolve items) = .ok es
  | [], es => by
    rw [mapM_eq_ok_nil]
    constructor
    · rintro ⟨⟩
      rfl
    · rintro rfl
      rfl
  | c :: cs, es => by
    rw [mapM_cons_eq_ok]
    unfold resolveAll
    rcases hc : s.resolve items c with f | e
    · dsimp only
      split <;> simp
    · simp only [map_eq_ok, resolveAll_eq_ok cs, Except.ok.injEq]
      constructor
      · rintro ⟨zs, hzs, rfl⟩
        exact ⟨e, zs, rfl, hzs, rfl⟩
      · rintro ⟨_, zs, rfl, hzs, rfl⟩
        exact ⟨zs, hzs, rfl⟩

/-- The items of a selection under their names. -/
def named (all : List (Option String × Column × Expr Ref)) : List (Option String × Expr Ref) :=
  all.map fun i => (i.1, i.2.2)

theorem plan_eq_ok {q : Select} {p : Plan} : s.plan q = .ok p ↔
    ∃ all conditions orderBy groupBy, s.items q.items = .ok all ∧
      q.conditions.mapM (s.resolve (named all)) = .ok conditions ∧
      (q.orderBy.mapM fun k => (s.orderKey (named all) k.1).map fun e => (e, k.2)) = .ok orderBy ∧
      q.groupBy.mapM (s.groupKey (named all)) = .ok groupBy ∧
      (∀ e ∈ conditions, e.aggregate? = none) ∧
      p = ⟨all.map (·.2.1), all.map (·.2.2), conditions, groupBy, orderBy, q.limit⟩ := by
  simp only [plan, bind_eq_ok, resolveAll_eq_ok]
  constructor
  · rintro ⟨all, hall, conditions, hc, orderBy, ho, groupBy, hg, h⟩
    split at h
    · cases h
    · rename_i hagg
      cases h
      exact ⟨all, conditions, orderBy, groupBy, hall, hc, ho, hg, List.findSome?_eq_none_iff.1 hagg,
        rfl⟩
  · rintro ⟨all, conditions, orderBy, groupBy, hall, hc, ho, hg, hagg, rfl⟩
    refine ⟨all, hall, conditions, hc, orderBy, ho, groupBy, hg, ?_⟩
    rw [List.findSome?_eq_none_iff.2 hagg]

end Scope

end TableTalk
