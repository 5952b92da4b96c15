import TableTalk.Proofs.Intent.Data
import TableTalk.Proofs.Intent.Literals
import TableTalk.Proofs.Store.Evaluation
import TableTalk.Proofs.Store.Resolution

/-!
# When the columns of an intent are found

The selection that reads the table has a plan only if each column in its items is named by the
table, and each column of a filter by the table or by the label of the groups
(`Scope.binds_of_plan`). The name of the value will not do: an aggregate has no place in a condition.
-/

namespace TableTalk

open Sql

theorem Text.utf8Size_toLower (c : Char) : c.toLower.utf8Size = c.utf8Size := by
  have hone : ∀ d : Char, d.val.toNat ≤ 127 → d.utf8Size = 1 := fun d hd => by
    unfold Char.utf8Size
    exact if_pos (UInt32.le_iff_toNat_le.2 hd)
  have hA : 'A'.val.toNat = 65 := rfl
  have hZ : 'Z'.val.toNat = 90 := rfl
  have hdiff : ('a'.val - 'A'.val).toNat = 32 := rfl
  unfold Char.toLower
  split
  · rename_i h
    obtain ⟨hlow, hhigh⟩ := h
    rw [ge_iff_le, UInt32.le_iff_toNat_le, hA] at hlow
    rw [UInt32.le_iff_toNat_le, hZ] at hhigh
    rw [hone c (by omega), hone]
    simp only [UInt32.toNat_add, hdiff]
    omega
  · rfl

theorem Text.utf8ByteSize_lowerAscii (s : String) :
    (lowerAscii s).utf8ByteSize = s.utf8ByteSize := by
  have hlist : ∀ cs : List Char, (String.ofList (cs.map Char.toLower)).utf8ByteSize =
      (String.ofList cs).utf8ByteSize := fun cs => by
    induction cs with
    | nil => rfl
    | cons c cs ih =>
      rw [List.map_cons, ← List.singleton_append, String.ofList_append, String.utf8ByteSize_append, ih,
        ← List.singleton_append (l := cs), String.ofList_append, String.utf8ByteSize_append,
        ← String.singleton_eq_ofList, ← String.singleton_eq_ofList, String.utf8ByteSize_singleton,
        String.utf8ByteSize_singleton, utf8Size_toLower]
  rw [lowerAscii, hlist, String.ofList_toList]

/-- A resolved column as it is read. -/
def Reading.apply (r : Reading) (e : Expr Ref) : Expr Ref :=
  match r with
  | numeric => .call .tryCastDouble e
  | date => .call .tryCastTimestamp e
  | boolean => e
  | text => e

theorem Reading.safe_apply {P : Record → Prop} (r : Reading) {e : Expr Ref} (h : e.Safe P) :
    (r.apply e).Safe P := by
  cases r <;> first | exact h.call _ | exact h

theorem Reading.aggregate?_apply (r : Reading) (e : Expr Ref) :
    (r.apply e).aggregate? = e.aggregate? := by
  cases r <;> rfl

/-- The pattern that a filter matches. -/
def Filter.pattern? (f : Filter) : Option String :=
  match f.operator with
  | .contains => some ("%" ++ f.value.shown ++ "%")
  | .ilike => some f.value.shown
  | _ => none

namespace Scope

variable {s : Scope} (items : List (Option String × Expr Ref)) {t : Target} {P : Record → Prop}

section Expressions

theorem resolve_column (hd : t.dialect = .directColumn) (r : Reading) (c : String) :
    s.resolve items (t.column r c) = (s.lookup items c).map r.apply := by
  have hname : (Name.quoted c).text = c := rfl
  unfold Target.column
  rw [hd]
  cases r <;> simp only [resolve, Expr.bind, hname] <;> rcases s.lookup items c with f | e <;> rfl

theorem resolve_bucket (hd : t.dialect = .directColumn) (g : Grain) (c : String) :
    s.resolve items (t.bucket g c) = (s.lookup items c).map fun e =>
      .call2 .dateTrunc (.text g.name) (.call .tryCastTimestamp e) := by
  have hc := resolve_column (s := s) items hd .date c
  unfold Target.bucket
  rw [resolve] at hc ⊢
  rw [Expr.bind, hc]
  rcases s.lookup items c with f | e <;> rfl

theorem truth_eq (b : Bool) : (∃ r, s.truth b = .column r) ∨ s.truth b = .truth b := by
  unfold truth
  split
  · exact .inl ⟨_, rfl⟩
  · exact .inr rfl

/-- The value of a filter names nothing. -/
theorem exists_value (P : Record → Prop) {v : FilterValue}
    (hf : ∀ x, v = .number x → x.isFinite = true) :
    ∃ e, s.resolve items v.expr = .ok e ∧ e.Safe P ∧ e.aggregate? = none := by
  cases v with
  | bool b =>
    refine ⟨s.truth b, rfl, ?_⟩
    rcases s.truth_eq b with ⟨r, hr⟩ | hr
    · rw [hr]
      exact ⟨Expr.safe_column r, rfl⟩
    · rw [hr]
      exact ⟨Expr.safe_truth b, rfl⟩
  | number x =>
    rw [FilterValue.expr, expr_number (hf x rfl)]
    split_ifs
    · exact ⟨_, rfl, (Expr.safe_number _).negate, rfl⟩
    · exact ⟨_, rfl, Expr.safe_number _, rfl⟩
  | text x => exact ⟨_, rfl, Expr.safe_text x, rfl⟩

theorem resolve_pattern (hd : t.dialect = .directColumn) {c : String} {e : Expr Ref}
    (hlookup : s.lookup items c = .ok e) (p : String) : s.resolve items (t.pattern c p) =
      .ok (.like (.call .lower e) (.call .lower (.text p))) := by
  have hcolumn := resolve_column (s := s) items hd .text c
  unfold Target.pattern
  rw [hd, resolve]
  rw [hlookup, map_ok, resolve] at hcolumn
  simp only [Expr.bind, hcolumn, bind_ok]
  rfl

/-- A filter is resolved once its column is, and it is safe unless its pattern is too long. -/
theorem exists_condition (hd : t.dialect = .directColumn) {f : Filter} {e : Expr Ref}
    (hlookup : s.lookup items f.column = .ok e) (he : e.Safe P) (hagg : e.aggregate? = none)
    (hf : ∀ x, f.value = .number x → x.isFinite = true) :
    ∃ c, s.resolve items (t.condition f) = .ok c ∧ c.aggregate? = none ∧
      ((∀ p ∈ f.pattern?, p.utf8ByteSize ≤ Cell.patternLimit) → c.Safe P) := by
  obtain ⟨v, hv, hsafe, hvagg⟩ := exists_value (s := s) items P hf
  have hcolumn : ∀ r, s.resolve items (t.column r f.column) = .ok (r.apply e) := fun r => by
    rw [resolve_column items hd, hlookup, map_ok]
  have hcompare : ∀ op, ∃ c, s.resolve items (.compare op (t.column f.value.reading f.column)
      f.value.expr) = .ok c ∧ c.aggregate? = none ∧
        ((∀ p ∈ f.pattern?, p.utf8ByteSize ≤ Cell.patternLimit) → c.Safe P) := fun op => by
    refine ⟨.compare op (f.value.reading.apply e) v, ?_, ?_,
      fun _ => (Reading.safe_apply _ he).compare op hsafe⟩
    · have hr := hcolumn f.value.reading
      rw [resolve] at hr hv ⊢
      rw [Expr.bind, hr, bind_ok, hv, bind_ok]
    · rw [Expr.aggregate?, Reading.aggregate?_apply, hagg, hvagg]
      rfl
  have hpattern : ∀ p, f.pattern? = some p → ∃ c, s.resolve items (t.pattern f.column p) = .ok c ∧
      c.aggregate? = none ∧
        ((∀ p ∈ f.pattern?, p.utf8ByteSize ≤ Cell.patternLimit) → c.Safe P) := fun p hp => by
    refine ⟨_, resolve_pattern items hd hlookup p, ?_, fun hsize => ?_⟩
    · simp [Expr.aggregate?, hagg]
    · refine (he.call .lower).like (fun _ => rfl) ?_
      show (Text.lowerAscii p).utf8ByteSize ≤ Cell.patternLimit
      rw [Text.utf8ByteSize_lowerAscii]
      exact hsize p hp
  unfold Target.condition
  cases hop : f.operator
  case contains => exact hpattern _ (by rw [Filter.pattern?, hop])
  case ilike => exact hpattern _ (by rw [Filter.pattern?, hop])
  all_goals exact hcompare _

end Expressions

section Items

/-- Items with a name each are resolved one by one. -/
theorem named_items : ∀ {ls : List (String × Expr Name)}
    {all : List (Option String × Column × Expr Ref)},
    s.items (.list (ls.map fun l => ⟨l.2, some l.1⟩)) = .ok all →
      ls.mapM (fun l => (s.resolve [] l.2).map fun e => (some l.1, e)) = .ok (named all)
  | [], all, h => by
    cases h
    rfl
  | l :: ls, all, h => by
    obtain ⟨i, rest, hi, hrest, rfl⟩ := mapM_cons_eq_ok.1 h
    obtain ⟨e, he, hi⟩ := bind_eq_ok.1 hi
    cases hi
    have ih := named_items hrest
    refine mapM_cons_eq_ok.2 ⟨_, _, ?_, ih, rfl⟩
    rw [show s.resolve [] l.2 = .ok e from he]
    rfl

theorem items_isOk {ls : List (String × Expr Name)} (h : ∀ l ∈ ls, ∃ e, s.resolve [] l.2 = .ok e) :
    ∃ all, s.items (.list (ls.map fun l => ⟨l.2, some l.1⟩)) = .ok all := by
  refine isOk_of_mapM fun i hi => ?_
  obtain ⟨l, hl, rfl⟩ := List.mem_map.1 hi
  exact isOk_bind (h l hl) fun _ _ => ⟨_, rfl⟩

variable {schema : Schema} {a : Analysis}

/-- The value of a group is computed from many records. -/
theorem value_aggregate {e : Expr Ref} (h : s.resolve items (a.value t schema).2 = .ok e) :
    ∃ f, e.aggregate? = some f := by
  have haggregate : ∀ {f d}, s.resolve items (.aggregate f d) = .ok e →
      ∃ f, e.aggregate? = some f := fun h => by
    obtain ⟨d, -, hd⟩ := bind_eq_ok.1 h
    cases hd
    exact ⟨_, rfl⟩
  have hcount : s.resolve items .countRows = .ok e → ∃ f, e.aggregate? = some f := fun h => by
    cases h
    exact ⟨_, rfl⟩
  cases a with
  | aggregate metric function groupBy =>
    simp only [Analysis.value, Analysis.aggregateExpr] at h
    split_ifs at h
    · exact hcount h
    · exact haggregate h
    · exact haggregate h
  | distribution metric dimension =>
    simp only [Analysis.value] at h
    split_ifs at h
    · exact hcount h
    · exact haggregate h
  | cohort date metric interval => exact hcount h
  | trend | topList | compare => exact haggregate h

theorem label_apart {l : String × Expr Name} (hl : l ∈ a.label? t) {name : String}
    (hname : Text.sameAscii name l.1 = true) :
    Text.sameAscii name (a.value t schema).1 = false := by
  rcases hv : Text.sameAscii name (a.value t schema).1
  · rfl
  have hsame : Text.sameAscii l.1 (a.value t schema).1 = true := by
    simp only [Text.sameAscii, beq_iff_eq] at hname hv ⊢
    exact hname.symm.trans hv
  cases a with
  | aggregate metric function groupBy =>
    cases groupBy <;> cases hl
    exact absurd hsame (by show ¬Text.sameAscii "group" "value" = true; decide)
  | trend => cases hl; exact absurd hsame (by show ¬Text.sameAscii "date" "value" = true; decide)
  | topList => cases hl; exact absurd hsame (by show ¬Text.sameAscii "label" "value" = true; decide)
  | distribution =>
    cases hl
    exact absurd hsame (by show ¬Text.sameAscii "label" "value" = true; decide)
  | compare =>
    cases hl
    exact absurd hsame (by show ¬Text.sameAscii "period_date" "total_value" = true; decide)
  | cohort =>
    cases hl
    exact absurd hsame (by show ¬Text.sameAscii "cohort_date" "cohort_size" = true; decide)

end Items

/-- Each column of the items is one of the table, each of a filter too, or it is the label. -/
structure Binds (s : Scope) (t : Target) (schema : Schema) (a : Analysis) (fs : List Filter) :
    Prop where
  items : ∀ c ∈ a.itemColumns schema, s.Names c
  filters : ∀ f ∈ fs, s.Names f.column ∨ ∃ l ∈ a.label? t, Text.sameAscii f.column l.1

section Plans

variable {schema : Schema} {a : Analysis} {fs : List Filter} (hd : t.dialect = .directColumn)

include hd

/-- A plan has found every column. -/
theorem binds_of_plan {p : Plan} (h : s.plan (a.data t schema (t.conditions fs)) = .ok p) :
    s.Binds t schema a fs := by
  obtain ⟨all, conditions, -, -, hall, hconditions, -, -, hagg, -⟩ := plan_eq_ok.1 h
  have hnamed := named_items hall
  have hitem : ∀ l ∈ (a.label? t).toList ++ [a.value t schema], ∃ e, s.resolve [] l.2 = .ok e :=
    fun l hl => by
      obtain ⟨x, -, hx⟩ := exists_of_mapM hnamed l hl
      obtain ⟨e, he, -⟩ := map_eq_ok.1 hx
      exact ⟨e, he⟩
  refine ⟨fun c hc => ?_, fun f hf => ?_⟩
  · have hmem : .quoted c ∈ (a.itemColumns schema).map Name.quoted := List.mem_map_of_mem hc
    rw [← Analysis.names_items hd schema a, List.mem_append, List.mem_flatMap] at hmem
    obtain ⟨l, hl, hn⟩ : ∃ l ∈ (a.label? t).toList ++ [a.value t schema],
        .quoted c ∈ l.2.names := by
      rcases hmem with hn | ⟨l, hl, hn⟩
      · exact ⟨_, List.mem_append_right _ List.mem_cons_self, hn⟩
      · exact ⟨l, List.mem_append_left _ hl, hn⟩
    rcases resolve_isOk_iff.1 (hitem l hl) _ hn with hnames | ⟨i, hi, -⟩
    · exact hnames
    · cases hi
  · rw [Target.conditions_direct hd] at hconditions
    obtain ⟨c, hc, hresolve⟩ := exists_of_mapM hconditions _ (List.mem_map_of_mem hf)
    obtain ⟨ns, hns, -⟩ := Target.names_condition hd (f := f)
    have hmem : .quoted f.column ∈ (t.condition f).names := hns ▸ List.mem_cons_self
    by_cases hnames : s.Names f.column
    · exact .inl hnames
    obtain ⟨d, hlookup⟩ := Expr.bind_isOk_iff.1 ⟨c, hresolve⟩ _ hmem
    have hdagg := Expr.aggregate?_of_bind hresolve (hagg c hc) _ hmem d hlookup
    have href : s.ref? f.column = none := by
      rw [← Option.not_isSome_iff_eq_none, ref?_isSome_iff]
      exact hnames
    simp only [Name.text, lookup, href] at hlookup
    split at hlookup
    · rename_i i hfind
      cases hlookup
      obtain ⟨l, hl, hi⟩ := mem_of_mapM hnamed i (List.mem_of_find?_eq_some hfind)
      obtain ⟨e, he, rfl⟩ := map_eq_ok.1 hi
      rcases List.mem_append.1 hl with hl | hl
      · have hany := List.find?_some hfind
        exact .inr ⟨l, Option.mem_toList.1 hl, hany⟩
      · rw [List.mem_singleton.1 hl] at he
        obtain ⟨g, hg⟩ := value_aggregate [] he
        rw [hdagg] at hg
        cases hg
    · cases hlookup

end Plans

end Scope

end TableTalk
