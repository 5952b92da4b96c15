import TableTalk.Proofs.Store.Binding
import Std.Data.String.ToNat

/-!
# Plans for analyses

The selection that reads the table has a plan as soon as every column that it reads is found
(`Scope.exists_plan`). Its items are resolved first (`Scope.exists_items`), then the conditions, which
can go by the label of the groups (`Scope.exists_lookup`), and then the keys, which count the items
or go by their names. All expressions of such a plan are safe, unless a pattern is too long or a
bucket starts in front of the calendar.
-/

namespace TableTalk

open Sql

namespace Scope

variable {s : Scope} (items : List (Option String × Expr Ref)) {t : Target} {P : Record → Prop}

/-- The bucket of the date of each record has a value. -/
def Dates (s : Scope) (P : Record → Prop) (a : Analysis) : Prop :=
  ∀ b ∈ a.bucket?, ∀ n, s.ref? b.2 = some n → ∀ x, P x →
    ∃ d, Function2.dateTrunc.apply (.text b.1.name)
      (Function.tryCastTimestamp.apply (n.read (some x))) = .ok d

variable {schema : Schema} {a : Analysis} {fs : List Filter}

section Columns

variable (hd : t.dialect = .directColumn)

include hd

theorem exists_column {c : String} (hc : s.Names c) (r : Reading) :
    ∃ e, s.resolve items (t.column r c) = .ok e ∧ e.Safe P ∧ e.aggregate? = none := by
  obtain ⟨n, -, hlookup⟩ := lookup_of_names hc items
  refine ⟨r.apply (.column n), ?_, Reading.safe_apply r (Expr.safe_column n), ?_⟩
  · rw [resolve_column items hd, hlookup, map_ok]
  · rw [Reading.aggregate?_apply]
    rfl

theorem exists_bucket {g : Grain} {c : String} (hc : s.Names c)
    (hdates : ∀ n, s.ref? c = some n → ∀ x, P x → ∃ d, Function2.dateTrunc.apply (.text g.name)
      (Function.tryCastTimestamp.apply (n.read (some x))) = .ok d) :
    ∃ e, s.resolve items (t.bucket g c) = .ok e ∧ e.Safe P ∧ e.aggregate? = none := by
  obtain ⟨n, hn, hlookup⟩ := lookup_of_names hc items
  refine ⟨_, by rw [resolve_bucket items hd, hlookup, map_ok], ?_, rfl⟩
  refine Expr.safe_dateTrunc fun f hf => ⟨_, rfl, ?_⟩
  rcases hrecord : f.record with - | x
  · cases n <;> exact ⟨_, rfl⟩
  · exact hdates n hn x (hf.record x hrecord)

theorem exists_label (hitems : ∀ c ∈ a.itemColumns schema, s.Names c)
    (hdates : s.Dates P a) {l : String × Expr Name} (hl : l ∈ a.label? t) :
    ∃ e, s.resolve items l.2 = .ok e ∧ e.Safe P ∧ e.aggregate? = none := by
  cases a with
  | aggregate metric function groupBy =>
    cases groupBy with
    | none => cases hl
    | some c =>
      cases hl
      refine exists_column items hd (hitems c ?_) .text
      rw [Analysis.itemColumns]
      split_ifs <;> simp
  | topList metric dimension =>
    cases hl
    exact exists_column items hd (hitems dimension (by simp [Analysis.itemColumns, Analysis.columns]))
      .text
  | distribution metric dimension =>
    cases hl
    refine exists_column items hd (hitems dimension ?_) .text
    rw [Analysis.itemColumns]
    split_ifs <;> simp
  | trend metric date function grain =>
    cases hl
    exact exists_bucket items hd (hitems date (by simp [Analysis.itemColumns, Analysis.columns]))
      (hdates _ rfl)
  | compare metric date period =>
    cases hl
    exact exists_bucket items hd (hitems date (by simp [Analysis.itemColumns, Analysis.columns]))
      (hdates _ rfl)
  | cohort date metric interval =>
    cases hl
    exact exists_bucket items hd (hitems date (by simp [Analysis.itemColumns]))
      (hdates _ rfl)

theorem exists_aggregate {c : String} (hc : s.Names c) (r : Reading) (g : AggregateFunction) :
    ∃ e, s.resolve items (.aggregate g (t.column r c)) = .ok e ∧ e.Safe P := by
  obtain ⟨e, he, hsafe, -⟩ := exists_column (P := P) items hd hc r
  rw [resolve] at he
  exact ⟨.aggregate g e, by rw [resolve, Expr.bind, he]; rfl, hsafe.aggregate g⟩

theorem exists_total (hitems : ∀ c ∈ a.itemColumns schema, s.Names c) :
    ∃ e, s.resolve items (a.value t schema).2 = .ok e ∧ e.Safe P := by
  have hcount : ∃ e, s.resolve items .countRows = .ok e ∧ e.Safe P :=
    ⟨_, rfl, Expr.safe_countRows⟩
  cases a with
  | aggregate metric function groupBy =>
    rw [Analysis.itemColumns] at hitems
    simp only [Analysis.value, Analysis.aggregateExpr]
    split_ifs at hitems ⊢
    · exact hcount
    · exact exists_aggregate items hd (hitems metric List.mem_cons_self) .text .count
    · exact exists_aggregate items hd (hitems metric List.mem_cons_self) .numeric function
  | distribution metric dimension =>
    rw [Analysis.itemColumns] at hitems
    simp only [Analysis.value]
    split_ifs at hitems ⊢
    · exact hcount
    · exact exists_aggregate items hd (hitems metric List.mem_cons_self) .numeric .sum
  | cohort date metric interval => exact hcount
  | trend metric | topList metric | compare metric =>
    refine exists_aggregate items hd (hitems metric ?_) .numeric _
    simp [Analysis.itemColumns, Analysis.columns]

end Columns

section Keys

theorem ordinal?_digit (n : Nat) :
    ordinal? items (.number (Nat.repr (n + 1))) = (items[n]?).map Prod.snd := by
  rw [ordinal?, Nat.toNat?_repr]

theorem orderKey_digit {n : Nat} {i : Option String × Expr Ref} (h : items[n]? = some i) :
    s.orderKey items (.number (Nat.repr (n + 1))) = .ok i.2 := by
  rw [orderKey, ordinal?_digit, h]
  rfl

variable {all : List (Option String × Expr Ref)}

/-- An order goes by one of the items, which it counts or names. -/
theorem exists_key
    (hnames : all.map Prod.fst = ((a.label? t).toList ++ [a.value t schema]).map fun l => some l.1)
    {k : Expr Name × SortOrder} (hk : k ∈ a.order) :
    ∃ i ∈ all, (named? all k.1).or (ordinal? all k.1) = some i.2 := by
  have hpair : ∀ {n m}, all.map Prod.fst = [n, m] → ∃ x y, all = [(n, x), (m, y)] := fun h => by
    obtain ⟨x, xs, rfl, hx, hxs⟩ := List.map_eq_cons_iff.1 h
    obtain ⟨y, ys, rfl, hy, hys⟩ := List.map_eq_cons_iff.1 hxs
    rw [List.map_eq_nil_iff.1 hys, ← hx, ← hy]
    exact ⟨_, _, rfl⟩
  cases a with
  | aggregate metric function groupBy =>
    cases groupBy with
    | none => cases hk
    | some c =>
      cases hk
      obtain ⟨x, y, rfl⟩ := hpair hnames
      have hgroup : Text.sameAscii "value" "group" = false := by decide
      have hvalue : Text.sameAscii "value" "value" = true := by decide
      refine ⟨_, List.mem_cons_of_mem _ List.mem_cons_self, ?_⟩
      simp [named?, Analysis.value, Name.text, hgroup, hvalue]
  | compare => cases hk
  | trend | cohort =>
    cases hk
    obtain ⟨x, y, rfl⟩ := hpair hnames
    exact ⟨_, List.mem_cons_self, ordinal?_digit _ 0⟩
  | topList | distribution =>
    cases hk
    obtain ⟨x, y, rfl⟩ := hpair hnames
    exact ⟨_, List.mem_cons_of_mem _ List.mem_cons_self, ordinal?_digit _ 1⟩

/-- What is known of the items of an analysis once they are resolved: their names, and that only the
value among them is an aggregate. -/
structure Resolved (P : Record → Prop) (t : Target) (schema : Schema) (a : Analysis)
    (all : List (Option String × Expr Ref)) : Prop where
  names : all.map Prod.fst = ((a.label? t).toList ++ [a.value t schema]).map fun l => some l.1
  safe : ∀ i ∈ all, i.2.Safe P
  value : ∀ i ∈ all, i.2.aggregate? = none ∨ i.1 = some (a.value t schema).1
  aggregate : ∃ i ∈ all, ∃ f, i.2.aggregate? = some f

/-- An order goes by one of the items. -/
theorem orderKey_mem (h : Resolved P t schema a all) {k : Expr Name × SortOrder} (hk : k ∈ a.order) :
    ∃ i ∈ all, s.orderKey all k.1 = .ok i.2 := by
  obtain ⟨i, hi, hkey⟩ := exists_key h.names hk
  exact ⟨i, hi, by rw [orderKey, hkey]⟩

/-- A grouping goes by one of the items, or by the column that it is in. -/
theorem groupKey_isOk (hd : t.dialect = .directColumn) (h : Resolved P t schema a all)
    (hitems : ∀ c ∈ a.itemColumns schema, s.Names c) {k : Expr Name} (hk : k ∈ a.grouping t) :
    ∃ e, s.groupKey all k = .ok e ∧ e.Safe P := by
  have hfirst : ∃ e, s.groupKey all (.number "1") = .ok e ∧ e.Safe P := by
    obtain ⟨i, hi, -⟩ := h.aggregate
    obtain ⟨x, xs, rfl⟩ := List.exists_cons_of_ne_nil (List.ne_nil_of_mem hi)
    refine ⟨x.2, ?_, h.safe x List.mem_cons_self⟩
    show s.groupKey (x :: xs) (.number (Nat.repr (0 + 1))) = .ok x.2
    rw [groupKey, ordinal?_digit]
    rfl
  cases a with
  | aggregate metric function groupBy =>
    cases groupBy with
    | none => cases hk
    | some c =>
      cases hk
      have hc : c ∈ (Analysis.aggregate metric function (some c)).itemColumns schema := by
        rw [Analysis.itemColumns]
        split_ifs <;> simp
      obtain ⟨e, he, hsafe, -⟩ := exists_column (P := P) all hd (hitems c hc) .text
      refine ⟨e, ?_, hsafe⟩
      rw [← he]
      unfold groupKey Target.column
      rw [hd]
      rfl
  | _ =>
    cases hk
    exact hfirst

end Keys

section Existence

variable (hd : t.dialect = .directColumn)

include hd

/-- The items of a selection are resolved if their columns are found. -/
theorem exists_items (hitems : ∀ c ∈ a.itemColumns schema, s.Names c) (hdates : s.Dates P a) :
    ∃ all, s.items (.list (((a.label? t).toList ++ [a.value t schema]).map fun l =>
      ⟨l.2, some l.1⟩)) = .ok all ∧ Resolved P t schema a (named all) := by
  have hitem : ∀ l ∈ (a.label? t).toList ++ [a.value t schema], ∃ e, s.resolve [] l.2 = .ok e ∧
      e.Safe P ∧ (e.aggregate? = none ∨ l = a.value t schema) := fun l hl => by
    rcases List.mem_append.1 hl with hl | hl
    · obtain ⟨e, he, hsafe, hagg⟩ := exists_label [] hd hitems hdates (Option.mem_toList.1 hl)
      exact ⟨e, he, hsafe, .inl hagg⟩
    · rw [List.mem_singleton.1 hl]
      obtain ⟨e, he, hsafe⟩ := exists_total [] hd hitems
      exact ⟨e, he, hsafe, .inr rfl⟩
  obtain ⟨all, hall⟩ := items_isOk fun l hl => (hitem l hl).imp fun _ he => he.1
  have hnamed := named_items hall
  have hmem : ∀ i ∈ named all, i.2.Safe P ∧
      (i.2.aggregate? = none ∨ i.1 = some (a.value t schema).1) := fun i hi => by
    obtain ⟨l, hl, hi⟩ := mem_of_mapM hnamed i hi
    obtain ⟨e, he, hsafe, hagg⟩ := hitem l hl
    rw [he, map_ok] at hi
    cases hi
    exact ⟨hsafe, hagg.imp id fun h => by rw [h]⟩
  refine ⟨all, hall, ⟨map_of_mapM (fun l i hi => ?_) hnamed, fun i hi => (hmem i hi).1,
    fun i hi => (hmem i hi).2, ?_⟩⟩
  · obtain ⟨e, -, rfl⟩ := map_eq_ok.1 hi
    rfl
  · obtain ⟨i, hi, he⟩ := exists_of_mapM hnamed _ (List.mem_append_right _ List.mem_cons_self)
    obtain ⟨e, hresolve, rfl⟩ := map_eq_ok.1 he
    exact ⟨_, hi, value_aggregate [] hresolve⟩

omit hd

/-- The column of a filter stands for one of the table, or for the label. -/
theorem exists_lookup {c : String} (hitems : Resolved P t schema a all)
    (h : s.Names c ∨ ∃ l ∈ a.label? t, Text.sameAscii c l.1) :
    ∃ e, s.lookup all c = .ok e ∧ e.Safe P ∧ e.aggregate? = none := by
  rcases href : s.ref? c with - | r
  · have hnot : ¬s.Names c := by
      rw [← ref?_isSome_iff, href]
      exact Bool.false_ne_true
    obtain ⟨l, hl, hsame⟩ := h.resolve_left hnot
    have hlabel : some l.1 ∈ all.map Prod.fst := by
      rw [hitems.names]
      exact List.mem_map_of_mem (List.mem_append_left _ (Option.mem_toList.2 hl))
    obtain ⟨i, hi, hname⟩ := List.mem_map.1 hlabel
    have hany : ∃ i ∈ all, i.1.any (Text.sameAscii c) = true :=
      ⟨i, hi, by rw [hname]; exact hsame⟩
    obtain ⟨j, hfind⟩ := Option.isSome_iff_exists.1 (List.find?_isSome.2 hany)
    have hj := List.mem_of_find?_eq_some hfind
    have hfound := List.find?_some hfind
    refine ⟨j.2, by rw [lookup, href, hfind], hitems.safe j hj,
      (hitems.value j hj).resolve_right fun hv => ?_⟩
    rw [hv, Option.any_some, label_apart hl hsame] at hfound
    cases hfound
  · exact ⟨.column r, by rw [lookup, href], Expr.safe_column r, rfl⟩

include hd

theorem exists_conditions (h : s.Binds t schema a fs) (hitems : Resolved P t schema a all)
    (hnumbers : ∀ f ∈ fs, ∀ x, f.value = .number x → x.isFinite = true)
    (hpatterns : ∀ f ∈ fs, ∀ p ∈ f.pattern?, p.utf8ByteSize ≤ Cell.patternLimit) :
    ∃ cs, (t.conditions fs).mapM (s.resolve all) = .ok cs ∧
      ∀ c ∈ cs, c.Safe P ∧ c.aggregate? = none := by
  have hcondition : ∀ f ∈ fs, ∃ c, s.resolve all (t.condition f) = .ok c ∧ c.Safe P ∧
      c.aggregate? = none := fun f hf => by
    obtain ⟨e, he, hsafe, hagg⟩ := exists_lookup hitems (h.filters f hf)
    obtain ⟨c, hc, hcagg, hcsafe⟩ := exists_condition _ hd he hsafe hagg (hnumbers f hf)
    exact ⟨c, hc, hcsafe (hpatterns f hf), hcagg⟩
  rw [Target.conditions_direct hd]
  obtain ⟨cs, hcs⟩ : ∃ cs, (fs.map t.condition).mapM (s.resolve all) = .ok cs :=
    isOk_of_mapM fun c hc => by
      obtain ⟨f, hf, rfl⟩ := List.mem_map.1 hc
      exact (hcondition f hf).imp fun _ h => h.1
  refine ⟨cs, hcs, fun c hc => ?_⟩
  obtain ⟨d, hd, hresolve⟩ := mem_of_mapM hcs c hc
  obtain ⟨f, hf, rfl⟩ := List.mem_map.1 hd
  obtain ⟨e, he, hkeep⟩ := hcondition f hf
  rw [Except.ok.inj (hresolve.symm.trans he)]
  exact hkeep

/-- There is a plan as soon as every column is found. -/
theorem exists_plan (h : s.Binds t schema a fs)
    (hnumbers : ∀ f ∈ fs, ∀ x, f.value = .number x → x.isFinite = true)
    (hpatterns : ∀ f ∈ fs, ∀ p ∈ f.pattern?, p.utf8ByteSize ≤ Cell.patternLimit)
    (hdates : s.Dates P a) :
    ∃ p, s.plan (a.data t schema (t.conditions fs)) = .ok p ∧ p.Safe P := by
  obtain ⟨all, hall, hresolved⟩ := exists_items hd h.items hdates
  obtain ⟨cs, hcs, hkept⟩ := exists_conditions hd h hresolved hnumbers hpatterns
  obtain ⟨orderBy, horder, hordered⟩ := isOk_of_option (o := a.order) (Q := fun k => k.1.Safe P)
    (f := fun k => (s.orderKey (named all) k.1).map fun e => (e, k.2)) fun k hk => by
      obtain ⟨i, hi, he⟩ := orderKey_mem hresolved hk
      exact ⟨(i.2, k.2), by rw [he, map_ok], hresolved.safe i hi⟩
  obtain ⟨groupBy, hgroup, hgrouped⟩ := isOk_of_option (Q := Expr.Safe P) fun k hk =>
    groupKey_isOk hd hresolved h.items hk
  have hitems : all.map (·.2.2) = (named all).map Prod.snd := by
    rw [named, List.map_map]
    rfl
  refine ⟨_, plan_eq_ok.2 ⟨all, cs, orderBy, groupBy, hall, hcs, horder, hgroup,
    fun c hc => (hkept c hc).2, rfl⟩, ⟨fun c hc => (hkept c hc).1, fun e he => ?_, hgrouped, hordered,
    fun hnone => ?_⟩⟩
  · rw [hitems] at he
    obtain ⟨j, hj, rfl⟩ := List.mem_map.1 he
    exact hresolved.safe j hj
  · -- the value is an aggregate, so no frame goes by a window
    obtain ⟨i, hi, g, hg⟩ := hresolved.aggregate
    rw [hnone i.2 (hitems ▸ List.mem_map_of_mem hi)] at hg
    cases hg

end Existence

end Scope

end TableTalk
