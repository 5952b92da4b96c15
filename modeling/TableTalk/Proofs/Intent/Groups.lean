import TableTalk.Proofs.Store.Buckets
import TableTalk.Proofs.Intent.Results
import TableTalk.Proofs.Store.Grouping

/-!
# The groups of an analysis

An analysis that is not of all records as one puts those that its conditions keep (`Analysis.kept`)
into groups, by the cell of a column or by the bucket of a date (`Analysis.key`), and has a figure
for each (`Analysis.figure`). Whatever its plan is, a run gives these groups in the order that it
asks for, and cuts the result off behind its cap (`Scope.run_grouped`).
-/

namespace TableTalk

open Sql

namespace Cell

/-- The first day of the bucket of a date as a text; nothing for what is no date. -/
def bucket (g : Grain) (c : Cell) : Cell :=
  .ofText? ((c.timestamp?.bind fun t => g.start? t.date).map Date.render)

theorem dateTrunc_eq_ok {g : Grain} {c d : Cell}
    (h : Function2.dateTrunc.apply (.text g.name) (Function.tryCastTimestamp.apply c) = .ok d) :
    d = c.bucket g := by
  rcases ht : c.timestamp? with - | t
  · have htruncation : truncation (.text g.name) .null = .none := by
      cases g <;> rfl
    rw [tryCastTimestamp_of_none ht, Function2.apply, htruncation] at h
    rw [bucket, ht]
    exact (Except.ok.inj h).symm
  · rw [dateTrunc_tryCast ht] at h
    rw [bucket, ht, Option.bind_some]
    rcases hstart : g.start? t.date with - | first <;> rw [hstart] at h
    · cases h
    · exact (Except.ok.inj h).symm

end Cell

/-- A cell as it is read. -/
def Reading.cell : Reading → Cell → Cell
  | numeric, c => .ofFloat? c.tryCastDouble
  | date, c => .ofText? c.tryCastTimestamp
  | boolean, c => c
  | text, c => c

namespace Scope

/-- What a name stands for in a record. -/
def cell (s : Scope) (c : String) (x : Record) : Cell :=
  ((s.ref? c).map fun r => r.read (some x)).getD .null

/-- What a name stands for in a record, as a number. -/
def number (s : Scope) (c : String) (x : Record) : Cell := Reading.numeric.cell (s.cell c x)

/-- The type of the column that a name stands for. -/
def type? (s : Scope) (c : String) : Option Declared :=
  (s.ref? c).bind fun r => (Expr.column r).type?

end Scope

namespace Analysis

/-- What the groups of an analysis are told apart by. -/
def key (s : Scope) : Analysis → Record → Cell
  | aggregate _ _ groupBy, x => groupBy.elim .null fun c => s.cell c x
  | trend _ date _ grain, x => (s.cell date x).bucket grain
  | topList _ dimension _ _, x => s.cell dimension x
  | distribution _ dimension, x => s.cell dimension x
  | compare _ date period, x => (s.cell date x).bucket period.grain
  | cohort date _ interval, x => (s.cell date x).bucket interval.grain

/-- The type of the column that the groups are told apart by; a bucket has none. -/
def keyType (s : Scope) : Analysis → Option Declared
  | aggregate _ _ groupBy => groupBy.bind s.type?
  | topList _ dimension _ _ => s.type? dimension
  | distribution _ dimension => s.type? dimension
  | _ => none

/-- What is computed of a group. -/
def figure (s : Scope) (schema : Schema) : Analysis → List Record → Cell
  | aggregate metric function _, g =>
    if aggregateCountsRows schema metric function then .int g.length
    else if function = .count then AggregateFunction.count.apply (g.map (s.cell metric))
    else function.apply (g.map (s.number metric))
  | trend metric _ function _, g => function.apply (g.map (s.number metric))
  | topList metric _ _ _, g => AggregateFunction.sum.apply (g.map (s.number metric))
  | distribution metric _, g =>
    if countsRows metric then .int g.length
    else AggregateFunction.sum.apply (g.map (s.number metric))
  | compare metric _ _, g => AggregateFunction.sum.apply (g.map (s.number metric))
  | cohort _ _ _, g => .int g.length

/-- Whether the groups come in the order of their figures, and not in that of their keys. -/
def ranked : Analysis → Bool
  | aggregate _ _ groupBy => groupBy.isSome
  | topList .. => true
  | distribution .. => true
  | _ => false

/-- The direction in which the groups come. -/
def direction : Analysis → SortOrder
  | aggregate .. => .desc
  | topList _ _ _ order => order
  | distribution .. => .desc
  | _ => .asc

/-- What the groups are put in order by. -/
def place (s : Scope) (schema : Schema) (a : Analysis) : List Record → Cell :=
  if a.ranked then a.figure s schema else labelOf (a.key s)

/-- The records of a table of rows that the conditions of an analysis keep. -/
def kept (t : Target) (schema : Schema) (a : Analysis) (fs : List Filter) (rows : List Row) :
    Except Fault (List Record) := do
  let p ← (Scope.ofRows rows).plan (a.data t schema (t.conditions fs))
  p.selected (Table.ofRows t.source.text rows).numbered

end Analysis

/-- An aggregate is no column. -/
theorem Sql.Expr.type?_of_aggregate {e : Expr Ref} {f : AggregateFunction}
    (h : e.aggregate? = some f) : e.type? = none := by
  induction e with
  | column => cases h
  | paren e ih => exact ih h
  | _ => rfl

namespace Scope

variable {s : Scope} {t : Target} {schema : Schema} {a : Analysis} {e : Expr Ref}

section Evaluation

variable (hd : t.dialect = .directColumn)

include hd

/-- A column that is found is read from the record. -/
theorem evaluate_column {r : Reading} {c : String} (h : s.resolve [] (t.column r c) = .ok e)
    {f : Frame} {x : Record} (hx : f.record = some x) :
    e.evaluate f = .ok (r.cell (s.cell c x)) := by
  rw [resolve_column [] hd] at h
  obtain ⟨d, hlookup, rfl⟩ := map_eq_ok.1 h
  rw [lookup] at hlookup
  rcases href : s.ref? c with - | n
  · rw [href] at hlookup
    cases hlookup
  · rw [href] at hlookup
    cases hlookup
    have hcell : s.cell c x = n.read (some x) := by rw [cell, href]; rfl
    rw [hcell, ← hx]
    cases r <;> rfl

theorem type?_column {c : String} (h : s.resolve [] (t.column .text c) = .ok e) :
    e.type? = s.type? c := by
  rw [resolve_column [] hd] at h
  obtain ⟨d, hlookup, rfl⟩ := map_eq_ok.1 h
  rw [lookup] at hlookup
  rcases href : s.ref? c with - | n
  · rw [href] at hlookup
    cases hlookup
  · rw [href] at hlookup
    cases hlookup
    rw [type?, href]
    rfl

theorem evaluate_aggregate {f : AggregateFunction} {r : Reading} {c : String}
    (h : s.resolve [] (.aggregate f (t.column r c)) = .ok e) (g : List Record) :
    e.evaluate (.ofGroup g) = .ok (f.apply (g.map fun x => r.cell (s.cell c x))) := by
  obtain ⟨d, hd', he⟩ := bind_eq_ok.1 h
  cases he
  rw [Expr.evaluate]
  exact congrArg (Except.map f.apply) (mapM_eq_ok_map fun x _ => evaluate_column hd hd' rfl)

/-- The value of an analysis over a group is its figure. -/
theorem evaluate_value (h : s.resolve [] (a.value t schema).2 = .ok e) (g : List Record) :
    e.evaluate (.ofGroup g) = .ok (a.figure s schema g) := by
  have hcount : s.resolve [] .countRows = .ok e →
      e.evaluate (.ofGroup g) = .ok (.int g.length) := fun h => by
    cases h
    rfl
  cases a with
  | aggregate metric function groupBy =>
    simp only [Analysis.value, Analysis.aggregateExpr] at h
    rw [Analysis.figure]
    split_ifs at h ⊢
    · exact hcount h
    · exact evaluate_aggregate hd h g
    · exact evaluate_aggregate hd h g
  | distribution metric dimension =>
    simp only [Analysis.value] at h
    rw [Analysis.figure]
    split_ifs at h ⊢
    · exact hcount h
    · exact evaluate_aggregate hd h g
  | cohort date metric interval => exact hcount h
  | trend | topList | compare => exact evaluate_aggregate hd h g

theorem evaluate_bucket {g : Grain} {c : String} (h : s.resolve [] (t.bucket g c) = .ok e)
    {f : Frame} {x : Record} (hx : f.record = some x) {d : Cell} (he : e.evaluate f = .ok d) :
    d = (s.cell c x).bucket g := by
  rw [resolve_bucket [] hd] at h
  obtain ⟨n, hlookup, rfl⟩ := map_eq_ok.1 h
  have hcolumn : s.resolve [] (t.column .text c) = .ok n := by
    rw [resolve_column [] hd, hlookup]
    rfl
  have hcell : n.evaluate f = .ok (s.cell c x) := evaluate_column hd hcolumn hx
  rw [Expr.evaluate, Expr.evaluate, Expr.evaluate, hcell] at he
  exact Cell.dateTrunc_eq_ok he

/-- The label of an analysis is its key, in a record where it has a value. -/
theorem evaluate_label {l : String × Expr Name} (hl : l ∈ a.label? t)
    (h : s.resolve [] l.2 = .ok e) {f : Frame} {x : Record} {c : Cell} (hx : f.record = some x)
    (hc : e.evaluate f = .ok c) : c = a.key s x := by
  have hcolumn : ∀ {d}, s.resolve [] (t.column .text d) = .ok e → c = s.cell d x := fun h => by
    rw [evaluate_column hd h hx] at hc
    exact (Except.ok.inj hc).symm
  cases a with
  | aggregate metric function groupBy =>
    cases groupBy <;> cases hl
    exact hcolumn h
  | topList | distribution =>
    cases hl
    exact hcolumn h
  | trend | compare | cohort =>
    cases hl
    exact evaluate_bucket hd h hx hc

theorem type?_label {l : String × Expr Name} (hl : l ∈ a.label? t)
    (h : s.resolve [] l.2 = .ok e) : e.type? = a.keyType s := by
  have hbucket : ∀ {g c}, s.resolve [] (t.bucket g c) = .ok e → e.type? = none := fun h => by
    rw [resolve_bucket [] hd] at h
    obtain ⟨n, -, rfl⟩ := map_eq_ok.1 h
    rfl
  cases a with
  | aggregate metric function groupBy =>
    cases groupBy <;> cases hl
    exact type?_column hd h
  | topList | distribution =>
    cases hl
    exact type?_column hd h
  | trend | compare | cohort =>
    cases hl
    exact hbucket h

end Evaluation

section Keys

variable {l : String × Expr Name} {e v : Expr Ref} {k : Expr Name}

theorem exists_grouping (hl : l ∈ a.label? t) : ∃ k, a.grouping t = some k := by
  cases a with
  | aggregate metric function column =>
    cases column <;> cases hl
    exact ⟨_, rfl⟩
  | _ => exact ⟨_, rfl⟩

/-- Groups are told apart by their label, whether by its place or by its column. -/
theorem groupKey_label (hd : t.dialect = .directColumn) (hl : l ∈ a.label? t)
    (he : s.resolve [] l.2 = .ok e) (hk : a.grouping t = some k) :
    s.groupKey [(some l.1, e), (some (a.value t schema).1, v)] k = .ok e := by
  have hfirst : s.groupKey [(some l.1, e), (some (a.value t schema).1, v)]
      (.number (Nat.repr (0 + 1))) = .ok e := by
    rw [groupKey, ordinal?_digit]
    rfl
  cases a with
  | aggregate metric function column =>
    rcases column with - | c <;> cases hl
    cases hk
    have hcolumn : ∀ items, s.groupKey items (t.column .text c) =
        s.resolve items (t.column .text c) := fun items => by
      unfold groupKey Target.column
      rw [hd]
      rfl
    rw [hcolumn, resolve_column _ hd]
    rw [resolve_column _ hd] at he
    obtain ⟨d, hlookup, hd'⟩ := map_eq_ok.1 he
    rw [lookup_of_lookup hlookup (.inr (List.forall_mem_nil _))]
    exact congrArg _ hd'
  | _ =>
    cases hk
    exact hfirst

/-- Groups are put in order by their value where they are ranked, and by their label elsewhere. -/
theorem orderKey_place {o : SortOrder} (hl : l ∈ a.label? t) (hk : a.order = some (k, o)) :
    s.orderKey [(some l.1, e), (some (a.value t schema).1, v)] k =
      .ok (if a.ranked then v else e) := by
  have hone : s.orderKey [(some l.1, e), (some (a.value t schema).1, v)]
      (.number (Nat.repr (0 + 1))) = .ok e := orderKey_digit (i := (some l.1, e)) _ rfl
  have htwo : s.orderKey [(some l.1, e), (some (a.value t schema).1, v)]
      (.number (Nat.repr (1 + 1))) = .ok v :=
    orderKey_digit (i := (some (a.value t schema).1, v)) _ rfl
  cases a with
  | aggregate metric function column =>
    cases column <;> cases hl
    cases hk
    have hapart : Text.sameAscii "value" "group" = false := by decide
    have hsame : Text.sameAscii "value" "value" = true := by decide
    simp [orderKey, named?, Analysis.value, Analysis.ranked, Name.text, hapart, hsame]
  | compare => cases hk
  | trend | cohort =>
    cases hk
    exact hone
  | topList | distribution =>
    cases hk
    exact htwo

end Keys

/-- The plan of an analysis of groups: a label and a value for each. -/
theorem plan_grouped_eq {p : Plan} {cs : List (Expr Name)} (hd : t.dialect = .directColumn)
    {l : String × Expr Name} (hl : l ∈ a.label? t)
    (h : s.plan (a.data t schema cs) = .ok p) :
    ∃ e v, s.resolve [] l.2 = .ok e ∧ s.resolve [] (a.value t schema).2 = .ok v ∧
      p.columns = [⟨l.1, e.type?⟩, ⟨(a.value t schema).1, v.type?⟩] ∧ p.items = [e, v] ∧
      p.groupBy = some e ∧ p.limit = a.cap ∧
      p.orderBy = a.order.map fun k => (if a.ranked then v else e, k.2) := by
  obtain ⟨all, conditions, orderBy, groupBy, hall, -, horder, hgroup, -, rfl⟩ := plan_eq_ok.1 h
  rw [Analysis.data, Option.mem_def.1 hl] at hall
  obtain ⟨x, rest, hx, hrest, rfl⟩ := mapM_cons_eq_ok.1 hall
  obtain ⟨y, none, hy, hnone, rfl⟩ := mapM_cons_eq_ok.1 hrest
  obtain ⟨e, he, hx⟩ := bind_eq_ok.1 hx
  obtain ⟨v, hv, hy⟩ := bind_eq_ok.1 hy
  cases hx
  cases hy
  cases mapM_eq_ok_nil.1 hnone
  let items : List (Option String × Expr Ref) := [(some l.1, e), (some (a.value t schema).1, v)]
  have hgroup : Option.mapM (s.groupKey items) (a.grouping t) = .ok groupBy := hgroup
  have horder : (a.order.mapM fun k => (s.orderKey items k.1).map fun e => (e, k.2)) =
      .ok orderBy := horder
  refine ⟨e, v, he, hv, rfl, rfl, ?_, rfl, ?_⟩
  · obtain ⟨k, hk⟩ := exists_grouping hl
    rw [hk, Option.mapM_some, groupKey_label hd hl he hk] at hgroup
    exact (Except.ok.inj hgroup).symm
  · rcases ho : a.order with - | ⟨k, o⟩ <;> rw [ho] at horder
    · exact (Except.ok.inj horder).symm
    · rw [Option.mapM_some, orderKey_place hl ho] at horder
      exact (Except.ok.inj horder).symm

/-- Such a plan has labels and figures of groups. -/
theorem labels_of_plan {p : Plan} {cs : List (Expr Name)} (hd : t.dialect = .directColumn)
    {l : String × Expr Name} (hl : l ∈ a.label? t) (h : s.plan (a.data t schema cs) = .ok p) :
    p.Labels (a.key s) (a.figure s schema) (a.place s schema) a.direction := by
  obtain ⟨e, v, he, hv, -, hitems, hgroup, -, horder⟩ := plan_grouped_eq hd hl h
  have hlabel : ∀ f x c, f.record = some x → e.evaluate f = .ok c → c = a.key s x :=
    fun f x c hx hc => evaluate_label hd hl he hx hc
  have hvalue := evaluate_value hd hv
  have hfirst : ∀ g c, g ≠ [] → e.evaluate (.ofGroup g) = .ok c → c = labelOf (a.key s) g :=
    fun g c hg hc => by
      obtain ⟨x, g, rfl⟩ := List.exists_cons_of_ne_nil hg
      exact hlabel _ x c rfl hc
  have hsecond : ∀ g c, g ≠ [] → v.evaluate (.ofGroup g) = .ok c → c = a.figure s schema g :=
    fun g c _ hc => Except.ok.inj (hc.symm.trans (hvalue g))
  refine ⟨⟨e, v, hitems, hgroup, hlabel, hvalue⟩, ?_⟩
  rw [horder]
  cases a with
  | aggregate metric function column =>
    cases column <;> cases hl
    exact .inr ⟨v, rfl, hsecond⟩
  | compare => exact .inl ⟨rfl, rfl, rfl⟩
  | trend | cohort => exact .inr ⟨e, rfl, hfirst⟩
  | topList | distribution => exact .inr ⟨v, rfl, hsecond⟩

end Scope

/-- The row that a result has for a group. -/
def Analysis.row (s : Scope) (schema : Schema) (a : Analysis) (g : List Record) : Row :=
  Row.ofMembers (a.aliases.zip
    [Table.value ⟨"", a.keyType s⟩ (labelOf (a.key s) g), (a.figure s schema g).toJson])

/-- The bound and the names of a result are those of the selection, unless it compares. -/
theorem Analysis.cap_of_label {t : Target} (schema : Schema) {a : Analysis}
    (hkind : a.kind ≠ .compare) {l : String × Expr Name} (hl : l ∈ a.label? t) :
    a.cap = some a.bound ∧ a.aliases = [l.1, (a.value t schema).1] := by
  cases a with
  | aggregate metric function column =>
    cases column <;> cases hl
    exact ⟨rfl, rfl⟩
  | compare => exact absurd rfl hkind
  | _ =>
    cases hl
    exact ⟨rfl, rfl⟩

namespace Intent

variable {t : Target} {schema : Schema} {rows out : List Row} {a : Analysis} {fs : List Filter}

/-- Without filters all records are kept. -/
theorem kept_unfiltered {a : Analysis} {kept : List Record} (hd : t.dialect = .directColumn)
    (h : a.kept t schema [] rows = .ok kept) :
    kept = (Table.ofRows t.source.text rows).numbered := by
  obtain ⟨p, hp, hkept⟩ := bind_eq_ok.1 h
  rw [Target.conditions_direct hd] at hp
  obtain ⟨_, conditions, _, _, -, hconditions, -, -, -, rfl⟩ := Scope.plan_eq_ok.1 hp
  cases hconditions
  exact (Except.ok.inj ((Plan.selected_all rfl _).symm.trans hkept)).symm

/-- The rows of a result, in the order that the analysis asks for and up to its bound, are those of
the groups of the records that it keeps. -/
theorem execute_grouped (hd : t.dialect = .directColumn) (hkind : a.kind ≠ .compare)
    {l : String × Expr Name} (hl : l ∈ a.label? t)
    (hout : Store.executeOnce t.source.text rows (a.query t schema (t.conditions fs)).text =
      .ok out) :
    ∃ kept gs, a.kept t schema fs rows = .ok kept ∧ Splits (a.key (.ofRows rows)) kept gs ∧
      (gs.Pairwise fun g h => (a.place (.ofRows rows) schema g).notAfter a.direction
        (a.place (.ofRows rows) schema h) = true) ∧
      out = (gs.map (a.row (.ofRows rows) schema)).take a.bound := by
  obtain ⟨-, -, -, -, p, cells, u, hp, hcells, hfinish, rfl⟩ := (executeOnce_query hd a).1 hout
  rw [Analysis.finish, if_neg hkind] at hfinish
  cases hfinish
  obtain ⟨kept, gs, hkept, hsplits, hsorted, rfl⟩ := (Scope.labels_of_plan hd hl hp).run hcells
  refine ⟨kept, gs, by rw [Analysis.kept, hp]; exact hkept, hsplits, hsorted, ?_⟩
  obtain ⟨e, v, he, hv, hcolumns, -, -, hlimit, -⟩ := Scope.plan_grouped_eq hd hl hp
  have htype := Scope.type?_label hd hl he
  have hnone : v.type? = none := by
    obtain ⟨f, hf⟩ := Scope.value_aggregate [] hv
    exact Expr.type?_of_aggregate hf
  obtain ⟨hcap, haliases⟩ := Analysis.cap_of_label schema hkind hl
  rw [Plan.limited, hlimit, hcap, Table.rows, List.map_take, List.map_map]
  refine congrArg (List.take a.bound) (List.map_congr_left fun g _ => ?_)
  rw [Analysis.row, haliases, Function.comp_apply, hcolumns, htype, hnone]
  rfl

end Intent

end TableTalk
