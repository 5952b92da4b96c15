import TableTalk.Proofs.Store.Running

/-!
# A group and its records

The records of a group whose key is a text are those whose cell equals the text as a literal
(`Cell.holds_eq_text`): a column of numbers has no text that spells one, so the literal stays a text
beside it. So the records that satisfy the conditions and this equality besides are those of the
group, in their order (`Plan.selected_insert`), and the plan of an aggregate that has the equality for
its grouping gives the value of the group alone (`Scope.plan_drilled`, `Plan.run_drilled`).
-/

namespace TableTalk

open Sql

namespace Cell

variable {type : Declared} {c : Cell} {label : String}

theorem compareText_eq_iff {s t : String} : compareText s t = .eq ↔ s = t := by
  unfold compareText
  split_ifs with hlt heq
  · refine iff_of_false nofun fun h => ?_
    rw [h] at hlt
    exact String.lt_irrefl t hlt
  · exact iff_of_true rfl heq
  · exact iff_of_false nofun heq

/-- Numbers come before all texts. -/
theorem compare_text_iff (h : type.Holds c) : c.compare (.text label) = .eq ↔ c = .text label := by
  have hless : Ordering.lt ≠ .eq := by decide
  cases c with
  | null => exact iff_of_false hless nofun
  | int n => exact iff_of_false hless nofun
  | real x => exact iff_of_false hless nofun
  | text s => rw [compare, compareText_eq_iff, text.injEq]
  | loose | blob => cases h

theorem text_same_iff (h : type.Holds c) : (text label).same c = true ↔ c = .text label := by
  have hgreater : (Ordering.gt == .eq) ≠ true := by decide
  cases c with
  | null => exact iff_of_false hgreater nofun
  | int n => exact iff_of_false hgreater nofun
  | real x => exact iff_of_false hgreater nofun
  | text s => rw [same, compare, beq_iff_eq, compareText_eq_iff, text.injEq, eq_comm]
  | loose | blob => cases h

/-- A cell is compared with a text that its column can hold as they are. -/
theorem alike_text (h : type.Holds c) (hlabel : type.Holds (.text label)) :
    alike (some type) c (.text label) = (c, .text label) := by
  by_cases hv : type = .varchar
  · rw [hv] at h ⊢
    cases c with
    | null | text => rfl
    | int | real => exact absurd rfl h
    | loose | blob => cases h
  · have hspelled : ∀ s, type.Holds (.text s) → (text s).asNumber = text s := fun s hs => by
      rw [asNumber, hs.resolve_left hv]
      rfl
    have hnumbers : alike (some type) c (.text label) = (c.asNumber, (text label).asNumber) := by
      cases type <;> first | rfl | exact absurd rfl hv
    rw [hnumbers, hspelled label hlabel]
    cases c with
    | text s => rw [hspelled s h]
    | null | int | real => rfl
    | loose | blob => cases h

/-- A cell equals a text that its column can hold only if it is this text. -/
theorem holds_eq_text (h : type.Holds c) (hlabel : type.Holds (.text label)) :
    (Comparison.eq.apply (some type) c (.text label)).holds = decide (c = .text label) := by
  have hone : ∀ b, (truth b).holds = b := by decide
  have hcompare : c ≠ .null → Comparison.eq.apply (some type) c (.text label) =
      truth (c.compare (.text label) == .eq) := fun hne => by
    have halike := alike_text h hlabel
    cases c with
    | null => exact absurd rfl hne
    | int | real | text => rw [Comparison.apply, halike] <;> first | rfl | nofun
    | loose | blob => cases h
  by_cases hne : c = .null
  · rw [hne]
    rfl
  · rw [hcompare hne, hone, Bool.eq_iff_iff, beq_iff_eq, compare_text_iff h, decide_eq_true_iff]

theorem mem_of_mem_distinct : ∀ {cs : List Cell}, c ∈ distinct cs → c ∈ cs
  | [], h => h
  | d :: cs, h => by
    rcases List.mem_cons.1 h with rfl | h
    · exact List.mem_cons_self
    · exact List.mem_cons_of_mem d (mem_of_mem_distinct (List.mem_filter.1 h).1)

end Cell

theorem Sql.Expr.allHold_insert {x : Record} {e : Expr Ref} {c : Cell} {v : Bool}
    {after : List (Expr Ref)} (he : e.evaluate (.single x) = .ok c) : ∀ {before : List (Expr Ref)},
    allHold x (before ++ after) = .ok v → allHold x (before ++ e :: after) = .ok (c.holds && v)
  | [], h => by
    rw [List.nil_append] at h ⊢
    rw [allHold, he, bind_ok]
    cases c.holds
    · rfl
    · exact h
  | d :: before, h => by
    rw [List.cons_append, allHold] at h ⊢
    obtain ⟨a, ha, h⟩ := bind_eq_ok.1 h
    rw [ha, bind_ok]
    split_ifs at h ⊢
    · exact allHold_insert he h
    · cases h
      rw [Bool.and_false]

namespace Plan

variable {p q : Plan} {kept : List Record}

/-- A condition more, wherever it stands, keeps of the records those that satisfy it. -/
theorem selected_insert {before after : List (Expr Ref)} {e : Expr Ref} {keep : Record → Bool}
    (hp : p.conditions = before ++ after) (hq : q.conditions = before ++ e :: after) :
    ∀ {rs kept : List Record},
      (∀ x ∈ rs, ∃ c, e.evaluate (.single x) = .ok c ∧ c.holds = keep x) →
      p.selected rs = .ok kept → q.selected rs = .ok (kept.filter keep)
  | [], kept, _, h => by
    cases h
    rfl
  | x :: rs, kept, he, h => by
    obtain ⟨c, hc, hkeep⟩ := he x List.mem_cons_self
    obtain ⟨v, hv, h⟩ := bind_eq_ok.1 h
    obtain ⟨rest, hrest, h⟩ := bind_eq_ok.1 h
    have ih := selected_insert hp hq (fun y hy => he y (List.mem_cons_of_mem x hy)) hrest
    rw [hp] at hv
    rw [selected, hq, Expr.allHold_insert hc hv, hkeep, bind_ok, ih, bind_ok]
    cases h
    cases v <;> cases hx : keep x <;> simp [hx]

/-- The records of a group under a text are those that have it. -/
theorem group_eq_filter {o : SortOrder} {key : Record → Cell} {type : Declared} {label : String}
    (hkey : ∀ x ∈ kept, type.Holds (key x)) {g : List Record}
    (hg : g ∈ groups o (kept.map fun x => (key x, x))) {x : Record} (hx : x ∈ g)
    (hlabel : key x = .text label) : g = kept.filter fun y => decide (key y = .text label) := by
  obtain ⟨k, hk, rfl⟩ := List.mem_map.1 hg
  have hk := Cell.mem_of_mem_distinct (List.mem_mergeSort.1 hk)
  rw [List.map_map] at hk
  obtain ⟨z, hz, rfl⟩ := List.mem_map.1 hk
  have hz' := hkey z hz
  have hfilter : ((kept.map fun y => (key y, y)).filter fun y => (key z).same y.1).map Prod.snd =
      kept.filter fun y => (key z).same (key y) := by
    rw [List.filter_map, List.map_map]
    exact List.map_id _
  have hz : key z = .text label := by
    have hmem : x ∈ kept.filter fun y => (key z).same (key y) := hfilter ▸ hx
    have hsame := (List.mem_filter.1 hmem).2
    rw [hlabel, Cell.same, beq_iff_eq] at hsame
    exact (Cell.compare_text_iff hz').1 hsame
  refine hfilter.trans (List.filter_congr fun y hy => ?_)
  rw [hz, Bool.eq_iff_iff, Cell.text_same_iff (hkey y hy), decide_eq_true_iff]

theorem mem_of_selected : ∀ {rs kept : List Record}, p.selected rs = .ok kept →
    ∀ x ∈ kept, x ∈ rs
  | [], _, h, x, hx => by
    cases h
    exact hx
  | y :: rs, kept, h, x, hx => by
    obtain ⟨v, -, h⟩ := bind_eq_ok.1 h
    obtain ⟨rest, hrest, h⟩ := bind_eq_ok.1 h
    cases h
    cases v with
    | false => exact List.mem_cons_of_mem y (mem_of_selected hrest x hx)
    | true =>
      rcases List.mem_cons.1 hx with rfl | hx
      · exact List.mem_cons_self
      · exact List.mem_cons_of_mem y (mem_of_selected hrest x hx)

theorem keyed_column (r : Ref) (xs : List Record) :
    keyed (fun x => (Expr.column r).evaluate (.single x)) xs =
      .ok (xs.map fun x => (r.read (some x), x)) :=
  mapM_eq_ok_map fun _ _ => rfl

section Drilling

variable {r : Ref} {e : Expr Ref} {type : Declared} {label : String} {rs : List Record}
  {out : List (List Cell)} {v : Cell}

/-- A record of a grouped result comes from a group. -/
theorem exists_group (hgroup : p.groupBy = some (.column r)) (h : p.run rs = .ok out)
    {cells : List Cell} (hv : cells ∈ out) : ∃ kept g, p.selected rs = .ok kept ∧
      g ∈ groups p.direction (kept.map fun x => (r.read (some x), x)) ∧
      p.record (.ofGroup g) = .ok cells := by
  obtain ⟨kept, hkept, h⟩ := bind_eq_ok.1 h
  obtain ⟨fs, hfs, h⟩ := bind_eq_ok.1 h
  obtain ⟨gs, hgs, h⟩ := bind_eq_ok.1 h
  obtain ⟨f, hf, hrecord⟩ := mem_of_mapM h _ hv
  have hf := mem_of_ordered hgs (mem_limited hf)
  simp only [frames, hgroup, keyed_column, bind_ok, Except.ok.injEq] at hfs
  rw [← hfs] at hf
  obtain ⟨g, hg, rfl⟩ := List.mem_map.1 hf
  exact ⟨kept, g, hkept, hg, hrecord⟩

/-- The key of a record of a grouped result is a cell of the column, and a text among them comes
from the records that have it. -/
theorem exists_key (hgroup : p.groupBy = some (.column r)) (hitems : p.items = [.column r, e])
    (hholds : ∀ x ∈ rs, type.Holds (r.read (some x))) (h : p.run rs = .ok out)
    {cells : List Cell} (hv : cells ∈ out) : ∃ kept c v, p.selected rs = .ok kept ∧
      cells = [c, v] ∧ type.Holds c ∧ ∀ label, c = .text label →
        e.evaluate (.ofGroup (kept.filter fun x => decide (r.read (some x) = .text label))) =
          .ok v := by
  obtain ⟨kept, g, hkept, hg, hrecord⟩ := exists_group hgroup h hv
  have hkey : ∀ x ∈ kept, type.Holds (r.read (some x)) := fun x hx =>
    hholds x (mem_of_selected hkept x hx)
  rw [record, hitems] at hrecord
  obtain ⟨c, vs, hc, hvs, rfl⟩ := mapM_cons_eq_ok.1 hrecord
  obtain ⟨v, ws, hvalue, hws, rfl⟩ := mapM_cons_eq_ok.1 hvs
  rw [mapM_eq_ok_nil.1 hws]
  have hread : r.read g.head? = c := Except.ok.inj hc
  rcases hhead : g.head? with - | x
  · rw [hhead] at hread
    have hnull : c = .null := by cases r <;> exact hread.symm
    rw [hnull]
    exact ⟨kept, _, v, hkept, rfl, trivial, nofun⟩
  · rw [hhead] at hread
    have hx : x ∈ g := List.mem_of_head? hhead
    obtain ⟨k, hk, rfl⟩ := mem_groups hg hx
    obtain ⟨y, hy, rfl⟩ := List.mem_map.1 hk
    refine ⟨kept, c, v, hkept, rfl, hread ▸ hkey y hy, fun label hlabel => ?_⟩
    rw [← group_eq_filter hkey hg hx (hread.trans hlabel)]
    exact hvalue

/-- The plan without the grouping and with one condition more, that the key be the text, gives the
value of the group alone. -/
theorem run_drilled {before after : List (Expr Ref)} (hp : p.conditions = before ++ after)
    (hq : q.conditions = before ++ .compare .eq (.column r) (.text label) :: after)
    (hgroup : p.groupBy = some (.column r)) (hitems : p.items = [.column r, e])
    (hgroup' : q.groupBy = none) (hitems' : q.items = [e]) (horder : q.orderBy = none)
    (hlimit : q.limit = none) (hagg : ∃ f, e.aggregate? = some f)
    (htype : (Expr.column r).type? = some type)
    (hholds : ∀ x ∈ rs, type.Holds (r.read (some x))) (h : p.run rs = .ok out)
    (hv : [.text label, v] ∈ out) : q.run rs = .ok [[v]] := by
  obtain ⟨kept, c, w, hkept, hcells, hlabel, he⟩ := exists_key hgroup hitems hholds h hv
  rw [List.cons.injEq, List.cons.injEq] at hcells
  obtain ⟨rfl, rfl, -⟩ := hcells
  have he := he label rfl
  have hkeep : ∀ x ∈ rs, ∃ c, (Expr.compare .eq (.column r) (.text label)).evaluate (.single x) =
      .ok c ∧ c.holds = decide (r.read (some x) = .text label) := fun x hx => by
    refine ⟨_, rfl, ?_⟩
    rw [htype]
    exact Cell.holds_eq_text (hholds x hx) hlabel
  have hframes : ∀ xs, q.frames xs = .ok [.ofGroup xs] := fun xs => by
    obtain ⟨f, hf⟩ := hagg
    simp [frames, hgroup', hitems', hf]
  rw [run, selected_insert hp hq hkeep hkept, bind_ok, hframes, bind_ok, ordered, horder]
  simp [limited, hlimit, record, hitems', he]

end Drilling

/-- One record that satisfies all conditions is the one group. -/
theorem run_single {x : Record} {key e : Expr Ref} {o : SortOrder} {n : Nat} {k v : Cell}
    (hc : Expr.allHold x p.conditions = .ok true) (hgroup : p.groupBy = some key)
    (hk : key.evaluate (.single x) = .ok k) (hsame : k.same k = true)
    (horder : p.orderBy = some (e, o)) (he : e.evaluate (.ofGroup [x]) = .ok v)
    (hlimit : p.limit = some (n + 1)) : p.run [x] = (p.record (.ofGroup [x])).map fun r => [r] := by
  have hkept : p.selected [x] = .ok [x] := by
    rw [selected, hc]
    rfl
  have hframes : p.frames [x] = .ok [.ofGroup [x]] := by
    have hkeyed : keyed (fun r => key.evaluate (.single r)) [x] = .ok [(k, x)] := by
      rw [keyed, List.mapM_cons, hk]
      rfl
    simp [frames, hgroup, hkeyed, groups, Cell.distinct, hsame]
  have hordered : p.ordered [.ofGroup [x]] = .ok [.ofGroup [x]] := by
    have hkeyed : keyed (fun f => e.evaluate f) [.ofGroup [x]] = .ok [(v, .ofGroup [x])] := by
      rw [keyed, List.mapM_cons, he]
      rfl
    simp [ordered, horder, hkeyed, sorted]
  rw [run, hkept, bind_ok, hframes, bind_ok, hordered, bind_ok, limited, hlimit]
  dsimp only
  rw [List.take_succ_cons, List.take_nil, List.mapM_cons]
  rcases p.record (.ofGroup [x]) with f | r <;> rfl

end Plan

namespace Scope

variable {s : Scope} {t : Target} {schema : Schema} {metric group : String}
  {function : AggregateFunction} {cs : List (Expr Name)} {p : Plan} {r : Ref}

/-- The plan of a grouped aggregate. -/
theorem plan_grouped (hd : t.dialect = .directColumn) (hr : s.ref? group = some r)
    (h : s.plan ((Analysis.aggregate metric function (some group)).data t schema cs) = .ok p) :
    ∃ e, s.resolve [] (Analysis.aggregateExpr t schema metric function) = .ok e ∧
      cs.mapM (s.resolve [(some "group", .column r), (some "value", e)]) = .ok p.conditions ∧
      (∀ c ∈ p.conditions, c.aggregate? = none) ∧ p.groupBy = some (.column r) ∧
      p.items = [.column r, e] ∧
      p.columns = [⟨"group", (Expr.column r).type?⟩, ⟨"value", e.type?⟩] := by
  have hcolumn : t.column .text group = .column (.quoted group) := by
    unfold Target.column
    rw [hd]
  obtain ⟨all, conditions, _, groupBy, hall, hconditions, -, hgroup, hagg, rfl⟩ := plan_eq_ok.1 h
  obtain ⟨i, rest, hi, hrest, rfl⟩ := mapM_cons_eq_ok.1 hall
  obtain ⟨j, none, hj, hnone, rfl⟩ := mapM_cons_eq_ok.1 hrest
  obtain ⟨d, hresolve, hi⟩ := bind_eq_ok.1 hi
  obtain ⟨e, he, hj⟩ := bind_eq_ok.1 hj
  cases hi
  cases hj
  cases mapM_eq_ok_nil.1 hnone
  have hlookup : ∀ items, s.resolve items (t.column .text group) = .ok (.column r) ∧
      s.groupKey items (t.column .text group) = .ok (.column r) := fun items => by
    have hlookup : s.lookup items group = .ok (.column r) := by rw [lookup, hr]
    rw [hcolumn]
    exact ⟨hlookup, hlookup⟩
  have hitem : s.resolve [] (t.column .text group) = .ok d := hresolve
  rw [(hlookup []).1] at hitem
  cases hitem
  have hkey : Option.mapM (s.groupKey _) (some (t.column .text group)) = .ok groupBy := hgroup
  rw [Option.mapM_some, (hlookup _).2] at hkey
  cases hkey
  exact ⟨e, he, hconditions, hagg, rfl, rfl, rfl⟩

theorem resolve_count {total : String} (h : aggregateCountsRows schema total .count = true) :
    s.resolve [] (Analysis.aggregateExpr t schema total .count) = .ok .countRows := by
  rw [Analysis.aggregateExpr, if_pos h]
  rfl

/-- The plan of an aggregate of all records. -/
theorem plan_single {e : Expr Ref} {conditions : List (Expr Ref)}
    (he : s.resolve [] (Analysis.aggregateExpr t schema metric function) = .ok e)
    (hc : cs.mapM (s.resolve [(some "value", e)]) = .ok conditions)
    (hagg : ∀ c ∈ conditions, c.aggregate? = none) :
    s.plan ((Analysis.aggregate metric function none).data t schema cs) =
      .ok ⟨[⟨"value", e.type?⟩], [e], conditions, none, none, none⟩ := by
  refine plan_eq_ok.2 ⟨[(some "value", ⟨"value", e.type?⟩, e)], conditions, none, none, ?_, hc, rfl,
    rfl, hagg, rfl⟩
  refine mapM_cons_eq_ok.2 ⟨_, [], ?_, rfl, rfl⟩
  exact bind_eq_ok.2 ⟨e, he, rfl⟩

/-- A condition on columns of the table does not depend on the items beside it. -/
theorem resolve_condition (hd : t.dialect = .directColumn) {f : Filter} (hf : s.Names f.column)
    {items : List (Option String × Expr Ref)}
    (hitems : ∀ i ∈ items, ∀ n ∈ [Name.bare "NaN", .bare "inf"],
      i.1.any (Text.sameAscii n.text) = false) {c : Expr Ref}
    (h : s.resolve items (t.condition f) = .ok c) (others : List (Option String × Expr Ref)) :
    s.resolve others (t.condition f) = .ok c := by
  obtain ⟨ns, hnames, hns⟩ := Target.names_condition hd (f := f)
  refine Expr.bind_congr h fun n hn d hd => lookup_of_lookup hd ?_ others
  rw [hnames] at hn
  rcases List.mem_cons.1 hn with rfl | hn
  · exact .inl hf
  · exact .inr fun i hi => hitems i hi n (hns n hn)

theorem resolve_comparison (hd : t.dialect = .directColumn) (hr : s.ref? group = some r)
    (items : List (Option String × Expr Ref)) (op : Comparison) (label : String) :
    s.resolve items (.compare op (t.column .text group) (.text label)) =
      .ok (.compare op (.column r) (.text label)) := by
  have hcolumn := resolve_column (s := s) items hd .text group
  rw [lookup, hr] at hcolumn
  rw [resolve] at hcolumn ⊢
  rw [Expr.bind, hcolumn]
  rfl

theorem resolve_label (hd : t.dialect = .directColumn) (hr : s.ref? group = some r)
    (items : List (Option String × Expr Ref)) (label : String) :
    s.resolve items (t.condition ⟨group, .eq, .text label⟩) =
      .ok (.compare .eq (.column r) (.text label)) :=
  resolve_comparison hd hr items .eq label

/-- The plan of an aggregate without its grouping, and with one filter more for its column, differs
from that of the grouped one in nothing else. -/
theorem plan_drilled {before after : List Filter} (hd : t.dialect = .directColumn)
    (hr : s.ref? group = some r) (hnames : ∀ f ∈ before ++ after, s.Names f.column)
    (h : s.plan ((Analysis.aggregate metric function (some group)).data t schema
      (t.conditions (before ++ after))) = .ok p) (label : String) :
    ∃ e cb ca, p.conditions = cb ++ ca ∧ p.groupBy = some (.column r) ∧
      p.items = [.column r, e] ∧
      p.columns = [⟨"group", (Expr.column r).type?⟩, ⟨"value", e.type?⟩] ∧
      (∃ f, e.aggregate? = some f) ∧
      s.plan ((Analysis.aggregate metric function none).data t schema
        (t.conditions (before ++ ⟨group, .eq, .text label⟩ :: after))) =
          .ok ⟨[⟨"value", e.type?⟩], [e], cb ++ .compare .eq (.column r) (.text label) :: ca, none,
            none, none⟩ := by
  obtain ⟨e, he, hconditions, hagg, hgroup, hitems, hcolumns⟩ := plan_grouped hd hr h
  rw [Target.conditions_direct hd, List.map_append] at hconditions
  obtain ⟨cb, ca, hcb, hca, hall⟩ := mapM_append_eq_ok.1 hconditions
  have hapart : ∀ i ∈ [some "group", some "value"], ∀ n ∈ [Name.bare "NaN", .bare "inf"],
      i.any (Text.sameAscii n.text) = false := by decide
  have hsame : ∀ fs : List Filter, (∀ f ∈ fs, s.Names f.column) → ∀ cs,
      (fs.map t.condition).mapM (s.resolve [(some "group", .column r), (some "value", e)]) = .ok cs →
      (fs.map t.condition).mapM (s.resolve [(some "value", e)]) = .ok cs := fun fs hfs cs hcs => by
    refine mapM_congr_ok hcs fun c hc d hresolve => ?_
    obtain ⟨f, hf, rfl⟩ := List.mem_map.1 hc
    exact resolve_condition hd (hfs f hf) (by simpa using hapart) hresolve _
  have hcb := hsame before (fun f hf => hnames f (List.mem_append_left _ hf)) cb hcb
  have hca := hsame after (fun f hf => hnames f (List.mem_append_right _ hf)) ca hca
  refine ⟨e, cb, ca, hall, hgroup, hitems, hcolumns,
    value_aggregate [] (a := .aggregate metric function none) he, plan_single he ?_ ?_⟩
  · rw [Target.conditions_direct hd, List.map_append, List.map_cons]
    exact mapM_append_eq_ok.2 ⟨cb, _, hcb, mapM_cons_eq_ok.2
      ⟨_, ca, resolve_label hd hr _ label, hca, rfl⟩, rfl⟩
  · rw [hall, List.forall_mem_append] at hagg
    rw [List.forall_mem_append, List.forall_mem_cons]
    exact ⟨hagg.1, rfl, hagg.2⟩

end Scope

/-- A text of a result is a text of the table. -/
theorem Table.eq_text_of_value {type : Declared} {column : Column} {c : Cell} {label : String}
    (hc : type.Holds c) (h : value column c = .str label) : c = .text label := by
  have hvalue : c.toJson = .str label := by
    unfold value at h
    split at h
    · cases h
    · exact h
  cases c with
  | null | int => cases hvalue
  | text s => rw [Json.str.inj hvalue]
  | real x =>
    rw [Cell.toJson, Json.ofFloat] at hvalue
    split_ifs at hvalue
  | loose | blob => cases hc

end TableTalk
