import TableTalk.Proofs.Intent.Groups

/-!
# Ranking

Where groups come in the order of their figures, the rows of a result do so too, and none that was
cut off goes in front of one that was not (`Intent.execute_ranked`). A list of the top groups is the
start of the longest such list, and one from the bottom up is the same list backwards if all groups
are in it and no two are even.
-/

namespace TableTalk

open Sql

/-- A value of a result as a cell: a number, or nothing. -/
def Json.figure : Json → Cell
  | int n => .int n
  | double x => .real x
  | _ => .null

/-- What a row has as its value. -/
def Row.figure (row : Row) : Cell := (row.get? "value").elim .null Json.figure

namespace Cell

/-- No infinite number. -/
def Finite (c : Cell) : Prop := ∀ x, c = real x → x.isFinite = true

/-- A number of a result is read back unless it is infinite. -/
theorem figure_toJson {c : Cell} (hrank : c.rank ≤ 1) (h : c.Finite) : c.toJson.figure = c := by
  cases c with
  | null | int => rfl
  | real x =>
    have hx : x.isFinite = true := h x rfl
    rw [toJson, Json.ofFloat, if_pos hx]
    rfl
  | text | loose => exact absurd hrank (show ¬2 ≤ 1 by decide)
  | blob => exact absurd hrank (show ¬3 ≤ 1 by decide)

theorem rank_ofFloat (x : Float) : (ofFloat x).rank ≤ 1 := by
  unfold ofFloat
  split_ifs
  · exact Nat.zero_le 1
  · exact Nat.le_refl 1

end Cell

namespace AggregateFunction

theorem first_mem (o : Ordering) : ∀ cs : List Cell, first o cs = .null ∨ first o cs ∈ cs
  | [] => .inl rfl
  | c :: cs => by
    have hfold : ∀ (cs : List Cell) (best : Cell),
        cs.foldl (fun best c => if c.compare best = o then c else best) best ∈ best :: cs := by
      intro cs
      induction cs with
      | nil => exact fun best => List.mem_singleton.2 rfl
      | cons c cs ih =>
        intro best
        rw [List.foldl_cons]
        split_ifs
        · exact List.mem_cons_of_mem best (ih c)
        · rcases List.mem_cons.1 (ih best) with h | h
          · exact List.mem_cons.2 (.inl h)
          · exact List.mem_cons_of_mem best (List.mem_cons_of_mem c h)
    exact .inr (hfold cs c)

/-- An aggregate of numbers is one, or nothing. -/
theorem rank_apply (f : AggregateFunction) {cs : List Cell}
    (h : f = .count ∨ ∀ c ∈ cs, c.rank ≤ 1) : (f.apply cs).rank ≤ 1 := by
  have hfirst : (∀ c ∈ cs, c.rank ≤ 1) → ∀ o, (first o (present cs)).rank ≤ 1 := fun h o => by
    rcases first_mem o (present cs) with hnull | hmem
    · rw [hnull]
      decide
    · exact h _ (List.mem_filter.1 hmem).1
  cases f with
  | count => exact le_refl 1
  | min => exact hfirst (h.resolve_left nofun) _
  | max => exact hfirst (h.resolve_left nofun) _
  | sum | avg =>
    simp only [apply]
    split_ifs
    · exact Nat.zero_le 1
    · exact Cell.rank_ofFloat _

end AggregateFunction

namespace Analysis

variable (s : Scope) (schema : Schema)

/-- A figure is a number, or nothing. -/
theorem rank_figure (a : Analysis) (g : List Record) : (a.figure s schema g).rank ≤ 1 := by
  have hnumber : ∀ c, ∀ d ∈ g.map (s.number c), d.rank ≤ 1 := fun c d hd => by
    obtain ⟨x, -, rfl⟩ := List.mem_map.1 hd
    rw [Scope.number, Reading.cell]
    rcases (s.cell c x).tryCastDouble with - | y
    · exact Nat.zero_le 1
    · exact Cell.rank_ofFloat y
  have haggregate : ∀ (f : AggregateFunction) c, (f.apply (g.map (s.number c))).rank ≤ 1 :=
    fun f c => f.rank_apply (.inr (hnumber c))
  cases a with
  | aggregate metric function groupBy =>
    rw [figure]
    split_ifs
    · exact le_refl 1
    · exact AggregateFunction.rank_apply .count (.inl rfl)
    · exact haggregate _ _
  | distribution metric dimension =>
    rw [figure]
    split_ifs
    · exact le_refl 1
    · exact haggregate _ _
  | cohort => exact le_refl 1
  | trend metric _ function _ => exact haggregate function metric
  | topList metric | compare metric => exact haggregate .sum metric

theorem label_of_ranked (t : Target) {a : Analysis} (ha : a.ranked = true) :
    a.kind ≠ .compare ∧ ∃ l, l ∈ a.label? t := by
  cases a with
  | aggregate metric function groupBy =>
    cases groupBy
    · cases ha
    · exact ⟨nofun, _, rfl⟩
  | topList | distribution => exact ⟨nofun, _, rfl⟩
  | trend | compare | cohort => cases ha

/-- A row shows the figure of its group. -/
theorem figure_row {a : Analysis} (ha : a.ranked = true) {g : List Record}
    (h : (a.figure s schema g).Finite) : (a.row s schema g).figure = a.figure s schema g := by
  have hvalue : ∀ (name : String) (x y : Json), name ≠ "value" →
      (Row.ofMembers [(name, x), ("value", y)]).get? "value" = some y := fun name x y hne => by
    have happart : ("value" == name) = false := beq_eq_false_iff_ne.2 hne.symm
    simp [Row.get?, Row.ofMembers, setMembers, setMember, List.lookup_cons, hne, happart]
  have hget : (a.row s schema g).get? "value" = some (a.figure s schema g).toJson := by
    cases a with
    | aggregate metric function groupBy =>
      cases groupBy
      · cases ha
      · exact hvalue "group" _ _ (by decide)
    | topList | distribution => exact hvalue "label" _ _ (by decide)
    | trend | compare | cohort => cases ha
  rw [Row.figure, hget]
  exact Cell.figure_toJson (rank_figure s schema a g) h

end Analysis

section TopList

variable {t : Target} {schema : Schema} {rows out : List Row} {fs : List Filter}
  {metric dimension : String} {limit limit' : Nat} {order order' : SortOrder}

/-- A list from the other end, or of another length, has nothing else in its plan. -/
theorem Scope.plan_reordered {s : Scope} {cs : List (Expr Name)} {p : Plan}
    (h : s.plan ((Analysis.topList metric dimension limit order).data t schema cs) = .ok p)
    (limit' : Nat) (order' : SortOrder) : ∃ q,
      s.plan ((Analysis.topList metric dimension limit' order').data t schema cs) = .ok q ∧
        q.conditions = p.conditions := by
  obtain ⟨all, conditions, orderBy, groupBy, hall, hc, ho, hg, hagg, rfl⟩ := plan_eq_ok.1 h
  have ho : Option.mapM (fun k : Expr Name × SortOrder =>
      (s.orderKey (named all) k.1).map fun e => (e, k.2)) (some (.number "2", order)) =
        .ok orderBy := ho
  obtain ⟨e, he⟩ : ∃ e, s.orderKey (named all) (.number "2") = .ok e := by
    rcases hkey : s.orderKey (named all) (.number "2") with f | e
    · rw [Option.mapM_some, hkey] at ho
      cases ho
    · exact ⟨e, rfl⟩
  refine ⟨_, plan_eq_ok.2 ⟨all, conditions, some (e, order'), groupBy, hall, hc, ?_, hg, hagg, rfl⟩,
    rfl⟩
  show Option.mapM (fun k : Expr Name × SortOrder =>
    (s.orderKey (named all) k.1).map fun e => (e, k.2)) (some (.number "2", order')) = _
  rw [Option.mapM_some, he]
  rfl

/-- Without its conditions a plan is that of the analysis without filters. -/
theorem Scope.plan_unfiltered {s : Scope} {a : Analysis} {cs : List (Expr Name)} {p : Plan}
    (h : s.plan (a.data t schema cs) = .ok p) :
    s.plan (a.data t schema []) = .ok { p with conditions := [] } := by
  obtain ⟨all, conditions, orderBy, groupBy, hall, -, ho, hg, -, rfl⟩ := plan_eq_ok.1 h
  exact plan_eq_ok.2 ⟨all, [], orderBy, groupBy, hall, rfl, ho, hg, nofun, rfl⟩

namespace Intent

variable (hd : t.dialect = .directColumn)
  (hout : Store.executeOnce t.source.text rows ((Analysis.topList metric dimension limit
    order).query t schema (t.conditions fs)).text = .ok out)

include hd hout

/-- A list of another length, or from the other end, can be made too. -/
theorem execute_reordered (limit' : Nat) (order' : SortOrder) : ∃ out',
    Store.executeOnce t.source.text rows ((Analysis.topList metric dimension limit' order').query
      t schema (t.conditions fs)).text = .ok out' := by
  obtain ⟨hload, hclosed, hdepth, -, p, cells, u, hp, hcells, -⟩ := (executeOnce_query hd _).1 hout
  obtain ⟨q, hq, hconditions⟩ := Scope.plan_reordered hp limit' order'
  obtain ⟨kept, hkept, -⟩ := bind_eq_ok.1 hcells
  have hempty : (Scope.ofRows rows).Binds t schema (.topList metric dimension limit' order') [] :=
    ⟨(Scope.binds_of_plan hd hq).items, nofun⟩
  obtain ⟨q', hq', hsafe⟩ := Scope.exists_plan (P := fun _ => True) hd hempty nofun nofun nofun
  rw [Target.conditions_direct hd, List.map_nil, Scope.plan_unfiltered hq] at hq'
  cases hq'
  obtain ⟨out', hout'⟩ := Plan.run_isOk_of_selected hsafe
    ((Plan.selected_congr hconditions _).trans hkept) fun _ _ => trivial
  have hclosed' : ∀ u ∈ ((Analysis.topList metric dimension limit' order').query t schema
      (t.conditions fs)).tokens, u.broken = false := by
    rw [unbroken_query] at hclosed ⊢
    exact hclosed
  exact ⟨_, (executeOnce_query hd _).2 ⟨hload, hclosed', hdepth, nofun, q, out', _, hq, hout', rfl,
    rfl⟩⟩

omit hd hout

theorem kept_reordered {kept : List Record}
    (h : (Analysis.topList metric dimension limit order).kept t schema fs rows = .ok kept)
    (limit' : Nat) (order' : SortOrder) :
    (Analysis.topList metric dimension limit' order').kept t schema fs rows = .ok kept := by
  obtain ⟨p, hp, hkept⟩ := bind_eq_ok.1 h
  obtain ⟨q, hq, hconditions⟩ := Scope.plan_reordered hp limit' order'
  exact bind_eq_ok.2 ⟨q, hq, (Plan.selected_congr hconditions _).trans hkept⟩

end Intent

end TopList

namespace Intent

variable {t : Target} {schema : Schema} {rows out : List Row} {i : Intent} {text : String}

section TopList

variable {metric dimension : String} {limit limit' : Nat} {order order' : SortOrder}
  {fs : List Filter} {c : Float} {r : String}

theorem compile_topList
    (h : (analyze (.topList metric dimension limit order) fs c r).compile t schema = .ok text)
    (limit' : Nat) (order' : SortOrder) :
    (analyze (.topList metric dimension limit' order') fs c r).compile t schema =
      .ok ((Analysis.topList metric dimension limit' order').query t schema
        (t.conditions fs)).text := by
  obtain ⟨q, hq, -⟩ := map_eq_ok.1 h
  exact map_eq_ok.2 ⟨_, query_eq_ok.2 ⟨(query_eq_ok.1 hq).1, rfl⟩, rfl⟩

/-- A list is the start of the longest one. -/
theorem execute_shorter {text' : String} {out' : List Row} (hd : t.dialect = .directColumn)
    (h : (analyze (.topList metric dimension limit order) fs c r).compile t schema = .ok text)
    (h' : (analyze (.topList metric dimension 100 order) fs c r).compile t schema = .ok text')
    (hout : Store.executeOnce t.source.text rows text = .ok out)
    (hout' : Store.executeOnce t.source.text rows text' = .ok out') :
    out = out'.take (max 1 (min limit 100)) := by
  obtain ⟨_, _, _, _, q, all, ⟨⟩, hq, -, hall, htake, -⟩ := execute_bounded hd h hout
  obtain ⟨_, _, _, _, q', all', ⟨⟩, hq', -, hall', htake', -⟩ := execute_bounded hd h' hout'
  obtain ⟨-, rfl⟩ := query_eq_ok.1 hq
  obtain ⟨-, rfl⟩ := query_eq_ok.1 hq'
  -- without their limits the two queries are the same
  have hsame : all = all' := Except.ok.inj (hall.symm.trans hall')
  have hbound : min (max 1 (min limit 100)) 100 = max 1 (min limit 100) := by omega
  rw [htake', htake, hsame]
  show all'.take (max 1 (min limit 100)) = (all'.take 100).take (max 1 (min limit 100))
  rw [List.take_take, hbound]

end TopList

/-- Groups come in the order of their figures. -/
theorem execute_ranked (hd : t.dialect = .directColumn) (h : i.compile t schema = .ok text)
    (hout : Store.executeOnce t.source.text rows text = .ok out) {a : Analysis} {fs : List Filter}
    {c : Float} {r : String} (hi : i = analyze a fs c r) (ha : a.ranked = true) :
    ∃ kept gs, a.kept t schema fs rows = .ok kept ∧ Splits (a.key (.ofRows rows)) kept gs ∧
      (gs.Pairwise fun g h => (a.figure (.ofRows rows) schema g).notAfter a.direction
        (a.figure (.ofRows rows) schema h) = true) ∧
      out = (gs.map (a.row (.ofRows rows) schema)).take a.bound ∧
      ((∀ g ∈ gs, (a.figure (.ofRows rows) schema g).Finite) →
        (out.Pairwise fun x y => x.figure.notAfter a.direction y.figure = true) ∧
        ∀ x ∈ out, ∀ y ∈ (gs.map (a.row (.ofRows rows) schema)).drop a.bound,
          x.figure.notAfter a.direction y.figure = true) ∧
      ∀ metric dimension limit order, a = .topList metric dimension limit order →
        (∃ text' out', (analyze (.topList metric dimension 100 order) fs c r).compile t schema =
            .ok text' ∧ Store.executeOnce t.source.text rows text' = .ok out' ∧
          out = out'.take (max 1 (min limit 100)) ∧
          out.length = min (max 1 (min limit 100)) gs.length) ∧
        (limit = 100 → gs.length ≤ 100 →
          (gs.Pairwise fun g h => (a.figure (.ofRows rows) schema g).same
            (a.figure (.ofRows rows) schema h) = false) →
          ∃ text', (analyze (.topList metric dimension 100 order.flip) fs c r).compile t schema =
              .ok text' ∧
            Store.executeOnce t.source.text rows text' = .ok out.reverse) := by
  let s := Scope.ofRows rows
  subst hi
  obtain ⟨_, _, _, _, ⟨⟩, -, htext⟩ := exists_analyze h
  obtain ⟨hkind, l, hl⟩ := Analysis.label_of_ranked t ha
  obtain ⟨kept, gs, hkept, hsplits, hsorted, hrows⟩ := execute_grouped hd hkind hl (htext ▸ hout)
  have hplace : a.place s schema = a.figure s schema := if_pos ha
  rw [hplace] at hsorted
  refine ⟨kept, gs, hkept, hsplits, hsorted, hrows, fun hfinite => ?_, ?_⟩
  · have hsorted' : (gs.map (a.row s schema)).Pairwise fun x y =>
        x.figure.notAfter a.direction y.figure = true := by
      refine List.pairwise_map.2 (hsorted.imp_of_mem fun hg hh hgh => ?_)
      rwa [Analysis.figure_row s schema ha (hfinite _ hg),
        Analysis.figure_row s schema ha (hfinite _ hh)]
    rw [hrows]
    exact ⟨hsorted'.sublist (List.take_sublist _ _), fun x hx y hy =>
      hsorted'.rel_of_mem_take_of_mem_drop hx hy⟩
  · rintro metric dimension limit order rfl
    rw [htext] at hout
    refine ⟨?_, ?_⟩
    · obtain ⟨out', hout'⟩ := execute_reordered hd hout 100 order
      have h' := compile_topList h 100 order
      refine ⟨_, out', h', hout', execute_shorter hd h h' (htext ▸ hout) hout', ?_⟩
      rw [hrows, List.length_take, List.length_map]
      rfl
    · rintro rfl hlength happart
      obtain ⟨out', hout'⟩ := execute_reordered hd hout 100 order.flip
      obtain ⟨kept', hs, hkept', hsplits', hsorted', hrows'⟩ := execute_grouped hd
        (a := .topList metric dimension 100 order.flip) hkind rfl hout'
      cases (kept_reordered hkept 100 order.flip).symm.trans hkept'
      have hreverse : hs = gs.reverse :=
        Cell.eq_reverse_of_apart (hsplits.unique hsplits') hsorted hsorted' happart
      have hall : out = gs.map (Analysis.row s schema (.topList metric dimension 100 order)) := by
        rw [hrows, List.take_of_length_le]
        rwa [List.length_map]
      refine ⟨_, compile_topList h 100 order.flip, ?_⟩
      rw [hout', hrows', hreverse, hall, List.map_reverse, List.take_of_length_le]
      · rfl
      · rwa [List.length_reverse, List.length_map]

/-- Two rows with a number each under a text. -/
def labelled : List Row := [⟨[("label", .str "B"), ("value", .int 1)], by decide⟩,
  ⟨[("label", .str "A"), ("value", .int 3)], by decide⟩]

theorem load_labelled : ∃ s, Store.empty.load defaultTable labelled = .ok s :=
  Store.load_isOk_iff.2 ⟨by decide, by decide, by decide, nofun, by decide, by decide, nofun,
    by decide⟩

/-- The first of two groups is that of a longer list. -/
theorem execute_ranked_two : ∃ (text : String) (out : List Row) (gs : List (List Record)),
    (analyze (.topList "value" "label" 1 .desc) [] 1 "").compile ⟨.directColumn, none, none⟩
      (Profile.ofRows labelled) = .ok text ∧
    Store.executeOnce defaultTable labelled text = .ok out ∧
    (gs.Pairwise fun g h => ((Analysis.topList "value" "label" 1 .desc).figure (.ofRows labelled)
      (Profile.ofRows labelled) g).notAfter .desc ((Analysis.topList "value" "label" 1 .desc).figure
        (.ofRows labelled) (Profile.ofRows labelled) h) = true) ∧
    ∃ text' out', (analyze (.topList "value" "label" 100 .desc) [] 1 "").compile
        ⟨.directColumn, none, none⟩ (Profile.ofRows labelled) = .ok text' ∧
      Store.executeOnce defaultTable labelled text' = .ok out' ∧ out = out'.take 1 ∧
      out.length = min 1 gs.length := by
  have hl : Limits ⟨.directColumn, none, none⟩ labelled
      (analyze (.topList "value" "label" 1 .desc) [] 1 "") :=
    ⟨by decide, by decide, nofun, by rintro a fs c r ⟨⟩ b ⟨⟩⟩
  have hkeys : ∀ d ∈ (analyze (.topList "value" "label" 1 .desc) [] 1 "").readColumns
      (Profile.ofRows labelled), ∃ first ∈ labelled.head?, d ∈ first.keys := by decide
  obtain ⟨text, out, htext, hout⟩ :=
    exists_execute load_labelled (by decide +kernel) hl nofun hkeys
  obtain ⟨-, gs, -, -, hsorted, -, -, hlist⟩ := execute_ranked (t := ⟨.directColumn, none, none⟩)
    rfl htext hout rfl rfl
  exact ⟨text, out, gs, htext, hout, hsorted, (hlist _ _ _ _ rfl).1⟩

end Intent

end TableTalk
