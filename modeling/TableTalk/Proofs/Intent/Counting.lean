import TableTalk.Proofs.Intent.Matching

/-!
# Counts

Groups that are counted have a row for each kind of cell, with the number of rows that show it, and
together they are all rows that the filters keep (`Intent.execute_counted`). The number of rows
alone, and the number of cells of a column that hold something, are counted over the same rows.
-/

namespace TableTalk

open Sql

/-- The kinds of some cells: no two are the same, and each cell is the same as one of them. -/
structure Cell.Kinds (cs kinds : List Cell) : Prop where
  apart : kinds.Pairwise fun v w => v.same w = false
  mem : ∀ v ∈ kinds, v ∈ cs
  cover : ∀ c ∈ cs, ∃ v ∈ kinds, v.same c = true

/-- The labels of groups are the kinds of what the groups are told apart by. -/
theorem Splits.kinds {α : Type} {key : α → Cell} {xs : List α} {gs : List (List α)}
    (h : Splits key xs gs) : Cell.Kinds (xs.map key) (gs.map (labelOf key)) := by
  have hhead : ∀ g ∈ gs, ∃ x ∈ g, labelOf key g = key x := fun g hg => by
    obtain ⟨x, g, rfl⟩ := List.exists_cons_of_ne_nil (h.ne_nil hg)
    exact ⟨x, List.mem_cons_self, rfl⟩
  refine ⟨List.pairwise_map.2 (h.apart.imp_of_mem fun {g k} hg hk happart => ?_), fun v hv => ?_,
    fun c hc => ?_⟩
  · obtain ⟨x, hx, hxg⟩ := hhead g hg
    obtain ⟨y, hy, hyk⟩ := hhead k hk
    rw [hxg, hyk]
    exact happart x hx y hy
  · obtain ⟨g, hg, rfl⟩ := List.mem_map.1 hv
    obtain ⟨x, hx, hxg⟩ := hhead g hg
    exact hxg ▸ List.mem_map_of_mem (h.mem hg hx)
  · obtain ⟨x, hx, rfl⟩ := List.mem_map.1 hc
    obtain ⟨g, hg, hxg⟩ := h.cover x hx
    exact ⟨_, List.mem_map_of_mem hg, h.labelOf_same hg hxg⟩

/-- A group has as many elements as there are of its kind. -/
theorem Splits.length_eq_countP {α : Type} {key : α → Cell} {xs : List α} {gs : List (List α)}
    (h : Splits key xs gs) {g : List α} (hg : g ∈ gs) :
    g.length = (xs.map key).countP (labelOf key g).same := by
  obtain ⟨x, hx, -⟩ := h.group g hg
  rw [List.countP_map, List.countP_eq_length_filter]
  conv_lhs => rw [h.eq_filter hg hx]
  refine congrArg List.length (List.filter_congr fun y _ => ?_)
  exact (Cell.same_congr (h.labelOf_same hg hx) (key y)).symm

/-- Whether a row has a value other than null under a name. -/
def Row.has (row : Row) (c : String) : Bool :=
  match row.get? c with
  | none => false
  | some .null => false
  | some _ => true

/-- A column keeps nothing only for nothing. -/
theorem Declared.store_eq_null_iff (type : Declared) {c : Cell} :
    type.store c = .null ↔ c = .null := by
  have hnumber : ∀ {d : Cell}, d.isNumber = true → d ≠ .null := fun h he => by
    rw [he] at h
    cases h
  have hkept : ∀ {d : Cell}, d.isNumber = true → type.store d ≠ .null := fun {d} h => by
    have hreal := Cell.isNumber_toReal h
    have hwhole := Cell.isNumber_toWhole h
    cases d with
    | null | text | loose | blob => cases h
    | int | real =>
      cases type with
      | varchar => nofun
      | double => exact hnumber hreal
      | boolean | integer | unnamed => exact hnumber hwhole
  cases c with
  | null => cases type <;> exact iff_of_true rfl rfl
  | int n => exact iff_of_false (hkept rfl) nofun
  | real x => exact iff_of_false (hkept rfl) nofun
  | text s =>
    refine iff_of_false ?_ nofun
    have hspelled : ∀ f : Cell → Cell, (∀ d, d.isNumber = true → (f d).isNumber = true) →
        ((Cell.numeric? s).map f).getD (.text s) ≠ .null := fun f hf => by
      rcases hs : Cell.numeric? s with - | d
      · nofun
      · exact hnumber (hf d (Cell.isNumber_of_numeric? hs))
    cases type with
    | varchar => nofun
    | double => exact hspelled _ fun _ => Cell.isNumber_toReal
    | boolean | integer | unnamed => exact hspelled _ fun _ => Cell.isNumber_toWhole
  | loose | blob => cases type <;> exact iff_of_false nofun nofun

theorem Row.stored_ne_null_iff (first row : Row) (c : String) :
    (first.stored row c != .null) = row.has c := by
  have hcell : ∀ v : Option Json, (Cell.ofJson v != .null) = match v with
      | none => false
      | some .null => false
      | some _ => true := fun v => by
    rcases v with - | v
    · rfl
    · cases v with
      | int n =>
        rw [Cell.ofJson]
        split <;> rfl
      | null | bool | double | str | arr | obj => rfl
  have hstore : (first.stored row c != .null) = (Cell.ofJson (row.get? c) != .null) := by
    rw [Bool.eq_iff_iff, bne_iff_ne, bne_iff_ne]
    exact not_congr (Declared.store_eq_null_iff _)
  rw [hstore, hcell]
  rfl

/-- A date that can be read has a bucket, where there is one at all. -/
theorem Cell.bucket_eq_null_iff {g : Grain} {c d : Cell}
    (h : Function2.dateTrunc.apply (.text g.name) (Function.tryCastTimestamp.apply c) = .ok d) :
    c.bucket g = .null ↔ c.timestamp? = none := by
  rcases ht : c.timestamp? with - | t
  · refine iff_of_true ?_ rfl
    rw [bucket, ht]
    rfl
  · refine iff_of_false ?_ (Option.some_ne_none t)
    rw [dateTrunc_tryCast ht] at h
    rw [bucket, ht, Option.bind_some]
    rcases hstart : g.start? t.date with - | first <;> rw [hstart] at h
    · cases h
    · intro hnull
      cases hnull

/-- No item is named like a number that is none. -/
theorem Analysis.item_apart (t : Target) (schema : Schema) (a : Analysis) :
    ∀ l ∈ (a.label? t).toList ++ [a.value t schema], ∀ n ∈ [Name.bare "NaN", .bare "inf"],
      Text.sameAscii n.text l.1 = false := by
  have hnames : ∀ name ∈ ["group", "value", "date", "label", "period_date", "total_value",
      "cohort_date", "cohort_size"], ∀ n ∈ [Name.bare "NaN", .bare "inf"],
      Text.sameAscii n.text name = false := by decide
  intro l hl
  refine hnames l.1 ?_
  rcases List.mem_append.1 hl with hl | hl
  · have hl := Option.mem_toList.1 hl
    cases a with
    | aggregate metric function groupBy =>
      cases groupBy <;> cases hl
      simp
    | _ =>
      cases hl
      simp
  · rw [List.mem_singleton.1 hl]
    cases a <;> simp [value]

namespace Intent

variable {t : Target} {schema : Schema} {rows out : List Row} {a : Analysis} {fs : List Filter}

/-- Where groups are counted, the result has a row for each kind of what they are told apart by. -/
theorem execute_tally (hd : t.dialect = .directColumn) (hkind : a.kind ≠ .compare)
    {l : String × Expr Name} (hl : l ∈ a.label? t)
    (hcount : ∀ g, a.figure (.ofRows rows) schema g = .int g.length)
    (hout : Store.executeOnce t.source.text rows (a.query t schema (t.conditions fs)).text =
      .ok out) :
    ∃ kept kinds, a.kept t schema fs rows = .ok kept ∧
      Cell.Kinds (kept.map (a.key (.ofRows rows))) kinds ∧
      (a.ranked = false → kinds.Pairwise fun v w => v.notAfter a.direction w = true) ∧
      (kinds.map fun v => (kept.map (a.key (.ofRows rows))).countP v.same).sum = kept.length ∧
      out = (kinds.map fun v => Row.ofMembers (a.aliases.zip
        [Table.value ⟨"", a.keyType (.ofRows rows)⟩ v,
          .int ((kept.map (a.key (.ofRows rows))).countP v.same)])).take a.bound := by
  obtain ⟨kept, gs, hkept, hsplits, hsorted, rfl⟩ := execute_grouped hd hkind hl hout
  refine ⟨kept, gs.map (labelOf (a.key (.ofRows rows))), hkept, hsplits.kinds, fun hranked => ?_,
    ?_, ?_⟩
  · have hplace : a.place (.ofRows rows) schema = labelOf (a.key (.ofRows rows)) :=
      if_neg (by rw [hranked]; decide)
    exact List.pairwise_map.2 (hplace ▸ hsorted)
  · rw [List.map_map, ← hsplits.sum_length]
    exact congrArg List.sum (List.map_congr_left fun g hg => (hsplits.length_eq_countP hg).symm)
  · rw [List.map_map]
    refine congrArg _ (List.map_congr_left fun g hg => ?_)
    rw [Function.comp_apply, ← hsplits.length_eq_countP hg, Analysis.row, hcount]
    rfl

/-- A single number is the figure of all records that are kept. -/
theorem execute_single {metric : String} {function : AggregateFunction}
    (hd : t.dialect = .directColumn) (hout : Store.executeOnce t.source.text rows
      ((Analysis.aggregate metric function none).query t schema (t.conditions fs)).text = .ok out) :
    ∃ kept, (Analysis.aggregate metric function none).kept t schema fs rows = .ok kept ∧
      out = [Row.ofMembers [("value", ((Analysis.aggregate metric function none).figure
        (.ofRows rows) schema kept).toJson)]] := by
  obtain ⟨-, -, -, -, p, cells, u, hp, hcells, hfinish, rfl⟩ := (executeOnce_query hd _).1 hout
  cases hfinish
  obtain ⟨all, conditions, orderBy, groupBy, hall, -, horder, hgroup, -, hplan⟩ :=
    Scope.plan_eq_ok.1 hp
  obtain ⟨x, nothing, hx, hnothing, rfl⟩ := mapM_cons_eq_ok.1 hall
  obtain ⟨e, he, hx⟩ := bind_eq_ok.1 hx
  cases hx
  cases mapM_eq_ok_nil.1 hnothing
  cases horder
  cases hgroup
  obtain ⟨f, hf⟩ := Scope.value_aggregate [] (a := .aggregate metric function none) he
  rw [hplan] at hcells
  obtain ⟨kept, v, hkept, hv, rfl⟩ := (Plan.run_whole_eq_ok rfl rfl rfl rfl ⟨f, hf⟩).1 hcells
  have hvalue := Scope.evaluate_value hd (a := .aggregate metric function none) he kept
  cases hvalue.symm.trans hv
  refine ⟨kept, by rw [Analysis.kept, hp, hplan]; exact hkept, ?_⟩
  have htype : e.type? = none := Expr.type?_of_aggregate hf
  rw [hplan, Table.rows, List.map_singleton]
  simp only [List.map_cons, List.map_nil, List.zip_cons_cons, List.zip_nil_right, htype]
  rfl

/-- Where an analysis runs, the number of the records that it keeps can be asked for. -/
theorem execute_total {total : String} (hd : t.dialect = .directColumn)
    (hnames : ∀ f ∈ fs, (Scope.ofRows rows).Names f.column)
    (htotal : aggregateCountsRows schema total .count = true)
    (hout : Store.executeOnce t.source.text rows (a.query t schema (t.conditions fs)).text =
      .ok out) :
    ∃ kept, a.kept t schema fs rows = .ok kept ∧
      Store.executeOnce t.source.text rows ((Analysis.aggregate total .count none).query t schema
        (t.conditions fs)).text = .ok [Row.ofMembers [("value", .int kept.length)]] := by
  obtain ⟨hload, hclosed, hdepth, -, p, cells, u, hp, hcells, -⟩ := (executeOnce_query hd a).1 hout
  obtain ⟨kept, hkept, -⟩ := bind_eq_ok.1 hcells
  obtain ⟨all, conditions, _, _, hall, hconditions, -, -, hagg, hplan⟩ := Scope.plan_eq_ok.1 hp
  have hapart : ∀ i ∈ Scope.named all, ∀ n ∈ [Name.bare "NaN", .bare "inf"],
      i.1.any (Text.sameAscii n.text) = false := fun i hi n hn => by
    obtain ⟨l, hl, hi⟩ := mem_of_mapM (Scope.named_items hall) i hi
    obtain ⟨e, -, rfl⟩ := map_eq_ok.1 hi
    exact a.item_apart t schema l hl n hn
  have hsame : (t.conditions fs).mapM ((Scope.ofRows rows).resolve [(some "value", .countRows)]) =
      .ok conditions := by
    refine mapM_congr_ok hconditions fun e he d hresolve => ?_
    rw [Target.conditions_direct hd] at he
    obtain ⟨f, hf, rfl⟩ := List.mem_map.1 he
    exact Scope.resolve_condition hd (hnames f hf) hapart hresolve _
  have hitems : (Analysis.aggregate total .count none).itemColumns schema = [] := by
    rw [Analysis.itemColumns, if_pos htotal]
    rfl
  have hclosed' : ∀ u ∈ ((Analysis.aggregate total .count none).query t schema
      (t.conditions fs)).tokens, u.broken = false := by
    rw [unbroken_query] at hclosed ⊢
    refine ⟨hclosed.1, fun c hc => ?_, hclosed.2.2⟩
    rw [hitems] at hc
    cases hc
  have hrun : (Plan.mk [⟨"value", none⟩] [.countRows] conditions none none none).run
      (Table.ofRows t.source.text rows).numbered = .ok [[.int kept.length]] :=
    (Plan.run_whole_eq_ok rfl rfl rfl rfl ⟨_, rfl⟩).2 ⟨kept, _,
      (Plan.selected_congr (by rw [hplan]) _).trans hkept, rfl, rfl⟩
  refine ⟨kept, by rw [Analysis.kept, hp]; exact hkept, (executeOnce_query hd _).2 ⟨hload, hclosed',
    hdepth, by rintro ⟨⟩, _, _, _, Scope.plan_single (Scope.resolve_count htotal) hsame hagg, hrun, rfl, rfl⟩⟩

/-- A date of a result can be read exactly if it has a bucket. -/
theorem execute_dated {b : Grain × String} (hd : t.dialect = .directColumn) (hb : b ∈ a.bucket?)
    {n : Ref} (hn : (Scope.ofRows rows).ref? b.2 = some n)
    (hout : Store.executeOnce t.source.text rows (a.query t schema (t.conditions fs)).text =
      .ok out) {kept : List Record} (hkept : a.kept t schema fs rows = .ok kept) :
    ∀ x ∈ kept, ((Scope.ofRows rows).cell b.2 x).bucket b.1 = .null ↔
      ((Scope.ofRows rows).cell b.2 x).timestamp? = none := by
  obtain ⟨-, -, -, -, p, cells, u, hp, hcells, -⟩ := (executeOnce_query hd a).1 hout
  obtain ⟨kept', hkept', hcells⟩ := bind_eq_ok.1 hcells
  obtain ⟨frames, hframes, -⟩ := bind_eq_ok.1 hcells
  rw [Analysis.kept, hp, bind_ok, hkept'] at hkept
  cases hkept
  intro x hx
  obtain ⟨d, hd'⟩ := Plan.exists_of_frames (Scope.groupBy_bucket hd hp hb hn) hframes x hx
  have hcell : (Scope.ofRows rows).cell b.2 x = n.read (some x) := by rw [Scope.cell, hn]; rfl
  rw [hcell]
  exact Cell.bucket_eq_null_iff hd'

section Kept

variable {first : Row} {rest : List Row} (hd : t.dialect = .directColumn)
  (hfs : ∀ f ∈ fs, f.Clear first)

include hd hfs

theorem map_cell_kept {kept : List Record} {d : String}
    (hload : ∃ s, Store.empty.load t.source.text (first :: rest) = .ok s)
    (hkept : a.kept t schema fs (first :: rest) = .ok kept) (hmem : d ∈ first.keys) :
    kept.map ((Scope.ofRows (first :: rest)).cell d) =
      (first.matching rest fs).map (first.stored · d) :=
  Analysis.map_kept hd hload hfs hkept fun n row => Scope.cell_ofRows hload hmem n row

theorem length_kept {kept : List Record}
    (hload : ∃ s, Store.empty.load t.source.text (first :: rest) = .ok s)
    (hkept : a.kept t schema fs (first :: rest) = .ok kept) :
    kept.length = (first.matching rest fs).length := by
  have hmap := Analysis.map_kept hd hload hfs hkept (g := fun _ => ()) (k := fun _ => ())
    fun _ _ => rfl
  simpa using congrArg List.length hmap

theorem execute_distribution {metric dimension : String} (hmetric : countsRows metric = true)
    (hdimension : dimension ∈ first.keys)
    (hout : Store.executeOnce t.source.text (first :: rest)
      ((Analysis.distribution metric dimension).query t schema (t.conditions fs)).text = .ok out) :
    ∃ kinds, Cell.Kinds ((first.matching rest fs).map (first.stored · dimension)) kinds ∧
      out = (kinds.map fun v => Row.ofMembers [
        ("label", Table.value ⟨"", some (.ofCell (first.get? dimension))⟩ v),
        ("value", .int (((first.matching rest fs).map (first.stored · dimension)).countP
          v.same))]).take 20 ∧
      (kinds.map fun v => ((first.matching rest fs).map (first.stored · dimension)).countP
        v.same).sum = (first.matching rest fs).length := by
  have hload := ((executeOnce_query hd _).1 hout).1
  have hkind : (Analysis.distribution metric dimension).kind ≠ .compare := nofun
  obtain ⟨kept, kinds, hkept, hkinds, -, hsum, hrows⟩ := execute_tally hd hkind rfl
    (fun g => by rw [Analysis.figure, if_pos hmetric]) hout
  have hkeys : kept.map ((Analysis.distribution metric dimension).key (.ofRows (first :: rest))) =
      (first.matching rest fs).map (first.stored · dimension) :=
    map_cell_kept hd hfs hload hkept hdimension
  have htype : (Analysis.distribution metric dimension).keyType (.ofRows (first :: rest)) =
      some (.ofCell (first.get? dimension)) := Scope.type?_ofRows hload hdimension
  rw [hkeys] at hkinds hsum hrows
  rw [htype] at hrows
  exact ⟨kinds, hkinds, hrows, hsum.trans (length_kept hd hfs hload hkept)⟩

theorem execute_cohort {date : String} {metric : Option String} {interval : CohortInterval}
    (hdate : date ∈ first.keys)
    (hout : Store.executeOnce t.source.text (first :: rest)
      ((Analysis.cohort date metric interval).query t schema (t.conditions fs)).text = .ok out) :
    ∃ kinds, Cell.Kinds ((first.matching rest fs).map fun row =>
        (first.stored row date).bucket interval.grain) kinds ∧
      (kinds.Pairwise fun v w => v.compare w = .lt) ∧
      out = (kinds.map fun v => Row.ofMembers [("cohort_date", v.toJson),
        ("cohort_size", .int (((first.matching rest fs).map fun row =>
          (first.stored row date).bucket interval.grain).countP v.same))]).take 24 ∧
      (kinds.map fun v => ((first.matching rest fs).map fun row =>
        (first.stored row date).bucket interval.grain).countP v.same).sum =
          (first.matching rest fs).length ∧
      ∀ row ∈ first.matching rest fs, (first.stored row date).bucket interval.grain = .null ↔
        (first.stored row date).timestamp? = none := by
  have hload := ((executeOnce_query hd _).1 hout).1
  have hkind : (Analysis.cohort date metric interval).kind ≠ .compare := nofun
  obtain ⟨kept, kinds, hkept, hkinds, hsorted, hsum, hrows⟩ := execute_tally hd hkind rfl
    (fun g => rfl) hout
  have hcells := map_cell_kept hd hfs hload hkept hdate
  have hkeys : kept.map ((Analysis.cohort date metric interval).key (.ofRows (first :: rest))) =
      (first.matching rest fs).map fun row => (first.stored row date).bucket interval.grain := by
    have hmap := congrArg (List.map (Cell.bucket interval.grain)) hcells
    rwa [List.map_map, List.map_map] at hmap
  rw [hkeys] at hkinds hsum hrows
  refine ⟨kinds, hkinds, ?_, hrows, hsum.trans (length_kept hd hfs hload hkept), ?_⟩
  · -- the order lets equal labels stand side by side, but no two kinds are the same
    refine (hsorted rfl).imp₂ (fun v w hle hne => ?_) hkinds.apart
    have hlt : ∀ o : Ordering, (o != .gt) = true → (o == .eq) = false → o = .lt := by decide
    exact hlt _ hle hne
  · intro row hrow
    obtain ⟨k, -, hr⟩ := Scope.ref?_ofRows hload hdate
    obtain ⟨x, hx, hxrow⟩ := List.mem_map.1 (hcells.symm ▸
      List.mem_map_of_mem (f := (first.stored · date)) hrow)
    rw [← hxrow]
    exact execute_dated hd (b := (interval.grain, date)) rfl hr hout hkept x hx

theorem execute_count {metric : String} (hout : Store.executeOnce t.source.text (first :: rest)
      ((Analysis.aggregate metric .count none).query t (Profile.ofRows (first :: rest))
        (t.conditions fs)).text = .ok out) :
    (aggregateCountsRows (Profile.ofRows (first :: rest)) metric .count = true →
      out = [Row.ofMembers [("value", .int (first.matching rest fs).length)]]) ∧
    (metric ∈ first.keys →
      out = [Row.ofMembers [("value", .int ((first.matching rest fs).countP (·.has metric)))]]) := by
  have hload := ((executeOnce_query hd _).1 hout).1
  obtain ⟨kept, hkept, rfl⟩ := execute_single hd hout
  refine ⟨fun hall => ?_, fun hmetric => ?_⟩
  · rw [Analysis.figure, if_pos hall, length_kept hd hfs hload hkept]
    rfl
  · have hcontains : (Profile.ofRows (first :: rest)).contains metric = true :=
      Profile.contains_ofRows.2 ⟨first, List.mem_cons_self, hmetric⟩
    have hcell : aggregateCountsRows (Profile.ofRows (first :: rest)) metric .count = false := by
      simp [aggregateCountsRows, hcontains]
    have hhas : (first.matching rest fs).countP ((· != .null) ∘ (first.stored · metric)) =
        (first.matching rest fs).countP (·.has metric) :=
      List.countP_congr fun row _ => Bool.eq_iff_iff.1 (first.stored_ne_null_iff row metric)
    rw [Analysis.figure, hcell, if_neg Bool.false_ne_true, if_pos rfl,
      map_cell_kept hd hfs hload hkept hmetric, ← hhas, ← List.countP_map,
      List.countP_eq_length_filter]
    rfl

end Kept

/-- Counts are those of the rows that the filters keep. -/
theorem execute_counted {first : Row} {rest : List Row} {c : Float} {r text : String}
    (hd : t.dialect = .directColumn) (hfs : ∀ f ∈ fs, f.Clear first)
    (h : (analyze a fs c r).compile t (Profile.ofRows (first :: rest)) = .ok text)
    (hout : Store.executeOnce t.source.text (first :: rest) text = .ok out) :
    (∀ metric dimension, a = .distribution metric dimension → countsRows metric = true →
      dimension ∈ first.keys → ∃ kinds,
        Cell.Kinds ((first.matching rest fs).map (first.stored · dimension)) kinds ∧
        out = (kinds.map fun v => Row.ofMembers [
          ("label", Table.value ⟨"", some (.ofCell (first.get? dimension))⟩ v),
          ("value", .int (((first.matching rest fs).map (first.stored · dimension)).countP
            v.same))]).take 20 ∧
        (kinds.map fun v => ((first.matching rest fs).map (first.stored · dimension)).countP
          v.same).sum = (first.matching rest fs).length) ∧
    (∀ date metric interval, a = .cohort date metric interval → date ∈ first.keys → ∃ kinds,
      Cell.Kinds ((first.matching rest fs).map fun row =>
        (first.stored row date).bucket interval.grain) kinds ∧
      (kinds.Pairwise fun v w => v.compare w = .lt) ∧
      out = (kinds.map fun v => Row.ofMembers [("cohort_date", v.toJson),
        ("cohort_size", .int (((first.matching rest fs).map fun row =>
          (first.stored row date).bucket interval.grain).countP v.same))]).take 24 ∧
      (kinds.map fun v => ((first.matching rest fs).map fun row =>
        (first.stored row date).bucket interval.grain).countP v.same).sum =
          (first.matching rest fs).length ∧
      ∀ row ∈ first.matching rest fs, (first.stored row date).bucket interval.grain = .null ↔
        (first.stored row date).timestamp? = none) ∧
    (∀ metric, a = .aggregate metric .count none →
      (aggregateCountsRows (Profile.ofRows (first :: rest)) metric .count = true →
        out = [Row.ofMembers [("value", .int (first.matching rest fs).length)]]) ∧
      (metric ∈ first.keys →
        out = [Row.ofMembers [("value", .int ((first.matching rest fs).countP (·.has metric)))]])) ∧
    ∀ total, aggregateCountsRows (Profile.ofRows (first :: rest)) total .count = true → ∃ text',
      (analyze (.aggregate total .count none) fs c r).compile t (Profile.ofRows (first :: rest)) =
        .ok text' ∧
      Store.executeOnce t.source.text (first :: rest) text' =
        .ok [Row.ofMembers [("value", .int (first.matching rest fs).length)]] := by
  obtain ⟨_, _, _, _, ⟨⟩, hq, rfl⟩ := exists_analyze h
  refine ⟨?_, ?_, ?_, fun total htotal => ?_⟩
  · rintro metric dimension rfl hmetric hdimension
    exact execute_distribution hd hfs hmetric hdimension hout
  · rintro date metric interval rfl hdate
    exact execute_cohort hd hfs hdate hout
  · rintro metric rfl
    exact execute_count hd hfs hout
  · have hnames : ∀ f ∈ fs, (Scope.ofRows (first :: rest)).Names f.column := fun f hf =>
      Scope.names_ofRows.2 (Row.answers_of_mem (hfs f hf).column)
    obtain ⟨kept, hkept, htotal'⟩ := execute_total hd hnames htotal hout
    rw [length_kept hd hfs ((executeOnce_query hd a).1 hout).1 hkept] at htotal'
    refine ⟨_, map_eq_ok.2 ⟨_, query_eq_ok.2 ⟨fun d hd => ?_, rfl⟩, rfl⟩, htotal'⟩
    have hchecked : (Analysis.aggregate total .count none).checkedColumns
        (Profile.ofRows (first :: rest)) = [] := by
      rw [Analysis.checkedColumns, if_pos htotal]
      rfl
    rw [hchecked, List.nil_append] at hd
    exact (query_eq_ok.1 hq).1 d (List.mem_append_right _ hd)

/-- Letters, one of which is left out. -/
def letters : List Row := [⟨[("letter", .str "A")], by decide⟩, ⟨[("letter", .str "B")], by decide⟩,
  ⟨[("letter", .str "A")], by decide⟩, ⟨[("letter", .str "C")], by decide⟩]

/-- Three of four rows are counted, in two groups and alone. -/
theorem execute_counted_letters : ∃ (text : String) (out : List Row) (kinds : List Cell),
    (analyze (.distribution "count" "letter") [⟨"letter", .neq, .text "C"⟩] 1 "").compile
      ⟨.directColumn, none, none⟩ (Profile.ofRows letters) = .ok text ∧
    Store.executeOnce defaultTable letters text = .ok out ∧
    Cell.Kinds [.text "A", .text "B", .text "A"] kinds ∧
    out = (kinds.map fun v => Row.ofMembers [("label", Table.value ⟨"", some .varchar⟩ v),
      ("value", .int ([Cell.text "A", .text "B", .text "A"].countP v.same))]).take 20 ∧
    (kinds.map fun v => [Cell.text "A", .text "B", .text "A"].countP v.same).sum = 3 ∧
    ∃ text', (analyze (.aggregate "*" .count none) [⟨"letter", .neq, .text "C"⟩] 1 "").compile
        ⟨.directColumn, none, none⟩ (Profile.ofRows letters) = .ok text' ∧
      Store.executeOnce defaultTable letters text' = .ok [Row.ofMembers [("value", .int 3)]] := by
  let first : Row := ⟨[("letter", .str "A")], by decide⟩
  let fs : List Filter := [⟨"letter", .neq, .text "C"⟩]
  have hload : ∃ s, Store.empty.load defaultTable letters = .ok s :=
    Store.load_isOk_iff.2 ⟨by decide, by decide, by decide, nofun, by decide, by decide, nofun,
      by decide⟩
  have hl : Limits ⟨.directColumn, none, none⟩ letters
      (analyze (.distribution "count" "letter") fs 1 "") :=
    ⟨by decide, by decide, by decide, by rintro a fs c r ⟨⟩ b ⟨⟩⟩
  have hfinite : ∀ f ∈ fs, ∀ x, f.value = .number x → x.isFinite = true := by
    simp [fs]
  obtain ⟨text, out, htext, hout⟩ :=
    exists_execute hload (by decide +kernel) hl hfinite (by decide)
  have hclear : ∀ f ∈ fs, f.Clear first := fun f hf => by
    obtain rfl := List.mem_singleton.1 hf
    exact ⟨by decide, nofun, by decide⟩
  have htext' : (analyze (.distribution "count" "letter") fs 1 "").compile
      ⟨.directColumn, none, none⟩ (Profile.ofRows (first :: letters.tail)) = .ok text := htext
  obtain ⟨hcounts, -, -, htotal⟩ :=
    execute_counted (t := ⟨.directColumn, none, none⟩) rfl hclear htext' hout
  obtain ⟨kinds, hkinds, hrows, hsum⟩ := hcounts _ _ rfl (by decide) (by decide)
  have hcells : (first.matching letters.tail fs).map (first.stored · "letter") =
      [.text "A", .text "B", .text "A"] := by decide +kernel
  have hlength : (first.matching letters.tail fs).length = 3 := by decide +kernel
  rw [hcells] at hkinds hrows hsum
  rw [hlength] at hsum htotal
  exact ⟨text, out, kinds, htext, hout, hkinds, hrows, hsum, htotal "*" (by decide)⟩

end Intent

end TableTalk
