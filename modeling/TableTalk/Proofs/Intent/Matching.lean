import TableTalk.Proofs.Intent.Groups
import TableTalk.Proofs.Intent.Renaming
import TableTalk.Proofs.Store.Contents

/-!
# The records that filters keep

A filter asks something of one cell of a record (`Filter.holds`). Where its column is one of the
table, and no word that it puts bare in the query is the name of one, the records that a query keeps
are those of whose cells all filters hold (`Analysis.kept_eq_filter`).
-/

namespace TableTalk

open Sql

/-- The cell that a column is compared with. -/
def FilterValue.cell : FilterValue → Cell
  | bool b => .truth b
  | number x =>
    let c := Cell.literal (magnitudeText x)
    if negative x then c.negate else c
  | text s => .text s

/-- Whether a filter holds of a cell of a column with this type. -/
def Filter.holds (type : Option Declared) (f : Filter) (c : Cell) : Bool :=
  let compare (op : Comparison) : Bool :=
    (op.apply (if f.value.reading = .numeric then none else type) (f.value.reading.cell c)
      f.value.cell).holds
  let like (pattern : String) : Bool := c.lower.like (Cell.text pattern).lower = some true
  match f.operator with
  | .eq => compare .eq
  | .neq => compare .ne
  | .gt => compare .gt
  | .lt => compare .lt
  | .gte => compare .ge
  | .lte => compare .le
  | .contains => like ("%" ++ f.value.shown ++ "%")
  | .ilike => like f.value.shown

namespace Scope

variable {s : Scope} {t : Target} {f : Filter} {r : Ref} {items : List (Option String × Expr Ref)}

/-- The value of a filter is its cell in every record. -/
theorem resolve_value (items : List (Option String × Expr Ref)) {v : FilterValue}
    (hfinite : ∀ x, v = .number x → x.isFinite = true)
    (hwords : ∀ w ∈ v.expr.words, s.cell? w = none) : ∃ e, s.resolve items v.expr = .ok e ∧
      e.type? = none ∧ ∀ g, e.evaluate g = .ok v.cell := by
  cases v with
  | bool b =>
    have htruth : s.truth b = .truth b := by
      have hword := hwords _ List.mem_cons_self
      rw [cell?, Expr.truthWord] at hword
      rw [truth, hword]
    exact ⟨.truth b, congrArg _ htruth, rfl, fun _ => rfl⟩
  | number x =>
    rw [FilterValue.expr, expr_number (hfinite x rfl), FilterValue.cell]
    split_ifs <;> exact ⟨_, rfl, rfl, fun _ => rfl⟩
  | text x => exact ⟨.text x, rfl, rfl, fun _ => rfl⟩

section Condition

variable (hd : t.dialect = .directColumn) (hr : s.ref? f.column = some r) {e : Expr Ref}
  {x : Record} {d : Cell} (he : e.evaluate (.single x) = .ok d)

include hd hr

theorem resolve_read (items : List (Option String × Expr Ref)) (a : Reading) :
    s.resolve items (t.column a f.column) = .ok (a.apply (.column r)) := by
  rw [resolve_column items hd, lookup, hr]
  rfl

include he

/-- A comparison holds in a record if it does of the cell there. -/
theorem holds_of_comparison {op : Comparison}
    (hfinite : ∀ x, f.value = .number x → x.isFinite = true)
    (hwords : ∀ w ∈ f.value.expr.words, s.cell? w = none)
    (h : s.resolve items (.compare op (t.column f.value.reading f.column) f.value.expr) = .ok e) :
    d.holds = (op.apply (if f.value.reading = .numeric then none else s.type? f.column)
      (f.value.reading.cell (s.cell f.column x)) f.value.cell).holds := by
  obtain ⟨v, hv, hvtype, hvalue⟩ := resolve_value items hfinite hwords
  have hleft := resolve_read hd hr items f.value.reading
  rw [resolve] at h hleft hv
  rw [Expr.bind, hleft, bind_ok, hv, bind_ok] at h
  cases h
  have hcell : s.cell f.column x = r.read (some x) := by rw [cell, hr]; rfl
  have htype : s.type? f.column = (Expr.column r).type? := by rw [type?, hr]; rfl
  have hread : (f.value.reading.apply (.column r)).evaluate (.single x) =
      .ok (f.value.reading.cell (r.read (some x))) := by
    cases f.value.reading <;> rfl
  have hcommon : Declared.common? (f.value.reading.apply (.column r)).type? v.type? =
      if f.value.reading = .numeric then none else (Expr.column r).type? := by
    have hnone : ∀ o, Declared.common? o none = o := fun o => by cases o <;> rfl
    rw [hvtype, hnone]
    cases hreading : f.value.reading with
    | date => cases hv : f.value <;> rw [hv] at hreading <;> cases hreading
    | numeric | boolean | text => rfl
  rw [Expr.evaluate, hread, bind_ok, hvalue, bind_ok, hcommon] at he
  rw [hcell, htype, ← Except.ok.inj he]

/-- A pattern holds in a record if the cell there is like it. -/
theorem holds_of_pattern {p : String} (h : s.resolve items (t.pattern f.column p) = .ok e) :
    d.holds = decide ((s.cell f.column x).lower.like (Cell.text p).lower = some true) := by
  have hlookup : s.lookup items f.column = .ok (.column r) := by rw [lookup, hr]
  rw [resolve_pattern items hd hlookup] at h
  cases h
  have hcell : s.cell f.column x = r.read (some x) := by rw [cell, hr]; rfl
  have hlike : (r.read (some x)).lower.matching (Cell.text p).lower = .ok d := he
  rw [Cell.matching] at hlike
  split_ifs at hlike
  cases hlike
  rw [hcell]
  rcases (r.read (some x)).lower.like (Cell.text p).lower with _ | _ | _ <;> rfl

/-- The condition of a filter holds in a record if the filter does of the cell there. -/
theorem holds_of_condition (hfinite : ∀ x, f.value = .number x → x.isFinite = true)
    (hwords : ∀ w ∈ f.words, s.cell? w = none) (h : s.resolve items (t.condition f) = .ok e) :
    d.holds = f.holds (s.type? f.column) (s.cell f.column x) := by
  have hbare : f.pattern? = none → ∀ w ∈ f.value.expr.words, s.cell? w = none := fun hpattern => by
    simpa [Filter.words, hpattern] using hwords
  unfold Target.condition at h
  unfold Filter.holds
  cases hop : f.operator <;> rw [hop] at h
  case contains => exact holds_of_pattern hd hr he h
  case ilike => exact holds_of_pattern hd hr he h
  all_goals exact holds_of_comparison hd hr he hfinite (hbare (by rw [Filter.pattern?, hop])) h

end Condition

end Scope

/-- A plan keeps the records of which its conditions hold. -/
theorem Plan.selected_eq_filter {p : Plan} {keep : Record → Bool} : ∀ {rs kept : List Record},
    p.selected rs = .ok kept →
    (∀ x ∈ rs, ∀ b, Expr.allHold x p.conditions = .ok b → b = keep x) → kept = rs.filter keep
  | [], kept, h, _ => by
    cases h
    rfl
  | r :: rs, kept, h, hkeep => by
    obtain ⟨b, hb, h⟩ := bind_eq_ok.1 h
    obtain ⟨rest, hrest, h⟩ := bind_eq_ok.1 h
    cases h
    rw [selected_eq_filter hrest fun x hx => hkeep x (List.mem_cons_of_mem r hx),
      hkeep r List.mem_cons_self b hb, List.filter_cons]

/-- What a filter needs of a table to be what it says: a column of its own, no number that is none,
and no word that stands for another column. -/
structure Filter.Asks (f : Filter) (s : Scope) : Prop where
  column : ∃ r, s.ref? f.column = some r
  finite : ∀ x, f.value = .number x → x.isFinite = true
  words : ∀ w ∈ f.words, s.cell? w = none

/-- Whether all filters hold of the cells of a record. -/
def Scope.keeps (s : Scope) (fs : List Filter) (x : Record) : Bool :=
  fs.all fun f => f.holds (s.type? f.column) (s.cell f.column x)

section Kept

variable {t : Target} {schema : Schema} {fs : List Filter} (hd : t.dialect = .directColumn)

include hd

theorem Scope.allHold_eq {s : Scope} {items : List (Option String × Expr Ref)} {x : Record} :
    ∀ {fs : List Filter} {cs : List (Expr Ref)} {b : Bool}, (∀ f ∈ fs, f.Asks s) →
      (fs.map t.condition).mapM (s.resolve items) = .ok cs → Expr.allHold x cs = .ok b →
      b = s.keeps fs x
  | [], cs, b, _, hcs, hb => by
    rw [mapM_eq_ok_nil.1 hcs] at hb
    cases hb
    rfl
  | f :: fs, cs, b, hfs, hcs, hb => by
    obtain ⟨e, es, he, hes, rfl⟩ := mapM_cons_eq_ok.1 hcs
    obtain ⟨d, hd', hb⟩ := bind_eq_ok.1 hb
    obtain ⟨⟨r, hr⟩, hfinite, hwords⟩ := hfs f List.mem_cons_self
    have hholds := holds_of_condition hd hr hd' hfinite hwords he
    rw [Scope.keeps, List.all_cons, ← hholds]
    rcases hkeep : d.holds
    · rw [hkeep] at hb
      cases hb
      rfl
    · rw [hkeep] at hb
      exact allHold_eq (fun g hg => hfs g (List.mem_cons_of_mem f hg)) hes hb

/-- A query keeps the records of whose cells its filters hold. -/
theorem Analysis.kept_eq_filter {a : Analysis} {rows : List Row} {kept : List Record}
    (hfs : ∀ f ∈ fs, f.Asks (.ofRows rows)) (h : a.kept t schema fs rows = .ok kept) :
    kept = (Table.ofRows t.source.text rows).numbered.filter ((Scope.ofRows rows).keeps fs) := by
  obtain ⟨p, hp, hkept⟩ := bind_eq_ok.1 h
  rw [Target.conditions_direct hd] at hp
  obtain ⟨all, conditions, _, _, -, hconditions, -, -, -, rfl⟩ := Scope.plan_eq_ok.1 hp
  exact Plan.selected_eq_filter hkept fun x _ b hb => Scope.allHold_eq hd hfs hconditions hb

end Kept

namespace Row

/-- Whether all filters hold of the cells of a row. -/
def keeps (first : Row) (fs : List Filter) (row : Row) : Bool :=
  fs.all fun f => f.holds (some (.ofCell (first.get? f.column))) (first.stored row f.column)

/-- The rows that filters keep of those that start with this one. -/
def matching (first : Row) (rest : List Row) (fs : List Filter) : List Row :=
  (first :: rest).filter (first.keeps fs)

end Row

/-- What a filter needs of the first row: a column there, no number that is none, and no word that
is the name of a column. -/
structure Filter.Clear (f : Filter) (first : Row) : Prop where
  column : f.column ∈ first.keys
  finite : ∀ x, f.value = .number x → x.isFinite = true
  words : ∀ w ∈ f.words, ∀ k ∈ first.keys, Text.sameAscii k w = false

namespace Table

/-- The records of a table have a number each. -/
theorem nodup_numbered (T : Table) : T.numbered.Nodup := by
  refine List.pairwise_iff_getElem.2 fun i j hi hj hij h => ?_
  simp only [numbered, List.getElem_mapIdx, Record.mk.injEq] at h
  omega

/-- A record of a table of rows comes from one of them. -/
theorem exists_row {name : String} {rows : List Row} {x : Record}
    (h : x ∈ (Table.ofRows name rows).numbered) :
    ∃ n, ∃ row ∈ rows, x = ⟨n, record (columnsOf rows) row⟩ := by
  obtain ⟨i, hi, rfl⟩ := List.mem_mapIdx.1 h
  have hlength : i < rows.length := by simpa [ofRows] using hi
  exact ⟨i + 1, rows[i], List.getElem_mem hlength, by simp [ofRows]⟩

end Table

section Rows

variable {first : Row} {rest : List Row} {name c : String}

/-- A column of the first row is found under its name, with the type that its cell gives it. -/
theorem Scope.ref?_ofRows (hload : ∃ s, Store.empty.load name (first :: rest) = .ok s)
    (hc : c ∈ first.keys) : ∃ k, (Table.columnsOf (first :: rest))[k]? =
        some ⟨c, some (.ofCell (first.get? c))⟩ ∧
      (Scope.ofRows (first :: rest)).ref? c = some (.cell k (some (.ofCell (first.get? c)))) := by
  obtain ⟨-, -, -, -, hmakes⟩ := Store.load_isOk_iff.1 hload
  have htype : ∀ m ∈ first.cells, first.get? m.1 = some m.2 := fun m hm =>
    lookup_of_mem first.nodup hm
  obtain ⟨m, hm, rfl⟩ := List.mem_map.1 hc
  have hcolumn : ⟨m.1, some (.ofCell (some m.2))⟩ ∈ Table.columnsOf (first :: rest) :=
    List.mem_map_of_mem hm
  obtain ⟨r, hr⟩ : ∃ r, column? m.1 0 (Table.columnsOf (first :: rest)) = some r :=
    Option.isSome_iff_exists.1 ((column?_isSome_iff _ _ _).2 ⟨_, hcolumn, Text.sameAscii_refl _⟩)
  obtain ⟨k, d, hk, hsame, rfl⟩ := column?_eq_some hr
  have hd : d ∈ Table.columnsOf (first :: rest) := List.mem_of_getElem? hk
  have hname : d.name = m.1 := hmakes.name_eq hd hcolumn hsame
  obtain ⟨n, hn, rfl⟩ := List.mem_map.1 hd
  have hvalue : first.get? m.1 = some n.2 := hname ▸ htype n hn
  refine ⟨k, ?_, ?_⟩
  · rw [hk, hvalue, ← hname]
  · have hcolumns : (ofRows (first :: rest)).columns ++ (ofRows (first :: rest)).hidden =
        Table.columnsOf (first :: rest) := List.append_nil _
    rw [hvalue, ref?, hcolumns, hr, Nat.zero_add]
    rfl

section Loaded

variable (hload : ∃ s, Store.empty.load name (first :: rest) = .ok s)

include hload

theorem Scope.type?_ofRows (hc : c ∈ first.keys) :
    (Scope.ofRows (first :: rest)).type? c = some (.ofCell (first.get? c)) := by
  obtain ⟨k, -, hr⟩ := ref?_ofRows hload hc
  rw [type?, hr]
  rfl

/-- What a column stands for in the record of a row. -/
theorem Scope.cell_ofRows (hc : c ∈ first.keys) (n : Nat) (row : Row) :
    (Scope.ofRows (first :: rest)).cell c ⟨n, Table.record (Table.columnsOf (first :: rest)) row⟩ =
      first.stored row c := by
  obtain ⟨k, hk, hr⟩ := ref?_ofRows hload hc
  have hcell : (Table.record (Table.columnsOf (first :: rest)) row)[k]? =
      some (first.stored row c) := by
    rw [Table.record, List.getElem?_map, hk]
    rfl
  rw [cell, hr, Option.map_some, Option.getD_some, Ref.read, hcell]
  rfl

theorem Filter.Clear.asks {f : Filter} (h : f.Clear first) : f.Asks (.ofRows (first :: rest)) := by
  obtain ⟨k, -, hr⟩ := Scope.ref?_ofRows hload h.column
  refine ⟨⟨_, hr⟩, h.finite, fun w hw => ?_⟩
  rw [Scope.cell?, ← Option.not_isSome_iff_eq_none, Scope.column?_isSome_iff]
  rintro ⟨d, hd, hsame⟩
  rcases List.mem_append.1 hd with hd | hd
  · obtain ⟨m, hm, rfl⟩ := List.mem_map.1 hd
    rw [h.words w hw m.1 (List.mem_map_of_mem hm)] at hsame
    cases hsame
  · cases hd

theorem Scope.keeps_ofRows {fs : List Filter} (hfs : ∀ f ∈ fs, f.Clear first) (n : Nat)
    (row : Row) : (Scope.ofRows (first :: rest)).keeps fs
      ⟨n, Table.record (Table.columnsOf (first :: rest)) row⟩ = first.keeps fs row := by
  rw [Scope.keeps, Row.keeps, Bool.eq_iff_iff, List.all_eq_true, List.all_eq_true]
  refine forall₂_congr fun f hf => ?_
  rw [type?_ofRows hload (hfs f hf).column, cell_ofRows hload (hfs f hf).column]

end Loaded

section Indexed

variable {α β γ δ : Type} {r : α → δ} {keep : β → Bool} {keep' : α → Bool} {g : β → γ} {g' : α → γ}

theorem map_filter_mapIdx : ∀ (xs : List α) {f : Nat → δ → β}, (∀ i x, keep (f i (r x)) = keep' x) →
    (∀ i x, g (f i (r x)) = g' x) →
      (((xs.map r).mapIdx f).filter keep).map g = (xs.filter keep').map g'
  | [], _, _, _ => rfl
  | x :: xs, f, hkeep, hg => by
    have ih := map_filter_mapIdx xs (fun i => hkeep (i + 1)) fun i => hg (i + 1)
    rw [List.map_cons, List.mapIdx_cons, List.filter_cons, List.filter_cons, hkeep]
    split_ifs
    · rw [List.map_cons, List.map_cons, hg, ih]
    · exact ih

end Indexed

/-- What the records that a query keeps show is what the rows show of which its filters hold. -/
theorem Analysis.map_kept {t : Target} {schema : Schema} {a : Analysis} {fs : List Filter}
    {kept : List Record} {β : Type} {g : Record → β} {k : Row → β} (hd : t.dialect = .directColumn)
    (hload : ∃ s, Store.empty.load t.source.text (first :: rest) = .ok s)
    (hfs : ∀ f ∈ fs, f.Clear first) (h : a.kept t schema fs (first :: rest) = .ok kept)
    (hg : ∀ n row, g ⟨n, Table.record (Table.columnsOf (first :: rest)) row⟩ = k row) :
    kept.map g = (first.matching rest fs).map k := by
  rw [kept_eq_filter hd (fun f hf => (hfs f hf).asks hload) h]
  exact map_filter_mapIdx _ (fun i row => Scope.keeps_ofRows hload hfs (i + 1) row)
    fun i row => hg (i + 1) row

end Rows

end TableTalk
