import Mathlib.Data.List.Forall2
import TableTalk.Proofs.Store.Evaluation
import TableTalk.Proofs.Store.Execution
import TableTalk.Proofs.Store.Figures
import TableTalk.Proofs.Store.Resolution
import TableTalk.Proofs.Table.Rows

/-!
# What a table keeps of its rows

Selecting all of a table gives its records as they are (`Table.select_all`). So the rows that were
loaded come back in their order, under the keys of the first of them, and with the values that the
types of the columns are made for (`Store.execute_selectAll`).
-/

namespace TableTalk

open Sql

/-- The cell that a table of rows that start with `first` has for a row. -/
def Row.stored (first row : Row) (c : String) : Cell :=
  (Declared.ofCell (first.get? c)).store (.ofJson (row.get? c))

namespace Cell

open Decimal Float.Model

theorem unsignedZero_beq {x : Float} (h : x.isFinite = true) : (unsignedZero x == x) = true := by
  have hbeq : ∀ y z : Float, (y == z) = y.toModel.unpack.beq z.toModel.unpack := fun _ _ => rfl
  have hfinite : x.isFinite = x.toModel.unpack.isFinite := rfl
  have hzero : (0 : Float).toModel.unpack = .zero .positive := rfl
  cases hx : x.toModel.unpack with
  | notANumber | infinity s =>
    rw [hfinite, hx] at h
    cases h
  | zero s =>
    rw [unsignedZero_of_zero hx, hbeq, hx, hzero]
    simp [UnpackedFloat.beq, UnpackedFloat.compare]
  | finite s =>
    rw [unsignedZero_of_ne (by rw [hx]; rintro _ ⟨⟩), hbeq, hx]
    cases s <;> simp [UnpackedFloat.beq, UnpackedFloat.compare]

theorem isFinite_unsignedZero (x : Float) : (unsignedZero x).isFinite = x.isFinite := by
  rw [unsignedZero]
  split
  · rename_i hzero
    obtain ⟨s, hs⟩ := (beq_zero_iff x).1 hzero
    have hfinite : x.isFinite = x.toModel.unpack.isFinite := rfl
    rw [hfinite, hs]
    rfl
  · rfl

end Cell

/-- A plan of columns alone reads them from each record. -/
theorem Plan.run_columns (columns : List Column) (refs : List Ref) (rs : List Record) :
    (Plan.mk columns (refs.map .column) [] none none none).run rs =
      .ok (rs.map fun r => refs.map fun c => c.read (some r)) := by
  have hrecord : ∀ r : Record, (Plan.mk columns (refs.map .column) [] none none none).record
      (.single r) = .ok (refs.map fun c => c.read (some r)) := fun r => by
    rw [record, List.mapM_map]
    exact mapM_eq_ok_map fun c _ => rfl
  have hframes : (Plan.mk columns (refs.map .column) [] none none none).frames rs =
      .ok (rs.map Frame.single) := by
    have hcount : ((refs.map Expr.column).any fun e => e.aggregate?.isSome) = false := by
      simp [Expr.aggregate?]
    have hwindow : (refs.map Expr.column).findSome? Expr.lagOrder? = none := by
      simp [Expr.lagOrder?]
    simp [frames, hcount, hwindow]
  rw [run, selected_all rfl, bind_ok, hframes, bind_ok, ordered, bind_ok, limited, List.mapM_map]
  exact mapM_eq_ok_map fun r _ => hrecord r

namespace Table

variable {t : Table}

/-- Selecting all of a table gives its records as they are. -/
theorem select_all (h : ∀ cells ∈ t.records, cells.length = t.columns.length) (numbered : Bool)
    (source : Name) (name : String) :
    t.select numbered ⟨.all, source, [], none, none, none⟩ name =
      .ok ⟨name, t.columns, t.records⟩ := by
  have hplan : Scope.plan ⟨t.columns, [], numbered⟩ ⟨.all, source, [], none, none, none⟩ =
      .ok ⟨t.columns, (t.columns.mapIdx fun i c => Ref.cell i c.type).map .column, [], none, none,
        none⟩ := by
    refine Scope.plan_eq_ok.2 ⟨_, [], none, none, rfl, rfl, rfl, rfl, nofun, ?_⟩
    congr 1 <;> exact List.ext_getElem (by simp) fun i hi hi' => by simp
  refine Store.select_eq_ok.2 ⟨_, _, hplan, Plan.run_columns _ _ _, ?_⟩
  congr 1
  refine List.ext_getElem (by simp [Table.numbered]) fun i hi hi' => ?_
  have hlength := h _ (List.getElem_mem hi)
  refine List.ext_getElem (by simp [hlength]) fun j hj hj' => ?_
  simp [Table.numbered, Ref.read, hj]

theorem length_record (columns : List Column) (row : Row) :
    (record columns row).length = columns.length := List.length_map _

end Table

namespace Row

variable {first row : Row} {c : String}

theorem get?_of_mem {m : String × Json} (h : m ∈ first.cells) : first.get? m.1 = some m.2 :=
  lookup_of_mem first.nodup h

theorem mem_of_get? {v : Json} (h : first.get? c = some v) : (c, v) ∈ first.cells := by
  obtain ⟨before, after, hcells, -⟩ := List.lookup_eq_some_iff.1 h
  rw [hcells]
  simp

/-- What a row comes back as from a table of rows that start with `first`. -/
def returned (first row : Row) : Row :=
  ofMembers (first.cells.map fun m =>
    (m.1, Table.value ⟨m.1, some (.ofCell (first.get? m.1))⟩ (first.stored row m.1)))

theorem fst_returned : (first.cells.map fun m =>
    (m.1, Table.value ⟨m.1, some (.ofCell (first.get? m.1))⟩ (first.stored row m.1))).map Prod.fst =
      first.keys := by
  rw [List.map_map]
  rfl

theorem keys_returned : (first.returned row).keys = first.keys := by
  rw [returned, keys_ofMembers (fst_returned ▸ first.nodup), fst_returned]

theorem get?_returned {w : Json} (h : first.get? c = some w) : (first.returned row).get? c =
    some (Table.value ⟨c, some (.ofCell (some w))⟩
      ((Declared.ofCell (some w)).store (.ofJson (row.get? c)))) := by
  rw [get?, returned, cells_ofMembers (fst_returned ▸ first.nodup)]
  refine lookup_of_mem (fst_returned ▸ first.nodup) ?_
  refine List.mem_map.2 ⟨(c, w), mem_of_get? h, ?_⟩
  rw [stored, h]

theorem rows_ofRows (name : String) (rest : List Row) :
    (Table.ofRows name (first :: rest)).rows = (first :: rest).map first.returned := by
  rw [Table.rows, Table.ofRows, List.map_map]
  refine List.map_congr_left fun row _ => ?_
  have hcells : (Table.columnsOf (first :: rest)).zip
      (Table.record (Table.columnsOf (first :: rest)) row) =
        first.cells.map fun m => (⟨m.1, some (.ofCell (some m.2))⟩,
          (Declared.ofCell (some m.2)).store (.ofJson (row.get? m.1))) := by
    rw [Table.record, Table.columnsOf, List.map_map, List.zip_map']
    rfl
  rw [Function.comp_apply, hcells, List.map_map, returned]
  refine congrArg ofMembers (List.map_congr_left fun m hm => ?_)
  rw [stored, get?_of_mem hm]
  rfl

/-- What a table of rows that start with `first` gives back for a row. All numbers of a document are
finite. -/
structure Restores (first row out : Row) : Prop where
  keys : out.keys = first.keys
  void : ∀ c ∈ first.keys, row.get? c = none ∨ row.get? c = some .null →
    out.get? c = some .null
  truth : ∀ c a b, first.get? c = some (.bool a) → row.get? c = some (.bool b) →
    out.get? c = some (.bool b)
  number : ∀ c w v x, first.get? c = some w → w.number.isSome = true → row.get? c = some v →
    v.number = some x → x.isFinite = true →
    ∃ y, out.get? c = some (.double y) ∧ (y == x) = true
  text : ∀ c w r, first.get? c = some w → w.number = none → (∀ b, w ≠ .bool b) →
    row.get? c = some (.str r) → out.get? c = some (.str r)

theorem restores_returned (first row : Row) : first.Restores row (first.returned row) := by
  refine ⟨keys_returned, fun c hc hnull => ?_, fun c a b ha hb => ?_,
    fun c w v x hw hnumber hv hx hfinite => ?_, fun c w r hw hnumber hbool hr => ?_⟩
  · obtain ⟨m, hm, rfl⟩ := List.mem_map.1 hc
    rw [get?_returned (get?_of_mem hm)]
    have hcell : Cell.ofJson (row.get? m.1) = .null := by
      rcases hnull with h | h <;> rw [h] <;> rfl
    rw [hcell]
    cases Declared.ofCell (some m.2) <;> rfl
  · rw [get?_returned ha, hb]
    cases b <;> rfl
  · have htype : Declared.ofCell (some w) = .double := by
      cases w with
      | int | double => rfl
      | null | bool | str | arr | obj => cases hnumber
    have hcell : Declared.double.store (.ofJson (some v)) = .real (Cell.unsignedZero x) := by
      cases v with
      | int n =>
        cases hx
        rw [Cell.ofJson, Cell.unsignedZero_ofInt]
        split
        · rfl
        · exact congrArg Cell.real (Cell.unsignedZero_ofInt n)
      | double y =>
        cases hx
        rfl
      | null | bool | str | arr | obj => cases hx
    refine ⟨Cell.unsignedZero x, ?_, Cell.unsignedZero_beq hfinite⟩
    have hvalue : Table.value ⟨c, some .double⟩ (.real (Cell.unsignedZero x)) =
        .ofFloat (Cell.unsignedZero x) := rfl
    rw [get?_returned hw, hv, htype, hcell, hvalue, Json.ofFloat, Cell.isFinite_unsignedZero,
      if_pos hfinite]
  · have htype : Declared.ofCell (some w) = .varchar := by
      cases w with
      | null | str | arr | obj => rfl
      | bool b => exact absurd rfl (hbool b)
      | int | double => cases hnumber
    rw [get?_returned hw, hr, htype]
    rfl

end Row

namespace Store

variable {s s' : Store} {name : String} {first : Row} {rest : List Row}

/-- The statement that selects all of a table gives its records as rows. -/
theorem execute_table {t : Table} (hname : '\x00' ∉ name.toList) (ht : s.table? name = some t)
    (h : ∀ cells ∈ t.records, cells.length = t.columns.length) :
    s.execute (selectAll name).line = .ok t.rows := by
  have hwell : (selectAll name).WellFormed .directColumn :=
    ⟨nofun, trivial, trivial, nofun, nofun, nofun⟩
  have hbroken : ∀ u ∈ (selectAll name).tokens, u.broken = false := by
    have htokens : (selectAll name).tokens =
        [.keyword .select, .mark .star, .keyword .fromTable, .name name] := rfl
    simp [htokens, Token.broken, hname]
  have hread := ofTokens_line hwell hbroken
  rw [if_pos ⟨rfl, nofun⟩] at hread
  have hrun : s.run (selectAll name) = .ok ⟨"", t.columns, t.records⟩ := by
    rw [run, selectAll, select]
    simp only [Name.text, ht, Option.some_or]
    exact Table.select_all h _ _ _
  rw [execute_of_read hread, hrun]
  rfl

/-- What was loaded is selected again, row by row. -/
theorem execute_selectAll (hload : s.load name (first :: rest) = .ok s') :
    ∃ out, s'.execute (selectAll name).line = .ok out ∧
      List.Forall₂ first.Restores (first :: rest) out := by
  obtain ⟨-, hname, -⟩ := fault?_eq_none.1 (load_eq_ok.1 hload).1
  have hlength : ∀ cells ∈ (Table.ofRows name (first :: rest)).records,
      cells.length = (Table.ofRows name (first :: rest)).columns.length := fun cells hcells => by
    obtain ⟨row, -, rfl⟩ := List.mem_map.1 hcells
    exact Table.length_record _ row
  refine ⟨_, execute_table hname (table?_of_load hload) hlength, ?_⟩
  rw [Row.rows_ofRows, List.forall₂_map_right_iff]
  exact List.forall₂_same.2 fun row _ => Row.restores_returned first row

/-- Two rows, of which the second lacks a column, has nothing in another one, and has a key of its
own. -/
def ragged : List Row :=
  [⟨[("b", .bool true), ("n", .int 1), ("s", .str "x")], by decide⟩,
    ⟨[("k", .int 7), ("n", .double (-0)), ("b", .null)], by decide⟩]

theorem execute_selectAll_ragged : ∃ s' a b, Store.empty.load "t" ragged = .ok s' ∧
    s'.execute (selectAll "t").line = .ok [a, b] ∧
    a.get? "b" = some (.bool true) ∧ a.get? "s" = some (.str "x") ∧
    b.keys = ["b", "n", "s"] ∧ b.get? "b" = some .null ∧ b.get? "s" = some .null ∧
    ∃ y, b.get? "n" = some (.double y) ∧ (y == -0) = true := by
  have hmakes : Makes [] (Table.columnsOf ragged) := ⟨by decide, by decide, by simp, by decide⟩
  obtain ⟨s', hload⟩ : ∃ s', Store.empty.load "t" ragged = .ok s' :=
    load_isOk_iff.2 ⟨by decide, by decide, by decide, by decide, hmakes⟩
  obtain ⟨out, hout, hrows⟩ := execute_selectAll hload
  obtain - | ⟨ha, - | ⟨hb, hrest⟩⟩ := hrows
  cases hrest
  exact ⟨s', _, _, hload, hout, ha.truth "b" true true rfl rfl, ha.text "s" (.str "x") "x" rfl rfl
    (by simp) rfl, hb.keys, hb.void "b" (by decide) (.inr rfl), hb.void "s" (by decide) (.inl rfl),
    hb.number "n" (.int 1) (.double (-0)) (-0) rfl rfl rfl rfl (by decide +kernel)⟩

end Store

end TableTalk
