import TableTalk.Insight.Overview
import TableTalk.Proofs.Table.Columns
import TableTalk.Suggestion

/-!
# Roles and types

A chart gives a column its role by the cell of the first row, and a profile gives it a type. The two
rules are written apart, but the role follows from the type (`Roles.role_eq`). So the roles divide
up the keys of the first row as the types do, whatever later rows add, and charts, insights and
questions are about the same columns (`Roles.ofRow_typed`).
-/

namespace TableTalk

/-- The role of a column with a type. -/
def ColumnType.role : ColumnType → Role
  | number => .numeric
  | date => .date
  | text => .categorical
  | unknown => .categorical

namespace Profile

variable {first : Row} {rest : List Row} {c : String} {v : Json}

theorem columnType_of_mem (h : (c, v) ∈ first.cells) :
    columnType (first :: rest) c = cellType v := by
  have hget : first.get? c = some v := lookup_of_mem first.nodup h
  simp [columnType, hget]

theorem columnType_of_notMem (h : c ∉ first.keys) :
    columnType (first :: rest) c = .unknown := by
  by_contra hknown
  obtain ⟨first', rest', heq, hc⟩ := exists_first hknown
  cases heq
  exact h hc

theorem columnsOf_eq_filter (rows : List Row) (type : ColumnType) : (ofRows rows).columnsOf type =
    (columnNames rows).filter fun c => columnType rows c = type := by
  have htypes : (ofRows rows).toList =
      (columnNames rows).map fun c => (c, columnType rows c) := by
    rw [Schema.toList, columns_ofRows]
    refine List.map_congr_left fun c hc => ?_
    rw [type?_ofRows, if_pos hc, Option.getD_some]
  rw [Schema.columnsOf, htypes, List.filter_map, List.map_map]
  exact List.map_id _

/-- Only the first row has columns of known type. -/
theorem columnsOf_of_known {type : ColumnType} (h : type ≠ .unknown) :
    (ofRows (first :: rest)).columnsOf type =
      first.keys.filter fun c => columnType (first :: rest) c = type := by
  obtain ⟨later, hnames, hlater⟩ := columnNames_cons first rest
  have hnone : (later.filter fun c => columnType (first :: rest) c = type) = [] := by
    refine List.filter_eq_nil_iff.2 fun c hc => ?_
    rw [columnType_of_notMem (hlater c hc), decide_eq_true_eq]
    exact h.symm
  rw [columnsOf_eq_filter, hnames, List.filter_append, hnone, List.append_nil]

end Profile

namespace Roles

theorem role_numberType (x : Float) :
    (if x.isFinite then Role.numeric else .categorical) = (Profile.numberType x).role := by
  rw [Profile.numberType]
  split_ifs <;> rfl

/-- A text has a figure exactly if it spells a finite number. -/
theorem any_figure? (s : String) :
    (Json.str s).figure?.any Float.isFinite = (numberText? s).isSome := by
  show (numberText? s).any Float.isFinite = _
  rcases hs : numberText? s with - | x
  · rfl
  · rw [numberText?, Option.filter_eq_some_iff] at hs
    exact hs.2

theorem role_eq (v : Json) : role v = (Profile.cellType v).role := by
  cases v with
  | int n => exact role_numberType (Float.ofInt n)
  | double x => exact role_numberType x
  | str s =>
    rw [role, any_figure?, Profile.cellType, Profile.textType]
    split_ifs <;> rfl
  | null | bool | arr | obj => rfl

/-- Elements are divided up by their role. -/
theorem perm_filter {α : Type} (f : α → Role) (xs : List α) :
    (xs.filter (f · = .numeric) ++ xs.filter (f · = .categorical) ++
      xs.filter (f · = .date)).Perm xs := by
  have hroles : [Role.numeric, .categorical, .date].Nodup := by decide
  have hperm := perm_flatMap_filter f xs hroles fun x _ => by cases f x <;> decide
  simpa using hperm

variable (first : Row) (rest : List Row)

/-- The keys of the cells with some roles, by the types of the columns. -/
theorem map_filter_cells (p : Role → Prop) (q : ColumnType → Prop) [DecidablePred p]
    [DecidablePred q] (h : ∀ type, p type.role ↔ q type) :
    (first.cells.filter fun m => p (role m.2)).map Prod.fst =
      first.keys.filter fun c => q (Profile.columnType (first :: rest) c) := by
  rw [Row.keys, List.filter_map]
  refine congrArg _ (List.filter_congr fun m hm => ?_)
  simp only [Function.comp, role_eq, h, Profile.columnType_of_mem hm]

theorem numeric_ofRow :
    (ofRow first).numeric = (Profile.ofRows (first :: rest)).columnsOf .number := by
  rw [Profile.columnsOf_of_known (by decide)]
  exact map_filter_cells first rest (· = .numeric) (· = .number) fun type => by cases type <;> decide

theorem date_ofRow : (ofRow first).date = (Profile.ofRows (first :: rest)).columnsOf .date := by
  rw [Profile.columnsOf_of_known (by decide)]
  exact map_filter_cells first rest (· = .date) (· = .date) fun type => by cases type <;> decide

theorem categorical_ofRow : (ofRow first).categorical = first.keys.filter fun c =>
    (Profile.ofRows (first :: rest)).type? c = some .text ∨
      (Profile.ofRows (first :: rest)).type? c = some .unknown := by
  obtain ⟨later, hnames, -⟩ := Profile.columnNames_cons first rest
  have hrole := map_filter_cells first rest (· = .categorical) (fun t => t = .text ∨ t = .unknown)
    fun type => by cases type <;> decide
  refine hrole.trans (List.filter_congr fun c hc => ?_)
  have hname : c ∈ Profile.columnNames (first :: rest) := hnames ▸ List.mem_append_left later hc
  simp only [Profile.type?_ofRows, if_pos hname, Option.some.injEq]

/-- The roles of the columns are their types, and what is said about some rows is said about the
first columns of each. -/
theorem ofRow_typed :
    ((ofRow first).numeric ++ (ofRow first).categorical ++ (ofRow first).date).Perm first.keys ∧
      ((ofRow first).numeric.Sublist first.keys ∧ (ofRow first).categorical.Sublist first.keys ∧
        (ofRow first).date.Sublist first.keys) ∧
      (ofRow first).numeric = (Profile.ofRows (first :: rest)).columnsOf .number ∧
      (ofRow first).date = (Profile.ofRows (first :: rest)).columnsOf .date ∧
      ((ofRow first).categorical = first.keys.filter fun c =>
        (Profile.ofRows (first :: rest)).type? c = some .text ∨
          (Profile.ofRows (first :: rest)).type? c = some .unknown) ∧
      ∃ text, Insight.ofRows (first :: rest) (Profile.ofRows (first :: rest)) =
          Insight.ofColumns (first :: rest) (ofRow first).numeric.head? text ∧
        Suggestion.questions (Profile.ofRows (first :: rest)) =
          Suggestion.ofColumns (ofRow first).numeric.head? text (ofRow first).date.head? ∧
        Recommendation.ofRows? (first :: rest) = some (ofRow first,
          Recommendation.ofColumns (first :: rest) (ofRow first).numeric.head?
            (ofRow first).date.head? (ofRow first).categorical.head?) := by
  have hcells : ∀ role', ((first.cells.filter fun m => role m.2 = role').map Prod.fst).Sublist
      first.keys := fun role' => List.filter_sublist.map _
  have hperm := (perm_filter (fun m => role m.2) first.cells).map Prod.fst
  rw [List.map_append, List.map_append] at hperm
  refine ⟨hperm, ⟨hcells _, hcells _, hcells _⟩, numeric_ofRow first rest, date_ofRow first rest,
    categorical_ofRow first rest, ((Profile.ofRows (first :: rest)).columnsOf .text).head?, ?_, ?_,
    rfl⟩
  · rw [numeric_ofRow first rest]
    rfl
  · rw [numeric_ofRow first rest, date_ofRow first rest]
    rfl

end Roles

end TableTalk
