import TableTalk.Intent.Compile
import Mathlib.Tactic.SplitIfs

/-!
# The selection that reads the table

Every query has one selection that reads the table, alone or as the periods of a comparison
(`Analysis.query_eq`). It has a value for each group, under a label unless all records are one group
(`Analysis.data`). Here are its parts for a table with real columns, and which columns they read.
-/

namespace TableTalk

open Sql

/-- The selection of a query that reads the table. -/
def Sql.Query.data (q : Query) : Select := q.common.elim q.main Prod.snd

namespace Analysis

/-- What groups are told apart by, with its name. -/
def label? (t : Target) : Analysis → Option (String × Expr Name)
  | aggregate _ _ groupBy => groupBy.map fun c => ("group", t.column .text c)
  | trend _ date _ grain => some ("date", t.bucket grain date)
  | topList _ dimension _ _ => some ("label", t.column .text dimension)
  | distribution _ dimension => some ("label", t.column .text dimension)
  | compare _ date period => some ("period_date", t.bucket period.grain date)
  | cohort date _ interval => some ("cohort_date", t.bucket interval.grain date)

/-- What is computed for each group, with its name. -/
def value (t : Target) (schema : Schema) : Analysis → String × Expr Name
  | aggregate metric function _ => ("value", aggregateExpr t schema metric function)
  | trend metric _ function _ => ("value", .aggregate function (t.column .numeric metric))
  | topList metric _ _ _ => ("value", .aggregate .sum (t.column .numeric metric))
  | distribution metric _ =>
    ("value", if countsRows metric then .countRows else .aggregate .sum (t.column .numeric metric))
  | compare metric _ _ => ("total_value", .aggregate .sum (t.column .numeric metric))
  | cohort _ _ _ => ("cohort_size", .countRows)

def grouping (t : Target) : Analysis → Option (Expr Name)
  | aggregate _ _ groupBy => groupBy.map (t.column .text)
  | _ => some (.number "1")

def order : Analysis → Option (Expr Name × SortOrder)
  | aggregate _ _ groupBy => groupBy.map fun _ => (.column (.quoted "value"), .desc)
  | trend _ _ _ _ => some (.number "1", .asc)
  | topList _ _ _ order => some (.number "2", order)
  | distribution _ _ => some (.number "2", .desc)
  | compare _ _ _ => none
  | cohort _ _ _ => some (.number "1", .asc)

def cap : Analysis → Option Nat
  | aggregate _ _ groupBy => groupBy.map fun _ => aggregateCap
  | trend _ _ _ _ => some trendCap
  | topList _ _ limit _ => some (max 1 (min limit topListCap))
  | distribution _ _ => some distributionCap
  | compare _ _ _ => none
  | cohort _ _ _ => some cohortCap

/-- The selection of an analysis that reads the table. -/
def data (t : Target) (schema : Schema) (conditions : List (Expr Name)) (a : Analysis) : Select where
  items := .list (((a.label? t).toList ++ [a.value t schema]).map fun l => ⟨l.2, some l.1⟩)
  source := t.source
  conditions := conditions
  groupBy := a.grouping t
  orderBy := a.order
  limit := a.cap

theorem query_eq (t : Target) (schema : Schema) (conditions : List (Expr Name)) (a : Analysis) :
    a.query t schema conditions =
      if a.kind = .compare then ⟨some ("period_stats", a.data t schema conditions), comparison⟩
      else ⟨none, a.data t schema conditions⟩ := by
  cases a with
  | aggregate metric function groupBy => cases groupBy <;> rfl
  | _ => rfl

theorem data_query (t : Target) (schema : Schema) (conditions : List (Expr Name)) (a : Analysis) :
    (a.query t schema conditions).data = a.data t schema conditions := by
  rw [query_eq]
  split_ifs <;> rfl

/-- The columns that the items of a query read. -/
def itemColumns (schema : Schema) : Analysis → List String
  | aggregate metric function groupBy =>
    if aggregateCountsRows schema metric function then groupBy.toList else metric :: groupBy.toList
  | distribution metric dimension =>
    if countsRows metric then [dimension] else [metric, dimension]
  | cohort date _ _ => [date]
  | a => a.columns

variable (schema : Schema) (a : Analysis)

theorem checkedColumns_subset : ∀ c ∈ a.checkedColumns schema, c ∈ a.columns := by
  cases a with
  | aggregate metric function groupBy | distribution metric dimension =>
    simp only [checkedColumns, columns]
    split_ifs
    · exact fun _ h => List.mem_cons_of_mem _ h
    · exact fun _ h => h
  | _ => exact fun _ h => h

/-- Every column that is read is checked. -/
theorem itemColumns_subset : ∀ c ∈ a.itemColumns schema, c ∈ a.checkedColumns schema := by
  cases a with
  | cohort date metric interval =>
    intro c hc
    rw [List.mem_singleton.1 hc]
    exact List.mem_cons_self
  | _ => exact fun _ h => h

/-- The bucket that an analysis puts dates in, and the column that they are in. -/
def bucket? : Analysis → Option (Grain × String)
  | trend _ date _ grain => some (grain, date)
  | compare _ date period => some (period.grain, date)
  | cohort date _ interval => some (interval.grain, date)
  | _ => none

end Analysis

/-- A number names nothing, unless it is none. -/
theorem names_numberExpr (x : Float) :
    ∀ n ∈ (numberExpr x).names, n ∈ [Name.bare "NaN", .bare "inf"] := by
  unfold numberExpr
  dsimp only
  rcases Decimal.Binary.ofDouble x with _ | ⟨_ | _⟩ | ⟨_ | _, m, e⟩ <;>
    simp [Expr.names]

theorem FilterValue.names_expr (v : FilterValue) :
    ∀ n ∈ v.expr.names, n ∈ [Name.bare "NaN", .bare "inf"] := by
  cases v with
  | bool b => exact nofun
  | number x => exact names_numberExpr x
  | text s => exact nofun

namespace Target

variable {t : Target} (hd : t.dialect = .directColumn)

include hd

/-- A column of a table is named once. -/
theorem names_column (r : Reading) (c : String) : (t.column r c).names = [.quoted c] := by
  unfold column
  rw [hd]
  cases r <;> rfl

theorem names_bucket (g : Grain) (c : String) : (t.bucket g c).names = [.quoted c] := by
  simp [bucket, Expr.names, names_column hd]

theorem names_condition {f : Filter} : ∃ ns, (t.condition f).names = .quoted f.column :: ns ∧
    ∀ n ∈ ns, n ∈ [Name.bare "NaN", .bare "inf"] := by
  have hpattern : ∀ p, (t.pattern f.column p).names = [.quoted f.column] := fun p => by
    unfold pattern
    rw [hd]
    simp [Expr.names, names_column hd]
  unfold condition
  cases f.operator
  case contains => exact ⟨[], hpattern _, nofun⟩
  case ilike => exact ⟨[], hpattern _, nofun⟩
  all_goals
    refine ⟨f.value.expr.names, ?_, f.value.names_expr⟩
    simp [Expr.names, names_column hd]

theorem conditions_direct (fs : List Filter) : t.conditions fs = fs.map t.condition := by
  unfold conditions
  rw [hd]
  rfl

end Target

namespace Analysis

variable {t : Target} (hd : t.dialect = .directColumn) (schema : Schema) (a : Analysis)

include hd

/-- The names in the items are those of the columns that they read. -/
theorem names_items : (a.value t schema).2.names ++ ((a.label? t).toList.flatMap fun l => l.2.names) =
    (a.itemColumns schema).map .quoted := by
  have hcolumn := fun r c => Target.names_column hd r c
  have hbucket := fun g c => Target.names_bucket hd g c
  cases a with
  | aggregate metric function groupBy =>
    have hvalue : (aggregateExpr t schema metric function).names =
        if aggregateCountsRows schema metric function then [] else [.quoted metric] := by
      unfold aggregateExpr
      split_ifs <;> simp [Expr.names, hcolumn]
    cases groupBy <;> simp only [itemColumns, value, label?, hvalue] <;> split_ifs <;>
      simp [hcolumn]
  | distribution metric dimension =>
    simp only [itemColumns, value, label?]
    split_ifs <;> simp [Expr.names, hcolumn]
  | _ => simp [itemColumns, columns, value, label?, Expr.names, hcolumn, hbucket]

end Analysis

/-- An intent has a query exactly if the schema has every column that is checked. -/
theorem Intent.query_eq_ok {t : Target} {schema : Schema} {a : Analysis} {fs : List Filter}
    {c : Float} {r : String} {q : Query} : (analyze a fs c r).query t schema = .ok q ↔
      (∀ d ∈ a.checkedColumns schema ++ fs.map Filter.column, schema.contains d = true) ∧
        q = a.query t schema (t.conditions fs) := by
  unfold query
  dsimp only
  split
  · rename_i d hfind
    refine iff_of_false nofun fun h => ?_
    have hmissing := List.find?_some hfind
    rw [h.1 d (List.mem_of_find?_eq_some hfind)] at hmissing
    cases hmissing
  · rename_i hfind
    have hall : ∀ d ∈ a.checkedColumns schema ++ fs.map Filter.column,
        schema.contains d = true := fun d hd => by
      simpa using List.find?_eq_none.1 hfind d hd
    exact ⟨fun h => ⟨hall, (Except.ok.inj h).symm⟩, fun h => h.2 ▸ rfl⟩

end TableTalk
