import TableTalk.Proofs.Intent.Data
import TableTalk.Proofs.Intent.Shape

/-!
# Which intents have a query

An intent has a query exactly if something was made out and the schema has every column that the
intent mentions, but for a metric in front that stands for the number of rows (`Intent.required`).
Otherwise the first column that is missing is to blame. The query reads just the columns of its
analysis and its filters (`Analysis.mem_columns_query`), and the schema has them all
(`Intent.compile_exact`).
-/

namespace TableTalk

open Sql

namespace Sql

/-- The columns of the data that an expression reads: names between quotes, and members of
documents. A bare word is a column of the table that the documents are in, or a number that is none. -/
def Expr.columns : Expr Name → List String
  | column (.bare _) => []
  | column (.quoted c) => [c]
  | number _ => []
  | text _ => []
  | truth _ => []
  | paren e => e.columns
  | negate e => e.columns
  | compare _ l r => l.columns ++ r.columns
  | like l r => l.columns ++ r.columns
  | ilike l r => l.columns ++ r.columns
  | arithmetic _ l r => l.columns ++ r.columns
  | member d (.text k) => d.columns ++ [k]
  | member d k => d.columns ++ k.columns
  | cast e _ => e.columns
  | call _ e => e.columns
  | call2 _ l r => l.columns ++ r.columns
  | aggregate _ e => e.columns
  | countRows => []
  | lag e o => e.columns ++ o.columns

/-- The expressions that are selected one by one. -/
def Items.listed : Items Name → List (Item Name)
  | all => []
  | list items => items

/-- The columns that a selection reads. In its order, the name of an item is no column. -/
def Select.columns (s : Select) : List String :=
  (s.items.listed.flatMap fun i => i.expr.columns) ++ s.conditions.flatMap Expr.columns ++
    s.groupBy.toList.flatMap Expr.columns ++
    (s.orderBy.toList.flatMap fun o => o.1.columns).filter fun c =>
      !s.items.listed.any fun i => i.alias? = some c

/-- The columns of the table that a query reads. -/
def Query.columns (q : Query) : List String := q.data.columns

end Sql

namespace Intent

/-- The metric needs no column, for it stands for the number of rows: counted as `*`, or as `count`
where there is no such column, or split up as `count`. -/
def exempt (schema : Schema) : Intent → Bool
  | analyze (.aggregate metric function _) _ _ _ =>
    function = .count && !schema.contains metric &&
      (metric = "*" || Text.sameAscii metric "count")
  | analyze (.distribution metric _) _ _ _ => Text.sameAscii metric "count"
  | _ => false

/-- The columns that the schema must have: all that are mentioned, but for the first one if that is
a metric that needs none. -/
def required (schema : Schema) (i : Intent) : List String :=
  if i.exempt schema then i.columns.tail else i.columns

theorem required_analyze (schema : Schema) (a : Analysis) (fs : List Filter) (c : Float)
    (r : String) : (analyze a fs c r).required schema =
      a.checkedColumns schema ++ fs.map Filter.column := by
  unfold required
  cases a with
  | aggregate metric function groupBy =>
    show (if aggregateCountsRows schema metric function = true then _ else _) = _
    rw [Analysis.checkedColumns]
    split_ifs <;> rfl
  | distribution metric dimension =>
    show (if countsRows metric = true then _ else _) = _
    rw [Analysis.checkedColumns]
    split_ifs <;> rfl
  | _ => rfl

end Intent

section Columns

theorem columns_numberExpr (x : Float) : (numberExpr x).columns = [] := by
  unfold numberExpr
  dsimp only
  rcases Decimal.Binary.ofDouble x with _ | ⟨_ | _⟩ | ⟨_ | _, m, e⟩ <;> rfl

theorem FilterValue.columns_expr (v : FilterValue) : v.expr.columns = [] := by
  cases v with
  | bool b => rfl
  | number x => exact columns_numberExpr x
  | text s => rfl

variable (t : Target)

namespace Target

/-- Either dialect reads the one column. -/
theorem columns_column (r : Reading) (c : String) : (t.column r c).columns = [c] := by
  unfold column
  cases t.dialect <;> cases r <;> rfl

theorem columns_bucket (g : Grain) (c : String) : (t.bucket g c).columns = [c] := by
  simp [bucket, Expr.columns, columns_column]

theorem columns_pattern (c p : String) : (t.pattern c p).columns = [c] := by
  unfold pattern
  cases t.dialect <;> simp [Expr.columns, columns_column]

theorem columns_condition (f : Filter) : (t.condition f).columns = [f.column] := by
  unfold condition
  cases f.operator
  case contains => exact t.columns_pattern _ _
  case ilike => exact t.columns_pattern _ _
  all_goals simp [Expr.columns, columns_column, f.value.columns_expr]

/-- The condition on the source reads no column of the data. -/
theorem columns_conditions (fs : List Filter) :
    (t.conditions fs).flatMap Expr.columns = fs.map Filter.column := by
  have hscope : (t.conditions []).flatMap Expr.columns = [] := by
    unfold conditions
    cases t.dialect <;> cases t.sourceId <;> rfl
  rw [conditions_eq, List.flatMap_append, hscope, List.nil_append, List.flatMap_map,
    List.map_eq_flatMap]
  simp only [columns_condition]

end Target

namespace Analysis

variable (schema : Schema) (a : Analysis)

/-- A template that counts rows does not read the metric, and no other leaves a column out. -/
theorem columns_items : (a.value t schema).2.columns ++
    ((a.label? t).toList.flatMap fun l => l.2.columns) = a.itemColumns schema := by
  have hcolumn := t.columns_column
  have hbucket := t.columns_bucket
  cases a with
  | aggregate metric function groupBy =>
    have hvalue : (aggregateExpr t schema metric function).columns =
        if aggregateCountsRows schema metric function then [] else [metric] := by
      unfold aggregateExpr
      split_ifs <;> simp [Expr.columns, hcolumn]
    cases groupBy <;> simp only [itemColumns, value, label?, hvalue] <;> split_ifs <;>
      simp [hcolumn]
  | distribution metric dimension =>
    simp only [itemColumns, value, label?]
    split_ifs <;> simp [Expr.columns, hcolumn]
  | _ => simp [itemColumns, Analysis.columns, value, label?, Expr.columns, hcolumn, hbucket]

/-- Groups are told apart by what they are labelled with. -/
theorem columns_grouping : ∀ c ∈ (a.grouping t).toList.flatMap Expr.columns,
    c ∈ (a.label? t).toList.flatMap fun l => l.2.columns := by
  cases a with
  | aggregate metric function groupBy =>
    cases groupBy with
    | none => exact nofun
    | some c => exact fun _ h => h
  | _ => exact nofun

/-- Groups are ordered by a place or by the name of the value. -/
theorem columns_order : ∀ c ∈ a.order.toList.flatMap (fun o => o.1.columns),
    c = (a.value t schema).1 := by
  cases a with
  | aggregate metric function groupBy =>
    cases groupBy with
    | none => exact nofun
    | some c => exact fun _ h => List.mem_singleton.1 h
  | _ => exact nofun

theorem columns_data (cs : List (Expr Name)) : (a.data t schema cs).columns =
    ((a.label? t).toList.flatMap fun l => l.2.columns) ++ (a.value t schema).2.columns ++
      cs.flatMap Expr.columns ++ (a.grouping t).toList.flatMap Expr.columns := by
  have horder : (a.order.toList.flatMap fun o => o.1.columns).filter (fun c =>
      !(a.data t schema cs).items.listed.any fun i => i.alias? = some c) = [] := by
    refine List.filter_eq_nil_iff.2 fun d hd => ?_
    rw [columns_order t schema a d hd]
    simp [data, Items.listed]
  have hitems : ((a.data t schema cs).items.listed.flatMap fun i => i.expr.columns) =
      ((a.label? t).toList.flatMap fun l => l.2.columns) ++ (a.value t schema).2.columns := by
    simp [data, Items.listed, List.flatMap_map]
  rw [Select.columns, hitems, show (a.data t schema cs).orderBy = a.order from rfl, horder,
    List.append_nil]
  rfl

/-- A query reads the columns of its items and its filters, and no others. -/
theorem mem_columns_query (fs : List Filter) (c : String) :
    c ∈ (a.query t schema (t.conditions fs)).columns ↔
      c ∈ a.itemColumns schema ++ fs.map Filter.column := by
  rw [Query.columns, data_query, columns_data, t.columns_conditions, ← columns_items t schema a]
  simp only [List.mem_append]
  constructor
  · rintro (((h | h) | h) | h)
    · exact .inl (.inr h)
    · exact .inl (.inl h)
    · exact .inr h
    · exact .inl (.inr (columns_grouping t a c h))
  · rintro ((h | h) | h)
    · exact .inl (.inl (.inr h))
    · exact .inl (.inl (.inl h))
    · exact .inl (.inr h)

end Analysis

end Columns

namespace Intent

variable {t : Target} {schema : Schema}

/-- A query is refused for the first column that is missing. -/
theorem query_eq_error {a : Analysis} {fs : List Filter} {c : Float} {r : String}
    {e : CompileError} : (analyze a fs c r).query t schema = .error e ↔
      ∃ before d after, (analyze a fs c r).required schema = before ++ d :: after ∧
        (∀ b ∈ before, schema.contains b = true) ∧ schema.contains d = false ∧
        e = .unknownColumn d schema.columns := by
  rw [required_analyze]
  unfold query
  dsimp only
  split
  · rename_i d hfind
    obtain ⟨hd, before, after, hsplit, hbefore⟩ := List.find?_eq_some_iff_append.1 hfind
    rw [Except.error.injEq]
    constructor
    · rintro rfl
      exact ⟨before, d, after, hsplit, fun b hb => by simpa using hbefore b hb, by simpa using hd,
        rfl⟩
    · rintro ⟨before', d', after', hsplit', hbefore', hd', rfl⟩
      have hfind' : (a.checkedColumns schema ++ fs.map Filter.column).find?
          (fun b => !schema.contains b) = some d' := List.find?_eq_some_iff_append.2
        ⟨by simpa using hd', before', after', hsplit', fun b hb => by simpa using hbefore' b hb⟩
      rw [Option.some.inj (hfind.symm.trans hfind')]
  · rename_i hfind
    refine iff_of_false nofun ?_
    rintro ⟨before, d, after, hsplit, -, hd, -⟩
    have hmem : d ∈ a.checkedColumns schema ++ fs.map Filter.column := by simp [hsplit]
    have hfound := List.find?_eq_none.1 hfind d hmem
    rw [hd] at hfound
    exact hfound rfl

/-- All columns that the query of an intent reads are in the schema. -/
theorem contains_columns {i : Intent} {q : Query} (h : i.query t schema = .ok q) :
    ∀ c ∈ q.columns, schema.contains c = true := by
  cases i with
  | unknown => cases h
  | analyze a fs c r =>
    obtain ⟨hall, rfl⟩ := query_eq_ok.1 h
    intro d hd
    refine hall d ?_
    rcases List.mem_append.1 ((a.mem_columns_query t schema fs d).1 hd) with hd | hd
    · exact List.mem_append_left _ (a.itemColumns_subset schema d hd)
    · exact List.mem_append_right _ hd

/-- An intent has a query exactly if it is not unknown and all required columns are in the schema;
else the first missing one is to blame, with the columns that there are. Every column that the query
reads is in the schema. -/
theorem compile_exact (t : Target) (schema : Schema) (i : Intent) :
    ((∃ text, i.compile t schema = .ok text) ↔
      i.isUnknown = false ∧ ∀ c ∈ i.required schema, schema.contains c = true) ∧
    (∀ e, i.compile t schema = .error e ↔
      (i.isUnknown = true ∧ e = .unsupported .unknown) ∨
        (i.isUnknown = false ∧ ∃ before c after, i.required schema = before ++ c :: after ∧
          (∀ b ∈ before, schema.contains b = true) ∧ schema.contains c = false ∧
          e = .unknownColumn c schema.columns)) ∧
    (∀ text, i.compile t schema = .ok text → ∃ q, i.query t schema = .ok q ∧ text = q.text ∧
      ∀ c ∈ q.columns, schema.contains c = true) := by
  refine ⟨?_, fun e => ?_, fun text h => ?_⟩
  · cases i with
    | unknown => exact iff_of_false nofun nofun
    | analyze a fs c r =>
      rw [required_analyze]
      simp only [compile, map_eq_ok, query_eq_ok, isUnknown, true_and]
      exact ⟨fun ⟨_, _, ⟨h, _⟩, _⟩ => h, fun h => ⟨_, _, ⟨h, rfl⟩, rfl⟩⟩
  · rw [compile, map_eq_error]
    cases i with
    | unknown c r =>
      constructor
      · rintro ⟨⟩
        exact .inl ⟨rfl, rfl⟩
      · rintro (⟨-, rfl⟩ | ⟨h, -⟩)
        · rfl
        · cases h
    | analyze a fs c r => simp only [query_eq_error, isUnknown, Bool.false_eq_true, false_and,
        true_and, false_or]
  · obtain ⟨q, hq, rfl⟩ := map_eq_ok.1 h
    exact ⟨q, hq, rfl, contains_columns hq⟩

/-- A filter on `count` is refused even where the metric of that name counts rows. -/
theorem compile_exact_count :
    let t : Target := ⟨.directColumn, none, none⟩
    let schema := Schema.ofPairs [("region", .text)]
    let counted := analyze (.aggregate "Count" .count (some "region")) [] 1 ""
    let filtered := analyze (.aggregate "Count" .count (some "region"))
      [⟨"Count", .eq, .text "x"⟩] 1 ""
    (∃ q, counted.compile t schema = .ok q.text ∧ counted.query t schema = .ok q ∧
        ∀ c ∈ q.columns, schema.contains c = true) ∧
      filtered.compile t schema = .error (.unknownColumn "Count" ["region"]) := by
  intro t schema counted filtered
  refine ⟨?_, ((compile_exact t schema filtered).2.1 _).2
    (.inr ⟨rfl, ["region"], "Count", [], by decide, by decide, by decide, by decide⟩)⟩
  obtain ⟨text, htext⟩ := (compile_exact t schema counted).1.2 ⟨rfl, by decide⟩
  obtain ⟨q, hq, rfl, hcolumns⟩ := (compile_exact t schema counted).2.2 text htext
  exact ⟨q, htext, hq, hcolumns⟩

end Intent

end TableTalk
