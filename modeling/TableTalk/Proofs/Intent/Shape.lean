import TableTalk.Intent.Reading
import TableTalk.Proofs.Intent.Grammar
import TableTalk.Proofs.Sql.Outline

/-!
# The shape of an intent decides the outline of its query

The shape of an intent has its choices, but no text: what it analyzes and how, whether it groups,
whether rows are counted, and how each filter compares with what kind of value. Queries of one shape
have one outline (`Query.outline_shape`), that of a query in which all texts are empty
(`Shape.outline`). What is left are the literals: columns, values and the fixed names of the query,
each where it belongs (`Intent.literals_tokens`).
-/

namespace TableTalk

open Sql

/-- What a filter compares with, without its content. -/
inductive ValueKind where
  | truth
  | number (negative : Bool)
  | text
deriving DecidableEq, Repr

namespace ValueKind

def reading : ValueKind → Reading
  | truth => .boolean
  | number _ => .numeric
  | text => .text

def expr : ValueKind → Expr Name
  | truth => .truth true
  | number false => .number ""
  | number true => .negate (.number "")
  | text => .text ""

end ValueKind

/-- What an analysis does, without the columns. -/
inductive Form where
  | aggregate (function : AggregateFunction) (grouped countsRows : Bool)
  | trend (function : AggregateFunction) (grain : Grain)
  | topList (limit : Nat) (order : SortOrder)
  | distribution (countsRows : Bool)
  | compare (period : ComparePeriod)
  | cohort (interval : CohortInterval)
deriving DecidableEq, Repr

/-- All that a query depends on but texts. -/
structure Shape where
  dialect : Dialect
  /-- Whether only documents of one source are read. -/
  ofSource : Bool
  form : Form
  filters : List (Operator × ValueKind)
deriving DecidableEq, Repr

def Operator.comparison? : Operator → Option Comparison
  | eq => some .eq
  | neq => some .ne
  | gt => some .gt
  | lt => some .lt
  | gte => some .ge
  | lte => some .le
  | contains => none
  | ilike => none

/-- An analysis of the form, with empty names. -/
def Form.analysis : Form → Analysis
  | aggregate function grouped countsRows =>
    .aggregate (if countsRows then "*" else "") function (if grouped then some "" else none)
  | trend function grain => .trend "" "" function grain
  | topList limit order => .topList "" "" limit order
  | distribution countsRows => .distribution (if countsRows then "count" else "") ""
  | compare period => .compare "" "" period
  | cohort interval => .cohort "" none interval

namespace Shape

/-- A target of the shape, with empty names. -/
def target (s : Shape) : Target := ⟨s.dialect, some "", if s.ofSource then some "" else none⟩

def condition (s : Shape) : Operator × ValueKind → Expr Name
  | (operator, kind) =>
    match operator.comparison? with
    | some op => .compare op (s.target.column kind.reading "") kind.expr
    | none => s.target.pattern "" ""

/-- The query of the shape, with empty texts. -/
def query (s : Shape) : Query :=
  s.form.analysis.query s.target Schema.empty (s.target.conditions [] ++ s.filters.map s.condition)

def outline (s : Shape) : List Token := s.query.tokens.map Token.outline

end Shape

/-- Whether a number is below zero or the negative zero. -/
def negative (x : Float) : Bool :=
  match Decimal.Binary.ofDouble x with
  | .finite negative _ _ => negative
  | .infinite negative => negative
  | .nan => false

def FilterValue.kind : FilterValue → ValueKind
  | bool _ => .truth
  | number x => .number (negative x)
  | text _ => .text

def Analysis.form (schema : Schema) : Analysis → Form
  | aggregate metric function groupBy =>
    .aggregate function groupBy.isSome (aggregateCountsRows schema metric function)
  | trend _ _ function grain => .trend function grain
  | topList _ _ limit order => .topList limit order
  | distribution metric _ => .distribution (countsRows metric)
  | compare _ _ period => .compare period
  | cohort _ _ interval => .cohort interval

def Shape.of (t : Target) (schema : Schema) (a : Analysis) (filters : List Filter) : Shape where
  dialect := t.dialect
  ofSource := t.sourceId.isSome
  form := a.form schema
  filters := filters.map fun f => (f.operator, f.value.kind)

/-- The shape of an intent that was made out. -/
def Intent.shape? (t : Target) (schema : Schema) : Intent → Option Shape
  | unknown .. => none
  | analyze a filters _ _ => some (.of t schema a filters)

section Outline

theorem exists_finite {x : Float} (h : x.isFinite = true) :
    ∃ b m e, Decimal.Binary.ofDouble x = .finite b m e := by
  have hx : x.toModel.unpack.isFinite = true := h
  unfold Decimal.Binary.ofDouble
  generalize x.toModel.unpack = u at hx ⊢
  rcases u with _ | s | s | ⟨s, m, e, he⟩
  · cases hx
  · cases hx
  · exact ⟨_, _, _, rfl⟩
  · exact ⟨_, _, _, rfl⟩

theorem blank_numberExpr {x : Float} (h : x.isFinite = true) :
    (numberExpr x).blank = (ValueKind.number (negative x)).expr := by
  obtain ⟨b, m, e, hx⟩ := exists_finite h
  unfold numberExpr negative
  rw [hx]
  cases b <;> rfl

theorem FilterValue.blank_expr {v : FilterValue} (h : ∀ x, v = .number x → x.isFinite = true) :
    v.expr.blank = v.kind.expr := by
  cases v with
  | bool b => rfl
  | number x => exact blank_numberExpr (h x rfl)
  | text s => rfl

variable {t : Target} {schema : Schema} {s : Shape}

theorem Target.blank_column (hd : s.dialect = t.dialect) (r : Reading) (c : String) :
    (t.column r c).blank = (s.target.column r "").blank := by
  unfold column Shape.target
  rw [hd]
  cases t.dialect <;> cases r <;> rfl

theorem Target.blank_pattern (hd : s.dialect = t.dialect) (c p : String) :
    (t.pattern c p).blank = (s.target.pattern "" "").blank := by
  have hc := blank_column hd .text c
  have hs : s.target.dialect = t.dialect := hd
  unfold pattern
  rw [hs]
  cases t.dialect <;> simp only [Expr.blank, hc]

theorem Target.blank_condition (hd : s.dialect = t.dialect) {f : Filter}
    (hf : ∀ x, f.value = .number x → x.isFinite = true) :
    (t.condition f).blank = (s.condition (f.operator, f.value.kind)).blank := by
  have hr : f.value.kind.reading = f.value.reading := by cases f.value <;> rfl
  have hv := FilterValue.blank_expr hf
  have hk : f.value.kind.expr.blank = f.value.kind.expr := by
    rcases f.value.kind with _ | ⟨_ | _⟩ | _ <;> rfl
  unfold condition Shape.condition
  dsimp only
  rw [hr]
  cases f.operator
  case contains => exact blank_pattern hd _ _
  case ilike => exact blank_pattern hd _ _
  all_goals simp only [Operator.comparison?, Expr.blank, hv, hk, blank_column hd]

theorem Target.conditions_eq (fs : List Filter) :
    t.conditions fs = t.conditions [] ++ fs.map t.condition := by
  simp [conditions]

theorem Target.blank_conditions (hd : s.dialect = t.dialect)
    (hs : s.ofSource = t.sourceId.isSome) {fs : List Filter}
    (hf : ∀ f ∈ fs, ∀ x, f.value = .number x → x.isFinite = true) :
    (t.conditions fs).map Expr.blank = (s.target.conditions [] ++
      (fs.map fun f => (f.operator, f.value.kind)).map s.condition).map Expr.blank := by
  have hscope : (t.conditions []).map Expr.blank = (s.target.conditions []).map Expr.blank := by
    unfold conditions Shape.target
    rw [hd, hs]
    cases t.dialect <;> cases t.sourceId <;> rfl
  rw [conditions_eq, List.map_append, List.map_append, hscope, List.map_map, List.map_map,
    List.map_map]
  exact congrArg _ (List.map_congr_left fun f h => blank_condition hd (hf f h))

theorem Analysis.blank_aggregateExpr (schema : Schema) (hd : s.dialect = t.dialect) (metric : String)
    (function : AggregateFunction) :
    (aggregateExpr t schema metric function).blank = (aggregateExpr s.target Schema.empty
      (if aggregateCountsRows schema metric function then "*" else "") function).blank := by
  unfold aggregateExpr
  by_cases hc : aggregateCountsRows schema metric function = true
  · have hf : function = .count := by
      simp only [aggregateCountsRows, Bool.and_eq_true, decide_eq_true_eq] at hc
      exact hc.1.1
    subst hf
    simp only [if_pos hc]
    rw [if_pos (by decide)]
  · have hempty : aggregateCountsRows Schema.empty "" function = false := by
      cases function <;> decide
    simp only [if_neg hc, hempty, Bool.false_eq_true, if_false]
    split_ifs <;> simp only [Expr.blank, Target.blank_column hd]

theorem Analysis.blank_query (schema : Schema) (hd : s.dialect = t.dialect) {cs cs' : List (Expr Name)}
    (hc : cs.map Expr.blank = cs'.map Expr.blank) (a : Analysis) :
    (a.query t schema cs).blank =
      ((a.form schema).analysis.query s.target Schema.empty cs').blank := by
  have hcolumn := Target.blank_column hd
  have hsource : t.source.blank = s.target.source.blank := rfl
  have hbucket : ∀ g c, (t.bucket g c).blank = (s.target.bucket g "").blank := fun g c => by
    simp only [Target.bucket, Expr.blank, hcolumn]
  cases a with
  | aggregate metric function groupBy =>
    have hvalue := blank_aggregateExpr schema hd metric function
    cases groupBy <;> simp [form, Form.analysis, query, Query.blank, Select.blank, Items.blank,
      Item.blank, hc, hcolumn, hsource, hvalue]
  | distribution metric dimension =>
    have hvalue : (if countsRows metric then Expr.countRows
        else .aggregate .sum (t.column .numeric metric)).blank =
        (if countsRows (if countsRows metric then "count" else "") then Expr.countRows
          else .aggregate .sum (s.target.column .numeric
            (if countsRows metric then "count" else ""))).blank := by
      by_cases h : countsRows metric = true
      · rw [if_pos h, if_pos h, if_pos (by decide)]
      · rw [if_neg h, if_neg h, if_neg (by decide)]
        simp only [Expr.blank, hcolumn]
    simp [form, Form.analysis, query, Query.blank, Select.blank, Items.blank, Item.blank, hc,
      hcolumn, hsource, hvalue]
  | compare metric date period =>
    simp [form, Form.analysis, query, periods, Query.blank, Select.blank, Items.blank, Item.blank,
      hc, hcolumn, hsource, hbucket, Expr.blank]
  | _ =>
    simp [form, Form.analysis, query, Query.blank, Select.blank, Items.blank, Item.blank, hc,
      hcolumn, hsource, hbucket, Expr.blank]

theorem outline_query {i : Intent} {q : Query} (h : i.query t schema = .ok q)
    (hf : ∀ f ∈ i.filters, ∀ x, f.value = .number x → x.isFinite = true) :
    ∃ s, i.shape? t schema = some s ∧ q.tokens.map Token.outline = s.outline := by
  cases i with
  | unknown => cases h
  | analyze a filters c r =>
    refine ⟨_, rfl, ?_⟩
    unfold Intent.query at h
    dsimp only at h
    split at h
    · cases h
    · cases h
      have hc : (t.conditions filters).map Expr.blank = _ :=
        Target.blank_conditions (s := .of t schema a filters) rfl rfl hf
      have hq := Analysis.blank_query schema (s := .of t schema a filters) rfl hc a
      calc (a.query t schema (t.conditions filters)).tokens.map Token.outline
          = (a.query t schema (t.conditions filters)).blank.tokens.map Token.outline :=
            (Query.outline_blank _).symm
        _ = (Shape.of t schema a filters).query.blank.tokens.map Token.outline := by
            rw [hq, Shape.query]
            rfl
        _ = (Shape.of t schema a filters).outline := Query.outline_blank _

end Outline

end TableTalk
