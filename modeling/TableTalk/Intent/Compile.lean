import TableTalk.Sql.Printer
import TableTalk.Table.Schema
import TableTalk.Decimal.Text
import TableTalk.Text.Quoted
/-!
# The query of an intent

Each analysis has one query. The dialect decides how a column is read: a column of a table is cast
by a function that gives nothing instead of failing, a member of a document by a cast. A metric
named like a count of rows, where no such column exists, counts rows. An intent has a query exactly
if it was made out and every column that it reads is in the schema. Every query but that of a single
number is cut off at a fixed number of rows.
-/

namespace TableTalk

open Sql

/-- Where a query reads from. -/
structure Target where
  dialect : Dialect
  /-- The table, if it is not the usual one. -/
  table : Option String := none
  /-- The source whose documents are read, if not all are. -/
  sourceId : Option String := none

def defaultTable : String := "current_analysis"

def documentTable : String := "data_rows"

def documentColumn : String := "row_data"

inductive CompileError where
  | unsupported (kind : Kind)
  | unknownColumn (column : String) (available : List String)
deriving DecidableEq, Repr

def CompileError.message : CompileError → String
  | unsupported kind => s!"Cannot generate query for {kind.name} intent."
  | unknownColumn column available =>
    s!"Column {Text.quoted column} does not exist in this dataset (available: "
      ++ String.intercalate ", " available ++ ")"

/-- As what a column is read. -/
inductive Reading where
  | numeric
  | date
  | boolean
  | text
deriving DecidableEq, Repr

def aggregateCap : Nat := 100

def trendCap : Nat := 500

def topListCap : Nat := 100

def distributionCap : Nat := 20

def compareCap : Nat := 12

def cohortCap : Nat := 24

/-- A metric that stands for the number of rows. -/
def countsRows (metric : String) : Bool := Text.sameAscii metric "count"

/-- Whether an aggregate counts rows instead of reading its metric. -/
def aggregateCountsRows (schema : Schema) (metric : String) (function : AggregateFunction) : Bool :=
  function = .count && !schema.contains metric && (metric = "*" || countsRows metric)

namespace Analysis

/-- The columns that must be in the schema: all that are mentioned, but for a metric that only
stands for the number of rows. -/
def checkedColumns (schema : Schema) : Analysis → List String
  | aggregate metric function groupBy =>
    if aggregateCountsRows schema metric function then groupBy.toList else metric :: groupBy.toList
  | distribution metric dimension =>
    if countsRows metric then [dimension] else [metric, dimension]
  | a => a.columns

end Analysis

/-- A number as a literal, with its sign in front. -/
def numberExpr (x : Float) : Expr Name :=
  let digits (b : Decimal.Binary) : Expr Name := match b with
    | .nan => .column (.bare "NaN")
    | .infinite _ => .column (.bare "inf")
    | .finite _ m e =>
      .number (String.ofList (Decimal.positional (Decimal.shortest .double .away m e)))
  match Decimal.Binary.ofDouble x with
  | .infinite true => .negate (digits (.infinite false))
  | .finite true m e => .negate (digits (.finite false m e))
  | b => digits b

namespace FilterValue

/-- The value as the text of a pattern. -/
def shown : FilterValue → String
  | bool b => if b then "true" else "false"
  | number x => Decimal.plain x
  | text s => s

def reading : FilterValue → Reading
  | bool _ => .boolean
  | number _ => .numeric
  | text _ => .text

def expr : FilterValue → Expr Name
  | bool b => .truth b
  | number x => numberExpr x
  | text s => .text s

end FilterValue

namespace Target

/-- How a column is read. -/
def column (t : Target) (reading : Reading) (c : String) : Expr Name :=
  match t.dialect with
  | .directColumn =>
    let e := Expr.column (.quoted c)
    match reading with
    | .numeric => .call .tryCastDouble e
    | .date => .call .tryCastTimestamp e
    | .boolean => e
    | .text => e
  | .jsonDocument =>
    let e := Expr.paren (.member (.column (.bare documentColumn)) (.text c))
    match reading with
    | .numeric => .cast e "numeric"
    | .date => .cast e "timestamp"
    | .boolean => .cast e "boolean"
    | .text => e

def source (t : Target) : Name :=
  .quoted (t.table.getD (match t.dialect with
    | .directColumn => defaultTable
    | .jsonDocument => documentTable))

/-- A filter by a pattern. Case is ignored. -/
def pattern (t : Target) (c pattern : String) : Expr Name :=
  let e := t.column .text c
  match t.dialect with
  | .directColumn => .like (.call .lower e) (.call .lower (.text pattern))
  | .jsonDocument => .ilike e (.text pattern)

def condition (t : Target) (f : Filter) : Expr Name :=
  let compare (op : Comparison) : Expr Name :=
    .compare op (t.column f.value.reading f.column) f.value.expr
  match f.operator with
  | .eq => compare .eq
  | .neq => compare .ne
  | .gt => compare .gt
  | .lt => compare .lt
  | .gte => compare .ge
  | .lte => compare .le
  | .contains => t.pattern f.column ("%" ++ f.value.shown ++ "%")
  | .ilike => t.pattern f.column f.value.shown

/-- Documents of one source only, and the filters. -/
def conditions (t : Target) (filters : List Filter) : List (Expr Name) :=
  let scope := match t.dialect, t.sourceId with
    | .jsonDocument, some id => [.compare .eq (.column (.bare "data_source_id")) (.text id)]
    | _, _ => []
  scope ++ filters.map t.condition

/-- The bucket of a date. -/
def bucket (t : Target) (g : Grain) (c : String) : Expr Name :=
  .call2 .dateTrunc (.text g.name) (t.column .date c)

end Target

/-- The total of the period before. -/
def previousTotal : Expr Name :=
  .lag (.column (.quoted "total_value")) (.column (.quoted "period_date"))

namespace Analysis

/-- The number that an aggregate computes. -/
def aggregateExpr (t : Target) (schema : Schema) (metric : String) (function : AggregateFunction) :
    Expr Name :=
  if aggregateCountsRows schema metric function then .countRows
  else if function = .count then .aggregate .count (t.column .text metric)
  else .aggregate function (t.column .numeric metric)

/-- Totals by period, for comparing. -/
def periods (t : Target) (conditions : List (Expr Name)) (metric date : String) (g : Grain) :
    Select where
  items := .list [⟨t.bucket g date, some "period_date"⟩,
    ⟨.aggregate .sum (t.column .numeric metric), some "total_value"⟩]
  source := t.source
  conditions := conditions
  groupBy := some (.number "1")
  orderBy := none
  limit := none

/-- Each period beside the one before. -/
def comparison : Select where
  items :=
    let total : Expr Name := .column (.quoted "total_value")
    let change : Expr Name := .arithmetic .minus total previousTotal
    .list [⟨.column (.quoted "period_date"), some "date"⟩, ⟨total, some "current_value"⟩,
      ⟨previousTotal, some "previous_value"⟩, ⟨change, some "change_value"⟩,
      ⟨.call2 .round (.arithmetic .times (.arithmetic .divide (.paren change)
        (.call2 .nullif previousTotal (.number "0"))) (.number "100")) (.number "2"),
        some "percentage_change"⟩]
  source := .bare "period_stats"
  conditions := []
  groupBy := none
  orderBy := some (.number "1", .desc)
  limit := some compareCap

/-- The query of an analysis of the rows that satisfy some conditions. -/
def query (t : Target) (schema : Schema) (conditions : List (Expr Name)) : Analysis → Query
  | aggregate metric function groupBy =>
    let value : Item Name := ⟨aggregateExpr t schema metric function, some "value"⟩
    match groupBy with
    | none => ⟨none, ⟨.list [value], t.source, conditions, none, none, none⟩⟩
    | some c =>
      let group := t.column .text c
      ⟨none, ⟨.list [⟨group, some "group"⟩, value], t.source, conditions, some group,
        some (.column (.quoted "value"), .desc), some aggregateCap⟩⟩
  | trend metric date function grain =>
    ⟨none, ⟨.list [⟨t.bucket grain date, some "date"⟩,
        ⟨.aggregate function (t.column .numeric metric), some "value"⟩], t.source, conditions,
      some (.number "1"), some (.number "1", .asc), some trendCap⟩⟩
  | topList metric dimension limit order =>
    ⟨none, ⟨.list [⟨t.column .text dimension, some "label"⟩,
        ⟨.aggregate .sum (t.column .numeric metric), some "value"⟩], t.source, conditions,
      some (.number "1"), some (.number "2", order), some (max 1 (min limit topListCap))⟩⟩
  | distribution metric dimension =>
    let value : Expr Name :=
      if countsRows metric then .countRows else .aggregate .sum (t.column .numeric metric)
    ⟨none, ⟨.list [⟨t.column .text dimension, some "label"⟩, ⟨value, some "value"⟩], t.source,
      conditions, some (.number "1"), some (.number "2", .desc), some distributionCap⟩⟩
  | compare metric date period =>
    ⟨some ("period_stats", periods t conditions metric date period.grain), comparison⟩
  | cohort date _ interval =>
    ⟨none, ⟨.list [⟨t.bucket interval.grain date, some "cohort_date"⟩,
        ⟨.countRows, some "cohort_size"⟩], t.source, conditions,
      some (.number "1"), some (.number "1", .asc), some cohortCap⟩⟩

end Analysis

namespace Intent

/-- The query of an intent, or why there is none. -/
def query (t : Target) (schema : Schema) : Intent → Except CompileError Query
  | unknown .. => .error (.unsupported .unknown)
  | analyze a filters _ _ =>
    match (a.checkedColumns schema ++ filters.map Filter.column).find?
        fun c => !schema.contains c with
    | some c => .error (.unknownColumn c schema.columns)
    | none => .ok (a.query t schema (t.conditions filters))

/-- The text of the query of an intent. -/
def compile (t : Target) (schema : Schema) (i : Intent) : Except CompileError String :=
  (i.query t schema).map Query.text

end Intent

end TableTalk
