import TableTalk.Calendar.Date
/-!
# Intents

An intent is what a question asks of a table: one of six analyses of named columns, restricted by
filters, or nothing that could be made out. Each carries the confidence and the reasoning that came
with it. `Intent.columns` lists the columns that an intent mentions, those of its filters last.
-/

namespace TableTalk

inductive Operator where
  | eq
  | neq
  | gt
  | lt
  | gte
  | lte
  | contains
  | ilike
deriving DecidableEq, Repr

inductive FilterValue where
  | bool (b : Bool)
  | number (x : Float)
  | text (s : String)
deriving DecidableEq, Repr

structure Filter where
  column : String
  operator : Operator
  value : FilterValue
deriving DecidableEq, Repr

inductive AggregateFunction where
  | sum
  | avg
  | count
  | min
  | max
deriving DecidableEq, Repr

/-- The buckets of a cohort; there are none of a year. -/
inductive CohortInterval where
  | day
  | week
  | month
deriving DecidableEq, Repr

def CohortInterval.grain : CohortInterval → Grain
  | day => .day
  | week => .week
  | month => .month

inductive ComparePeriod where
  | yearOverYear
  | monthOverMonth
  | previousPeriod
deriving DecidableEq, Repr

/-- Only the comparison of years has buckets of a year. -/
def ComparePeriod.grain : ComparePeriod → Grain
  | yearOverYear => .year
  | monthOverMonth => .month
  | previousPeriod => .month

inductive SortOrder where
  | desc
  | asc
deriving DecidableEq, Repr

/-- The analyses. -/
inductive Analysis where
  /-- One number, or one for each value of a column. -/
  | aggregate (metric : String) (function : AggregateFunction) (groupBy : Option String)
  /-- A metric over time. -/
  | trend (metric date : String) (function : AggregateFunction) (grain : Grain)
  /-- The values of a dimension with the largest or smallest totals. -/
  | topList (metric dimension : String) (limit : Nat) (order : SortOrder)
  /-- How a total, or the number of rows, splits over the values of a dimension. -/
  | distribution (metric dimension : String)
  /-- Each period beside the one before it. -/
  | compare (metric date : String) (period : ComparePeriod)
  /-- The number of rows by date. -/
  | cohort (date : String) (metric : Option String) (interval : CohortInterval)
deriving DecidableEq, Repr

inductive Intent where
  | analyze (analysis : Analysis) (filters : List Filter) (confidence : Float) (reasoning : String)
  | unknown (confidence : Float) (reasoning : String)
deriving DecidableEq, Repr

/-- The kinds of intent. -/
inductive Kind where
  | aggregate
  | trend
  | topList
  | distribution
  | compare
  | cohort
  | unknown
deriving DecidableEq, Repr

namespace Kind

def all : List Kind := [aggregate, trend, topList, distribution, compare, cohort, unknown]

/-- The name of the kind in text. -/
def name : Kind → String
  | aggregate => "AGGREGATE_METRIC"
  | trend => "TREND_ANALYSIS"
  | topList => "TOP_LIST"
  | distribution => "DISTRIBUTION"
  | compare => "COMPARE_METRIC"
  | cohort => "COHORT_ANALYSIS"
  | unknown => "UNKNOWN"

end Kind

namespace Analysis

def kind : Analysis → Kind
  | aggregate .. => .aggregate
  | trend .. => .trend
  | topList .. => .topList
  | distribution .. => .distribution
  | compare .. => .compare
  | cohort .. => .cohort

/-- The columns that an analysis mentions, in the order of its fields. -/
def columns : Analysis → List String
  | aggregate metric _ groupBy => metric :: groupBy.toList
  | trend metric date _ _ => [metric, date]
  | topList metric dimension _ _ => [metric, dimension]
  | distribution metric dimension => [metric, dimension]
  | compare metric date _ => [metric, date]
  | cohort date metric _ => date :: metric.toList

end Analysis

namespace Intent

def kind : Intent → Kind
  | analyze a .. => a.kind
  | unknown .. => .unknown

def isUnknown : Intent → Bool
  | analyze .. => false
  | unknown .. => true

def confidence : Intent → Float
  | analyze _ _ c _ => c
  | unknown c _ => c

def reasoning : Intent → String
  | analyze _ _ _ r => r
  | unknown _ r => r

def filters : Intent → List Filter
  | analyze _ fs _ _ => fs
  | unknown .. => []

/-- Every column that the intent mentions, in the order of its fields, then its filters. -/
def columns : Intent → List String
  | analyze a fs _ _ => a.columns ++ fs.map Filter.column
  | unknown .. => []

end Intent

end TableTalk
