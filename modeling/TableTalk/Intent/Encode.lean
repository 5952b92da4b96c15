import TableTalk.Intent.Decode
/-!
# Intents as JSON

`Intent.toJson` writes the kind first and then the fields in their order, defaults included and
absent columns left out. `Intent.toItems` is the array form, with `null` for an absent column. Every
name comes from the table that decoding reads.
-/

namespace TableTalk

/-- The first name of a value in a table of names. -/
def nameIn {α : Type} [DecidableEq α] (names : List (String × α)) (a : α) : String :=
  ((names.find? fun p => p.2 = a).map Prod.fst).getD ""

def Operator.name (o : Operator) : String := nameIn names o

def AggregateFunction.name (f : AggregateFunction) : String := nameIn names f

def CohortInterval.name (i : CohortInterval) : String := nameIn names i

def ComparePeriod.name (p : ComparePeriod) : String := nameIn names p

def SortOrder.name (o : SortOrder) : String := nameIn names o

def FilterValue.toJson : FilterValue → Json
  | bool b => .bool b
  | number x => .ofFloat x
  | text s => .str s

def Filter.toJson (f : Filter) : Json :=
  .obj [("column", .str f.column), ("operator", .str f.operator.name), ("value", f.value.toJson)]

def filtersJson (fs : List Filter) : Json := .arr (fs.map Filter.toJson)

namespace Analysis

/-- The fields of an analysis in front of its filters; an absent column has no content. -/
def parts : Analysis → List (String × Option Json)
  | aggregate metric function groupBy =>
    [("metricColumn", some (.str metric)), ("aggregateFunction", some (.str function.name)),
      ("groupByColumn", groupBy.map .str)]
  | trend metric date function grain =>
    [("metricColumn", some (.str metric)), ("dateColumn", some (.str date)),
      ("aggregateFunction", some (.str function.name)), ("timeGrain", some (.str grain.name))]
  | topList metric dimension limit order =>
    [("metricColumn", some (.str metric)), ("dimensionColumn", some (.str dimension)),
      ("limit", some (.int limit)), ("order", some (.str order.name))]
  | distribution metric dimension =>
    [("metricColumn", some (.str metric)), ("dimensionColumn", some (.str dimension))]
  | compare metric date period =>
    [("metricColumn", some (.str metric)), ("dateColumn", some (.str date)),
      ("period", some (.str period.name))]
  | cohort date metric interval =>
    [("dateColumn", some (.str date)), ("metricColumn", metric.map .str),
      ("interval", some (.str interval.name))]

end Analysis

namespace Intent

/-- The fields of an intent in order; an absent column has no content. -/
def parts : Intent → List (String × Option Json)
  | analyze a fs c r =>
    a.parts ++ [("filters", some (filtersJson fs)), ("confidence", some (.ofFloat c)),
      ("reasoning", some (.str r))]
  | unknown c r => [("confidence", some (.ofFloat c)), ("reasoning", some (.str r))]

def toJson (i : Intent) : Json :=
  .obj (("type", .str i.kind.name) :: i.parts.filterMap fun (name, v) => v.map fun v => (name, v))

def toItems (i : Intent) : Json :=
  .arr (.str i.kind.name :: i.parts.map fun (_, v) => v.getD .null)

end Intent

end TableTalk
