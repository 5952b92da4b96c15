import TableTalk.Intent.Encode
/-!
# Charts of results

The chart of a result depends on the intent and on the number of rows. It names the columns that the
query of the intent makes, never those of the data. There is none for an empty result, nor for a
single number.
-/

namespace TableTalk

inductive ChartKind where
  | line
  | bar
  | pie
deriving DecidableEq, Repr

def ChartKind.name : ChartKind → String
  | line => "line"
  | bar => "bar"
  | pie => "pie"

structure Chart where
  kind : ChartKind
  /-- The column of the categories. -/
  x : String
  /-- The column of the values. -/
  y : String
  title : String
deriving DecidableEq, Repr

namespace Chart

def members (c : Chart) : List (String × Json) :=
  [("kind", .str c.kind.name), ("xKey", .str c.x), ("yKey", .str c.y), ("title", .str c.title)]

def toJson (c : Chart) : Json := .obj c.members

/-- The largest number of rows still drawn as a pie. -/
def pieSlices : Nat := 8

def intervalLabel : CohortInterval → String
  | .day => "Daily"
  | .week => "Weekly"
  | .month => "Monthly"

/-- The chart of a result with rows. -/
def ofAnalysis (rows : Nat) : Analysis → Option Chart
  | .aggregate metric _ (some group) => some ⟨.bar, "group", "value", s!"{metric} by {group}"⟩
  | .aggregate _ _ none => none
  | .trend metric .. => some ⟨.line, "date", "value", s!"Trend of {metric}"⟩
  | .topList metric dimension limit _ =>
    some ⟨.bar, "label", "value", s!"Top {limit} {dimension} by {metric}"⟩
  | .distribution metric dimension =>
    if rows ≤ pieSlices then some ⟨.pie, "label", "value", s!"Distribution of {metric}"⟩
    else some ⟨.bar, "label", "value", s!"Distribution: {metric} by {dimension}"⟩
  | .compare metric _ period =>
    some ⟨.bar, "date", "current_value", s!"Comparison: {metric} ({period.name})"⟩
  | .cohort _ _ interval =>
    some ⟨.line, "cohort_date", "cohort_size", s!"Cohort Growth: {intervalLabel interval}"⟩

/-- The chart of a result of so many rows. -/
def pick (i : Intent) (rows : Nat) : Option Chart :=
  if rows = 0 then none
  else match i with
    | .analyze a .. => ofAnalysis rows a
    | .unknown .. => none

end Chart

end TableTalk
