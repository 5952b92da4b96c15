import TableTalk.Chart.Recommendation
import TableTalk.Insight.Thousands
/-!
# Headline figures

At most five facts about a data set, computed without a model: the number of rows, the total and the
average of the first column of numbers, the category of the first text column with the largest total
of it, and the number of its distinct categories. With the charts that the data allows they make up
the overview.
-/

namespace TableTalk

inductive InsightKind where
  | top
  | comparison
deriving DecidableEq, Repr

def InsightKind.name : InsightKind → String
  | top => "top"
  | comparison => "comparison"

structure Insight where
  kind : InsightKind
  title : String
  description : String
  value : String
deriving DecidableEq, Repr

namespace Insight

def limit : Nat := 5

def toJson (i : Insight) : Json :=
  .obj [("kind", .str i.kind.name), ("title", .str i.title), ("description", .str i.description),
    ("value", .str i.value)]

/-- The figures of a column in the order of the rows. -/
def figures (rows : List Row) (column : String) : List Float :=
  rows.filterMap fun r => r.figure? column

/-- The category with the largest total of a column, among the rows with a figure in it. Each figure
is taken for the number that `num` makes of it. -/
def topSum? {α : Type} [Add α] [OfNat α 0] [LT α] [DecidableRel (LT.lt (α := α))]
    (num : Float → α) (rows : List Row) (category metric : String) : Option (String × α) :=
  largest? <| totals <| rows.filterMap fun r =>
    (r.figure? metric).map fun x => (r.category category, num x)

def topCategory? (rows : List Row) (category metric : String) : Option (String × Float) :=
  topSum? id rows category metric

/-- The number of categories of a column. -/
def distinctCount (rows : List Row) (column : String) : Nat :=
  (Profile.fresh [] (rows.map fun r => r.category column)).length

def records (rows : List Row) : Insight :=
  ⟨.comparison, "Total Records", s!"You have {rows.length} rows of data",
    Thousands.text 0 (Float.ofNat rows.length)⟩

def total (rows : List Row) (column : String) : Insight :=
  ⟨.comparison, "Total " ++ column, s!"Sum of all {column} values",
    Thousands.text 0 (sumOf (figures rows column))⟩

def top? (rows : List Row) (category metric : String) : Option Insight :=
  (topCategory? rows category metric).map fun (name, total) =>
    ⟨.top, "Top " ++ category, s!"{name} generated {Thousands.text 0 total} in {metric}", name⟩

def average? (rows : List Row) (column : String) : Option Insight :=
  match figures rows column with
  | [] => none
  | xs => some ⟨.comparison, "Average " ++ column, "Mean value across all records",
      Thousands.text 2 (sumOf xs / Float.ofNat xs.length)⟩

def unique (rows : List Row) (column : String) : Insight :=
  ⟨.comparison, "Unique " ++ column, s!"Number of distinct {column} values",
    toString (distinctCount rows column)⟩

/-- The facts about some rows with a column of numbers and one of texts. -/
def ofColumns (rows : List Row) (number text : Option String) : List Insight :=
  let top := text.bind fun t => number.bind fun n => top? rows t n
  ([records rows] ++ (number.map (total rows)).toList ++ top.toList
    ++ (number.bind (average? rows)).toList ++ (text.map (unique rows)).toList).take limit

/-- The facts about some rows, if there are rows. -/
def ofRows (rows : List Row) (schema : Schema) : List Insight :=
  if rows.isEmpty then []
  else ofColumns rows (schema.columnsOf .number).head? (schema.columnsOf .text).head?

/-- One line for each fact. -/
def lines (insights : List Insight) : String :=
  String.intercalate "\n" (insights.map fun i => s!"{i.title}: {i.description} ({i.value})")

end Insight

/-- The facts about a data set and the charts that it allows. -/
structure Overview where
  insights : List Insight
  charts : Option (Roles × List Recommendation)

namespace Overview

def ofRows (rows : List Row) (schema : Schema) : Overview :=
  ⟨Insight.ofRows rows schema, Recommendation.ofRows? rows⟩

def toJson (o : Overview) : Json :=
  let charts := o.charts.map fun (roles, rs) =>
    ("charts", Json.obj [("columns", roles.toJson),
      ("recommendations", .arr (rs.map Recommendation.toJson))])
  .obj (("insights", .arr (o.insights.map Insight.toJson)) :: charts.toList)

end Overview

end TableTalk
