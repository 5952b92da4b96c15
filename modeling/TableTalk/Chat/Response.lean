import TableTalk.Chart.Basic
/-!
# Answers to questions

A turn ends in one of four ways: it is refused, the question is not understood, the query fails, or
there is a result. Only what belongs to the case is in the answer.
-/

namespace TableTalk

/-- The result of an analysis in words and data. -/
structure Answer where
  content : String
  sql : String
  intent : Intent
  rows : List Row
  chart : Option Chart

inductive Response where
  | refused (content : String)
  | notUnderstood (content : String)
  /-- The query was written and could not be run. -/
  | notRun (content sql : String)
  | answered (answer : Answer)

namespace Response

def content : Response → String
  | refused content => content
  | notUnderstood content => content
  | notRun content _ => content
  | answered a => a.content

/-- Whether something went wrong. -/
def isError : Response → Bool
  | refused _ => true
  | notUnderstood _ => false
  | notRun .. => true
  | answered _ => false

/-- The members between the content and the error flag. -/
def details : Response → List (String × Json)
  | refused _ => []
  | notUnderstood _ => []
  | notRun _ sql => [("sql", .str sql)]
  | answered a =>
    [("sql", .str a.sql), ("intent", a.intent.toJson), ("data", rowsJson a.rows),
      ("rowCount", .int a.rows.length)] ++ (a.chart.map fun c => ("chart", c.toJson)).toList

def toJson (r : Response) : Json :=
  .obj (("content", .str r.content) :: r.details ++ [("error", .bool r.isError)])

end Response

end TableTalk
