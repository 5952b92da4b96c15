import TableTalk.Json.Printer
import TableTalk.Table.Row
import TableTalk.Table.Schema
/-!
# Prompts

The classification prompt shows the columns and the question, the rules for choosing an analysis and
the shapes that an answer can have. The narration prompt shows the start of a result. `summary` says
in plain words what a result holds, for when there is no narration.
-/

namespace TableTalk.Prompt

def lines (ls : List String) : String := String.intercalate "\n" ls

def rules : String := lines
  ["RULES:",
    "1. Map purely to the schema provided. Do not hallucinate columns.",
    "2. If the user asks for \"sales\", look for columns like \"revenue\", \"total_sales\", "
      ++ "\"amount\".",
    "3. If the user asks for a trend (\"over time\", \"monthly\"), use TREND_ANALYSIS.",
    "4. If the user asks for \"breakdown\" or \"distribution\", use DISTRIBUTION.",
    "5. If the user asks for \"top products\", \"best sellers\", use TOP_LIST.",
    "6. If the user asks for \"breakdown by [category]\", use DISTRIBUTION.",
    "7. If the user asks for a single number (\"total count\", \"average price\"), use "
      ++ "AGGREGATE_METRIC.",
    "8. If the user asks to compare two periods (e.g. \"sales this month vs last month\", "
      ++ "\"YoY growth\"), use COMPARE_METRIC.",
    "9. If the user asks for retention or cohorts (e.g. \"user retention by month\", "
      ++ "\"cohort analysis\"), use COHORT_ANALYSIS.",
    "10. If the user asks for a specific chart type (e.g. \"bar chart of...\"), map it to the "
      ++ "most relevant intent (e.g. DISTRIBUTION or TOP_LIST).",
    "11. If the request is ambiguous or impossible with these columns, return UNKNOWN."]

/-- An object with some fields, its type first. -/
def shape (kind : String) (fields : String) : String :=
  "\x7b\"type\":\"" ++ kind ++ "\"," ++ fields ++ "\"confidence\":0..1,\"reasoning\":str\x7d"

def functions : String := "\"aggregateFunction\":\"SUM|AVG|COUNT|MIN|MAX\","

def filters : String := "\"filters\":[Filter],"

def shapes : String := lines
  ["Respond with ONE JSON object and nothing else. It must have one of these shapes:",
    shape "AGGREGATE_METRIC"
      ("\"metricColumn\":str," ++ functions ++ "\"groupByColumn\"?:str," ++ filters),
    shape "TREND_ANALYSIS" ("\"metricColumn\":str,\"dateColumn\":str," ++ functions
      ++ "\"timeGrain\":\"day|week|month|year\"," ++ filters),
    shape "TOP_LIST" ("\"metricColumn\":str,\"dimensionColumn\":str,\"limit\":int,"
      ++ "\"order\":\"desc|asc\"," ++ filters),
    shape "DISTRIBUTION" ("\"metricColumn\":str,\"dimensionColumn\":str," ++ filters),
    shape "COMPARE_METRIC" ("\"metricColumn\":str,\"dateColumn\":str,"
      ++ "\"period\":\"year_over_year|month_over_month|previous_period\"," ++ filters),
    shape "COHORT_ANALYSIS" ("\"dateColumn\":str,\"metricColumn\"?:str,"
      ++ "\"interval\":\"day|week|month\"," ++ filters),
    shape "UNKNOWN" "",
    "Filter = \x7b\"column\":str,\"operator\":\"eq|neq|gt|lt|gte|lte|contains|ilike\","
      ++ "\"value\":str|number|boolean\x7d"]

def columnLine (column : String) (type : ColumnType) : String :=
  s!"- \"{column}\" (Type: {type.name})"

def classification (question : String) (schema : Schema) : String :=
  "You are a precise data analyst engine. Your job is to map a user's question "
    ++ "to a structured analysis intent.\n\nAVAILABLE COLUMNS:\n"
    ++ lines (schema.toList.map fun (c, t) => columnLine c t)
    ++ s!"\n\nUSER QUESTION: \"{question}\"\n\n{rules}\n\n{shapes}"

/-- The start of a result as JSON. -/
def preview (size : Nat) (rows : List Row) : String :=
  String.ofList ((rowsJson rows).compact.toList.take size)

def narration (question : String) (rows : List Row) (size : Nat) : String :=
  "You are a helpful data analyst.\n"
    ++ s!"The user asked: \"{question}\".\n\nThe analysis returned:\n{preview size rows}\n\n"
    ++ "Explain the result simply. Focus on the numbers. Do not mention \"SQL\"."

/-- A cell in plain words. -/
def cellText : Json → String
  | .str s => s
  | v => v.compact

def rowText (r : Row) : String :=
  String.intercalate ", " (r.cells.map fun (name, v) => s!"{name} = {cellText v}")

def summary : List Row → String
  | [] => "The analysis returned no matching rows."
  | [only] => s!"Result: {rowText only}."
  | first :: rest => s!"The analysis returned {rest.length + 1} rows. First row: {rowText first}."

end TableTalk.Prompt
