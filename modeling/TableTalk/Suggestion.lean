import TableTalk.Table.Schema
/-!
# Starter questions

Questions about a data set that its first number, text and date columns suggest, at most
`Suggestion.limit` of them.
-/

namespace TableTalk.Suggestion

def limit : Nat := 4

/-- The questions about a column of numbers, one of texts and one of dates. -/
def ofColumns (number text date : Option String) : List String :=
  let numbers := number.toList
  let texts := text.toList
  let all :=
    (numbers.map fun n => s!"What were total {n}?")
    ++ (texts.flatMap fun t => numbers.flatMap fun n =>
      [s!"Show me {n} by {t}", s!"Which {t} had highest {n}?"])
    ++ (date.toList.flatMap fun d => numbers.map fun n => s!"Show me {n} by {d}")
    ++ (texts.map fun t => s!"How many unique {t}?")
    ++ (numbers.map fun n => s!"What is the average {n}?")
  all.take limit

def questions (schema : Schema) : List String :=
  ofColumns (schema.columnsOf .number).head? (schema.columnsOf .text).head?
    (schema.columnsOf .date).head?

end TableTalk.Suggestion
