import TableTalk.Chat.Prompt
import TableTalk.Chat.Response
import TableTalk.Intent.Reading
import TableTalk.Model.Completion
import TableTalk.Settings.Basic
import TableTalk.Source.Basic
import TableTalk.Store.Run
/-!
# From a question to an answer

A turn takes the rows of a source, asks the model for an intent, compiles it, runs the query on a
store of its own and asks the model to put the result in words. Each step needs the one before, and
none is tried twice. Whatever goes wrong with the first question to the model counts as a question
that was not understood; when the second one fails, a plain summary stands in for the narration. The
monad is that of the source and of the model.
-/

namespace TableTalk

structure Pipeline (m : Type → Type) where
  source : Source m
  model : Model m
  settings : Settings := {}

namespace Pipeline

def internalError : String := "Sorry, I encountered an internal error. Please try again."

def sourceNotFound : String := "Data source not found"

def unauthorized : String := "Unauthorized"

def missingInput : String := "Message and dataSourceId required"

/-- What is said when a question is not understood and the model gives no reason. -/
def askDifferently : String := "Could you try asking differently?"

/-- The intent of a question that could not be classified. -/
def unclassified : Intent := .unknown 0 "System error during classification"

def intentOfReply : Except ModelError String → Intent
  | .error _ => unclassified
  | .ok reply =>
    match Intent.ofReply reply with
    | .ok i => i
    | .error _ => unclassified

def sourceFailure : SourceError → Response
  | .notFound _ => .refused sourceNotFound
  | .unreadable .. => .refused internalError
  | .malformed .. => .refused internalError

def notUnderstood (reasoning : String) : Response :=
  .notUnderstood ("I'm not sure how to analyze that. "
    ++ if Text.isBlank reasoning then askDifferently else reasoning)

def notCompiled (i : Intent) (e : CompileError) : Response :=
  .refused (s!"I understood your intent ({i.kind.name}) but couldn't construct the query: "
    ++ e.message)

def notRun (sql : String) (e : StoreError) : Response :=
  .notRun ("Error executing analysis: " ++ e.message) sql

variable {m : Type → Type} (p : Pipeline m)

def classification (question : String) (schema : Schema) : Completion where
  messages := [⟨"user", Prompt.classification question schema⟩]
  maxTokens := p.settings.model.classifyTokens
  temperature := 0
  json := true

def narration (question : String) (rows : List Row) : Completion where
  messages := [⟨"system", Prompt.narration question rows p.settings.analysis.previewChars⟩]
  maxTokens := p.settings.model.narrateTokens
  temperature := p.settings.model.narrateTemperature

/-- The rows that a turn looks at. -/
def kept (rows : List Row) : List Row := rows.take p.settings.analysis.maxRows

def schema (rows : List Row) : Schema := Profile.ofSample rows p.settings.analysis.sampleRows

def target : Target where
  dialect := .directColumn
  table := some p.settings.analysis.tableName

/-- The query of an intent and its result on some rows, or the response that says why there is none.
-/
def evaluate (rows : List Row) : Intent → Except Response (String × List Row)
  | .unknown _ reasoning => .error (notUnderstood reasoning)
  | i =>
    match i.compile p.target (p.schema rows) with
    | .error e => .error (notCompiled i e)
    | .ok sql =>
      match Store.executeOnce p.settings.analysis.tableName rows sql with
      | .error e => .error (notRun sql e)
      | .ok result => .ok (sql, result)

variable [Monad m]

def classify (question : String) (rows : List Row) : m Intent := do
  let reply ← p.model (p.classification question (p.schema rows))
  pure (intentOfReply reply)

/-- The result in words. -/
def narrate (question : String) (rows : List Row) : m String := do
  match ← p.model (p.narration question rows) with
  | .ok reply => pure (Text.trim reply)
  | .error _ => pure (Prompt.summary rows)

/-- A turn on rows at hand. -/
def analyze (question : String) (rows : List Row) : m Response := do
  let rows := p.kept rows
  let i ← p.classify question rows
  match p.evaluate rows i with
  | .error r => pure r
  | .ok (sql, result) => do
    let content ← p.narrate question result
    pure (.answered ⟨content, sql, i, result, Chart.pick i result.length⟩)

/-- A turn on the rows of a source. -/
def ask (question id : String) : m Response :=
  if Text.isBlank question || Text.isBlank id then pure (.refused missingInput)
  else do
    match ← p.source.rows id with
    | .error e => pure (sourceFailure e)
    | .ok rows => p.analyze question rows

/-- A turn for one user. A source that has an owner is there for the owner only. -/
def askAs (user question id : String) : m Response := do
  match ← p.source.owner id with
  | .error e => pure (sourceFailure e)
  | .ok none => p.ask question id
  | .ok (some owner) => if owner = user then p.ask question id else pure (.refused unauthorized)

end Pipeline

end TableTalk
