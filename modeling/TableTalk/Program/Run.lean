import TableTalk.Chat.Pipeline
import TableTalk.Insight.Overview
import TableTalk.Model.Client
import TableTalk.Program.Arguments
import TableTalk.Settings.Load
import TableTalk.Source.Directory
import TableTalk.Suggestion
/-!
# The program

A command line is run against a host, which reads files, knows the environment and sends requests.
The outcome is an exit status with what is printed: 0 with a result, 1 if the command failed, 2 if
the command line is none. Settings that cannot be read are replaced by the usual ones as a whole.
-/

namespace TableTalk

/-- The world of a program. -/
structure Host (m : Type → Type) where
  environment : Environment
  /-- What stands under a path. -/
  read : String → m Entry
  /-- The text that is typed in or piped in. -/
  input : m String
  send : Transport m

structure Outcome where
  status : Nat
  output : String := ""
  /-- What went wrong. -/
  problem : String := ""
deriving DecidableEq, Repr

namespace Outcome

def line (s : String) : Outcome := { status := 0, output := s ++ "\n" }

def failed (problem : String) : Outcome := { status := 1, problem }

def ofStop : Stop → Outcome
  | .help topic => { status := 0, output := Arguments.helpText topic }
  | .version => line "askdata 1.0.1"
  | .usage => { status := 2, problem := "For more information, try '--help'." }

end Outcome

def Entry.text? : Entry → Option String
  | file bytes => String.fromUTF8? bytes
  | _ => none

namespace Program

/-- What a query compiles to, as JSON. -/
def compiledJson (sql : String) (dialect : Sql.Dialect) : Json :=
  .obj [("sql", .str sql), ("dialect", .str dialect.name)]

/-- The query of an intent in text. -/
def compile (schema : Schema) (intent : String) (dialect : Sql.Dialect) (scope : Option String) :
    Outcome :=
  match Intent.read intent with
  | .error e => .failed e.message
  | .ok i =>
    match i.compile ⟨dialect, none, scope⟩ schema with
    | .error e => .failed e.message
    | .ok sql => .line (compiledJson sql dialect).pretty

def insights (rows : List Row) (schema : Schema) (text : Bool) : Outcome :=
  let o := Overview.ofRows rows schema
  .line (if text then Insight.lines o.insights else o.toJson.pretty)

def suggest (schema : Schema) : Outcome :=
  .line (Json.obj [("questions", .arr ((Suggestion.questions schema).map .str))]).pretty

variable {m : Type → Type} [Monad m] (h : Host m)

/-- The environment with the names of the environment file. -/
def environment : m Environment := do
  let entry ← h.read Settings.environmentFileName
  pure (match entry with
    | .file bytes => Dotenv.extended h.environment bytes
    | _ => h.environment)

/-- The settings file: the first of its names that is a file. One that is no text or of no known
format says nothing. -/
def settingsFile : List (String × Option Settings.Format) → m (Option (Settings.Format × String))
  | [] => pure none
  | (name, format) :: rest => do
    let entry ← h.read name
    match entry with
    | .file bytes =>
      pure (format.bind fun f => (String.fromUTF8? bytes).map fun text => (f, text))
    | _ => settingsFile rest

def settings? (env : Environment) : m (Option Settings) := do
  let file ← settingsFile h Settings.fileNames
  pure (Settings.load? file env)

def settings : m Settings := do
  let env ← environment h
  let s ← settings? h env
  pure (s.getD {})

def source (directory : String) : Source m :=
  Directory.source fun name => h.read (joined directory name)

/-- The text of an intent, from a file or from the input. -/
def intentText? (path : String) : m (Option String) :=
  if path = "-" then do
    let text ← h.input
    pure (some text)
  else do
    let entry ← h.read path
    pure entry.text?

/-- Runs a part of the program on the rows of a source and their schema. -/
def withRows (s : Settings) (directory id : String) (run : List Row → Schema → m Outcome) :
    m Outcome := do
  match ← (source h directory).rows id with
  | .error e => pure (.failed e.message)
  | .ok rows =>
    let rows := rows.take s.analysis.maxRows
    run rows (Profile.ofSample rows s.analysis.sampleRows)

def runCommand (s : Settings) (directory : String) : Command → m Outcome
  | .ask id question user => do
    let p : Pipeline m :=
      ⟨source h directory, (Client.ofSettings s.model).complete h.send, s⟩
    let r ← match user with
      | some user => p.askAs user question id
      | none => p.ask question id
    pure (.line r.toJson.pretty)
  | .suggest id => withRows h s directory id fun _ schema => pure (suggest schema)
  | .insights id text =>
    withRows h s directory id fun rows schema => pure (insights rows schema text)
  | .compile id path dialect scope =>
    withRows h s directory id fun _ schema => do
      match ← intentText? h path with
      | some text => pure (compile schema text dialect scope)
      | none => pure (.failed ("reading " ++ path))

/-- Runs the program on the words of a command line. -/
def run (words : List String) : m Outcome := do
  match Arguments.parse words with
  | .error stop => pure (.ofStop stop)
  | .ok i => do
    let s ← settings h
    runCommand h s i.dataDirectory i.command

end Program

end TableTalk
