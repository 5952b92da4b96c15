import TableTalk.Settings.Basic
import TableTalk.Settings.Dotenv
import TableTalk.Settings.File
import TableTalk.Settings.Value
/-!
# Reading the settings

Settings come from a file, then from names in the environment, which win. A name is made of
a prefix, the section and the setting, with two underscores between them and in letters of any case.
The key of OpenRouter may also stand under its usual name, if no other is set. What is not known is
passed over; a value of a wrong type makes all settings unusable.
-/

namespace TableTalk

namespace Settings

/-- Two underscores become a point. -/
def pointed : List Char → List Char
  | '_' :: '_' :: rest => '.' :: pointed rest
  | c :: rest => c :: pointed rest
  | [] => []

def namePrefix : List Char := "askdata__".toList

/-- The setting that a name of the environment stands for. -/
def settingName? (name : String) : Option String :=
  (Text.behind? namePrefix (Setting.lowered name).toList).map fun rest =>
    String.ofList (pointed rest)

/-- Settings changed by an environment. -/
def putEnvironment (env : Environment) (root : Json) : Json :=
  env.foldl (fun root (name, v) =>
    match settingName? name with
    | some setting => Setting.putNamed setting (Setting.ofText v) root
    | none => root) root

/-- Settings changed by a file. -/
def putFile (file : Json) (root : Json) : Json :=
  (Setting.members file).foldl (fun root (name, v) => Setting.putNamed name v root) root

/-- Reads one setting of a section, which is an object or the list of its values in order. -/
def field {α : Type} (part : Json) (index : Nat) (name : String) (read : Json → Option α)
    (default : α) : Option α :=
  match part with
  | .obj ms =>
    match ms.lookup name with
    | some v => read v
    | none => some default
  | .arr items =>
    match items[index]? with
    | some v => read v
    | none => some default
  | _ => none

def model? (s : Json) : Option ModelSettings := do
  let d : ModelSettings := {}
  let openRouterKey ← field s 0 "openrouter_api_key" Setting.optional? d.openRouterKey
  let openRouterModel ← field s 1 "openrouter_model" Setting.text? d.openRouterModel
  let localUrl ← field s 2 "local_base_url" Setting.optional? d.localUrl
  let localModel ← field s 3 "local_model" Setting.text? d.localModel
  let timeoutSeconds ← field s 4 "timeout_secs" Setting.natural? d.timeoutSeconds
  let classifyTokens ← field s 5 "classify_max_tokens" Setting.natural32? d.classifyTokens
  let narrateTokens ← field s 6 "narrate_max_tokens" Setting.natural32? d.narrateTokens
  let narrateTemperature ← field s 7 "narrate_temperature" Setting.single? d.narrateTemperature
  some { openRouterKey, openRouterModel, localUrl, localModel, timeoutSeconds, classifyTokens,
         narrateTokens, narrateTemperature }

def analysis? (s : Json) : Option AnalysisSettings := do
  let d : AnalysisSettings := {}
  let maxRows ← field s 0 "max_rows" Setting.natural? d.maxRows
  let sampleRows ← field s 1 "sample_rows" Setting.natural? d.sampleRows
  let tableName ← field s 2 "table_name" Setting.text? d.tableName
  let previewChars ← field s 3 "narration_preview_chars" Setting.natural? d.previewChars
  some { maxRows, sampleRows, tableName, previewChars }

def log? (s : Json) : Option LogSettings := do
  let d : LogSettings := {}
  let level ← field s 0 "level" Setting.text? d.level
  let directory ← field s 1 "directory" Setting.optional? d.directory
  let file ← field s 2 "file" Setting.truth? d.file
  some { level, directory, file }

/-- The settings in an object. -/
def ofJson? (root : Json) : Option Settings := do
  let ofSection (name : String) : Json := ((Setting.members root).lookup name).getD (.obj [])
  let model ← model? (ofSection "llm")
  let analysis ← analysis? (ofSection "analysis")
  let log ← log? (ofSection "logging")
  some { model, analysis, log }

/-- The key under its usual name, if no other is set. -/
def withUsualKey (env : Environment) (s : Settings) : Settings :=
  match s.model.openRouterKey with
  | some _ => s
  | none => { s with model := { s.model with openRouterKey := env.lookup "OPENROUTER_API_KEY" } }

def environmentFileName : String := ".env"

/-- The settings of a file, if there is one, and an environment. -/
def load? (file : Option (Format × String)) (env : Environment) : Option Settings := do
  let root ← match file with
    | none => some (.obj [])
    | some (f, text) => (f.root? text).map fun v => putFile v (.obj [])
  let s ← ofJson? (putEnvironment env root)
  some (withUsualKey env s)

end Settings

/-- A directory and a name in it. -/
def joined (directory name : String) : String :=
  if directory = "" then name
  else if directory.toList.getLast? = some '/' then directory ++ name
  else directory ++ "/" ++ name

namespace LogSettings

/-- Where data of a user is kept. -/
def dataDirectory (env : Environment) : String :=
  match (env.lookup "XDG_DATA_HOME").filter (·.startsWith "/") with
  | some dir => dir
  | none => joined ((env.lookup "HOME").getD "") ".local/share"

/-- The directory of the log files. -/
def resolved (env : Environment) (s : LogSettings) : String :=
  match s.directory.filter (!Text.isBlank ·) with
  | some dir => dir
  | none => joined (joined (dataDirectory env) "askdata") "logs"

end LogSettings

end TableTalk
