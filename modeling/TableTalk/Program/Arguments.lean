import TableTalk.Sql.Query
/-!
# Command lines

A command line names one of four commands with its arguments. Options have long names and take their
value from the same word behind an equals sign or from the next word; no option is given twice.
Words behind two dashes are arguments whatever they look like. The directory of the data can be
named in front of the command and behind it, and the later place wins.

A value that is a word of its own waits until the next option or argument shows up, and is checked
then (`Found.settle`); what waits in front of a command is checked behind it. So a request for help
is heard before a fault in the word in front of a command, but not before other faults on its left.
-/

namespace TableTalk

open Sql (Dialect)

inductive Command where
  | ask (source question : String) (user : Option String)
  | suggest (source : String)
  | insights (source : String) (text : Bool)
  | compile (source intent : String) (dialect : Dialect) (scope : Option String)
deriving DecidableEq, Repr

structure Invocation where
  dataDirectory : String
  command : Command
deriving DecidableEq, Repr

/-- The words that name the commands. -/
inductive Verb where
  | ask
  | suggest
  | insights
  | compile
deriving DecidableEq, Repr

/-- What can be explained. -/
inductive Topic where
  | program
  | verb (v : Verb)
  | help
deriving DecidableEq, Repr

/-- Why there is no command to run. -/
inductive Stop where
  | help (topic : Topic)
  | version
  | usage
deriving DecidableEq, Repr

namespace Arguments

def Verb.ofName? : String → Option Verb
  | "ask" => some .ask
  | "suggest" => some .suggest
  | "insights" => some .insights
  | "compile" => some .compile
  | _ => none

/-- What may stand behind a verb, or in front of it. -/
structure Form where
  /-- Options with a value. -/
  options : List String
  flags : List String
  /-- The arguments in order. -/
  arguments : List String
  topic : Topic
  versioned : Bool := false

def form (v : Verb) : Form :=
  match v with
  | .ask => ⟨["data-dir", "user"], [], ["source", "question"], .verb v, false⟩
  | .suggest => ⟨["data-dir"], [], ["source"], .verb v, false⟩
  | .insights => ⟨["data-dir"], ["text"], ["source"], .verb v, false⟩
  | .compile => ⟨["data-dir", "dialect", "scope"], [], ["source", "intent"], .verb v, false⟩

/-- The words in front of the verb. -/
def frontForm : Form := ⟨["data-dir"], [], [], .program, true⟩

/-- What was found so far: the values of options and arguments, and one that is not yet checked. -/
structure Found where
  values : List (String × String) := []
  waiting : Option (String × String) := none
  flags : List String := []

/-- A word that starts with two dashes: a name, and a value behind an equals sign. -/
def long? (word : String) : Option (String × Option String) :=
  match word.toList with
  | '-' :: '-' :: rest =>
    let name := String.ofList (rest.takeWhile (· != '='))
    match rest.dropWhile (· != '=') with
    | _ :: value => some (name, some (String.ofList value))
    | [] => some (name, none)
  | _ => none

/-- The first letter of a word that starts with one dash. -/
def short? (word : String) : Option Char :=
  match word.toList with
  | '-' :: c :: _ => if c = '-' then none else some c
  | _ => none

/-- Whether a value can be used for an option or an argument. -/
def usable (name value : String) : Bool :=
  if name = "data-dir" ∨ name = "intent" then value != ""
  else if name = "dialect" then (Dialect.ofName? value).isSome
  else true

/-- Checks the value that waits. -/
def Found.settle (f : Found) : Except Stop Found :=
  match f.waiting with
  | none => .ok f
  | some (name, value) =>
    if (f.values.lookup name).isSome || !usable name value then .error .usage
    else .ok { f with values := f.values ++ [(name, value)], waiting := none }

/-- Lets a value wait. -/
def Found.await (f : Found) (name value : String) : Except Stop Found :=
  f.settle.map fun f => { f with waiting := some (name, value) }

def Found.addValue (f : Found) (name value : String) : Except Stop Found := do
  (← f.await name value).settle

/-- Arguments up to the end. -/
def Found.addArguments (f : Found) : List String → List String → Except Stop Found
  | _, [] => f.settle
  | [], _ :: _ => .error .usage
  | name :: names, word :: words => do (← f.await name word).addArguments names words

/-- A word of one dash. -/
def letter (form : Form) (c : Char) : Stop :=
  if c = 'h' then .help form.topic
  else if c = 'V' ∧ form.versioned then .version
  else .usage

/-- A long name without a value of its own, which is no option. -/
def Found.addName (f : Found) (form : Form) (name : String) : Except Stop Found :=
  if name = "help" then .error (.help form.topic)
  else if name = "version" ∧ form.versioned then .error .version
  else if name ∈ form.flags ∧ name ∉ f.flags then .ok { f with flags := f.flags ++ [name] }
  else .error .usage

/-- Whether a word can be the value of the option in front of it. -/
def valueLike (word : String) : Bool := (long? word).isNone && (short? word).isNone

/-- Reads words up to the end, or up to the first argument that has no name. -/
def read (form : Form) (names : List String) (f : Found) :
    List String → Except Stop (Found × List String)
  | [] => do .ok (← f.settle, [])
  | word :: rest =>
    match long? word with
    | some ("", none) => do .ok (← f.addArguments names rest, [])
    | some (name, some value) =>
      if name ∈ form.options then do
        let f ← f.addValue name value
        read form names f rest
      else .error .usage
    | some (name, none) =>
      if name ∈ form.options then
        match rest with
        | [] => .error .usage
        | value :: rest =>
          if valueLike value then do
            let f ← f.await name value
            read form names f rest
          else .error .usage
      else do
        let f ← f.settle
        let f ← f.addName form name
        read form names f rest
    | none =>
      match short? word, names with
      | some c, _ => f.settle.bind fun _ => .error (letter form c)
      | none, [] => .ok (f, word :: rest)
      | none, name :: names => do
        let f ← f.await name word
        read form names f rest

/-- The command of a verb with what was found behind it. -/
def command (verb : Verb) (f : Found) : Except Stop Command :=
  let value (name : String) : Option String := f.values.lookup name
  match verb, value "source", value "question", value "intent" with
  | .ask, some source, some question, _ => .ok (.ask source question (value "user"))
  | .suggest, some source, _, _ => .ok (.suggest source)
  | .insights, some source, _, _ => .ok (.insights source ("text" ∈ f.flags))
  | .compile, some source, _, some intent =>
    let dialect := ((value "dialect").bind Dialect.ofName?).getD .directColumn
    .ok (.compile source intent dialect (value "scope"))
  | _, _, _, _ => .error .usage

/-- The help that the words behind `help` ask for. -/
def help : List String → Stop
  | [] => .help .program
  | ["help"] => .help .help
  | [word] =>
    match Verb.ofName? word with
    | some verb => .help (.verb verb)
    | none => .usage
  | _ => .usage

/-- The command that a command line asks for. -/
def parse (words : List String) : Except Stop Invocation := do
  let (front, rest) ← read frontForm frontForm.arguments {} words
  match rest with
  | [] => .error .usage
  | word :: rest =>
    if word = "help" then .error (help rest)
    else match Verb.ofName? word with
      | none => .error .usage
      | some verb => do
        let (f, rest) ← read (form verb) (form verb).arguments {} rest
        let c ← if rest.isEmpty then command verb f else .error .usage
        let front ← front.settle
        let directory := (f.values.lookup "data-dir").or (front.values.lookup "data-dir")
        .ok ⟨directory.getD "data", c⟩

/-! Help -/

def lines (ls : List String) : String := String.join (ls.map (· ++ "\n"))

def directoryLine (width : Nat) : String :=
  "      --data-dir <DATA_DIR>" ++ String.ofList (List.replicate width ' ')
    ++ "Directory holding <source-id>.json files [default: data]"

/-- The text that explains a topic. -/
def helpText : Topic → String
  | .help => lines
    ["Print this message or the help of the given subcommand(s)", "",
      "Usage: askdata help [COMMAND]...", "", "Arguments:",
      "  [COMMAND]...  Print help for the subcommand(s)"]
  | .program => lines
    ["Ask questions about a table in plain language", "",
      "Usage: askdata [OPTIONS] <COMMAND>", "", "Commands:",
      "  ask       Answer one question about a data source",
      "  suggest   Suggest starter questions for a data source",
      "  insights  Headline statistics and chart recommendations for a data source",
      "  compile   Compile an intent (JSON file, or - for stdin) against a data source's schema",
      "  help      Print this message or the help of the given subcommand(s)", "", "Options:",
      directoryLine 2, "  -h, --help                 Print help",
      "  -V, --version              Print version"]
  | .verb .ask => lines
    ["Answer one question about a data source", "",
      "Usage: askdata ask [OPTIONS] <SOURCE_ID> <QUESTION>", "", "Arguments:", "  <SOURCE_ID>  ",
      "  <QUESTION>   ", "", "Options:", directoryLine 2,
      "      --user <USER>          Only answer if this user owns the source",
      "  -h, --help                 Print help"]
  | .verb .suggest => lines
    ["Suggest starter questions for a data source", "",
      "Usage: askdata suggest [OPTIONS] <SOURCE_ID>", "", "Arguments:", "  <SOURCE_ID>  ", "",
      "Options:", directoryLine 2, "  -h, --help                 Print help"]
  | .verb .insights => lines
    ["Headline statistics and chart recommendations for a data source", "",
      "Usage: askdata insights [OPTIONS] <SOURCE_ID>", "", "Arguments:", "  <SOURCE_ID>  ", "",
      "Options:", directoryLine 2,
      "      --text                 Print the prompt-ready text form instead of JSON",
      "  -h, --help                 Print help"]
  | .verb .compile => lines
    ["Compile an intent (JSON file, or - for stdin) against a data source's schema", "",
      "Usage: askdata compile [OPTIONS] <SOURCE_ID> <INTENT>", "", "Arguments:",
      "  <SOURCE_ID>  ", "  <INTENT>     ", "", "Options:", directoryLine 2,
      "      --dialect <DIALECT>    [default: direct-column] [possible values: direct-column, "
        ++ "json-document]",
      "      --scope <SCOPE>        Scope json-document queries to this data_source_id",
      "  -h, --help                 Print help"]

end Arguments

end TableTalk
