import TableTalk.Settings.Ini
import TableTalk.Settings.Json5
import TableTalk.Settings.Ron
import TableTalk.Settings.Toml
import TableTalk.Settings.Yaml.Node
/-!
# Settings files

A settings file may have one of several endings, which say how it is written. `Format.root?` reads
it as an object, and a text that spells anything else is no settings file. The file whose name has
no ending hides the others, since nothing says how it is written.
-/

namespace TableTalk.Settings

-- powers are those of the core library, whatever else is imported
attribute [local instance (high)] instPowNat

/-- The ways in which a settings file is written. -/
inductive Format where
  | toml
  | json
  | yaml
  | ini
  | ron
  | json5
deriving DecidableEq, Repr

/-- The name of a settings file without an ending. -/
def baseName : String := "askdata"

/-- The names of a settings file in the order in which they are looked for. -/
def fileNames : List (String × Option Format) :=
  let named (ending : String) (f : Format) : String × Option Format :=
    (baseName ++ "." ++ ending, some f)
  [(baseName, none), named "toml" .toml, named "json" .json, named "yaml" .yaml,
   named "yml" .yaml, named "ini" .ini, named "ron" .ron, named "json5" .json5]

mutual

/-- Whole numbers of more than 64 bits with their sign become doubles. -/
def narrowed : Json → Json
  | .int n => if n < 2 ^ (63 : Nat) then .int n else .double (Float.ofInt n)
  | .arr items => .arr (narrowedItems items)
  | .obj members => .obj (narrowedMembers members)
  | v => v

def narrowedItems : List Json → List Json
  | [] => []
  | v :: vs => narrowed v :: narrowedItems vs

def narrowedMembers : List (String × Json) → List (String × Json)
  | [] => []
  | (k, v) :: ms => (k, narrowed v) :: narrowedMembers ms

end

/-- The value that a text spells. -/
def Format.read? : Format → String → Option Json
  | toml, s => Toml.read? s
  | json, s => (Json.read? s).map narrowed
  | yaml, s => Yaml.read? s
  | ini, s => Ini.read? s
  | ron, s => Ron.read? s
  | json5, s => Json5.read? s

/-- The object that a text spells, if it spells one. -/
def Format.root? (f : Format) (s : String) : Option Json :=
  match f.read? s with
  | some (.obj ms) => some (.obj ms)
  | _ => none

end TableTalk.Settings
