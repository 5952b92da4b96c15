import TableTalk.Program.Run
/-!
# The command line

`main` gives the program the files of the working directory, the environment and the standard input.
No transport is linked in, so a question finds no provider and is answered as one that could not be
classified.
-/

namespace TableTalk

/-- The names of the environment that mean something. -/
def knownNames : List String :=
  let names (part : String) (settings : List String) : List String :=
    settings.map fun s => s!"ASKDATA__{part}__{s}"
  ["OPENROUTER_API_KEY", "XDG_DATA_HOME", "HOME"]
    ++ names "LLM" ["OPENROUTER_API_KEY", "OPENROUTER_MODEL", "LOCAL_BASE_URL", "LOCAL_MODEL",
      "TIMEOUT_SECS", "CLASSIFY_MAX_TOKENS", "NARRATE_MAX_TOKENS", "NARRATE_TEMPERATURE"]
    ++ names "ANALYSIS" ["MAX_ROWS", "SAMPLE_ROWS", "TABLE_NAME", "NARRATION_PREVIEW_CHARS"]
    ++ names "LOGGING" ["LEVEL", "DIRECTORY", "FILE"]

def readEnvironment : IO Environment := do
  let values ← knownNames.mapM fun name => do
    let v ← IO.getEnv name
    pure (v.map fun v => (name, v))
  pure (values.filterMap id)

def readEntry (path : String) : IO Entry := do
  try
    let bytes ← IO.FS.readBinFile path
    pure (.file bytes)
  catch
    | .noFileOrDirectory .. => pure .absent
    | e => pure (.unreadable (toString e))

def readInput : IO String := do
  let input ← IO.getStdin
  input.readToEnd

def host : IO (Host IO) := do
  let environment ← readEnvironment
  pure { environment, read := readEntry, input := readInput, send := fun _ => pure none }

end TableTalk

open TableTalk in
def main (words : List String) : IO UInt32 := do
  let h ← host
  let o ← Program.run h words
  IO.print o.output
  unless o.problem.isEmpty do IO.eprintln o.problem
  pure (UInt32.ofNat o.status)
