import TableTalk.Intent.Compile
/-!
# Settings

What can be set, with the values that hold when nothing is.
-/

namespace TableTalk

structure ModelSettings where
  openRouterKey : Option String := none
  openRouterModel : String := "google/gemini-2.0-flash-001"
  localUrl : Option String := none
  localModel : String := "llama3.1:8b"
  timeoutSeconds : Nat := 30
  classifyTokens : Nat := 1024
  narrateTokens : Nat := 2048
  narrateTemperature : Float32 := 0.7

structure AnalysisSettings where
  /-- Rows behind so many are left out. -/
  maxRows : Nat := 5000
  /-- The number of rows that the types of columns are read from. -/
  sampleRows : Nat := 5
  tableName : String := defaultTable
  /-- How much of a result a narration sees. -/
  previewChars : Nat := 1000

structure LogSettings where
  level : String := "info"
  directory : Option String := none
  file : Bool := true

structure Settings where
  model : ModelSettings := {}
  analysis : AnalysisSettings := {}
  log : LogSettings := {}

end TableTalk
