import TableTalk.Table.Row
/-!
# Data sources

A source is a set of rows under an id, with an owner or open to everyone.
-/

namespace TableTalk

structure Dataset where
  owner : Option String
  rows : List Row

inductive SourceError where
  | notFound (id : String)
  | unreadable (file problem : String)
  | malformed (file problem : String)
deriving DecidableEq, Repr

def SourceError.message : SourceError → String
  | notFound id => "Data source not found: " ++ id
  | unreadable file problem => s!"failed to read {file}: {problem}"
  | malformed file problem => s!"failed to parse {file}: {problem}"

/-- Where the data set of an id comes from. -/
abbrev Source (m : Type → Type) := String → m (Except SourceError Dataset)

namespace Source

variable {m : Type → Type} [Monad m]

def rows (s : Source m) (id : String) : m (Except SourceError (List Row)) := do
  let d ← s id
  pure (d.map Dataset.rows)

def owner (s : Source m) (id : String) : m (Except SourceError (Option String)) := do
  let d ← s id
  pure (d.map Dataset.owner)

end Source

end TableTalk
