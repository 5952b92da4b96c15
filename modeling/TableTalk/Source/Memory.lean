import TableTalk.Source.Basic
/-!
# Data sources in memory

Data sets under their ids. A data set that is put under an id again replaces the earlier one.
-/

namespace TableTalk

structure Memory where
  datasets : List (String × Dataset)

namespace Memory

def empty : Memory := ⟨[]⟩

def insert (mem : Memory) (id : String) (d : Dataset) : Memory :=
  ⟨setMember id d mem.datasets⟩

def find (mem : Memory) (id : String) : Except SourceError Dataset :=
  match mem.datasets.lookup id with
  | some d => .ok d
  | none => .error (.notFound id)

def source {m : Type → Type} [Monad m] (mem : Memory) : Source m := fun id => pure (mem.find id)

end Memory

end TableTalk
