import TableTalk.Intent.Encode
/-!
# Valid intents

A valid intent has a confidence between 0 and 1, mentions no column without a name, and compares
with finite numbers only. `Intent.fault?` finds the first rule that an intent breaks.
-/

namespace TableTalk

inductive IntentFault where
  | confidence (x : Float)
  | emptyColumn (kind : Kind) (column : String)
  | filterNumber (column : String)

namespace IntentFault

def message : IntentFault → String
  | confidence x => s!"confidence {Decimal.plain x} outside [0, 1]"
  | emptyColumn kind column =>
    s!"{kind.name} references an empty column name {Text.quoted column}"
  | filterNumber column => s!"filter on {Text.quoted column} has a non-finite value"

end IntentFault

namespace Intent

def confident (x : Float) : Bool := x.isFinite && decide (0 ≤ x) && decide (x ≤ 1)

def Filter.finite (f : Filter) : Bool :=
  match f.value with
  | .number x => x.isFinite
  | _ => true

def fault? (i : Intent) : Option IntentFault :=
  if !confident i.confidence then some (.confidence i.confidence)
  else match i.columns.find? Text.isBlank with
    | some c => some (.emptyColumn i.kind c)
    | none => (i.filters.find? fun f => !Filter.finite f).map fun f => .filterNumber f.column

def Valid (i : Intent) : Prop := i.fault? = none

end Intent

end TableTalk
