import TableTalk.Intent.Basic
import TableTalk.Json.Printer
import TableTalk.Table.Profile
import TableTalk.Text.Quoted
/-!
# Intents from JSON

An intent is written as an object with its kind under `type` and its fields beside it in any order,
or as an array of the kind and the fields in their order. A `Field` has a name and a type of
content, and a `Draft` holds the contents met so far, so reading the members of an object fills a
draft one field at a time: names that are no field of the kind are passed over, a field met twice is
an error. `Draft.intent` then looks for the fields that must be there and puts defaults for the
others.
-/

namespace TableTalk

-- powers are those of the core library, whatever else is imported
attribute [local instance (high)] instPowNat

/-- Why a JSON value is no intent. -/
inductive DecodeError where
  | duplicateField (name : String)
  | missingField (name : String)
  | unknownName (found : String) (known : List String)
  | wrongType (found : Json) (expected : String)
  | outOfRange (found : Int) (expected : String)
  | severalEntries
  | tooShort (length : Nat) (record : String) (size : Nat)
  | tooLong (length : Nat) (size : Nat)
  | noFilterValue

namespace DecodeError

/-- A JSON value as error texts show it. -/
def shown : Json → String
  | .null => "null"
  | .bool b => if b then "boolean \u0060true\u0060" else "boolean \u0060false\u0060"
  | .int n => s!"integer \u0060{n}\u0060"
  | .double x => s!"floating point \u0060{Decimal.marked x}\u0060"
  | .str s => s!"string {Text.quoted s}"
  | .arr _ => "sequence"
  | .obj _ => "map"

def tick (s : String) : String := "\u0060" ++ s ++ "\u0060"

/-- The names that were allowed. -/
def choices : List String → String
  | [] => "there are no variants"
  | [a] => tick a
  | [a, b] => tick a ++ " or " ++ tick b
  | names => "one of " ++ String.intercalate ", " (names.map tick)

def message : DecodeError → String
  | duplicateField name => s!"duplicate field {tick name}"
  | missingField name => s!"missing field {tick name}"
  | unknownName found known => s!"unknown variant {tick found}, expected {choices known}"
  | wrongType found expected => s!"invalid type: {shown found}, expected {expected}"
  | outOfRange found expected =>
    s!"invalid value: integer {tick (toString found)}, expected {expected}"
  | severalEntries => "invalid value: map, expected map with a single key"
  | tooShort length record size =>
    s!"invalid length {length}, expected struct {record} with {size} elements"
  | tooLong length size =>
    s!"invalid length {length}, expected {size} elements in sequence"
  | noFilterValue => "data did not match any variant of untagged enum FilterValue"

end DecodeError

namespace Decode

abbrev Result := Except DecodeError

def text : Json → Result String
  | .str s => .ok s
  | v => .error (.wrongType v "a string")

/-- A text, or nothing for `null`. -/
def text? : Json → Result (Option String)
  | .null => .ok none
  | v => (text v).map some

def number (v : Json) : Result Float :=
  match v.number with
  | some x => .ok x
  | none => .error (.wrongType v "f64")

/-- A whole number of 32 bits. -/
def count : Json → Result Nat
  | .int n =>
    if 0 ≤ n ∧ n < 2 ^ (32 : Nat) then .ok n.toNat else .error (.outOfRange n "u32")
  | v => .error (.wrongType v "u32")

/-- The value of a name in a table of names. -/
def named {α : Type} (names : List (String × α)) (s : String) : Result α :=
  match names.lookup s with
  | some a => .ok a
  | none => .error (.unknownName s (names.map Prod.fst))

/-- One of a table of names, as a text or as an object with that name alone and nothing under it. -/
def choice {α : Type} (names : List (String × α)) : Json → Result α
  | .str s => named names s
  | .obj [(s, v)] => do
    let a ← named names s
    match v with
    | .null => .ok a
    | .obj [] => .ok a
    | v => .error (.wrongType v "unit")
  | .obj _ => .error .severalEntries
  | v => .error (.wrongType v "string or map")

end Decode

def Operator.names : List (String × Operator) :=
  [("eq", .eq), ("neq", .neq), ("gt", .gt), ("lt", .lt), ("gte", .gte), ("lte", .lte),
    ("contains", .contains), ("ilike", .ilike)]

/-- Each function under its name in capitals and in small letters. -/
def AggregateFunction.names : List (String × AggregateFunction) :=
  [("SUM", .sum), ("sum", .sum), ("AVG", .avg), ("avg", .avg), ("COUNT", .count),
    ("count", .count), ("MIN", .min), ("min", .min), ("MAX", .max), ("max", .max)]

def Grain.names : List (String × Grain) :=
  [("day", .day), ("week", .week), ("month", .month), ("year", .year)]

def CohortInterval.names : List (String × CohortInterval) :=
  [("day", .day), ("week", .week), ("month", .month)]

def ComparePeriod.names : List (String × ComparePeriod) :=
  [("year_over_year", .yearOverYear), ("month_over_month", .monthOverMonth),
    ("previous_period", .previousPeriod)]

def SortOrder.names : List (String × SortOrder) := [("desc", .desc), ("asc", .asc)]

def Kind.names : List (String × Kind) := Kind.all.map fun k => (k.name, k)

namespace Filter

open Decode

def decodeValue : Json → Result FilterValue
  | .bool b => .ok (.bool b)
  | .int n => .ok (.number (Float.ofInt n))
  | .double x => .ok (.number x)
  | .str s => .ok (.text s)
  | _ => .error .noFilterValue

/-- The fields of a filter met so far. -/
structure Draft where
  column : Option String := none
  operator : Option Operator := none
  value : Option FilterValue := none

def Draft.addMember (d : Draft) (name : String) (v : Json) : Result Draft :=
  if name = "column" then
    if d.column.isSome then .error (.duplicateField name)
    else (text v).map fun c => { d with column := some c }
  else if name = "operator" then
    if d.operator.isSome then .error (.duplicateField name)
    else (choice Operator.names v).map fun o => { d with operator := some o }
  else if name = "value" then
    if d.value.isSome then .error (.duplicateField name)
    else (decodeValue v).map fun x => { d with value := some x }
  else .ok d

def Draft.filter (d : Draft) : Result Filter :=
  match d.column, d.operator, d.value with
  | none, _, _ => .error (.missingField "column")
  | _, none, _ => .error (.missingField "operator")
  | _, _, none => .error (.missingField "value")
  | some c, some o, some x => .ok ⟨c, o, x⟩

def ofMembers (members : List (String × Json)) : Result Filter := do
  let d ← members.foldlM (fun d m => d.addMember m.1 m.2) ({} : Draft)
  d.filter

/-- A filter as an array of its column, its operator and its value. -/
def ofItems (items : List Json) : Result Filter :=
  match items with
  | [] => .error (.tooShort 0 "Filter" 3)
  | c :: rest => do
    let c ← text c
    match rest with
    | [] => .error (.tooShort 1 "Filter" 3)
    | o :: rest => do
      let o ← choice Operator.names o
      match rest with
      | [] => .error (.tooShort 2 "Filter" 3)
      | x :: rest => do
        let x ← decodeValue x
        if rest.isEmpty then .ok ⟨c, o, x⟩ else .error (.tooLong items.length 3)

def decode : Json → Result Filter
  | .obj members => ofMembers members
  | .arr items => ofItems items
  | v => .error (.wrongType v "struct Filter")

/-- A list of filters, the first that is none deciding the error. -/
def decodeAll : Json → Result (List Filter)
  | .arr items => items.mapM decode
  | v => .error (.wrongType v "a sequence")

end Filter

/-- The fields of intents. -/
inductive Field where
  | metric
  | aggregateFunction
  | groupBy
  | date
  | timeGrain
  | dimension
  | limit
  | order
  | period
  | cohortMetric
  | interval
  | filters
  | confidence
  | reasoning
deriving DecidableEq, Repr

namespace Field

/-- What a field holds. -/
abbrev Content : Field → Type
  | metric => String
  | aggregateFunction => AggregateFunction
  | groupBy => Option String
  | date => String
  | timeGrain => Grain
  | dimension => String
  | limit => Nat
  | order => SortOrder
  | period => ComparePeriod
  | cohortMetric => Option String
  | interval => CohortInterval
  | filters => List Filter
  | confidence => Float
  | reasoning => String

def name : Field → String
  | metric => "metricColumn"
  | aggregateFunction => "aggregateFunction"
  | groupBy => "groupByColumn"
  | date => "dateColumn"
  | timeGrain => "timeGrain"
  | dimension => "dimensionColumn"
  | limit => "limit"
  | order => "order"
  | period => "period"
  | cohortMetric => "metricColumn"
  | interval => "interval"
  | filters => "filters"
  | confidence => "confidence"
  | reasoning => "reasoning"

open Decode in
def decode : (f : Field) → Json → Result f.Content
  | metric => text
  | aggregateFunction => choice AggregateFunction.names
  | groupBy => text?
  | date => text
  | timeGrain => choice Grain.names
  | dimension => text
  | limit => count
  | order => choice SortOrder.names
  | period => choice ComparePeriod.names
  | cohortMetric => text?
  | interval => choice CohortInterval.names
  | filters => Filter.decodeAll
  | confidence => number
  | reasoning => text

end Field

namespace Kind

/-- The fields of a kind in their order, each with whether it must be there. -/
def fields : Kind → List (Field × Bool)
  | aggregate =>
    [(.metric, true), (.aggregateFunction, true), (.groupBy, false), (.filters, false),
      (.confidence, true), (.reasoning, true)]
  | trend =>
    [(.metric, true), (.date, true), (.aggregateFunction, true), (.timeGrain, false),
      (.filters, false), (.confidence, true), (.reasoning, true)]
  | topList =>
    [(.metric, true), (.dimension, true), (.limit, false), (.order, false), (.filters, false),
      (.confidence, true), (.reasoning, true)]
  | distribution =>
    [(.metric, true), (.dimension, true), (.filters, false), (.confidence, true),
      (.reasoning, true)]
  | compare =>
    [(.metric, true), (.date, true), (.period, true), (.filters, false), (.confidence, true),
      (.reasoning, true)]
  | cohort =>
    [(.date, true), (.cohortMetric, false), (.interval, false), (.filters, false),
      (.confidence, true), (.reasoning, true)]
  | unknown => [(.confidence, false), (.reasoning, false)]

/-- The name of the record that holds the fields of a kind. -/
def record : Kind → String
  | aggregate => "AggregateMetric"
  | trend => "TrendAnalysis"
  | topList => "TopList"
  | distribution => "Distribution"
  | compare => "CompareMetric"
  | cohort => "CohortAnalysis"
  | unknown => "UnknownIntent"

/-- The field of a kind with this name. -/
def field? (k : Kind) (name : String) : Option Field :=
  (k.fields.map Prod.fst).find? fun f => f.name == name

def decode : Json → Decode.Result Kind
  | .str s => Decode.named names s
  | v => .error (.wrongType v "variant identifier")

end Kind

/-- The contents of the fields met so far. -/
def Draft := (f : Field) → Option f.Content

namespace Draft

open Decode

def empty : Draft := fun _ => none

def set (d : Draft) (f : Field) (c : f.Content) : Draft :=
  fun g => if h : f = g then some (h ▸ c) else d g

/-- Fills the field that has this name, if the kind has such a field. -/
def addMember (k : Kind) (d : Draft) (name : String) (v : Json) : Result Draft :=
  match k.field? name with
  | none => .ok d
  | some f =>
    if (d f).isSome then .error (.duplicateField name)
    else (f.decode v).map fun c => d.set f c

/-- The limit of a top list that names none. -/
def defaultLimit : Nat := 5

/-- The content of a field that must be there. -/
def need (d : Draft) (f : Field) : Result f.Content :=
  match d f with
  | some c => .ok c
  | none => .error (.missingField f.name)

def intent (d : Draft) : Kind → Result Intent
  | .aggregate => do
    let metric ← d.need .metric
    let function ← d.need .aggregateFunction
    let c ← d.need .confidence
    let r ← d.need .reasoning
    .ok (.analyze (.aggregate metric function ((d .groupBy).getD none))
      ((d .filters).getD []) c r)
  | .trend => do
    let metric ← d.need .metric
    let date ← d.need .date
    let function ← d.need .aggregateFunction
    let c ← d.need .confidence
    let r ← d.need .reasoning
    .ok (.analyze (.trend metric date function ((d .timeGrain).getD .month))
      ((d .filters).getD []) c r)
  | .topList => do
    let metric ← d.need .metric
    let dimension ← d.need .dimension
    let c ← d.need .confidence
    let r ← d.need .reasoning
    .ok (.analyze
      (.topList metric dimension ((d .limit).getD defaultLimit) ((d .order).getD .desc))
      ((d .filters).getD []) c r)
  | .distribution => do
    let metric ← d.need .metric
    let dimension ← d.need .dimension
    let c ← d.need .confidence
    let r ← d.need .reasoning
    .ok (.analyze (.distribution metric dimension) ((d .filters).getD []) c r)
  | .compare => do
    let metric ← d.need .metric
    let date ← d.need .date
    let period ← d.need .period
    let c ← d.need .confidence
    let r ← d.need .reasoning
    .ok (.analyze (.compare metric date period) ((d .filters).getD []) c r)
  | .cohort => do
    let date ← d.need .date
    let c ← d.need .confidence
    let r ← d.need .reasoning
    .ok (.analyze
      (.cohort date ((d .cohortMetric).getD none) ((d .interval).getD .month))
      ((d .filters).getD []) c r)
  | .unknown => .ok (.unknown ((d .confidence).getD 0) ((d .reasoning).getD ""))

/-- Fills fields in order from an array. Fields behind the end of the array stay empty unless they
must be there; `index` counts the items taken. -/
def addItems (k : Kind) (d : Draft) (index : Nat) :
    List (Field × Bool) → List Json → Result Draft
  | [], [] => .ok d
  | [], rest => .error (.tooLong (index + rest.length) index)
  | (_, true) :: _, [] => .error (.tooShort index k.record k.fields.length)
  | (_, false) :: fs, [] => addItems k d (index + 1) fs []
  | (f, _) :: fs, v :: vs => do
    let c ← f.decode v
    addItems k (d.set f c) (index + 1) fs vs

end Draft

namespace Intent

open Decode

/-- The kind under `type` and the other members. -/
def takeKind (members : List (String × Json)) : Result (Option Kind × List (String × Json)) :=
  members.foldlM (fun (acc : Option Kind × List (String × Json)) m =>
    if m.1 = "type" then
      if acc.1.isSome then .error (.duplicateField "type")
      else (Kind.decode m.2).map fun k => (some k, acc.2)
    else .ok (acc.1, acc.2 ++ [m])) (none, [])

def ofMembers (k : Kind) (members : List (String × Json)) : Result Intent := do
  let d ← members.foldlM (fun d m => Draft.addMember k d m.1 m.2) Draft.empty
  d.intent k

def ofItems (k : Kind) (items : List Json) : Result Intent := do
  let d ← Draft.addItems k Draft.empty 0 k.fields items
  d.intent k

def decode : Json → Result Intent
  | .obj members => do
    match ← takeKind members with
    | (none, _) => .error (.missingField "type")
    | (some k, rest) => ofMembers k rest
  | .arr [] => .error (.missingField "type")
  | .arr (v :: items) => do
    let k ← Kind.decode v
    ofItems k items
  | v => .error (.wrongType v "internally tagged enum Intent")

end Intent

end TableTalk
