import TableTalk.Decimal.Text
import TableTalk.Decimal.Reading
import TableTalk.Json.Basic
import TableTalk.Text.Blank
/-!
# Values of settings

Settings are JSON objects. A setting is read as the type that it is wanted as, whatever type it was
written in: texts may spell truth values and numbers, truth values are the numbers one and zero, and
numbers are rounded or turned into text. `put` sets a value under a key of an object; an object is
merged into what is there. Keys are in small letters. `putNamed` sets a value under a name that may
be a path of keys and of places in arrays.
-/

namespace TableTalk.Setting

-- powers are those of the core library, whatever else is imported
attribute [local instance (high)] instPowNat

/-- The truth value that a word stands for. -/
def word? (s : String) : Option Bool :=
  let s := Text.lowerAscii s
  if s ∈ ["true", "on", "yes"] then some true
  else if s ∈ ["false", "off", "no"] then some false
  else none

def truth? : Json → Option Bool
  | .bool b => some b
  | .int n => some (n != 0)
  | .double x => some (x != 0)
  | .str s => if s = "1" then some true else if s = "0" then some false else word? s
  | _ => none

/-- The largest whole number of 64 bits. -/
def largest : Nat := 2 ^ (64 : Nat) - 1

/-- Digits, with a plus sign perhaps, as a number of 64 bits. -/
def digits? (cs : List Char) : Option Nat :=
  let ds := match cs with
    | '+' :: rest => rest
    | cs => cs
  let n := Decimal.digitsValue ds
  if !ds.isEmpty && ds.all Char.isDigit && n ≤ largest then some n else none

/-- The whole number nearest to a double, a half away from zero, within 64 bits. -/
def rounded (x : Float) : Nat :=
  match Decimal.Binary.ofDouble x with
  | .nan => 0
  | .infinite negative => if negative then 0 else largest
  | .finite negative m e => if negative then 0 else min (Decimal.inUnits .away 0 m e) largest

def natural? : Json → Option Nat
  | .bool b => some b.toNat
  | .int n => if n < 0 then none else some n.toNat
  | .double x => some (rounded x)
  | .str s =>
    match word? s with
    | some b => some b.toNat
    | none => digits? s.toList
  | _ => none

/-- A whole number of 32 bits. -/
def natural32? (v : Json) : Option Nat := (natural? v).filter (· < 2 ^ (32 : Nat))

def float? : Json → Option Float
  | .bool b => some (if b then 1 else 0)
  | .int n => some (Float.ofInt n)
  | .double x => some x
  | .str s =>
    match word? s with
    | some b => some (if b then 1 else 0)
    | none => Decimal.readNumber? s.toList
  | _ => none

def single? (v : Json) : Option Float32 := (float? v).map Float.toFloat32

def text? : Json → Option String
  | .bool b => some (if b then "true" else "false")
  | .int n => some (toString n)
  | .double x => some (Decimal.plain x)
  | .str s => some s
  | _ => none

/-- A text that may be missing. -/
def optional? : Json → Option (Option String)
  | .null => some none
  | v => (text? v).map some

/-- A value as it stands in the environment: a truth value, a number or a text. -/
def ofText (s : String) : Json :=
  let lower := Text.lowerAscii s
  if lower = "true" then .bool true
  else if lower = "false" then .bool false
  else
    let (negative, ds) := Decimal.takeSign s.toList
    let n : Int := Decimal.digitsValue ds
    let n := if negative then -n else n
    if !ds.isEmpty && ds.all Char.isDigit && -(2 ^ (63 : Nat)) ≤ n && n < 2 ^ (63 : Nat) then .int n
    else match Decimal.readNumber? s.toList with
      | some x => .double x
      | none => .str s

/-- Small letters for those of ASCII, to which the sign of kelvin belongs. -/
def lowered (s : String) : String :=
  Text.lowerAscii (s.map fun c => if c = '\u212A' then 'k' else c)

/-- The members of an object; any other value has none. -/
def members : Json → List (String × Json)
  | .obj ms => ms
  | _ => []

mutual

/-- Sets a value under a key. -/
def put (key : String) (v : Json) (root : Json) : Json :=
  let key := lowered key
  match v with
  | .obj ms =>
    .obj (setMember key (putAll ms (((members root).lookup key).getD (.obj []))) (members root))
  | v => .obj (setMember key v (members root))

def putAll (ms : List (String × Json)) (root : Json) : Json :=
  match ms with
  | [] => root
  | (k, v) :: rest => putAll rest (put k v root)

end

/-- A step from a value to a part of it. -/
inductive Step where
  | key (name : String)
  /-- A place in an array, counted from the end if it is negative. -/
  | index (n : Int)
deriving DecidableEq, Repr

/-- The items of an array; any other value has none. -/
def items : Json → List Json
  | .arr vs => vs
  | _ => []

/-- An array with a changed item. Nothing stands in the places up to it. -/
def change (n : Int) (f : Json → Json) (vs : List Json) : List Json :=
  let place := (if n < 0 then vs.length + n else n).toNat
  let vs := vs ++ List.replicate (place + 1 - vs.length) .null
  vs.modify place f

/-- Sets a value at the end of some steps, making tables and arrays on the way. -/
def putAt : List Step → Json → Json → Json
  | [], v, _ => v
  | [.key k], v, root => put k v root
  | .key k :: steps, v, root =>
    let k := lowered k
    let part := ((members root).lookup k).getD .null
    .obj (setMember k (putAt steps v part) (members root))
  | .index n :: steps, v, root => .arr (change n (putAt steps v) (items root))

def pathChar (c : Char) : Bool := c.isAlphanum || c == ' ' || c == '_' || c == '-'

/-- A whole number of 64 bits between blanks. -/
def index? (cs : List Char) : Option Int := do
  let blank (c : Char) : Bool := c == ' ' || c == '\t'
  let cs := Text.dropWhileEnd blank (cs.dropWhile blank)
  let (negative, ds) := match cs with
    | '-' :: ds => (true, ds)
    | ds => (false, ds)
  let n : Int := Decimal.digitsValue ds
  let n := if negative then -n else n
  if !ds.isEmpty && ds.all Char.isDigit && -(2 ^ (63 : Nat)) ≤ n && n < 2 ^ (63 : Nat) then some n
  else none

/-- The steps behind the first: points with names and brackets with numbers. -/
def steps? (fuel : Nat) (cs : List Char) : Option (List Step) :=
  match fuel, cs with
  | _, [] => some []
  | fuel + 1, '.' :: rest =>
    match rest.takeWhile pathChar with
    | [] => none
    | k => (steps? fuel (rest.dropWhile pathChar)).map (.key (String.ofList k) :: ·)
  | fuel + 1, '[' :: rest =>
    match rest.dropWhile (· != ']') with
    | [] => none
    | _ :: behind => do
      let n ← index? (rest.takeWhile (· != ']'))
      (steps? fuel behind).map (.index n :: ·)
  | _, _ => none

/-- The steps of a name. A name that is no path is one key. -/
def path (name : String) : List Step :=
  let cs := name.toList
  match cs.takeWhile pathChar with
  | [] => [.key name]
  | k =>
    match steps? cs.length (cs.dropWhile pathChar) with
    | some steps => .key (String.ofList k) :: steps
    | none => [.key name]

/-- Sets a value under a name that may be a path. -/
def putNamed (name : String) (v : Json) (root : Json) : Json := putAt (path name) v root

end TableTalk.Setting
