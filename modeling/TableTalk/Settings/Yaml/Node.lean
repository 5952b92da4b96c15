import TableTalk.Decimal.Reading
import TableTalk.Settings.Yaml.Token
/-!
# Documents in YAML

`Yaml.read?` reads a text that has one document at most. Its nodes are built from tokens; an anchor
gives a node a name, by which an alias takes it again. A plain text is a truth value, a number or
nothing if it looks like one, and a tag may say which of them it is. Every key of a table is a text
or a whole number and comes once.
-/

namespace TableTalk.Yaml

-- powers are those of the core library, whatever else is imported
attribute [local instance (high)] instPowNat

/-- A node with the value that it has. It has none if it is no value of the kind that its tag names,
or an alias of a node around it. -/
abbrev Node := Option Json

/-! Plain texts -/

/-- A whole number of 64 bits in digits of a base, behind a sign perhaps. -/
def whole? (base : Nat) (cs : List Char) : Option Int := do
  let (negative, ds) := Decimal.takeSign cs
  let vs ← ds.mapM Json.hexValue?
  let n : Int := (vs.foldl (fun n d => base * n + d) 0 : Nat)
  let n := if negative then -n else n
  if !ds.isEmpty && vs.all (· < base) && -(2 ^ (63 : Nat)) ≤ n && n < 2 ^ (63 : Nat) then some n
  else none

/-- A whole number with the mark of its base, or with a plus sign in front of its sign. -/
def marked? : List Char → Option Int
  | '0' :: 'x' :: rest => whole? 16 rest
  | '0' :: 'o' :: rest => whole? 8 rest
  | '+' :: rest => whole? 10 rest
  | _ => none

/-- The names of the infinite and of no number. -/
def specials : List String :=
  [".inf", ".Inf", ".INF", "+.inf", "+.Inf", "+.INF", "-.inf", "-.Inf", "-.INF", ".nan", ".NaN",
   ".NAN"]

def float? (cs : List Char) : Option Float :=
  if cs.any Char.isDigit then Decimal.readNumber? cs else none

/-- A number, of which settings have no use if it is infinite or none. -/
def number? (s : String) : Option (Option Json) :=
  if s ∈ specials then some none else (float? s.toList).map fun x => some (.double x)

/-- The node of a plain text without a tag. -/
def plainNode? (s : String) : Option Node :=
  let cs := s.toList
  if s ∈ ["", "~", "null"] then some (some .null)
  else if s = "true" then some (some (.bool true))
  else if s = "false" then some (some (.bool false))
  else match (marked? cs).or (whole? 10 cs) with
    | some n => some (some (.int n))
    | none =>
      match number? s with
      | some none => none
      | some v => some v
      | none => some (some (.str s))

/-- A tag with its handle expanded. -/
structure Tag where
  space : String
  name : String
deriving DecidableEq, Repr

/-- The space of the kinds of values that every document knows. -/
def coreSpace : String := "tag:yaml.org,2002:"

/-- The node of a plain text with a tag. -/
def taggedNode? (t : Tag) (s : String) : Option Node :=
  if t.space ≠ coreSpace then some (some (.str s))
  else if t.name = "bool" then
    some (if s = "true" then some (.bool true)
      else if s = "false" then some (.bool false)
      else none)
  else if t.name = "int" then some ((whole? 10 s.toList).map .int)
  else if t.name = "float" then
    match number? s with
    | some none => none
    | some v => some v
    | none => some none
  else if t.name = "null" then some (if s = "~" ∨ s = "null" then some .null else none)
  else some (some (.str s))

/-- The node of a text. -/
def textNode? (tag : Option Tag) (plain : Bool) (s : String) : Option Node :=
  if !plain then some (some (.str s))
  else match tag with
    | some t => taggedNode? t s
    | none => plainNode? s

/-! Tables -/

/-- The name that a key stands for. -/
def keyName? : Json → Option String
  | .str s => some s
  | .int n => some (toString n)
  | _ => none

/-- Keys are the same if they are the same text or the same number. -/
def sameKey : Json → Json → Bool
  | .str s, .str t => s == t
  | .int m, .int n => m == n
  | _, _ => false

/-- The entries of a table from its nodes, keys and values by turns. A node without a value is no
key, and the next one is a key in its place. -/
def entries? : List Node → Option (List (Json × Json))
  | some k :: v :: rest => (entries? rest).map ((k, v.getD .null) :: ·)
  | some _ :: [] => some []
  | none :: rest => entries? rest
  | [] => some []

/-- A key that comes twice makes a table unusable. -/
def distinct : List Json → Bool
  | [] => true
  | k :: ks => !ks.any (sameKey k) && distinct ks

def table? (nodes : List Node) : Option Node := do
  let es ← entries? nodes
  let ms ← es.mapM fun (k, v) => (keyName? k).map fun n => (n, v)
  if distinct (es.map Prod.fst) then some (some (.obj (setMembers ms))) else none

def list (nodes : List Node) : Node := some (.arr (nodes.map (·.getD .null)))

/-! Nodes -/

/-- What is known while nodes are read. -/
structure Reading where
  tokens : List Token
  /-- The expansions of handles. -/
  handles : List (String × String) := []
  /-- The numbers of anchors, those that came last in front. -/
  anchors : List (String × Nat) := []
  /-- The nodes of anchors that are complete. -/
  nodes : List (Nat × Node) := []
  /-- The number of the next anchor. -/
  count : Nat := 0

namespace Reading

def next (r : Reading) : Option Token := r.tokens.head?

def drop (r : Reading) : Reading := { r with tokens := r.tokens.drop 1 }

/-- The tag that a handle and a suffix make. -/
def tag? (r : Reading) (handle suffix : String) : Option Tag :=
  if handle = "!!" then some ⟨(r.handles.lookup "!!").getD coreSpace, suffix⟩
  else match r.handles.lookup handle with
    | some space => some ⟨space, suffix⟩
    | none => if 2 ≤ handle.length then none else some ⟨handle, suffix⟩

/-- Takes an anchor, if one stands here. -/
def anchor (r : Reading) : Option Nat × Reading :=
  match r.tokens with
  | .anchor name :: rest =>
    (some r.count,
      { r with tokens := rest, anchors := (name, r.count) :: r.anchors, count := r.count + 1 })
  | _ => (none, r)

/-- Takes a tag, if one stands here. -/
def tagged? (r : Reading) : Option (Option Tag × Reading) :=
  match r.tokens with
  | .tag handle suffix :: rest =>
    (r.tag? handle suffix).map fun t => (some t, { r with tokens := rest })
  | _ => some (none, r)

/-- Takes an anchor and a tag in any order; there may be none of both. -/
def properties? (r : Reading) : Option (Option Nat × Option Tag × Reading) := do
  let (a, r) := r.anchor
  let (t, r) ← r.tagged?
  match a with
  | some _ => some (a, t, r)
  | none =>
    if t.isSome then
      let (a, r) := r.anchor
      some (a, t, r)
    else some (a, t, r)

/-- Keeps the node of an anchor. -/
def keep (a : Option Nat) (n : Node) (r : Reading) : Reading :=
  match a with
  | some i => { r with nodes := (i, n) :: r.nodes }
  | none => r

/-- Whether a node is missing in front of one of these tokens. -/
def lacks (r : Reading) (ts : List Token) : Bool := r.next.any ts.contains

/-- A node that is missing. -/
def missing : Node := some .null

mutual

/-- A node. `block` allows lists and tables by indentation, and `inline` allows lists whose hyphens
stand no deeper than the key in front. -/
def node? (block inline_ : Bool) (fuel : Nat) (r : Reading) : Option (Node × Reading) :=
  match fuel with
  | 0 => none
  | fuel + 1 =>
    match r.next with
    | some (.alias name) => do
      let i ← r.anchors.lookup name
      some ((r.nodes.lookup i).join, r.drop)
    | _ => do
      let (a, t, r) ← r.properties?
      let (n, r) ← match r.next with
        | some (.text plain s) => (textNode? t plain s).map fun n => (n, r.drop)
        | some .flowList => (flowItems? fuel true r.drop).map fun (ns, r) => (list ns, r)
        | some .flowTable => do
          let (ns, r) ← flowEntries? fuel true r.drop
          (table? ns).map fun n => (n, r)
        | some .item =>
          if inline_ then (inlineItems? fuel r).map fun (ns, r) => (list ns, r)
          else absent? a t r
        | some .list =>
          if block then (items? fuel r.drop).map fun (ns, r) => (list ns, r) else absent? a t r
        | some .table =>
          if block then do
            let (ns, r) ← keys? fuel r.drop
            (table? ns).map fun n => (n, r)
          else absent? a t r
        | _ => absent? a t r
      some (n, r.keep a n)

/-- A node of which only an anchor or a tag is there. -/
def absent? (a : Option Nat) (t : Option Tag) (r : Reading) : Option (Node × Reading) :=
  if a.isSome || t.isSome then (textNode? t true "").map fun n => (n, r) else none

/-- The items of a list up to its end. -/
def items? (fuel : Nat) (r : Reading) : Option (List Node × Reading) :=
  match fuel, r.next with
  | fuel + 1, some .item => do
    let r := r.drop
    let (n, r) ← if r.lacks [.item, .blockEnd] then some (missing, r) else node? true false fuel r
    let (ns, r) ← items? fuel r
    some (n :: ns, r)
  | _ + 1, some .blockEnd => some ([], r.drop)
  | _, _ => none

/-- The items of a list that has no end of its own. -/
def inlineItems? (fuel : Nat) (r : Reading) : Option (List Node × Reading) :=
  match fuel, r.next with
  | 0, _ => none
  | fuel + 1, some .item => do
    let r := r.drop
    let (n, r) ← if r.lacks [.item, .key, .value, .blockEnd] then some (missing, r)
      else node? true false fuel r
    let (ns, r) ← inlineItems? fuel r
    some (n :: ns, r)
  | _ + 1, _ => some ([], r)

/-- The nodes of a table up to its end, from a key on. -/
def keys? (fuel : Nat) (r : Reading) : Option (List Node × Reading) :=
  match fuel, r.next with
  | fuel + 1, some .key => do
    let r := r.drop
    let (n, r) ← if r.lacks [.key, .value, .blockEnd] then some (missing, r)
      else node? true true fuel r
    let (ns, r) ← values? fuel r
    some (n :: ns, r)
  | fuel + 1, some .value => (values? fuel r).map fun (ns, r) => (missing :: ns, r)
  | _ + 1, some .blockEnd => some ([], r.drop)
  | _, _ => none

/-- The nodes of a table up to its end, from a value on. -/
def values? (fuel : Nat) (r : Reading) : Option (List Node × Reading) :=
  match fuel, r.next with
  | 0, _ => none
  | fuel + 1, some .value => do
    let r := r.drop
    let (n, r) ← if r.lacks [.key, .value, .blockEnd] then some (missing, r)
      else node? true true fuel r
    let (ns, r) ← keys? fuel r
    some (n :: ns, r)
  | fuel + 1, _ => (keys? fuel r).map fun (ns, r) => (missing :: ns, r)

/-- The items of a list in brackets. -/
def flowItems? (fuel : Nat) (first : Bool) (r : Reading) : Option (List Node × Reading) :=
  match fuel with
  | 0 => none
  | fuel + 1 => do
    if r.next = some .flowListEnd then some ([], r.drop)
    else if !first && r.next ≠ some .comma then none
    else
      let r := if first then r else r.drop
      if r.next = some .flowListEnd then some ([], r.drop)
      else do
        let (n, r) ← if r.next = some .key then pair? fuel r.drop else node? false false fuel r
        let (ns, r) ← flowItems? fuel false r
        some (n :: ns, r)

/-- A table of one entry in a list in brackets, behind its key. -/
def pair? (fuel : Nat) (r : Reading) : Option (Node × Reading) :=
  match fuel with
  | 0 => none
  | fuel + 1 => do
    let (k, r) ← if r.lacks [.value, .comma, .flowListEnd] then some (missing, r)
      else node? false false fuel r
    let (v, r) ← if r.next = some .value then
        if r.drop.lacks [.comma, .flowListEnd] then some (missing, r.drop)
        else node? false false fuel r.drop
      else some (missing, r)
    (table? [k, v]).map fun n => (n, r)

/-- The nodes of a table in braces. -/
def flowEntries? (fuel : Nat) (first : Bool) (r : Reading) : Option (List Node × Reading) :=
  match fuel with
  | 0 => none
  | fuel + 1 => do
    if r.next = some .flowTableEnd then some ([], r.drop)
    else if !first && r.next ≠ some .comma then none
    else
      let r := if first then r else r.drop
      match r.next with
      | some .flowTableEnd => some ([], r.drop)
      | some .key => do
        let r := r.drop
        let (k, r) ← if r.lacks [.value, .comma, .flowTableEnd] then some (missing, r)
          else node? false false fuel r
        let (v, r) ← flowValue? fuel r
        let (ns, r) ← flowEntries? fuel false r
        some (k :: v :: ns, r)
      | some .value => do
        let (v, r) ← flowValue? fuel r
        let (ns, r) ← flowEntries? fuel false r
        some (missing :: v :: ns, r)
      | _ => do
        let (k, r) ← node? false false fuel r
        let (ns, r) ← flowEntries? fuel false r
        some (k :: missing :: ns, r)

/-- A value in braces; it may be missing with its colon. -/
def flowValue? (fuel : Nat) (r : Reading) : Option (Node × Reading) :=
  match fuel, r.next with
  | fuel + 1, some .value =>
    if r.drop.lacks [.comma, .flowTableEnd] then some (missing, r.drop)
    else node? false false fuel r.drop
  | _, _ => some (missing, r)

end

/-! Documents -/

/-- What follows the marks of ends of documents. -/
def behindEnds (r : Reading) : Reading :=
  { r with tokens := r.tokens.dropWhile (· == .documentEnd) }

/-- Takes directives; there is one version at most, and the last handle counts. -/
def directives? (version : Bool) : List Token → Reading → Option Reading
  | .version :: ts, r =>
    if version then none else directives? true ts { r with tokens := ts, handles := [] }
  | .handle name expansion :: ts, r =>
    directives? version ts { r with tokens := ts, handles := [(name, expansion)] }
  | _, r => some r

/-- Takes the start of a document. Behind directives it is marked. -/
def start? (r : Reading) : Option Reading := do
  let behind ← directives? false r.tokens r
  match behind.next with
  | some .documentStart => some behind.drop
  | _ => if behind.tokens.length = r.tokens.length then some r else none

/-- The value of the only document; without one there is an empty table. -/
def document? (r : Reading) : Option Json := do
  let r := r.behindEnds
  if r.tokens.isEmpty then some (.obj [])
  else do
    let r ← r.start?
    let (n, r) ← node? true false (4 * r.tokens.length + 4) r
    if r.behindEnds.tokens.isEmpty then n else none

end Reading

/-- The value that a text spells. -/
def read? (s : String) : Option Json := do
  let ts ← Token.all? s
  Reading.document? { tokens := ts }

end TableTalk.Yaml
