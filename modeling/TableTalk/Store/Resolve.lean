import TableTalk.Sql.Query
import TableTalk.Store.Table
/-!
# Resolving names

Before a selection runs, every name in it becomes a reference to a place in a record. A name is a
column of the table, one that is hidden perhaps and can only be named, or else, in a stored table,
one of the names of the number of a record. Outside the selected items it may also be the name of an
item, and the item then stands in its place. Names are compared without regard to case. A bare truth
value gives way to a column of that name. A number alone in a grouping or an order stands for an
item, and so does the name of an item in an order.
-/

namespace TableTalk

open Sql

/-- What a name stands for. -/
inductive Ref where
  | cell (index : Nat) (type : Option Declared)
  /-- The number of the record. -/
  | rowId
deriving DecidableEq, Repr

/-- A selection whose names are resolved. -/
structure Plan where
  columns : List Column
  items : List (Expr Ref)
  conditions : List (Expr Ref)
  groupBy : Option (Expr Ref)
  orderBy : Option (Expr Ref × SortOrder)
  limit : Option Nat
deriving DecidableEq, Repr

/-- The type of the column that an expression is. -/
def Sql.Expr.type? : Expr Ref → Option Declared
  | .column (.cell _ type) => type
  | .column .rowId => some .integer
  | .paren e => e.type?
  | _ => none

/-- Where the names of a selection are looked up. -/
structure Scope where
  columns : List Column
  /-- Columns that are not among all. -/
  hidden : List Column
  /-- Whether records have numbers that can be named. -/
  numbered : Bool

namespace Scope

/-- The first column with a name. -/
def column? (name : String) (index : Nat) : List Column → Option Ref
  | [] => none
  | c :: cs =>
    if Text.sameAscii c.name name then some (.cell index c.type) else column? name (index + 1) cs

/-- The names of the number of a record. -/
def numberNames : List String := ["rowid", "_rowid_", "oid"]

def ref? (s : Scope) (name : String) : Option Ref :=
  (column? name 0 (s.columns ++ s.hidden)).or
    (if s.numbered ∧ numberNames.any (Text.sameAscii name) then some .rowId else none)

def truth (s : Scope) (b : Bool) : Expr Ref :=
  match column? (if b then "TRUE" else "FALSE") 0 (s.columns ++ s.hidden) with
  | some r => .column r
  | none => .truth b

/-- What a name stands for: a column, or else one of the items. -/
def lookup (s : Scope) (items : List (Option String × Expr Ref)) (name : String) :
    Except Fault (Expr Ref) :=
  match s.ref? name with
  | some r => .ok (.column r)
  | none =>
    match items.find? fun i => i.1.any (Text.sameAscii name) with
    | some i => .ok i.2
    | none => .error (.noColumn name 0)

/-- Resolves the names in an expression; `items` are those that it can name. -/
def resolve (s : Scope) (items : List (Option String × Expr Ref)) (e : Expr Name) :
    Except Fault (Expr Ref) :=
  e.bind (fun n => s.lookup items n.text) s.truth

/-- The names that are not found in the patterns that some conditions start with. -/
def unfound (s : Scope) (items : List (Option String × Expr Ref)) : List (Expr Name) → List String
  | .like l r :: cs =>
    match s.resolve items (.like l r) with
    | .error (.noColumn n _) => n :: unfound s items cs
    | _ => unfound s items cs
  | _ => []

/-- Resolves conditions one after the other. The first fault ends this, but a fault in a pattern is
followed by those in the patterns right behind it, and the last of them is reported. -/
def resolveAll (s : Scope) (items : List (Option String × Expr Ref)) (cs : List (Expr Name)) :
    Except Fault (List (Expr Ref)) :=
  match cs with
  | [] => .ok []
  | c :: rest =>
    match s.resolve items c with
    | .ok e => (s.resolveAll items rest).map (e :: ·)
    | .error f =>
      match (s.unfound items cs).reverse with
      | [] => .error f
      | n :: ns => .error (.noColumn n (ns.count n))

/-- The item that an expression alone stands for. -/
def ordinal? (items : List (Option String × Expr Ref)) : Expr Name → Option (Expr Ref)
  | .number digits =>
    match digits.toNat? with
    | some (n + 1) => (items[n]?).map Prod.snd
    | _ => none
  | _ => none

/-- The item that a name alone stands for in an order. -/
def named? (items : List (Option String × Expr Ref)) : Expr Name → Option (Expr Ref)
  | .column n => (items.find? fun i => i.1.any (Text.sameAscii n.text)).map Prod.snd
  | _ => none

/-- The name of the column that an item makes. -/
def itemName (i : Item Name) : String := i.alias?.getD (String.ofList (charsOf i.expr.pieces))

/-- The items of a selection, with their names. -/
def items (s : Scope) : Items Name → Except Fault (List (Option String × Column × Expr Ref))
  | .all => .ok (s.columns.mapIdx fun i c => (none, c, .column (.cell i c.type)))
  | .list list => list.mapM fun i => do
    let e ← s.resolve [] i.expr
    .ok (i.alias?, ⟨itemName i, e.type?⟩, e)

/-- What an order goes by: an item that is named or counted, or an expression of its own. -/
def orderKey (s : Scope) (items : List (Option String × Expr Ref)) (e : Expr Name) :
    Except Fault (Expr Ref) :=
  match (named? items e).or (ordinal? items e) with
  | some e => .ok e
  | none => s.resolve items e

/-- What a grouping goes by: an item that is counted, or an expression of its own. -/
def groupKey (s : Scope) (items : List (Option String × Expr Ref)) (e : Expr Name) :
    Except Fault (Expr Ref) :=
  match ordinal? items e with
  | some e => .ok e
  | none => s.resolve items e

def plan (s : Scope) (q : Select) : Except Fault Plan := do
  let all ← s.items q.items
  let items := all.map fun i => (i.1, i.2.2)
  let conditions ← s.resolveAll items q.conditions
  let orderBy ← q.orderBy.mapM fun (e, o) => (s.orderKey items e).map fun e => (e, o)
  let groupBy ← q.groupBy.mapM (s.groupKey items)
  match conditions.findSome? Expr.aggregate? with
  | some f => .error (.misplaced f)
  | none => .ok ⟨all.map (·.2.1), all.map (·.2.2), conditions, groupBy, orderBy, q.limit⟩

end Scope

end TableTalk
