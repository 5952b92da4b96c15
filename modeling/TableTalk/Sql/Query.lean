import TableTalk.Intent.Basic
/-!
# Queries

A query selects expressions from one table: rows that satisfy all conditions, grouped, ordered and
cut off. It may first name a selection and then select from that. Expressions are generic in how a
column is named: by a `Name` in a query as written, by a place in a row once names are resolved.
`Expr.bind` replaces every name by an expression.
-/

namespace TableTalk.Sql

/-- A name as written, bare or between quotes. -/
inductive Name where
  | bare (s : String)
  | quoted (s : String)
deriving DecidableEq, Repr

def Name.text : Name → String
  | bare s => s
  | quoted s => s

inductive Comparison where
  | eq
  | ne
  | lt
  | gt
  | le
  | ge
deriving DecidableEq, Repr

inductive Arithmetic where
  | minus
  | times
  | divide
deriving DecidableEq, Repr

/-- Functions of one value. -/
inductive Function where
  | tryCastDouble
  | tryCastTimestamp
  | lower
deriving DecidableEq, Repr

/-- Functions of two values. -/
inductive Function2 where
  | dateTrunc
  | nullif
  | round
deriving DecidableEq, Repr

inductive Expr (ν : Type) where
  | column (name : ν)
  | number (digits : String)
  | text (s : String)
  | truth (b : Bool)
  | paren (e : Expr ν)
  | negate (e : Expr ν)
  | compare (op : Comparison) (left right : Expr ν)
  | like (left right : Expr ν)
  /-- Matching without regard to case. -/
  | ilike (left right : Expr ν)
  | arithmetic (op : Arithmetic) (left right : Expr ν)
  /-- The member of a document as text. -/
  | member (document key : Expr ν)
  | cast (e : Expr ν) (type : String)
  | call (f : Function) (e : Expr ν)
  | call2 (f : Function2) (left right : Expr ν)
  | aggregate (f : AggregateFunction) (e : Expr ν)
  | countRows
  /-- The value of `e` in the row before, in the order of another expression. -/
  | lag (e order : Expr ν)
deriving DecidableEq, Repr

namespace Expr

variable {ν μ ε : Type}

/-- Replaces every name and truth value by an expression, from left to right; the first failure
decides. -/
def bind (f : ν → Except ε (Expr μ)) (g : Bool → Expr μ) : Expr ν → Except ε (Expr μ)
  | column n => f n
  | number s => .ok (number s)
  | text s => .ok (text s)
  | truth b => .ok (g b)
  | paren e => do .ok (paren (← e.bind f g))
  | negate e => do .ok (negate (← e.bind f g))
  | compare op l r => do
    let l ← l.bind f g
    let r ← r.bind f g
    .ok (compare op l r)
  | like l r => do
    let l ← l.bind f g
    let r ← r.bind f g
    .ok (like l r)
  | ilike l r => do
    let l ← l.bind f g
    let r ← r.bind f g
    .ok (ilike l r)
  | arithmetic op l r => do
    let l ← l.bind f g
    let r ← r.bind f g
    .ok (arithmetic op l r)
  | member d k => do
    let d ← d.bind f g
    let k ← k.bind f g
    .ok (member d k)
  | cast e t => do .ok (cast (← e.bind f g) t)
  | call h e => do .ok (call h (← e.bind f g))
  | call2 h l r => do
    let l ← l.bind f g
    let r ← r.bind f g
    .ok (call2 h l r)
  | aggregate h e => do .ok (aggregate h (← e.bind f g))
  | countRows => .ok countRows
  | lag e o => do
    let e ← e.bind f g
    let o ← o.bind f g
    .ok (lag e o)

/-- The names in an expression, from left to right. -/
def names : Expr ν → List ν
  | column n => [n]
  | number _ => []
  | text _ => []
  | truth _ => []
  | paren e => e.names
  | negate e => e.names
  | compare _ l r => l.names ++ r.names
  | like l r => l.names ++ r.names
  | ilike l r => l.names ++ r.names
  | arithmetic _ l r => l.names ++ r.names
  | member d k => d.names ++ k.names
  | cast e _ => e.names
  | call _ e => e.names
  | call2 _ l r => l.names ++ r.names
  | aggregate _ e => e.names
  | countRows => []
  | lag e o => e.names ++ o.names

/-- The levels of an expression as a tree; parentheses add none. -/
def height : Expr ν → Nat
  | column _ => 1
  | number _ => 1
  | text _ => 1
  | truth _ => 1
  | paren e => e.height
  | negate e => e.height + 1
  | compare _ l r => max l.height r.height + 1
  | like l r => max l.height r.height + 1
  | ilike l r => max l.height r.height + 1
  | arithmetic _ l r => max l.height r.height + 1
  | member d k => max d.height k.height + 1
  | cast e _ => e.height + 1
  | call _ e => e.height + 1
  | call2 _ l r => max l.height r.height + 1
  | aggregate _ e => e.height + 1
  | countRows => 1
  | lag e o => max e.height o.height + 1

/-- The first function in an expression that is computed over many rows. -/
def aggregate? : Expr ν → Option AggregateFunction
  | column _ => none
  | number _ => none
  | text _ => none
  | truth _ => none
  | paren e => e.aggregate?
  | negate e => e.aggregate?
  | compare _ l r => l.aggregate?.or r.aggregate?
  | like l r => l.aggregate?.or r.aggregate?
  | ilike l r => l.aggregate?.or r.aggregate?
  | arithmetic _ l r => l.aggregate?.or r.aggregate?
  | member d k => d.aggregate?.or k.aggregate?
  | cast e _ => e.aggregate?
  | call _ e => e.aggregate?
  | call2 _ l r => l.aggregate?.or r.aggregate?
  | aggregate f _ => some f
  | countRows => some .count
  | lag e o => e.aggregate?.or o.aggregate?

/-- The order of the first look at the row before. -/
def lagOrder? : Expr ν → Option (Expr ν)
  | column _ => none
  | number _ => none
  | text _ => none
  | truth _ => none
  | paren e => e.lagOrder?
  | negate e => e.lagOrder?
  | compare _ l r => l.lagOrder?.or r.lagOrder?
  | like l r => l.lagOrder?.or r.lagOrder?
  | ilike l r => l.lagOrder?.or r.lagOrder?
  | arithmetic _ l r => l.lagOrder?.or r.lagOrder?
  | member d k => d.lagOrder?.or k.lagOrder?
  | cast e _ => e.lagOrder?
  | call _ e => e.lagOrder?
  | call2 _ l r => l.lagOrder?.or r.lagOrder?
  | aggregate _ e => e.lagOrder?
  | countRows => none
  | lag _ o => some o

end Expr

/-- A selected expression under a name. -/
structure Item (ν : Type) where
  expr : Expr ν
  alias? : Option String
deriving DecidableEq, Repr

inductive Items (ν : Type) where
  /-- All columns of the table. -/
  | all
  | list (items : List (Item ν))
deriving DecidableEq, Repr

structure Select where
  items : Items Name
  source : Name
  /-- Rows satisfy all of them. -/
  conditions : List (Expr Name)
  groupBy : Option (Expr Name)
  orderBy : Option (Expr Name × SortOrder)
  limit : Option Nat
deriving DecidableEq, Repr

structure Query where
  /-- A selection that the main one can name as its table. -/
  common : Option (String × Select)
  main : Select
deriving DecidableEq, Repr

/-- The two ways to read a column: from a table with real columns, or from documents. -/
inductive Dialect where
  | directColumn
  | jsonDocument
deriving DecidableEq, Repr

def Dialect.name : Dialect → String
  | directColumn => "direct-column"
  | jsonDocument => "json-document"

def Dialect.ofName? (s : String) : Option Dialect :=
  if s = "direct-column" then some .directColumn
  else if s = "json-document" then some .jsonDocument
  else none

end TableTalk.Sql
