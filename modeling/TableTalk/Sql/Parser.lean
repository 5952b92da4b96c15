import TableTalk.Sql.Printer
/-!
# Reading queries

The reader takes tokens and gives a query, or the number of tokens that were left where it stopped
(`ReadError.stuck`). Operators bind in the usual order: a member or a cast closest, then
multiplication and division, then subtraction, then comparisons, and conditions are joined by `AND`.
Casts and `ILIKE` belong to the dialect of documents; in the other one a query with them is refused
where they stand. Keywords and function names are read in any case.

Conditions are joined from left to right, each further one above those in front of it. The engine of
tables takes a tree of at most `depthLimit` levels (`ReadError.tooDeep`); the one of documents has no
such limit.
-/

namespace TableTalk.Sql

/-- Why tokens spell no query. -/
inductive ReadError where
  /-- No query goes on with the tokens that are left, so many of them. -/
  | stuck (left : Nat)
  /-- The conditions make too deep a tree. -/
  | tooDeep
deriving DecidableEq, Repr

/-- Reads a part of a query off the tokens. -/
abbrev Read (α : Type) := List Token → Except ReadError (α × List Token)

namespace Read

def stuck {α : Type} (ts : List Token) : Except ReadError (α × List Token) :=
  .error (.stuck ts.length)

def expect (t : Token) : Read Unit
  | u :: ts => if u = t then .ok ((), ts) else stuck (u :: ts)
  | [] => stuck []

def mark (m : Mark) : Read Unit := expect (.mark m)

def key (k : Keyword) : Read Unit := expect (.keyword k)

def name : Read Name
  | .word s :: ts => .ok (.bare s, ts)
  | .name s :: ts => .ok (.quoted s, ts)
  | ts => stuck ts

end Read

/-- What a word in front of a parenthesis stands for. -/
inductive Callee where
  | one (f : Function)
  | two (f : Function2)
  | many (f : AggregateFunction)
  | lag
deriving DecidableEq, Repr

def Callee.names : List (String × Callee) :=
  [("try_cast_double", .one .tryCastDouble), ("try_cast_timestamp", .one .tryCastTimestamp),
    ("lower", .one .lower), ("date_trunc", .two .dateTrunc), ("nullif", .two .nullif),
    ("round", .two .round), ("sum", .many .sum), ("avg", .many .avg), ("count", .many .count),
    ("min", .many .min), ("max", .many .max), ("lag", .lag)]

def Callee.ofWord? (s : String) : Option Callee := names.lookup (Text.lowerAscii s)

def Comparison.ofMark? : Mark → Option Comparison
  | .eq => some .eq
  | .ne => some .ne
  | .lt => some .lt
  | .gt => some .gt
  | .le => some .le
  | .ge => some .ge
  | _ => none

namespace Expr

open Read

mutual

/-- A comparison of two sums, or one sum. -/
def read (d : Dialect) (fuel : Nat) : Read (Expr Name) := fun ts =>
  match fuel with
  | 0 => stuck ts
  | fuel + 1 => do
    let (l, ts) ← readSum d fuel ts
    match ts with
    | .keyword .like :: rest =>
      let (r, ts) ← readSum d fuel rest
      .ok (like l r, ts)
    | .keyword .ilike :: rest =>
      match d with
      | .directColumn => .ok (l, ts)
      | .jsonDocument =>
        let (r, ts) ← readSum d fuel rest
        .ok (ilike l r, ts)
    | .mark m :: rest =>
      match Comparison.ofMark? m with
      | some op =>
        let (r, ts) ← readSum d fuel rest
        .ok (compare op l r, ts)
      | none => .ok (l, ts)
    | ts => .ok (l, ts)

def readSum (d : Dialect) (fuel : Nat) : Read (Expr Name) := fun ts =>
  match fuel with
  | 0 => stuck ts
  | fuel + 1 => do
    let (l, ts) ← readProduct d fuel ts
    readSumRest d fuel l ts

/-- Further operands of a subtraction. -/
def readSumRest (d : Dialect) (fuel : Nat) (l : Expr Name) : Read (Expr Name) := fun ts =>
  match fuel with
  | 0 => stuck ts
  | fuel + 1 =>
    match ts with
    | .mark .minus :: rest => do
      let (r, ts) ← readProduct d fuel rest
      readSumRest d fuel (arithmetic .minus l r) ts
    | ts => .ok (l, ts)

def readProduct (d : Dialect) (fuel : Nat) : Read (Expr Name) := fun ts =>
  match fuel with
  | 0 => stuck ts
  | fuel + 1 => do
    let (l, ts) ← readSuffixed d fuel ts
    readProductRest d fuel l ts

/-- Further operands of a multiplication or division. -/
def readProductRest (d : Dialect) (fuel : Nat) (l : Expr Name) : Read (Expr Name) := fun ts =>
  match fuel with
  | 0 => stuck ts
  | fuel + 1 =>
    match ts with
    | .mark .star :: rest => do
      let (r, ts) ← readSuffixed d fuel rest
      readProductRest d fuel (arithmetic .times l r) ts
    | .mark .slash :: rest => do
      let (r, ts) ← readSuffixed d fuel rest
      readProductRest d fuel (arithmetic .divide l r) ts
    | ts => .ok (l, ts)

/-- An operand with its members and casts. -/
def readSuffixed (d : Dialect) (fuel : Nat) : Read (Expr Name) := fun ts =>
  match fuel with
  | 0 => stuck ts
  | fuel + 1 => do
    let (e, ts) ← readOperand d fuel ts
    readSuffixes d fuel e ts

def readSuffixes (d : Dialect) (fuel : Nat) (e : Expr Name) : Read (Expr Name) := fun ts =>
  match fuel with
  | 0 => stuck ts
  | fuel + 1 =>
    match ts with
    | .mark .arrow :: rest => do
      let (k, ts) ← readOperand d fuel rest
      readSuffixes d fuel (member e k) ts
    | .mark .cast :: rest =>
      match d, rest with
      | .jsonDocument, .word t :: rest => readSuffixes d fuel (cast e t) rest
      | _, _ => .ok (e, ts)
    | ts => .ok (e, ts)

def readOperand (d : Dialect) (fuel : Nat) : Read (Expr Name) := fun ts =>
  match fuel with
  | 0 => stuck ts
  | fuel + 1 =>
    match ts with
    | .number s :: rest => .ok (number s, rest)
    | .text s :: rest => .ok (text s, rest)
    | .name s :: rest => .ok (column (.quoted s), rest)
    | .keyword .true :: rest => .ok (truth true, rest)
    | .keyword .false :: rest => .ok (truth false, rest)
    | .mark .minus :: rest => do
      let (e, ts) ← readOperand d fuel rest
      .ok (negate e, ts)
    | .mark .lparen :: rest => do
      let (e, ts) ← read d fuel rest
      let ((), ts) ← mark .rparen ts
      .ok (paren e, ts)
    | .word s :: .mark .lparen :: rest =>
      match Callee.ofWord? s with
      | some c => readCall d fuel c rest
      | none => stuck ts
    | .word s :: rest => .ok (column (.bare s), rest)
    | ts => stuck ts

/-- The arguments of a call behind its opening parenthesis. -/
def readCall (d : Dialect) (fuel : Nat) (c : Callee) : Read (Expr Name) := fun ts =>
  match fuel with
  | 0 => stuck ts
  | fuel + 1 =>
    match c, ts with
    | .many .count, .mark .star :: .mark .rparen :: rest => .ok (countRows, rest)
    | c, ts => do
      let (e, ts) ← read d fuel ts
      match c with
      | .one f =>
        let ((), ts) ← mark .rparen ts
        .ok (call f e, ts)
      | .many f =>
        let ((), ts) ← mark .rparen ts
        .ok (aggregate f e, ts)
      | .two f =>
        let ((), ts) ← mark .comma ts
        let (r, ts) ← read d fuel ts
        let ((), ts) ← mark .rparen ts
        .ok (call2 f e r, ts)
      | .lag =>
        let ((), ts) ← mark .rparen ts
        let ((), ts) ← key .overRows ts
        let ((), ts) ← mark .lparen ts
        let ((), ts) ← key .order ts
        let ((), ts) ← key .byKey ts
        let (o, ts) ← read d fuel ts
        let ((), ts) ← mark .rparen ts
        .ok (lag e o, ts)

end

end Expr

namespace Select

open Read

def readItem (d : Dialect) (fuel : Nat) : Read (Item Name) := fun ts => do
  let (e, ts) ← Expr.read d fuel ts
  match ts with
  | .keyword .as :: .name a :: rest => .ok (⟨e, some a⟩, rest)
  | ts => .ok (⟨e, none⟩, ts)

def readItems (d : Dialect) (fuel : Nat) : Read (List (Item Name)) := fun ts =>
  match fuel with
  | 0 => stuck ts
  | fuel + 1 => do
    let (i, ts) ← readItem d fuel ts
    match ts with
    | .mark .comma :: rest =>
      let (is, ts) ← readItems d fuel rest
      .ok (i :: is, ts)
    | ts => .ok ([i], ts)

/-- The levels that a tree of conditions may have. -/
def depthLimit : Nat := 1000

/-- Whether a dialect does not take a tree of so many levels. -/
def tooDeep : Dialect → Nat → Bool
  | .directColumn, depth => depthLimit < depth
  | .jsonDocument, _ => false

/-- The levels of a condition joined to those in front of it; there may be none. -/
def joinedDepth (depth height : Nat) : Nat :=
  if depth = 0 then height else max depth height + 1

/-- Whether what comes next is no part of any query. -/
def foreign : List Token → Bool
  | .bad _ :: _ => true
  | .mark .cast :: _ => true
  | _ => false

/-- Conditions joined by `AND`, below those in front of them that make a tree of some depth. What is
foreign is found before the tree is measured. -/
def readConditions (d : Dialect) (fuel depth : Nat) : Read (List (Expr Name)) := fun ts =>
  match fuel with
  | 0 => stuck ts
  | fuel + 1 => do
    let (c, ts) ← Expr.read d fuel ts
    let depth := joinedDepth depth c.height
    if tooDeep d depth ∧ !foreign ts then .error .tooDeep
    else match ts with
      | .keyword .and :: rest =>
        let (cs, ts) ← readConditions d fuel depth rest
        .ok (c :: cs, ts)
      | ts => .ok ([c], ts)

def readWhere (d : Dialect) (fuel : Nat) : Read (List (Expr Name))
  | .keyword .whereTrue :: rest => readConditions d fuel 0 rest
  | ts => .ok ([], ts)

def readGroup (d : Dialect) (fuel : Nat) : Read (Option (Expr Name))
  | .keyword .group :: rest => do
    let ((), ts) ← key .byKey rest
    let (e, ts) ← Expr.read d fuel ts
    .ok (some e, ts)
  | ts => .ok (none, ts)

def readOrder (d : Dialect) (fuel : Nat) : Read (Option (Expr Name × SortOrder))
  | .keyword .order :: rest => do
    let ((), ts) ← key .byKey rest
    let (e, ts) ← Expr.read d fuel ts
    match ts with
    | .keyword .desc :: rest => .ok (some (e, .desc), rest)
    | .keyword .asc :: rest => .ok (some (e, .asc), rest)
    | ts => .ok (some (e, .asc), ts)
  | ts => .ok (none, ts)

def readLimit : Read (Option Nat)
  | .keyword .limit :: .number s :: rest =>
    match s.toNat? with
    | some n => .ok (some n, rest)
    | none => stuck (.number s :: rest)
  | ts => .ok (none, ts)

/-- A star, or some items. -/
def readSelection (d : Dialect) (fuel : Nat) : Read (Items Name)
  | .mark .star :: rest => .ok (.all, rest)
  | ts => do
    let (is, ts) ← readItems d fuel ts
    .ok (.list is, ts)

def read (d : Dialect) (fuel : Nat) : Read Select := fun ts => do
  let ((), ts) ← key .select ts
  let (items, ts) ← readSelection d fuel ts
  let ((), ts) ← key .fromTable ts
  let (source, ts) ← name ts
  let (conditions, ts) ← readWhere d fuel ts
  let (groupBy, ts) ← readGroup d fuel ts
  let (orderBy, ts) ← readOrder d fuel ts
  let (limit, ts) ← readLimit ts
  .ok (⟨items, source, conditions, groupBy, orderBy, limit⟩, ts)

end Select

namespace Query

open Read

/-- A selection with a name in front of the main one. -/
def readCommon (d : Dialect) (fuel : Nat) : Read (Option (String × Select))
  | .keyword .withName :: .word w :: .keyword .as :: .mark .lparen :: rest => do
    let (s, ts) ← Select.read d fuel rest
    let ((), ts) ← mark .rparen ts
    .ok (some (w, s), ts)
  | ts => .ok (none, ts)

/-- A whole query. Nothing may follow it. -/
def readAll (d : Dialect) (fuel : Nat) (ts : List Token) : Except ReadError Query := do
  let (common, ts) ← readCommon d fuel ts
  let (main, ts) ← Select.read d fuel ts
  if ts.isEmpty then .ok ⟨common, main⟩ else .error (.stuck ts.length)

/-- Steps enough to read any query of so many tokens. -/
def fuelFor (tokens : Nat) : Nat := 8 * tokens + 16

/-- The query that the tokens spell. -/
def ofTokens (d : Dialect) (ts : List Token) : Except ReadError Query :=
  readAll d (fuelFor ts.length) ts

/-- The query that a text spells. -/
def parse? (d : Dialect) (s : String) : Option Query := (ofTokens d (Token.lex s)).toOption

end Query

end TableTalk.Sql
