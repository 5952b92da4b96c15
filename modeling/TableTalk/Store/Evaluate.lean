import TableTalk.Store.Function
import TableTalk.Store.Member
import TableTalk.Store.Resolve
/-!
# Evaluating expressions

An expression is evaluated in a frame: the record at hand, the group that aggregates range over, and
the record before it in a window. Comparing with nothing gives nothing. The type of a column decides
how the other side of a comparison is read (`alike`): beside a column of numbers, texts that spell a
number are numbers, and beside a column of texts, numbers are texts. A comparison gives a whole
number, zero or one.
-/

namespace TableTalk

open Sql

/-- A record of a table with its number. -/
structure Record where
  number : Nat
  cells : List Cell

/-- What an expression is evaluated in. -/
structure Frame where
  record : Option Record
  group : List Record
  before : Option Record

namespace Frame

/-- One record. -/
def single (r : Record) : Frame := ⟨some r, [r], none⟩

/-- A group of records; the first of them stands for all. -/
def ofGroup (rs : List Record) : Frame := ⟨rs.head?, rs, none⟩

end Frame

def Ref.read (r : Ref) (record : Option Record) : Cell :=
  match r, record with
  | _, none => .null
  | .cell i _, some record => (record.cells[i]?).getD .null
  | .rowId, some record => .int record.number

namespace Cell

def truth (b : Bool) : Cell := int (if b then 1 else 0)

def truth? : Option Bool → Cell
  | some b => truth b
  | none => null

/-- Whether a condition with this value holds: it is a number other than zero. -/
def holds (c : Cell) : Bool :=
  match c.operand with
  | some (int n) => n != 0
  | some (real x) => x != 0
  | _ => false

def negate (c : Cell) : Cell := (int 0).minus c

/-- A text that spells a number as that number. -/
def asNumber : Cell → Cell
  | text s => (numeric? s).getD (text s)
  | c => c

/-- A number as text. -/
def asText : Cell → Cell
  | int n => text (int n).shown
  | real x => text (real x).shown
  | c => c

/-- Whether a cell matches a pattern. A pattern that is too long is refused even for nothing. -/
def matching (c pattern : Cell) : Except Fault Cell :=
  if patternLimit < pattern.shown.utf8ByteSize then .error .longPattern
  else .ok (truth? (c.like pattern))

def isText : Cell → Bool
  | text _ => true
  | loose _ => true
  | _ => false

end Cell

/-- The type by which two operands are compared. -/
def Declared.common? : Option Declared → Option Declared → Option Declared
  | some l, some r => if l.numeric || r.numeric then some double else none
  | some l, none => some l
  | none, r => r

/-- Both operands as a type has them compared. -/
def Cell.alike (type : Option Declared) (l r : Cell) : Cell × Cell :=
  match type with
  | none => (l, r)
  | some .varchar => if l.isText || r.isText then (l.asText, r.asText) else (l, r)
  | some _ => (l.asNumber, r.asNumber)

namespace Sql

def Comparison.holds : Comparison → Ordering → Bool
  | eq, o => o == .eq
  | ne, o => o != .eq
  | lt, o => o == .lt
  | gt, o => o == .gt
  | le, o => o != .gt
  | ge, o => o != .lt

/-- Compares two cells by a type, unless one of them is nothing. -/
def Comparison.apply (op : Comparison) (type : Option Declared) (l r : Cell) : Cell :=
  match l, r with
  | .null, _ => .null
  | _, .null => .null
  | l, r =>
    let (l, r) := Cell.alike type l r
    .truth (op.holds (l.compare r))

def Arithmetic.apply : Arithmetic → Cell → Cell → Cell
  | minus => Cell.minus
  | times => Cell.times
  | divide => Cell.divide

def Function.apply : Function → Cell → Cell
  | tryCastDouble, c => .ofFloat? c.tryCastDouble
  | tryCastTimestamp, c => .ofText? c.tryCastTimestamp
  | lower, c => c.lower

def Function2.apply : Function2 → Cell → Cell → Except Fault Cell
  | dateTrunc, g, c =>
    match Cell.truncation g c with
    | .none => .ok .null
    | .start d => .ok (.text d.render)
    | .beforeCalendar => .error .beforeCalendar
  | nullif, l, r => .ok (if l.same r then .null else l)
  | round, c, n => .ok (c.round n)

end Sql

namespace AggregateFunction

/-- The cells that count: those that hold something. -/
def present (cs : List Cell) : List Cell := cs.filter (· != .null)

/-- A cell that an order puts in front of all others. -/
def first (o : Ordering) : List Cell → Cell
  | [] => .null
  | c :: cs => cs.foldl (fun best c => if c.compare best = o then c else best) c

/-- The aggregate of a group of cells. -/
def apply (f : AggregateFunction) (cs : List Cell) : Cell :=
  let cs := present cs
  let total := Cell.compensatedSum (cs.map fun c => ((c.operand).getD .null).float)
  match f with
  | count => .int cs.length
  | min => first .lt cs
  | max => first .gt cs
  | sum => if cs.isEmpty then .null else .ofFloat total
  | avg => if cs.isEmpty then .null else .ofFloat (total / Float.ofNat cs.length)

end AggregateFunction

namespace Sql.Expr

/-- The value of an expression in a frame. -/
def evaluate (f : Frame) : Expr Ref → Except Fault Cell
  | column r => .ok (r.read f.record)
  | number s => .ok (.literal s)
  | text s => .ok (.text s)
  | truth b => .ok (.truth b)
  | paren e => e.evaluate f
  | negate e => (e.evaluate f).map Cell.negate
  | compare op l r => do
    let a ← l.evaluate f
    let b ← r.evaluate f
    .ok (op.apply (Declared.common? l.type? r.type?) a b)
  | like l r => do
    let a ← l.evaluate f
    let b ← r.evaluate f
    a.matching b
  | ilike l r => do
    let a ← l.evaluate f
    let b ← r.evaluate f
    a.matching b
  | arithmetic op l r => do
    let a ← l.evaluate f
    let b ← r.evaluate f
    .ok (op.apply a b)
  | member d k => do
    let a ← d.evaluate f
    let b ← k.evaluate f
    a.member b
  | cast e _ => e.evaluate f
  | call g e => (e.evaluate f).map g.apply
  | call2 g l r => do
    let a ← l.evaluate f
    let b ← r.evaluate f
    g.apply a b
  | aggregate g e => (f.group.mapM fun r => e.evaluate (.single r)).map g.apply
  | countRows => .ok (.int f.group.length)
  | lag e _ =>
    match f.before with
    | none => .ok .null
    | some r => e.evaluate (.single r)

/-- Whether a record satisfies all conditions. Those behind one that does not hold are not looked
at. -/
def allHold (r : Record) : List (Expr Ref) → Except Fault Bool
  | [] => .ok true
  | e :: es => do
    let c ← e.evaluate (.single r)
    if c.holds then allHold r es else .ok false

end Sql.Expr

end TableTalk
