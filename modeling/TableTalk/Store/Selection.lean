import TableTalk.Store.Evaluate
/-!
# Running selections

A plan keeps the records that satisfy its conditions, in the order of the table. It then makes
frames of them: one for each record, one for all of them if an item is an aggregate, or one for each
key of its grouping. Groups come in the order of their keys, in the direction of the order that
follows, so that records with one key stand beside each other; sorting is stable, and a limit cuts
off what is behind it. The result is a table again.
-/

namespace TableTalk

open Sql

/-- Cells in some direction. -/
def Cell.notAfter (o : SortOrder) (a b : Cell) : Bool :=
  match o with
  | .asc => a.compare b != .gt
  | .desc => a.compare b != .lt

/-- Each key once. -/
def Cell.distinct : List Cell → List Cell
  | [] => []
  | c :: cs => c :: (distinct cs).filter fun d => !c.same d

namespace Plan

/-- Values under a key in the order of their keys. Equal keys keep their order. -/
def sorted {α : Type} (o : SortOrder) (keyed : List (Cell × α)) : List (Cell × α) :=
  keyed.mergeSort fun a b => a.1.notAfter o b.1

/-- Each value with its key. -/
def keyed {α : Type} (key : α → Except Fault Cell) (xs : List α) :
    Except Fault (List (Cell × α)) :=
  xs.mapM fun x => (key x).map fun k => (k, x)

/-- The records that satisfy all conditions. -/
def selected (p : Plan) : List Record → Except Fault (List Record)
  | [] => .ok []
  | r :: rs => do
    let keep ← Expr.allHold r p.conditions
    let rest ← p.selected rs
    .ok (if keep then r :: rest else rest)

/-- Records by key, the groups in the order of their keys. -/
def groups (o : SortOrder) (keyed : List (Cell × Record)) : List (List Record) :=
  let keys := (Cell.distinct (keyed.map Prod.fst)).mergeSort (Cell.notAfter o)
  keys.map fun k => (keyed.filter fun x => k.same x.1).map Prod.snd

/-- Each frame with the record of the one in front of it. -/
def linked (before : Option Record) : List Frame → List Frame
  | [] => []
  | f :: fs => { f with before } :: linked f.record fs

/-- The direction in which groups come. Records grouped by their numbers stay as they are. -/
def direction (p : Plan) : SortOrder :=
  if p.groupBy = some (.column .rowId) then .asc else (p.orderBy.map Prod.snd).getD .asc

/-- The frames of a plan, one for each record of the result, not yet in order. -/
def frames (p : Plan) (rs : List Record) : Except Fault (List Frame) :=
  match p.groupBy with
  | some key => do
    let keyed ← keyed (fun r => key.evaluate (.single r)) rs
    .ok ((groups p.direction keyed).map Frame.ofGroup)
  | none =>
    if p.items.any fun e => e.aggregate?.isSome then .ok [Frame.ofGroup rs]
    else
      match p.items.findSome? Expr.lagOrder? with
      | none => .ok (rs.map Frame.single)
      | some order => do
        let keyed ← keyed (fun r => order.evaluate (.single r)) rs
        .ok (linked none ((sorted .asc keyed).map fun x => Frame.single x.2))

/-- The frames in the order of the result. -/
def ordered (p : Plan) (fs : List Frame) : Except Fault (List Frame) :=
  match p.orderBy with
  | none => .ok fs
  | some (e, o) => do
    let keyed ← keyed (fun f => e.evaluate f) fs
    .ok ((sorted o keyed).map Prod.snd)

/-- The part of a result in front of the limit. -/
def limited {α : Type} (p : Plan) (xs : List α) : List α :=
  match p.limit with
  | some n => xs.take n
  | none => xs

def record (p : Plan) (f : Frame) : Except Fault (List Cell) := p.items.mapM (Expr.evaluate f)

/-- The result over the records of a table. -/
def run (p : Plan) (rs : List Record) : Except Fault (List (List Cell)) := do
  let kept ← p.selected rs
  let fs ← p.frames kept
  let fs ← p.ordered fs
  (p.limited fs).mapM p.record

end Plan

/-- The records of a table with their numbers. -/
def Table.numbered (t : Table) : List Record := t.records.mapIdx fun i cells => ⟨i + 1, cells⟩

/-- The result of a selection from a table as a table with a name. -/
def Table.select (t : Table) (numbered : Bool) (q : Select) (name : String) :
    Except Fault Table := do
  let p ← Scope.plan ⟨t.columns, [], numbered⟩ q
  let records ← p.run t.numbered
  .ok ⟨name, p.columns, records⟩

end TableTalk
