import TableTalk.Store.Page
/-!
# Trees of pages

The records of a table lie on the leaves of a tree of pages in the order of their numbers. A table
starts as one leaf, the root, and keeps the page of its root for good: when the root is full its
content moves to a new page below it. Records come in at the end, so only the last leaf grows. A
leaf that has become too full passes its newest record on to a new leaf. Otherwise, and always
right below the first page, the last siblings, three at most, are spread over as many pages as they
need (`PageTree.spread`): pages are filled from the left (`fill`), and then items move to the right
as long as this makes neighbours more even (`even`).

Entries and children are listed newest first. New pages are numbered in the order in which they are
taken; every function on trees is given the first free one and returns the next.
-/

namespace TableTalk

-- sums start at the zero of the core library, whatever else is imported
attribute [local instance (high)] Zero.ofOfNat0

open Page (Entry)

inductive PageTree where
  | leaf (page : Nat) (entries : List Entry)
  | node (page : Nat) (children : List PageTree)

namespace Page

/-- Fills pages with items of some sizes, from the left. Each page is given by the number of items
in front of its end and its bytes. If `lifted`, an item that ends a page belongs to none. -/
def fill (room : Nat) (lifted : Bool) (count used : Nat) : List Nat → List (Nat × Nat)
  | [] => [(count, used)]
  | s :: rest =>
    if used + s ≤ room then fill room lifted (count + 1) (used + s) rest
    else (count, used) :: fill room lifted (count + 1) (if lifted then 0 else s) rest

/-- Moves items over the end of a page to the page on its right, of `left` and `right` bytes, as
long as the right one does not become the larger. -/
def shift (size : Nat → Nat) (lifted last : Bool) : (count left right : Nat) → Nat × Nat × Nat
  | 0, left, right => (0, left, right)
  | n + 1, left, right =>
    let moved := size (if lifted then n + 1 else n)
    if right ≠ 0 ∧ left + (if last then 2 else 0) < right + moved + size n then (n + 1, left, right)
    else shift size lifted last n (left - size n) (right + moved)

/-- Evens out neighbours, from the right. -/
def even (size : Nat → Nat) (lifted : Bool) : List (Nat × Nat) → List (Nat × Nat)
  | [] => []
  | (count, left) :: rest =>
    match even size lifted rest with
    | [] => [(count, left)]
    | (end_, right) :: more =>
      let (count, left, right) := shift size lifted more.isEmpty count left right
      (count, left) :: (end_, right) :: more

/-- Cuts items at the ends of their pages, `start` of them being gone. The rest is on the last. -/
def cut {α : Type} (start : Nat) (items : List α) : List Nat → List (List α)
  | [] => []
  | [_] => [items]
  | n :: ends => items.take (n - start) :: cut n (items.drop (n - start)) ends

/-- Items on pages with some room. -/
def arrange {α : Type} (room : Nat) (lifted : Bool) (sizes : List Nat) (items : List α) :
    List (List α) :=
  let array := sizes.toArray
  let pages := even (fun i => array.getD i 0) lifted (fill room lifted 0 0 sizes)
  cut 0 items (pages.map fun p => if lifted then p.1 + 1 else p.1)

end Page

namespace PageTree

def page : PageTree → Nat
  | leaf p _ => p
  | node p _ => p

def isLeaf : PageTree → Bool
  | leaf .. => true
  | node .. => false

def entries : PageTree → List Entry
  | leaf _ es => es
  | node .. => []

def children : PageTree → List PageTree
  | leaf .. => []
  | node _ ts => ts

/-- The number of the last record. -/
def last : PageTree → Nat
  | leaf _ es => (es.head?.map Entry.number).getD 0
  | node _ [] => 0
  | node _ (t :: _) => t.last

/-- Bytes that name a child and its last record. -/
def reference (t : PageTree) : Nat := 6 + Page.varying t.last

/-- Bytes that a page needs. The last child is named in front of the others. -/
def used : PageTree → Nat
  | leaf _ es => (es.map Entry.size).sum
  | node _ ts => ((ts.drop 1).map reference).sum

/-- Bytes that a page has. -/
def room (t : PageTree) : Nat := Page.size - Page.head t.page t.isLeaf

def overfull (t : PageTree) : Bool := t.room < t.used

/-- The numbers of pages in order, with as many new ones as are needed. -/
def numbered (own : List Nat) (count next : Nat) : List Nat :=
  own.mergeSort ++ List.range' next (count - own.length)

/-- Siblings spread over the pages that they need. -/
def spread (siblings : List PageTree) (next : Nat) : List PageTree × Nat :=
  let own := siblings.map page
  let made {α : Type} (make : Nat → List α → PageTree) (parts : List (List α)) :
      List PageTree × Nat :=
    ((List.zipWith (fun p part => make p part.reverse)
      (numbered own parts.length next) parts).reverse, next + (parts.length - own.length))
  let old := siblings.reverse
  if siblings.all isLeaf then
    let es := old.flatMap fun t => t.entries.reverse
    made leaf (Page.arrange (Page.size - Page.head 0 true) false (es.map Entry.size) es)
  else
    let ts := old.flatMap fun t => t.children.reverse
    made node (Page.arrange (Page.size - Page.head 0 false) true (ts.dropLast.map reference) ts)

/-- A page with children, the last of which may be too full. -/
def settle (page : Nat) (t : PageTree) (before : List PageTree) (next : Nat) : PageTree × Nat :=
  if !t.overfull then (node page (t :: before), next)
  else match t, decide (page = 1) with
    | leaf p (e :: es), false => (node page (leaf next [e] :: leaf p es :: before), next + 1)
    | t, _ =>
      let (siblings, next) := spread ((t :: before).take 3) next
      (node page (siblings ++ (t :: before).drop 3), next)

/-- Changes the last leaf. The root may be too full then. -/
def change (f : List Entry → List Entry) : PageTree → Nat → PageTree × Nat
  | leaf p es, next => (leaf p (f es), next)
  | node p [], next => (node p [], next)
  | node p (t :: ts), next =>
    let (t, next) := t.change f next
    settle p t ts next

/-- A root whose content moves down if it is too full. -/
def deepened (t : PageTree) (next : Nat) : PageTree × Nat :=
  if !t.overfull then (t, next)
  else match t with
    | leaf p es => settle p (leaf next es) [] (next + 1)
    | node p ts => settle p (node next ts) [] (next + 1)

/-- Puts a record in at the end. -/
def push (t : PageTree) (number bytes next : Nat) : PageTree × Nat :=
  let (e, next) := Entry.place number bytes next
  let (t, next) := t.change (e :: ·) next
  t.deepened next

/-- Puts a record in place of the last one. -/
def replaceLast (t : PageTree) (number bytes next : Nat) : PageTree × Nat :=
  let (e, next) := Entry.place number bytes next
  let (t, next) := t.change (fun es => e :: es.drop 1) next
  t.deepened next

/-- The tree of some records, numbered from one. -/
def ofRecords (page : Nat) (records : List (List Cell)) (next : Nat) : PageTree × Nat :=
  let (t, next, _) := records.foldl (fun (t, next, number) cells =>
    let (t, next) := push t number (Page.record cells) next
    (t, next, number + 1)) (leaf page [], next, 1)
  (t, next)

end PageTree

end TableTalk
