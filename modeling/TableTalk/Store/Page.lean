import TableTalk.Store.Cell
/-!
# Pages

A store keeps its records on pages of one size. A record is its number, the number of its bytes and
the bytes; the bytes name the kind of each cell and then give the cells. A record that is too long
leaves a part behind on the page and goes on over pages of its own (`Page.kept`).
-/

namespace TableTalk.Page

-- powers and sums are those of the core library, whatever else is imported
attribute [local instance (high)] instPowNat Zero.ofOfNat0

/-- Bytes of a page. -/
def size : Nat := 4096

/-- Bytes of a number that is written seven bits at a time. -/
def varying (n : Nat) : Nat := if n = 0 then 1 else min 9 (n.log2 / 7 + 1)

/-- Bytes of a whole number; zero and one take none. -/
def whole (n : Int) : Nat :=
  let magnitude := if 0 ≤ n then n.toNat else (-n - 1).toNat
  if n = 0 ∨ n = 1 then 0
  else if magnitude < 2 ^ (7 : Nat) then 1
  else if magnitude < 2 ^ (15 : Nat) then 2
  else if magnitude < 2 ^ (23 : Nat) then 3
  else if magnitude < 2 ^ (31 : Nat) then 4
  else if magnitude < 2 ^ (47 : Nat) then 6
  else 8

/-- Bytes of a cell, and those of its kind, which stands in front of the record. -/
def cell (c : Cell) : Nat × Nat :=
  let text (size : Nat) : Nat × Nat := (size, varying (13 + 2 * size))
  match c with
  | .null => (0, 1)
  | .int n => (whole n, 1)
  | .real x => (((Cell.whole? x).map whole).getD 8, 1)
  | .blob bytes => text bytes.length
  | c => text c.shown.utf8ByteSize

/-- Bytes of a record. -/
def record (cells : List Cell) : Nat :=
  let sizes := cells.map cell
  let kinds := (sizes.map Prod.snd).sum
  let own := varying kinds
  let own := if varying (kinds + own) = own then own else own + 1
  kinds + own + (sizes.map Prod.fst).sum

/-- The longest record that a page holds whole. -/
def longest : Nat := size - 35

/-- Bytes of a page that goes on with a record; the others name the page that follows. -/
def further : Nat := size - 4

/-- Bytes of a record that stay with other records. -/
def kept (bytes : Nat) : Nat :=
  if bytes ≤ longest then bytes
  else
    let least := (size - 12) * 32 / 255 - 23
    let start := least + (bytes - least) % further
    if start ≤ longest then start else least

/-- The number of pages that go on with a record. -/
def more (bytes : Nat) : Nat := (bytes - kept bytes + further - 1) / further

/-- A record as it lies on pages. -/
structure Entry where
  number : Nat
  /-- Bytes of the record. -/
  bytes : Nat
  /-- The pages that go on with it. -/
  rest : List Nat
deriving DecidableEq, Repr

/-- Bytes that an entry takes on its page, with those that tell its place there. -/
def Entry.size (e : Entry) : Nat :=
  varying e.bytes + varying e.number + kept e.bytes + (if e.rest.isEmpty then 0 else 4) + 2

/-- A record put on pages, the first one free being `next`; and the one that is then. -/
def Entry.place (number bytes next : Nat) : Entry × Nat :=
  (⟨number, bytes, List.range' next (more bytes)⟩, next + more bytes)

/-- Bytes in front of what a page holds. The first page starts with what is said of the store. -/
def head (page : Nat) (leaf : Bool) : Nat :=
  (if page = 1 then 100 else 0) + (if leaf then 8 else 12)

end TableTalk.Page
