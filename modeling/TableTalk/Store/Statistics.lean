import TableTalk.Store.Catalog
import TableTalk.Store.OwnTable
/-!
# Statistics of pages

`dbstat` lists the pages of a store: those of the catalog and then those of each table, a page in
front of the pages below it, and a page of records in front of those that go on with one. A page is
named by the path that leads to it. It can be asked for one table only, and for the sums of each
table instead of its pages.
-/

namespace TableTalk

-- sums start at the zero of the core library, whatever else is imported
attribute [local instance (high)] Zero.ofOfNat0

/-- What is said of a page. -/
structure PageFigures where
  path : String
  page : Nat
  kind : String
  /-- The number of records or of references. -/
  items : Nat
  /-- Bytes of records. -/
  payload : Nat
  unused : Nat
  /-- Bytes of the longest record that starts here. -/
  longest : Nat
deriving Repr

namespace PageFigures

/-- A number in hexadecimal digits, so many at least. -/
def hexadecimal (width n : Nat) : String :=
  let digits := Nat.toDigits 16 n
  String.ofList (List.replicate (width - digits.length) '0' ++ digits)

/-- The pages that go on with a record of which some bytes are left. -/
def ofRest (path : String) (count left : Nat) : List Nat → List PageFigures
  | [] => []
  | p :: ps =>
    let payload := min left Page.further
    ⟨s!"{path}+{hexadecimal 6 count}", p, "overflow", 0, payload, Page.further - payload, 0⟩
      :: ofRest path (count + 1) (left - payload) ps

def ofEntry (path : String) (index : Nat) (e : Page.Entry) : List PageFigures :=
  ofRest (path ++ hexadecimal 3 index) 0 (e.bytes - Page.kept e.bytes) e.rest

def ofLeaf (path : String) (t : PageTree) (entries : List Page.Entry) : List PageFigures :=
  ⟨path, t.page, "leaf", entries.length, (entries.map fun e => Page.kept e.bytes).sum,
    t.room - t.used, (entries.map fun e => e.bytes).foldl max 0⟩
    :: (entries.reverse.mapIdx fun i e => ofEntry path i e).flatten

mutual

def ofTree (path : String) : PageTree → List PageFigures
  | .leaf p es => ofLeaf path (.leaf p es) es
  | .node p ts =>
    let t := PageTree.node p ts
    ⟨path, p, "internal", ts.length - 1, 0, t.room - t.used, 0⟩ :: ofChildren path ts

/-- The pages below a page, whose children are listed newest first. -/
def ofChildren (path : String) : List PageTree → List PageFigures
  | [] => []
  | t :: ts => ofChildren path ts ++ ofTree s!"{path}{hexadecimal 3 ts.length}/" t

end

/-- What is said of a page under the name of its table. -/
def record (name : String) (offset : Nat) (p : PageFigures) : Record :=
  ⟨p.page, [.text name, .text p.path, .int p.page, .text p.kind, .int p.items, .int p.payload,
    .int p.unused, .int p.longest, .int offset, .int Page.size, .text "main", .int 0]⟩

/-- What is said of the pages of a table behind a page. A page that goes on with a record is said to
be where the page in front of it is. -/
def records (name : String) (before : Nat) : List PageFigures → List Record
  | [] => []
  | p :: ps =>
    let at_ := if p.kind = "overflow" then before else p.page
    record name ((at_ - 1) * Page.size) p :: records name p.page ps

/-- What is said of all pages of a table together. -/
def total (name : String) (root : Nat) (ps : List PageFigures) : Record :=
  let sum (f : PageFigures → Nat) : Cell := .int ((ps.map f).sum : Nat)
  ⟨root, [.text name, .null, .int ps.length, .null, sum items, sum payload, sum unused,
    .int ((ps.map longest).foldl max 0 : Nat), .null, .int (ps.length * Page.size : Nat),
    .text "main", .int 1]⟩

end PageFigures

namespace Statistics

def columns : List Column :=
  [⟨"name", some .varchar⟩, ⟨"path", some .varchar⟩, ⟨"pageno", some .integer⟩,
    ⟨"pagetype", some .varchar⟩, ⟨"ncell", some .integer⟩, ⟨"payload", some .integer⟩,
    ⟨"unused", some .integer⟩, ⟨"mx_payload", some .integer⟩, ⟨"pgoffset", some .integer⟩,
    ⟨"pgsize", some .integer⟩]

def hidden : List Column := [⟨"schema", some .varchar⟩, ⟨"aggregate", some .boolean⟩]

/-- The trees of a store with the names of their tables. -/
def trees (s : Store) : List (String × PageTree) :=
  let l := s.layout
  if l.tables.isEmpty then []
  else ("sqlite_schema", l.catalog) :: l.tables.map fun (t, tree) => (t.name, tree)

/-- The figures of the tables that are asked for. -/
def records (s : Store) (asked : Nat → Option Cell) : List Record :=
  let named (name : String) : Bool := (asked 0).all fun c => c.shown = name
  let here := (asked 10).all fun c => Text.sameAscii c.shown "main"
  let summed := (asked 11).any fun c => ((c.operand).getD .null).float != 0
  if !here then []
  else ((trees s).filter fun t => named t.1).flatMap fun (name, tree) =>
    let pages := PageFigures.ofTree "/" tree
    if summed then [PageFigures.total name tree.page pages]
    else PageFigures.records name tree.page pages

/-- The table of the statistics. Those of tables that do not last are looked for, in vain. -/
def table (s : Store) : OwnTable :=
  ⟨columns, hidden, fun asked => asked.filter fun i => i = 0 ∨ i = 10,
    fun asked _ => .ok (records s asked),
    fun asked => (asked 10).any fun c => Text.sameAscii c.shown "temp"⟩

end Statistics

end TableTalk
