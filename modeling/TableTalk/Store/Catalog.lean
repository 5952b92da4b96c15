import TableTalk.Store.PageTree
import TableTalk.Store.Table
/-!
# The catalog

A store describes its tables in a table of its own, the catalog, with a record for each of them in
the order in which they were made. A record has the statement that makes the table and the number of
the page of its root. Pages are taken in order. The first one is the root of the catalog; a new
table takes one for its root, the catalog takes what it needs for a record of a few bytes, which
holds its place, and then for the whole record, and at last the records of the table take theirs.
-/

namespace TableTalk

namespace Store

def catalogColumns : List Column :=
  [⟨"type", some .varchar⟩, ⟨"name", some .varchar⟩, ⟨"tbl_name", some .varchar⟩,
    ⟨"rootpage", some .integer⟩, ⟨"sql", some .varchar⟩]

/-- What the catalog says of a table. -/
def entry (t : Table) (page : Nat) : List Cell :=
  [.text "table", .text t.name, .text t.name, .int page, .text (statement t.name t.columns)]

/-- The pages of a store. -/
structure Layout where
  catalog : PageTree
  /-- Tables with their pages. -/
  tables : List (Table × PageTree)
  /-- The first page that is free. -/
  next : Nat

namespace Layout

def empty : Layout := ⟨.leaf 1 [], [], 2⟩

/-- Bytes of the record that holds the place of another. -/
def placeholder : Nat := 6

/-- The pages with those of one more table. -/
def make (l : Layout) (t : Table) : Layout :=
  let root := l.next
  let number := l.tables.length + 1
  let (catalog, next) := l.catalog.push number placeholder (root + 1)
  let (catalog, next) := catalog.replaceLast number (Page.record (entry t root)) next
  let (tree, next) := PageTree.ofRecords root t.records next
  ⟨catalog, l.tables ++ [(t, tree)], next⟩

/-- The number of pages. Without tables there is none, not even for the catalog. -/
def count (l : Layout) : Nat := if l.tables.isEmpty then 0 else l.next - 1

end Layout

def layout (s : Store) : Layout := s.tables.foldl Layout.make Layout.empty

/-- The records of the catalog. -/
def catalog (s : Store) : List (List Cell) :=
  s.layout.tables.map fun (t, tree) => entry t tree.page

/-- Whether a name is that of the catalog of the tables that do not last. -/
def passingCatalog (name : String) : Bool :=
  ["sqlite_temp_master", "sqlite_temp_schema"].any (Text.sameAscii name)

/-- A table that a store keeps on pages without being told to make it: its catalog, and that of the
tables that do not last, which are none. -/
def catalog? (s : Store) (name : String) : Option Table :=
  if ["sqlite_master", "sqlite_schema"].any (Text.sameAscii name) then
    some ⟨name, catalogColumns, s.catalog⟩
  else if passingCatalog name then some ⟨name, catalogColumns, []⟩
  else none

end Store

end TableTalk
