import TableTalk.Store.Listing
import TableTalk.Store.Statistics
import TableTalk.Store.Words
/-!
# Properties of a store

A store tells its properties in tables whose names start with `pragma_` (`Property.all`). Most of
them have one record with one value. Others describe tables: the columns of one, or all tables in
the order in which they are kept (`Store.keptOrder`). Hidden columns can ask for a word, such as the
name of a table, and for tables that are kept for good or not (`Lifetime`). `Store.ownTable` finds
every table that a store answers itself.
-/

namespace TableTalk

-- powers are those of the core library, whatever else is imported
attribute [local instance (high)] instPowNat

/-- The tables that are kept for good, and those that are not; there are none of these. -/
inductive Lifetime where
  | lasting
  | passing
deriving DecidableEq, Repr

namespace Lifetime

def name : Lifetime → String
  | lasting => "main"
  | passing => "temp"

/-- The kind that is asked for by its name. -/
def ofAsked : Option Cell → Except Fault (Option Lifetime)
  | none => .ok none
  | some c =>
    match [lasting, passing].find? fun k => Text.sameAscii k.name c.shown with
    | some k => .ok (some k)
    | none => .error (.noLifetime c.shown)

end Lifetime

/-- What a property tells. -/
inductive Property.Topic where
  | fixed (records : List (List Cell))
  /-- A value for either lifetime. -/
  | ofLifetime (lasting passing : Cell)
  | lockingMode
  | pageCount
  /-- How often a table was made. -/
  | version
  /-- The parts of the store that are open, one for each lifetime. -/
  | parts
  /-- All tables. -/
  | tables
  /-- The columns of a table. -/
  | columns (withHidden : Bool)
  /-- Whether all is well with a table. -/
  | integrity
  /-- The indexes of a table; there are none. -/
  | indexes
  /-- The columns of an index, which could have the name of a table. -/
  | index
  /-- The references of a table that lead nowhere; there are none. -/
  | references

/-- Whether telling of a topic opens the part of a store for tables that do not last. All parts are
looked at to see whether all is well, unless one is named, and so is the part that a table is in to
see its indexes. -/
def Property.Topic.opens (word : Option String) (k : Option Lifetime) : Topic → Bool
  | integrity => k != some .lasting
  | indexes => k == some .passing || k.isNone && word.any Store.passingCatalog
  | _ => k == some .passing

structure Property where
  name : String
  columns : List String
  /-- Whether it can be asked for a word. -/
  byWord : Bool
  byLifetime : Bool
  topic : Property.Topic

namespace Property

def value (name : String) (c : Cell) : Property := ⟨name, [name], false, false, .fixed [[c]]⟩

def number (name : String) (n : Int) : Property := value name (.int n)

def ofLifetime (name : String) (lasting passing : Cell) : Property :=
  ⟨name, [name], false, true, .ofLifetime lasting passing⟩

def numberOfLifetime (name : String) (n : Int) : Property := ofLifetime name (.int n) (.int n)

/-- A property of tables that has no records. -/
def none_ (name : String) (columns : List String) : Property :=
  ⟨name, columns, true, true, .fixed []⟩

def info : List String := ["cid", "name", "type", "notnull", "dflt_value", "pk"]

/-- All properties but their list. -/
def listed : List Property :=
  [number "analysis_limit" 0, number "application_id" 0, numberOfLifetime "auto_vacuum" 0,
    number "automatic_index" 1, { number "busy_timeout" 5000 with columns := ["timeout"] },
    ofLifetime "cache_size" (.int (-2000)) (.int 0), numberOfLifetime "cache_spill" 483,
    number "cell_size_check" 0, number "checkpoint_fullfsync" 0,
    ⟨"collation_list", ["seq", "name"], false, false, .fixed [[.int 0, .text "RTRIM"],
      [.int 1, .text "NOCASE"], [.int 2, .text "BINARY"]]⟩,
    number "count_changes" 0, number "data_version" 1,
    ⟨"database_list", ["seq", "name", "file"], false, false, .parts⟩,
    { numberOfLifetime "default_cache_size" (-2000) with columns := ["cache_size"] },
    number "defer_foreign_keys" 0, number "empty_result_callbacks" 0,
    value "encoding" (.text "UTF-8"),
    ⟨"foreign_key_check", ["table", "rowid", "parent", "fkid"], true, true, .references⟩,
    none_ "foreign_key_list"
      ["id", "seq", "table", "from", "to", "on_update", "on_delete", "match"],
    number "foreign_keys" 1, number "freelist_count" 0, number "full_column_names" 0,
    number "fullfsync" 0, number "hard_heap_limit" 0, number "ignore_check_constraints" 0,
    ⟨"index_info", ["seqno", "cid", "name"], true, true, .index⟩,
    ⟨"index_list", ["seq", "name", "unique", "origin", "partial"], true, true, .indexes⟩,
    ⟨"index_xinfo", ["seqno", "cid", "name", "desc", "coll", "key"], true, true, .index⟩,
    ⟨"integrity_check", ["integrity_check"], true, true, .integrity⟩,
    ofLifetime "journal_mode" (.text "memory") (.text "delete"),
    numberOfLifetime "journal_size_limit" (-1), number "legacy_alter_table" 0,
    ⟨"locking_mode", ["locking_mode"], false, true, .lockingMode⟩,
    numberOfLifetime "max_page_count" 4294967294,
    ⟨"optimize", ["optimize"], true, false, .fixed []⟩,
    ⟨"page_count", ["page_count"], false, true, .pageCount⟩, numberOfLifetime "page_size" 4096,
    number "query_only" 0, ⟨"quick_check", ["quick_check"], true, true, .integrity⟩,
    number "read_uncommitted" 0, number "recursive_triggers" 0,
    number "reverse_unordered_selects" 0,
    ⟨"schema_version", ["schema_version"], false, false, .version⟩, number "secure_delete" 0,
    number "short_column_names" 1, number "soft_heap_limit" 0,
    ofLifetime "synchronous" (.int 2) (.int 0),
    ⟨"table_info", info, true, true, .columns false⟩,
    ⟨"table_list", ["schema", "name", "type", "ncol", "wr", "strict"], true, false, .tables⟩,
    ⟨"table_xinfo", info ++ ["hidden"], true, true, .columns true⟩,
    number "temp_store" 0, number "threads" 0, number "trusted_schema" 1,
    number "user_version" 0, number "writable_schema" 0]

/-- Names that can be told to a store but are no tables, and those of tables that are not kept. -/
def others : List String :=
  ["case_sensitive_like", "compile_options", "function_list", "incremental_vacuum", "mmap_size",
    "module_list", "pragma_list", "shrink_memory", "temp_store_directory", "wal_autocheckpoint",
    "wal_checkpoint"]

/-- The names of all properties, in order. -/
def names : List String := (listed.map Property.name ++ others).mergeSort

def all : List Property :=
  ⟨"pragma_list", ["name"], false, false, .fixed (names.map fun n => [.text n])⟩ :: listed

def hidden (p : Property) : List Column :=
  ((if p.byWord then ["arg"] else []) ++ if p.byLifetime then ["schema"] else []).map
    fun n => ⟨n, some .unnamed⟩

def start : String := "pragma_"

/-- The property that a table stands for. -/
def ofTable? (table : String) : Option Property :=
  let cs := table.toList
  if Text.sameAscii (String.ofList (cs.take start.length)) start then
    all.find? fun p => Text.sameAscii p.name (String.ofList (cs.drop start.length))
  else none

end Property

/-- A column as a store describes it. -/
structure Description where
  name : String
  /-- The type as it is written. -/
  type : String
  isHidden : Bool
deriving DecidableEq, Repr

namespace Description

def ofLoaded (c : Column) : Description := ⟨c.name, (c.type.map Declared.name).getD "", false⟩

/-- A column of a table that the store makes itself, where texts have a type of their own. -/
def ofOwn (isHidden : Bool) (c : Column) : Description :=
  { ofLoaded c with
    isHidden
    type := if c.type = some .varchar then "TEXT" else (ofLoaded c).type }

def ofTable (columns hidden : List Column) : List Description :=
  columns.map (ofOwn false) ++ hidden.map (ofOwn true)

/-- The columns of a catalog. -/
def ofCatalog : List Description :=
  Store.catalogColumns.map fun c =>
    { ofOwn false c with type := if c.type = some .integer then "INT" else "TEXT" }

def cells (withHidden : Bool) (index : Nat) (d : Description) : List Cell :=
  [.int index, .text d.name, .text d.type, .int 0, .null, .int 0]
    ++ if withHidden then [.int (if d.isHidden then 1 else 0)] else []

end Description

namespace Store

/-- A table that can never be used. -/
def unusableTable : String := "fts4aux"

/-- The columns of a table of a lifetime, if there is one. Tables of the store's own are found for
both lifetimes. -/
def describe (s : Store) (k : Option Lifetime) (name : String) :
    Except Fault (Option (List Description)) :=
  let isOne (names : List String) : Bool := names.any (Text.sameAscii name)
  match if k = some .passing then none else s.table? name with
  | some t => .ok (some (t.columns.map Description.ofLoaded))
  | none =>
    if isOne ["sqlite_master", "sqlite_schema"]
        || (isOne ["sqlite_temp_master", "sqlite_temp_schema"] && k != some .lasting) then
      .ok (some Description.ofCatalog)
    else if isOne ["json_each", "json_tree"] then
      .ok (some (Description.ofTable Listing.columns Listing.hidden))
    else if isOne ["dbstat"] then
      .ok (some (Description.ofTable Statistics.columns Statistics.hidden))
    else if isOne ["fts3tokenize"] then .ok (some (Description.ofTable Words.columns []))
    else if isOne [unusableTable] then .error (.unusable unusableTable)
    else .ok ((Property.ofTable? name).map fun p =>
      Description.ofTable (p.columns.map fun c => ⟨c, none⟩) p.hidden)

/-- A number that a word starts with, within 32 bits. -/
def startsWithNumber (word : String) : Bool :=
  let (negative, cs) := Decimal.takeSign word.toList
  let ds := cs.takeWhile Char.isDigit
  !ds.isEmpty && Decimal.digitsValue ds < 2 ^ (31 : Nat) + (if negative then 1 else 0)

/-- Fails if a word is not the name of a table. -/
def require (s : Store) (k : Option Lifetime) (word : String) : Except Fault Unit := do
  match ← s.describe k word with
  | some _ => .ok ()
  | none => .error (.noTable ((k.map fun k => k.name ++ ".").getD "" ++ word))

/-- A number of 32 bits that scatters names without regard to the case of ASCII letters. -/
def scatter (name : String) : Nat :=
  name.toUTF8.data.foldl (fun h b =>
    let b := if 65 ≤ b ∧ b ≤ 90 then b + 32 else b
    (h + b.toNat) * 0x9E3779B1 % 2 ^ (32 : Nat)) 0

/-- Puts a name in front of those of its class, or of all if there are none. -/
def putKept (classes : Nat) (name : String) (names : List String) : List String :=
  let same (n : String) : Bool := classes != 0 && scatter n % classes == scatter name % classes
  if names.any same then names.takeWhile (!same ·) ++ name :: names.dropWhile (!same ·)
  else name :: names

/-- The names of tables, given in the order in which they were made, in the order in which they are
kept: classes stand together, the newest first, and are made anew when there are ten names, and once
more beyond forty. -/
def keptOrder (names : List String) : List String :=
  (names.foldl (fun (classes, count, kept) name =>
    let count := count + 1
    let wanted := if 10 ≤ count ∧ 2 * classes < count then min (2 * count) 64 else classes
    let kept := if wanted = classes then kept
      else kept.foldl (fun acc n => putKept wanted n acc) []
    (wanted, count, putKept wanted name kept)) ((0, 0, []) : Nat × Nat × List String)).2.2

/-- What is said of all tables. -/
def tableRecords (s : Store) (word : Option String) : List (List Cell) :=
  let row (k : Lifetime) (name : String) (columns : Nat) : List Cell :=
    [.text k.name, .text name, .text "table", .int columns, .int 0, .int 0]
  let wanted (name : String) : Bool := word.all (Text.sameAscii name)
  let lasting := (keptOrder ("sqlite_master" :: s.tables.map Table.name)).filter wanted
  lasting.map (fun name =>
      match s.table? name with
      | some t => row .lasting t.name t.columns.length
      | none => row .lasting "sqlite_schema" catalogColumns.length)
    ++ if wanted "sqlite_temp_master" then
        [row .passing "sqlite_temp_schema" catalogColumns.length] else []

/-- What a store tells about a topic. -/
def tell (s : Store) (word : Option String) (k : Option Lifetime) :
    Property.Topic → Except Fault (List (List Cell))
  | .fixed records => .ok records
  | .ofLifetime lasting passing => .ok [[if k = some .passing then passing else lasting]]
  | .lockingMode => .ok [[.text (if k.isSome then "exclusive" else "normal")]]
  | .pageCount => .ok [[.int (if k = some .passing then 0 else s.layout.count)]]
  | .version => .ok [[.int s.tables.length]]
  | .parts => .ok ((.lasting :: if s.opened then [.passing] else []).mapIdx
      fun i (k : Lifetime) => [.int i, .text k.name, .text ""])
  | .tables => .ok (s.tableRecords word)
  | .columns withHidden => do
    match word with
    | none => .ok []
    | some name =>
      let ds := ((← s.describe k name).getD []).filter fun d => withHidden || !d.isHidden
      .ok (ds.mapIdx fun i d => d.cells withHidden i)
  | .integrity => do
    if let some name := word then
      unless startsWithNumber name do s.require k name
    .ok [[.text "ok"]]
  | .indexes => .ok []
  | .index => do
    if let some name := word then
      let _ ← s.describe k name
    .ok []
  | .references => do
    if let some name := word then s.require k name
    .ok []

/-- The table of a property. What it is asked for second counts only together with the first. -/
def propertyTable (s : Store) (p : Property) : OwnTable :=
  let n := p.columns.length
  let columns := p.columns.map fun c => ⟨c, none⟩
  let word (asked : Nat → Option Cell) : Option String :=
    if p.byWord then (asked n).map Cell.shown else none
  let kind (asked : Nat → Option Cell) : Option Cell :=
    if p.byWord then (asked n).bind fun _ => asked (n + 1) else asked n
  ⟨columns, p.hidden,
    fun asked => if n ∈ asked then asked.filter fun i => n ≤ i && i < n + p.hidden.length else [],
    fun asked _ => do
      let records ← s.tell (word asked) (← Lifetime.ofAsked (kind asked)) p.topic
      let told := if p.byWord then [.ofText? (word asked), .ofText? ((kind asked).map Cell.shown)]
        else [.null]
      .ok (records.mapIdx fun i cells => ⟨i + 1, cells ++ told.take p.hidden.length⟩),
    fun asked =>
      match Lifetime.ofAsked (kind asked) with
      | .ok k => p.topic.opens (word asked) k
      | .error _ => false⟩

/-- A table that a store answers itself. -/
def ownTable (s : Store) (name : String) : Except Fault OwnTable :=
  let isOne : String → Bool := Text.sameAscii name
  if isOne "json_each" then .ok (Listing.table false)
  else if isOne "json_tree" then .ok (Listing.table true)
  else if isOne "dbstat" then .ok (Statistics.table s)
  else if isOne "fts3tokenize" then .ok Words.table
  else if isOne unusableTable then .error (.unusable unusableTable)
  else match Property.ofTable? name with
    | some p => .ok (s.propertyTable p)
    | none => .error (.noTable name)

end Store

end TableTalk
