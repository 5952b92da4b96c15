import TableTalk.Intent.Compile
import TableTalk.Proofs.Store.Execution

/-!
# A store over time

A store is given requests one after the other, to load rows or to run a statement. A load that is
refused leaves the store as it was, one that is not refused adds a table, and a statement changes no
table (`Store.tables_step`). So a statement gives what it would give if only the loads that were not
refused had been asked for (`Store.through_lasting`). Only the lists of what the store has opened
tell of earlier statements, since one that looks for tables that do not last opens their part
(`Store.through_lasting_opened`).
-/

namespace TableTalk

open Sql

/-- A statement that a store is given: one that selects all of a table, or that of an intent. -/
structure Statement where
  text : String
  asked : (∃ name, text = (Store.selectAll name).line) ∨
    ∃ (t : Target) (schema : Schema) (i : Intent),
      t.dialect = .directColumn ∧ i.compile t schema = .ok text

def Statement.all (name : String) : Statement := ⟨(Store.selectAll name).line, .inl ⟨name, rfl⟩⟩

inductive Request where
  | load (name : String) (rows : List Row)
  | run (q : Statement)

/-- The names of the tables that a query selects from. -/
def Sql.Query.sources (q : Query) : List String :=
  q.main.source.text :: q.common.toList.map fun c => c.2.source.text

theorem Text.sameAscii_append {a b c d : String} (h : sameAscii a b = true)
    (h' : sameAscii c d = true) : sameAscii (a ++ c) (b ++ d) = true := by
  simp only [sameAscii, beq_iff_eq, lowerAscii, String.ofList_inj] at h h' ⊢
  simp [h, h']

namespace Property

theorem name_of_parts : ∀ p ∈ all, p.topic = .parts → p.name = "database_list" := by
  simp [all, listed, number, value, ofLifetime, numberOfLifetime, none_]

/-- Only one table tells the parts of a store that are open. -/
theorem topic_of_ofTable? {name : String} {p : Property} (h : ofTable? name = some p)
    (hname : Text.sameAscii "pragma_database_list" name = false) : p.topic ≠ .parts := by
  intro htopic
  simp only [ofTable?] at h
  split at h
  · rename_i hstart
    have hp := name_of_parts p (List.mem_of_find?_eq_some h) htopic
    have hrest := List.find?_some h
    rw [hp] at hrest
    rw [Text.sameAscii_comm] at hstart
    have hwhole := Text.sameAscii_append hstart hrest
    rw [← String.ofList_append, List.take_append_drop, String.ofList_toList] at hwhole
    cases hname.symm.trans hwhole
  · cases h

end Property

namespace Store

variable {s : Store} {b : Bool}

section Opened

theorem tell_opened {word : Option String} {k : Option Lifetime} {topic : Property.Topic}
    (h : topic ≠ .parts) : ({ s with opened := b } : Store).tell word k topic =
      s.tell word k topic := by
  cases topic <;> first | exact absurd rfl h | rfl

theorem ownTable_opened {name : String}
    (h : Text.sameAscii "pragma_database_list" name = false) :
    ({ s with opened := b } : Store).ownTable name = s.ownTable name := by
  rcases hp : Property.ofTable? name with - | p
  · simp only [ownTable, hp]
    rfl
  · have htold : ({ s with opened := b } : Store).propertyTable p = s.propertyTable p := by
      simp only [propertyTable, tell_opened (Property.topic_of_ofTable? hp h)]
    simp only [ownTable, hp, htold]
    rfl

theorem select_opened {q : Select} {name : String} (h : (s.table? q.source.text).isSome = true ∨
    Text.sameAscii "pragma_database_list" q.source.text = false) :
    ({ s with opened := b } : Store).select q name = s.select q name := by
  have htable : ({ s with opened := b } : Store).table? q.source.text =
      s.table? q.source.text := rfl
  have hcatalog : ({ s with opened := b } : Store).catalog? q.source.text =
      s.catalog? q.source.text := rfl
  rw [select, select, htable, hcatalog]
  rcases ht : (s.table? q.source.text).or (s.catalog? q.source.text) with - | t
  · have hnone : (s.table? q.source.text).isSome = false := by
      rw [(Option.or_eq_none_iff.1 ht).1]
      rfl
    dsimp only
    rw [ownTable_opened (h.resolve_left (by simp [hnone]))]
  · rfl

theorem run_opened {q : Query} (h : ∀ n ∈ q.sources, (s.table? n).isSome = true ∨
    Text.sameAscii "pragma_database_list" n = false) :
    ({ s with opened := b } : Store).run q = s.run q := by
  have hmain := @select_opened s b q.main "" (h _ List.mem_cons_self)
  rcases hcommon : q.common with - | ⟨name, common⟩
  · simp only [run, hcommon, hmain]
  · have hselect := @select_opened s b common name (h _ (by simp [Sql.Query.sources, hcommon]))
    simp only [run, hcommon, hmain, hselect]

/-- The tables in which a store tells what it has opened for earlier statements. -/
def sessionTables : List String := ["pragma_database_list", "pragma_module_list"]

/-- Whether a statement does not ask what a store has opened for earlier ones. A table that was
loaded comes first under its name. -/
def Unaware (s : Store) (statement : String) : Prop :=
  ∀ q, Query.ofTokens .directColumn (Token.lex statement) = .ok q → ∀ n ∈ q.sources,
    (s.table? n).isSome = true ∨ ∀ m ∈ sessionTables, Text.sameAscii m n = false

/-- Stores with the same tables differ in what is open only. -/
theorem eq_of_tables {s' : Store} (h : s.tables = s'.tables) :
    s' = { s with opened := s'.opened } := by
  cases s
  cases s'
  cases h
  rfl

theorem execute_opened {statement : String} (h : s.Unaware statement) :
    ({ s with opened := b } : Store).execute statement = s.execute statement := by
  rcases hq : Query.ofTokens .directColumn (Token.lex statement) with e | q
  · simp only [execute, hq]
  · have hrun : ({ s with opened := b } : Store).run q = s.run q := run_opened fun n hn =>
      (h q hq n hn).imp_right fun hlists => hlists _ List.mem_cons_self
    simp only [execute, hq, hrun]

end Opened

section Steps

def step (s : Store) : Request → Store
  | .load name rows => (s.loading name rows).1
  | .run q => s.after q.text

/-- The tables that a request adds to a store. -/
def adds (s : Store) : Request → List Table
  | .load name rows => if (s.loading name rows).2 = none then [Table.ofRows name rows] else []
  | .run _ => []

def through (s : Store) (rs : List Request) : Store := rs.foldl step s

/-- The requests that add a table, those that are refused and the statements left out. -/
def lasting (s : Store) : List Request → List Request
  | [] => []
  | r :: rs =>
    if s.adds r = [] then lasting (s.step r) rs else r :: lasting (s.step r) rs

variable {name : String} {rows : List Row} {r : Request}

theorem loading_snd : (s.loading name rows).2 = none ↔
    s.fault? name (Table.columnsOf rows) = none := by
  rcases hload : s.load name rows with e | s'
  · refine iff_of_false ?_ fun hfault => ?_
    · rw [loading_of_error hload]
      exact Option.some_ne_none e
    · rw [load_eq_ok.2 ⟨hfault, rfl⟩] at hload
      cases hload
  · refine iff_of_true ?_ (load_eq_ok.1 hload).1
    rw [loading_of_ok hload]

theorem step_of_refused {e : StoreError} (h : (s.loading name rows).2 = some e) :
    s.step (.load name rows) = s := by
  rcases hload : s.load name rows with f | s'
  · rw [step, loading_of_error hload]
  · rw [loading_of_ok hload] at h
    cases h

theorem step_of_loaded (h : (s.loading name rows).2 = none) :
    s.step (.load name rows) = { s with tables := s.tables ++ [Table.ofRows name rows] } := by
  rw [step, loading_of_ok (load_eq_ok.2 ⟨loading_snd.1 h, rfl⟩)]

theorem tables_after (statement : String) : (s.after statement).tables = s.tables := by
  rw [after]
  split <;> rfl

theorem tables_step (s : Store) (r : Request) : (s.step r).tables = s.tables ++ s.adds r := by
  cases r with
  | load name rows =>
    rcases h : (s.loading name rows).2 with - | e
    · rw [step_of_loaded h, adds, if_pos h]
    · rw [step_of_refused h, adds, if_neg (by rw [h]; exact Option.some_ne_none e),
        List.append_nil]
  | run q => rw [step, tables_after, adds, List.append_nil]

theorem adds_congr {s' : Store} (h : s.tables = s'.tables) (r : Request) :
    s.adds r = s'.adds r := by
  cases r with
  | load name rows =>
    have hfault : s.fault? name (Table.columnsOf rows) = s'.fault? name (Table.columnsOf rows) := by
      rw [eq_of_tables h]
      rfl
    simp only [adds, loading_snd, hfault]
  | run q => rfl

/-- The requests that add tables add them without the others too. -/
theorem tables_through_lasting : ∀ (rs : List Request) {s s' : Store}, s.tables = s'.tables →
    (s.through rs).tables = (s'.through (s.lasting rs)).tables
  | [], _, _, h => h
  | r :: rs, s, s', h => by
    -- what is left out can have opened something, so that only the tables stay the same
    rw [lasting]
    split_ifs with hadds
    · refine tables_through_lasting rs ?_
      rw [tables_step, hadds, List.append_nil, h]
    · refine tables_through_lasting rs ?_
      rw [tables_step, tables_step, adds_congr h, h]

end Steps

/-- A load that is refused, for a reason that is found before it changes anything, leaves the store
as it was. One that is not refused adds its table behind the others, and a statement changes no
table. So a statement gives what it gives without the refused loads and the statements before it,
unless it asks what these have opened. -/
theorem through_lasting (s : Store) (rs : List Request) :
    (∀ name rows, ((s.through rs).loading name rows).2 = none ↔
      Text.isBlank name = false ∧ '\x00' ∉ name.toList ∧ reserved name = false ∧
        (s.through rs).table? name = none ∧ Table.columnsOf rows ≠ [] ∧
        Makes [] (Table.columnsOf rows)) ∧
    (∀ name rows e, ((s.through rs).loading name rows).2 = some e →
      (s.through rs).step (.load name rows) = s.through rs) ∧
    (∀ name rows, ((s.through rs).loading name rows).2 = none →
      (s.through rs).step (.load name rows) =
        { s.through rs with tables := (s.through rs).tables ++ [Table.ofRows name rows] }) ∧
    (∀ q, ((s.through rs).step (.run q)).tables = (s.through rs).tables) ∧
    (s.through rs).tables = (s.through (s.lasting rs)).tables ∧
    ∀ q : Statement, (s.through rs).Unaware q.text →
      (s.through rs).execute q.text = (s.through (s.lasting rs)).execute q.text := by
  have htables := tables_through_lasting rs (rfl : s.tables = s.tables)
  refine ⟨fun name rows => loading_snd.trans fault?_eq_none, fun name rows e h => step_of_refused h,
    fun name rows h => step_of_loaded h, fun q => tables_after q.text, htables, fun q hq => ?_⟩
  rw [eq_of_tables htables]
  exact (execute_opened hq).symm

/-- A statement that looks for tables that do not last shows in the list of what is open. -/
theorem through_lasting_opened :
    Store.empty.lasting [.run (.all "sqlite_temp_master")] = [] ∧
    (Store.empty.through [.run (.all "sqlite_temp_master")]).execute
        (Statement.all "pragma_database_list").text ≠
      (Store.empty.through []).execute (Statement.all "pragma_database_list").text := by
  refine ⟨rfl, fun h => ?_⟩
  have hlength := congrArg (fun x => x.toOption.map List.length) h
  revert hlength
  decide +kernel

end Store

end TableTalk
