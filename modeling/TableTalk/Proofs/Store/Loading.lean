import TableTalk.Proofs.Outcome
import TableTalk.Store.Table
import Mathlib.Data.List.Pairwise
import Mathlib.Tactic.SplitIfs

/-!
# Which rows load

A store loads rows exactly if the name of the table and those of its columns can be written, no
table has the name yet and no two columns have the same name (`Store.fault?_eq_none`). It then has
the table of these rows behind those that were there (`Store.load_eq_ok`), so that a store that was
empty has nothing else (`Store.eq_of_load`).
-/

namespace TableTalk

theorem Text.sameAscii_refl (s : String) : sameAscii s s = true := by
  simp [sameAscii]

theorem Text.sameAscii_comm (s t : String) : sameAscii s t = sameAscii t s :=
  Bool.beq_comm

section Cells

/-- What a column of a type can hold of what comes from a document. A text in a column of numbers
spells none. -/
def Declared.Holds (type : Declared) : Cell → Prop
  | .null => True
  | .int _ => type ≠ .varchar
  | .real _ => type ≠ .varchar
  | .text s => type = .varchar ∨ Cell.numeric? s = none
  | .loose _ => False
  | .blob _ => False

def Cell.isNumber : Cell → Bool
  | int _ => true
  | real _ => true
  | _ => false

theorem Cell.isNumber_of_numeric? {s : String} {c : Cell} (h : numeric? s = some c) :
    c.isNumber = true := by
  obtain ⟨⟨negative, n⟩, -, rfl⟩ := Option.map_eq_some_iff.1 h
  generalize hk : (if negative then -(n.digits : Int) else n.digits) = k
  simp only [hk]
  split <;> rfl

theorem Cell.isNumber_toReal {c : Cell} (h : c.isNumber = true) : c.toReal.isNumber = true := by
  cases c <;> first | rfl | cases h

theorem Cell.isNumber_toWhole {c : Cell} (h : c.isNumber = true) : c.toWhole.isNumber = true := by
  cases c with
  | real x =>
    rw [toWhole, integral]
    split <;> rfl
  | int n => rfl
  | null | text | loose | blob => cases h

namespace Declared

variable {type : Declared}

theorem holds_number (h : type ≠ .varchar) {c : Cell} (hc : c.isNumber = true) : type.Holds c := by
  cases c with
  | int n => exact h
  | real x => exact h
  | null | text | loose | blob => cases hc

/-- A column of numbers keeps what a text spells. -/
theorem holds_spelled (h : type ≠ .varchar) {s : String} {f : Cell → Cell}
    (hf : ∀ c, c.isNumber = true → (f c).isNumber = true) :
    type.Holds (((Cell.numeric? s).map f).getD (.text s)) := by
  rcases hs : Cell.numeric? s with - | c
  · exact .inr hs
  · exact holds_number h (hf c (Cell.isNumber_of_numeric? hs))

theorem holds_store (type : Declared) (value : Option Json) :
    type.Holds (type.store (Cell.ofJson value)) := by
  have hcell : Cell.ofJson value = .null ∨ (∃ s, Cell.ofJson value = .text s) ∨
      (Cell.ofJson value).isNumber = true := by
    unfold Cell.ofJson
    split <;> first | exact .inl rfl | exact .inr (.inl ⟨_, rfl⟩) | exact .inr (.inr rfl) | skip
    right
    right
    split <;> rfl
  rcases hcell with h | ⟨s, h⟩ | h
  · rw [h]
    cases type <;> trivial
  · rw [h]
    cases type with
    | varchar => exact .inl rfl
    | double => exact holds_spelled (by decide) fun _ => Cell.isNumber_toReal
    | boolean | integer | unnamed => exact holds_spelled (by decide) fun _ => Cell.isNumber_toWhole
  · generalize Cell.ofJson value = c at h ⊢
    have hreal := Cell.isNumber_toReal h
    have hwhole := Cell.isNumber_toWhole h
    cases c with
    | null | text | loose | blob => cases h
    | int n =>
      cases type with
      | varchar => exact .inl rfl
      | double => exact holds_number (by decide) hreal
      | boolean | integer | unnamed => exact holds_number (by decide) hwhole
    | real x =>
      cases type with
      | varchar => exact .inl rfl
      | double => exact holds_number (by decide) hreal
      | boolean | integer | unnamed => exact holds_number (by decide) hwhole

end Declared

end Cells

namespace Store

variable {s : Store} {name : String} {rows : List Row}

/-- Columns that can be made beside those that are there already. -/
structure Makes (seen : List String) (cs : List Column) : Prop where
  clean : ∀ c ∈ cs, '\x00' ∉ c.name.toList
  size : seen.length + cs.length ≤ columnLimit
  apart : ∀ c ∈ cs, ∀ n ∈ seen, Text.sameAscii c.name n = false
  distinct : cs.Pairwise fun a b => Text.sameAscii b.name a.name = false

/-- Columns with the same name are one. -/
theorem Makes.name_eq {seen : List String} {cs : List Column} (h : Makes seen cs) {a b : Column}
    (ha : a ∈ cs) (hb : b ∈ cs) (hsame : Text.sameAscii a.name b.name = true) : a.name = b.name := by
  by_contra hne
  have hsymm : Std.Symm fun a b : Column => Text.sameAscii b.name a.name = false :=
    ⟨fun _ _ hab => (Text.sameAscii_comm _ _).trans hab⟩
  have hapart : Text.sameAscii b.name a.name = false :=
    h.distinct.forall ha hb fun he => hne (he ▸ rfl)
  rw [Text.sameAscii_comm, hsame] at hapart
  cases hapart

theorem columnFault?_eq_none (statement : String) : ∀ {cs : List Column} {seen : List String}
    (before : String), seen.length ≤ columnLimit →
    (columnFault? name statement before seen cs = none ↔ Makes seen cs)
  | [], seen, before, hseen => by
    refine iff_of_true rfl ⟨nofun, hseen, nofun, .nil⟩
  | c :: cs, seen, before, hseen => by
    rw [columnFault?, String.contains_char_eq]
    split_ifs with hclean hsize hapart
    · refine iff_of_false nofun fun h => ?_
      exact h.clean c List.mem_cons_self (of_decide_eq_true hclean)
    · refine iff_of_false nofun fun h => ?_
      have hlen := h.size
      rw [List.length_cons] at hlen
      omega
    · refine iff_of_false nofun fun h => ?_
      obtain ⟨n, hn, hsame⟩ := List.any_eq_true.1 hapart
      rw [h.apart c List.mem_cons_self n hn] at hsame
      cases hsame
    · have hsame : ∀ n ∈ seen, Text.sameAscii c.name n = false := by
        simpa using hapart
      rw [columnFault?_eq_none statement _ (by rw [List.length_cons]; omega)]
      constructor
      · intro h
        have hlen := h.size
        refine ⟨?_, ?_, ?_, ?_⟩
        · exact List.forall_mem_cons.2 ⟨fun h0 => hclean (decide_eq_true h0), h.clean⟩
        · simp only [List.length_cons] at hlen ⊢
          omega
        · exact List.forall_mem_cons.2
            ⟨hsame, fun d hd n hn => h.apart d hd n (List.mem_cons_of_mem _ hn)⟩
        · exact List.pairwise_cons.2 ⟨fun d hd => h.apart d hd _ List.mem_cons_self, h.distinct⟩
      · intro h
        have hlen := h.size
        obtain ⟨hfirst, hrest⟩ := List.pairwise_cons.1 h.distinct
        refine ⟨fun d hd => h.clean d (List.mem_cons_of_mem c hd), ?_, fun d hd n hn => ?_, hrest⟩
        · simp only [List.length_cons] at hlen ⊢
          omega
        · rcases List.mem_cons.1 hn with rfl | hn
          · exact hfirst d hd
          · exact h.apart d (List.mem_cons_of_mem c hd) n hn

/-- A table can be made if its name and those of its columns can be written, no table has its name
yet, and no two columns have the same name. -/
theorem fault?_eq_none {cs : List Column} : s.fault? name cs = none ↔
    Text.isBlank name = false ∧ '\x00' ∉ name.toList ∧ reserved name = false ∧
      s.table? name = none ∧ cs ≠ [] ∧ Makes [] cs := by
  have hmakes : columnFault? name (statement name cs) (creation name) [] cs = none ↔ Makes [] cs :=
    columnFault?_eq_none _ _ (Nat.zero_le _)
  rw [← hmakes]
  simp only [fault?, String.contains_char_eq]
  rcases s.table? name with - | t
  · split_ifs with hblank hclean hreserved hcolumns <;> simp_all
  · split_ifs with hblank hclean hreserved <;> simp_all

/-- A load that is not refused puts the table of the rows behind those that are there. -/
theorem load_eq_ok {s' : Store} : s.load name rows = .ok s' ↔
    s.fault? name (Table.columnsOf rows) = none ∧
      s' = { s with tables := s.tables ++ [Table.ofRows name rows] } := by
  unfold load
  split
  · rename_i h
    simp [h]
  · rename_i h
    simp [h, eq_comm]

/-- A table that was loaded is found under its name. -/
theorem table?_of_load {s' : Store} (h : s.load name rows = .ok s') :
    s'.table? name = some (Table.ofRows name rows) := by
  obtain ⟨hfault, rfl⟩ := load_eq_ok.1 h
  obtain ⟨-, -, -, hnone, -⟩ := fault?_eq_none.1 hfault
  rw [table?] at hnone
  rw [table?, List.find?_append, hnone, Option.none_or]
  exact List.find?_cons_of_pos (Text.sameAscii_refl name)

theorem map_unlike {records : List (List Cell)} {tables : List Table}
    (h : ∀ u ∈ tables, Text.sameAscii u.name name = false) :
    (tables.map fun u => if Text.sameAscii u.name name then
      { u with records := u.records ++ records } else u) = tables := by
  refine (List.map_congr_left fun u hu => ?_).trans (List.map_id tables)
  simp [h u hu]

/-- A load that is refused fails in its first step, which changes nothing. -/
theorem loading_of_error {e : StoreError} (h : s.load name rows = .error e) :
    s.loading name rows = (s, some e) := by
  rcases hfault : s.fault? name (Table.columnsOf rows) with - | f
  · rw [load_eq_ok.2 ⟨hfault, rfl⟩] at h
    cases h
  · simp only [load, hfault, Except.error.injEq] at h
    simp only [loading, create, hfault, h]

/-- The records of a load that is not refused find their table. -/
theorem loading_of_ok {s' : Store} (h : s.load name rows = .ok s') :
    s.loading name rows = (s', none) := by
  obtain ⟨hfault, rfl⟩ := load_eq_ok.1 h
  obtain ⟨-, -, -, hnone, -⟩ := fault?_eq_none.1 hfault
  have hunlike : ∀ u ∈ s.tables, Text.sameAscii u.name name = false := by
    simpa [table?] using hnone
  rcases rows with - | ⟨first, rest⟩
  · simp only [loading, create, hfault]
    rfl
  · -- no table had the name, so the records go to the one that was just made
    have hmade : ({ s with tables := s.tables ++ [⟨name, Table.columnsOf (first :: rest), []⟩] } :
        Store).table? name = some ⟨name, Table.columnsOf (first :: rest), []⟩ := by
      rw [table?] at hnone ⊢
      rw [List.find?_append, hnone, Option.none_or]
      exact List.find?_cons_of_pos (Text.sameAscii_refl name)
    simp only [loading, create, hfault, insert, hmade, if_true, List.map_append,
      map_unlike hunlike, List.map_cons, List.map_nil, Text.sameAscii_refl]
    rfl

theorem load_isOk_iff : (∃ s, Store.empty.load name rows = .ok s) ↔
    Text.isBlank name = false ∧ '\x00' ∉ name.toList ∧ reserved name = false ∧
      Table.columnsOf rows ≠ [] ∧ Makes [] (Table.columnsOf rows) := by
  have hnone : Store.empty.table? name = none := rfl
  simp only [load_eq_ok, exists_and_left, exists_eq, and_true, fault?_eq_none, hnone, true_and]

theorem eq_of_load (h : Store.empty.load name rows = .ok s) :
    s = { tables := [Table.ofRows name rows] } :=
  (load_eq_ok.1 h).2

end Store

end TableTalk
