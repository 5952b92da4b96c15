import Mathlib.Data.List.Nodup
import Mathlib.Tactic.SplitIfs
import TableTalk.Table.Profile

/-!
# Rows and their columns

A row of members with names of their own has these members as cells (`Row.cells_ofMembers`). The
columns of a profile are the keys of the rows (`Profile.contains_ofRows`). A row can be given other
keys; as long as no two of them fall together, its cells are found under the new ones
(`Row.get?_rename`).
-/

namespace TableTalk

section Members

variable {α : Type}

theorem lookup_cons_eq (c n : String) (a : α) (names : List (String × α)) :
    ((n, a) :: names).lookup c = if c = n then some a else names.lookup c := by
  rw [List.lookup_cons]
  by_cases h : c = n
  · simp [h]
  · simp [h, beq_eq_false_iff_ne.2 h]

theorem lookup_of_mem {n : String} {a : α} : ∀ {names : List (String × α)},
    (names.map Prod.fst).Nodup → (n, a) ∈ names → names.lookup n = some a
  | (m, b) :: names, hnodup, hmem => by
    obtain ⟨hm, hrest⟩ := List.nodup_cons.1 hnodup
    rw [List.lookup_cons]
    rcases List.mem_cons.1 hmem with he | hlater
    · cases he
      simp
    · have hne : (n == m) = false := by
        rw [beq_eq_false_iff_ne]
        rintro rfl
        exact hm (List.mem_map.2 ⟨_, hlater, rfl⟩)
      rw [hne]
      exact lookup_of_mem hrest hlater

theorem lookup_setMember (name key : String) (value : α) :
    ∀ ms : List (String × α),
      (setMember name value ms).lookup key = if key = name then some value else ms.lookup key
  | [] => by
    by_cases h : key = name
    · simp [setMember, h]
    · simp [setMember, List.lookup_cons, beq_eq_false_iff_ne.2 h, h]
  | (n, v) :: ms => by
    have ih := lookup_setMember name key value ms
    by_cases hn : n = name <;> by_cases h : key = n
    · simp [setMember, hn, h]
    · simp [setMember, List.lookup_cons, beq_eq_false_iff_ne.2 h, ← hn, h]
    · simp [setMember, hn, h]
    · simp [setMember, List.lookup_cons, beq_eq_false_iff_ne.2 h, hn, ih]

theorem setMember_of_notMem {name : String} (value : α) : ∀ {ms : List (String × α)},
    name ∉ ms.map Prod.fst → setMember name value ms = ms ++ [(name, value)]
  | [], _ => rfl
  | (n, v) :: ms, h => by
    rw [List.map_cons, List.mem_cons, not_or] at h
    rw [setMember, if_neg fun e => h.1 e.symm, setMember_of_notMem value h.2, List.cons_append]

theorem foldl_setMember : ∀ (ms : List (String × α)) {acc : List (String × α)},
    (acc.map Prod.fst ++ ms.map Prod.fst).Nodup →
      ms.foldl (fun acc m => setMember m.1 m.2 acc) acc = acc ++ ms
  | [], acc, _ => (List.append_nil _).symm
  | m :: ms, acc, h => by
    have hnew : m.1 ∉ acc.map Prod.fst := fun hm =>
      (List.nodup_append.1 h).2.2 _ hm _ List.mem_cons_self rfl
    have hset : setMember m.1 m.2 acc = acc ++ [m] := setMember_of_notMem m.2 hnew
    have hnodup : ((setMember m.1 m.2 acc).map Prod.fst ++ ms.map Prod.fst).Nodup := by
      rw [hset, List.map_append, List.append_assoc]
      exact h
    rw [List.foldl_cons, foldl_setMember ms hnodup, hset, List.append_assoc]
    rfl

end Members

namespace Row

theorem mem_keys_of_get? {row : Row} {column : String} {v : Json}
    (h : row.get? column = some v) : column ∈ row.keys := by
  obtain ⟨before, after, hcells, -⟩ := List.lookup_eq_some_iff.1 h
  rw [keys, hcells]
  exact List.mem_map_of_mem (List.mem_append_right _ List.mem_cons_self)

theorem cells_ofMembers {ms : List (String × Json)} (h : (ms.map Prod.fst).Nodup) :
    (ofMembers ms).cells = ms :=
  foldl_setMember ms h

theorem keys_ofMembers {ms : List (String × Json)} (h : (ms.map Prod.fst).Nodup) :
    (ofMembers ms).keys = ms.map Prod.fst := by
  rw [keys, cells_ofMembers h]

/-- The row with other keys. -/
def rename (f : String → String) (r : Row) : Row := ofMembers (r.cells.map fun m => (f m.1, m.2))

variable {f : String → String} {r : Row}

theorem cells_rename (h : ∀ c ∈ r.keys, ∀ d ∈ r.keys, f c = f d → c = d) :
    (r.rename f).cells = r.cells.map fun m => (f m.1, m.2) := by
  refine cells_ofMembers ?_
  rw [List.map_map]
  have hkeys : (r.keys.map f).Nodup := List.Nodup.map_on h r.nodup
  rwa [keys, List.map_map] at hkeys

theorem keys_rename (h : ∀ c ∈ r.keys, ∀ d ∈ r.keys, f c = f d → c = d) :
    (r.rename f).keys = r.keys.map f := by
  rw [keys, cells_rename h, keys, List.map_map, List.map_map]
  rfl

theorem lookup_rename {α : Type} {c : String} : ∀ {ms : List (String × α)},
    (∀ d ∈ ms.map Prod.fst, f d = f c → d = c) →
      (ms.map fun m => (f m.1, m.2)).lookup (f c) = ms.lookup c
  | [], _ => rfl
  | (n, v) :: ms, h => by
    obtain ⟨hn, hms⟩ := List.forall_mem_cons.1 h
    have hsame : (f c == f n) = (c == n) := by
      rw [Bool.eq_iff_iff, beq_iff_eq, beq_iff_eq]
      exact ⟨fun e => (hn e.symm).symm, fun e => by rw [e]⟩
    simp only [List.map_cons, List.lookup_cons, hsame]
    split
    · rfl
    · exact lookup_rename hms

theorem get?_rename {c : String} (h : ∀ d ∈ r.keys, ∀ e ∈ r.keys, f d = f e → d = e)
    (hc : ∀ d ∈ r.keys, f d = f c → d = c) : (r.rename f).get? (f c) = r.get? c := by
  rw [get?, cells_rename h, lookup_rename hc, get?]

end Row

theorem Schema.contains_retype {name c : String} {type : ColumnType} :
    ∀ {types : List (String × ColumnType)},
      (retype name type types).any (·.1 == c) = (types.any (·.1 == c) || name == c)
  | [] => by simp [retype]
  | (n, t) :: rest => by
    rw [retype]
    split_ifs with hn
    · rw [hn, List.any_cons, List.any_cons]
      cases name == c <;> simp
    · rw [List.any_cons, List.any_cons, contains_retype, Bool.or_assoc]

theorem Schema.contains_ofPairs {pairs : List (String × ColumnType)} {c : String} :
    (ofPairs pairs).contains c = true ↔ c ∈ pairs.map Prod.fst := by
  have hfold : ∀ (pairs : List (String × ColumnType)) (s : Schema),
      (pairs.foldl (fun s p => s.insert p.1 p.2) s).contains c = true ↔
        s.contains c = true ∨ c ∈ pairs.map Prod.fst := fun pairs => by
    induction pairs with
    | nil => simp
    | cons p pairs ih =>
      intro s
      have hinsert : (s.insert p.1 p.2).contains c = true ↔ s.contains c = true ∨ p.1 = c := by
        rw [contains, insert, contains_retype, Bool.or_eq_true, beq_iff_eq]
        rfl
      rw [List.foldl_cons, ih, hinsert, List.map_cons, List.mem_cons, or_assoc, eq_comm (a := c)]
  rw [ofPairs, hfold]
  simp [contains, empty]

namespace Profile

theorem mem_fresh {c : String} : ∀ {names seen : List String},
    c ∈ fresh seen names ↔ c ∈ names ∧ c ∉ seen
  | [], seen => by simp [fresh]
  | x :: xs, seen => by
    rw [fresh]
    split_ifs with hx
    · rw [mem_fresh, List.mem_cons]
      constructor
      · rintro ⟨hc, hseen⟩
        exact ⟨.inr hc, hseen⟩
      · rintro ⟨rfl | hc, hseen⟩
        · exact absurd hx hseen
        · exact ⟨hc, hseen⟩
    · rw [List.mem_cons, mem_fresh, List.mem_cons, List.mem_cons, not_or]
      constructor
      · rintro (rfl | ⟨hc, -, hseen⟩)
        · exact ⟨.inl rfl, hx⟩
        · exact ⟨.inr hc, hseen⟩
      · rintro ⟨rfl | hc, hseen⟩
        · exact .inl rfl
        · by_cases hcx : c = x
          · exact .inl hcx
          · exact .inr ⟨hc, hcx, hseen⟩

theorem contains_ofRows {rows : List Row} {c : String} :
    (ofRows rows).contains c = true ↔ ∃ r ∈ rows, c ∈ r.keys := by
  rw [ofRows, ofColumns, Schema.contains_ofPairs, List.map_map]
  simp [columnNames, mem_fresh]

end Profile

end TableTalk
