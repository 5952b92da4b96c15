import TableTalk.Proofs.Table.Columns

/-!
# What was inserted into a schema

A schema keeps its columns and their types apart, and an insertion changes both. What they have in
common with the insertions so far (`Schema.Inserted`) is kept by one more (`Inserted.insert`), so it
holds behind any number of them. Whoever asks one of the two for a column then hears what the other
would say, and the columns of each type make up all of them (`Schema.inserted_ofPairs`).
-/

namespace TableTalk

namespace Schema

section Retype

variable {name : String} {type : ColumnType}

theorem map_fst_retype (types : List (String × ColumnType)) :
    (retype name type types).map Prod.fst =
      if name ∈ types.map Prod.fst then types.map Prod.fst else types.map Prod.fst ++ [name] := by
  induction types with
  | nil => simp [retype]
  | cons p types ih =>
    obtain ⟨n, t⟩ := p
    by_cases h : n = name
    · simp [retype, h]
    · have hne : name ≠ n := fun e => h e.symm
      rw [retype, if_neg h, List.map_cons, ih]
      by_cases hmem : name ∈ types.map Prod.fst <;> simp [hmem, hne]

theorem lookup_retype (c : String) (types : List (String × ColumnType)) :
    (retype name type types).lookup c = if c = name then some type else types.lookup c := by
  induction types with
  | nil => rw [retype, lookup_cons_eq]
  | cons p types ih =>
    obtain ⟨n, t⟩ := p
    by_cases hn : n = name
    · rw [retype, if_pos hn, lookup_cons_eq, lookup_cons_eq, hn]
      split_ifs <;> rfl
    · rw [retype, if_neg hn, lookup_cons_eq, lookup_cons_eq, ih]
      by_cases hc : c = n
      · have hne : c ≠ name := fun e => hn (hc.symm.trans e)
        rw [if_pos hc, if_pos hc, if_neg hne]
      · rw [if_neg hc, if_neg hc]

end Retype

/-- A schema has the columns of some insertions in the order of the first ones, no others under its
types, and for each column the type that came last. -/
structure Inserted (pairs : List (String × ColumnType)) (s : Schema) : Prop where
  columns : Firsts (pairs.map Prod.fst) s.columns
  names : s.types.map Prod.fst = s.columns
  last : ∀ c, s.type? c = pairs.reverse.lookup c

/-- What is read of a schema is the same wherever it is read. -/
structure Coherent (s : Schema) : Prop where
  listed : s.toList.map Prod.fst = s.columns
  typed : ∀ p ∈ s.toList, s.type? p.1 = some p.2
  contains_iff : ∀ c, s.contains c = true ↔ c ∈ s.columns
  type_iff : ∀ c, (∃ type, s.type? c = some type) ↔ c ∈ s.columns
  parts : (ColumnType.all.flatMap s.columnsOf).Perm s.columns
  order : ∀ type, (s.columnsOf type).Sublist s.columns
  columnsOf_iff : ∀ type c, c ∈ s.columnsOf type ↔ s.type? c = some type

namespace Inserted

variable {pairs : List (String × ColumnType)} {s : Schema}

theorem empty : Inserted [] Schema.empty := ⟨.nil, rfl, fun _ => rfl⟩

theorem contains_iff (h : Inserted pairs s) {c : String} :
    s.contains c = true ↔ c ∈ s.columns := by
  rw [Schema.contains_iff, h.names]

theorem columns_insert (h : Inserted pairs s) (name : String) (type : ColumnType) :
    (s.insert name type).columns =
      if name ∈ s.columns then s.columns else s.columns ++ [name] := by
  unfold Schema.insert
  by_cases hmem : name ∈ s.columns
  · simp [h.contains_iff.2 hmem, hmem]
  · have hnew : s.contains name = false := Bool.eq_false_iff.2 fun hc => hmem (h.contains_iff.1 hc)
    simp [hnew, hmem]

theorem insert (h : Inserted pairs s) (name : String) (type : ColumnType) :
    Inserted (pairs ++ [(name, type)]) (s.insert name type) := by
  refine ⟨?_, ?_, fun c => ?_⟩
  · have hconcat := h.columns.concat name
    rw [h.columns_insert, List.map_append, List.map_singleton]
    simpa only [h.columns.mem_iff] using hconcat
  · have htypes : (s.insert name type).types = retype name type s.types := rfl
    rw [htypes, map_fst_retype, h.names, h.columns_insert]
  · have htype : (s.insert name type).type? c = (retype name type s.types).lookup c := rfl
    rw [htype, lookup_retype, List.reverse_concat, lookup_cons_eq, ← h.last, type?]

/-- Insertions behind others. -/
theorem foldl (h : Inserted pairs s) (more : List (String × ColumnType)) :
    Inserted (pairs ++ more) (more.foldl (fun s p => s.insert p.1 p.2) s) := by
  induction more generalizing pairs s with
  | nil => simpa using h
  | cons p more ih => simpa using ih (h.insert p.1 p.2)

theorem type_iff (h : Inserted pairs s) {c : String} :
    (∃ type, s.type? c = some type) ↔ c ∈ s.columns := by
  rw [← h.names, type?]
  constructor
  · rintro ⟨type, htype⟩
    obtain ⟨before, after, htypes, -⟩ := List.lookup_eq_some_iff.1 htype
    simp [htypes]
  · intro hc
    obtain ⟨p, hp, rfl⟩ := List.mem_map.1 hc
    exact ⟨p.2, lookup_of_mem (h.names ▸ h.columns.nodup) hp⟩

theorem columnsOf_eq (h : Inserted pairs s) (type : ColumnType) :
    s.columnsOf type = s.columns.filter fun c => s.type? c = some type := by
  have hfilter : (s.toList.filter fun p => p.2 = type) =
      (s.columns.filter fun c => s.type? c = some type).map
        fun c => (c, (s.type? c).getD .unknown) := by
    rw [toList, List.filter_map]
    refine congrArg _ (List.filter_congr fun c hc => ?_)
    obtain ⟨t, ht⟩ := h.type_iff.2 hc
    simp [ht]
  rw [columnsOf, hfilter, List.map_map]
  exact List.map_id _

theorem coherent (h : Inserted pairs s) : s.Coherent := by
  have hmem : ∀ type c, c ∈ s.columnsOf type ↔ s.type? c = some type := fun type c => by
    rw [h.columnsOf_eq, List.mem_filter, decide_eq_true_eq, ← h.type_iff]
    exact ⟨And.right, fun ht => ⟨⟨type, ht⟩, ht⟩⟩
  refine ⟨?_, fun p hp => ?_, fun c => h.contains_iff, fun c => h.type_iff, ?_, fun type => ?_, hmem⟩
  · rw [toList, List.map_map]
    exact List.map_id _
  · obtain ⟨c, hc, rfl⟩ := List.mem_map.1 hp
    obtain ⟨t, ht⟩ := h.type_iff.2 hc
    simp [ht]
  · -- each column has one of the types, so the types divide up the columns
    have htypes : (ColumnType.all.map some).Nodup := by decide
    have hparts := perm_flatMap_filter s.type? s.columns htypes fun c hc => by
        obtain ⟨t, ht⟩ := h.type_iff.2 hc
        rw [ht]
        cases t <;> decide
    rw [List.flatMap_map] at hparts
    rwa [funext h.columnsOf_eq]
  · rw [h.columnsOf_eq]
    exact List.filter_sublist

end Inserted

/-- A schema has what was inserted into it, one insertion after another, and says the same of it
wherever it is asked. -/
theorem inserted_ofPairs (pairs : List (String × ColumnType)) :
    Inserted pairs (ofPairs pairs) ∧ (ofPairs pairs).Coherent ∧
      ∀ name type, (ofPairs pairs).insert name type = ofPairs (pairs ++ [(name, type)]) := by
  have h : Inserted pairs (ofPairs pairs) := Inserted.empty.foldl pairs
  refine ⟨h, h.coherent, fun name type => ?_⟩
  rw [ofPairs, ofPairs, List.foldl_append]
  rfl

end Schema

end TableTalk
