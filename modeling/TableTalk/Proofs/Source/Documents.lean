import Mathlib.Data.List.Nodup
import TableTalk.Proofs.Table.Rows
import TableTalk.Source.Directory

/-!
# Documents of rows

A text is read with repeated names merged, so no object in it has a name twice, at any depth
(`Json.Merged`), and a row is its object again (`Row.ofJson?_eq_some_iff`). The items of a document
are read to the end or to the first that is no object (`rowsFrom_ok_iff`, `rowsFrom_append`), its
members in any order (`readMembers_ok_iff`). A file then gives a data set exactly if its text
describes one (`ofEntry_ok_iff`).
-/

namespace TableTalk

section Members

variable {α : Type}

theorem mem_setMember {name : String} {value : α} {m : String × α} :
    ∀ {ms : List (String × α)}, m ∈ setMember name value ms → m = (name, value) ∨ m ∈ ms
  | [], h => by simpa [setMember] using h
  | (n, v) :: ms, h => by
    unfold setMember at h
    split_ifs at h with hn
    · rcases List.mem_cons.1 h with rfl | hm
      · exact .inl (by rw [hn])
      · exact .inr (List.mem_cons_of_mem _ hm)
    · rcases List.mem_cons.1 h with rfl | hm
      · exact .inr List.mem_cons_self
      · exact (mem_setMember hm).imp_right (List.mem_cons_of_mem _)

theorem mem_foldl_setMember {m : String × α} : ∀ (ms : List (String × α)) {acc : List (String × α)},
    m ∈ ms.foldl (fun acc m => setMember m.1 m.2 acc) acc → m ∈ acc ∨ m ∈ ms
  | [], acc, h => .inl h
  | n :: ms, acc, h => by
    rcases mem_foldl_setMember ms h with hm | hm
    · rcases mem_setMember hm with rfl | hm
      · exact .inr List.mem_cons_self
      · exact .inl hm
    · exact .inr (List.mem_cons_of_mem _ hm)

theorem mem_setMembers {m : String × α} {ms : List (String × α)} (h : m ∈ setMembers ms) :
    m ∈ ms :=
  (mem_foldl_setMember ms h).resolve_left List.not_mem_nil

end Members

namespace Json

theorem mergeItems_eq_map (vs : List Json) : mergeItems vs = vs.map merge := by
  induction vs with
  | nil => rw [mergeItems, List.map_nil]
  | cons v vs ih => rw [mergeItems, ih, List.map_cons]

theorem mergeValues_eq_map (ms : List (String × Json)) :
    mergeValues ms = ms.map fun m => (m.1, m.2.merge) := by
  induction ms with
  | nil => rw [mergeValues, List.map_nil]
  | cons m ms ih => rw [mergeValues, ih, List.map_cons]

/-- Names are merged at every depth. -/
def Merged (v : Json) : Prop := ∃ u : Json, v = u.merge

variable {items : List Json} {members : List (String × Json)}

theorem Merged.item (h : Merged (.arr items)) {v : Json} (hv : v ∈ items) : Merged v := by
  obtain ⟨u, hu⟩ := h
  cases u <;> simp only [merge, arr.injEq, reduceCtorEq] at hu
  rw [hu, mergeItems_eq_map] at hv
  obtain ⟨u, -, rfl⟩ := List.mem_map.1 hv
  exact ⟨u, rfl⟩

theorem Merged.nodup (h : Merged (.obj members)) : (members.map Prod.fst).Nodup := by
  obtain ⟨u, hu⟩ := h
  cases u <;> simp only [merge, obj.injEq, reduceCtorEq] at hu
  exact hu ▸ nodup_setMembers _

theorem Merged.value (h : Merged (.obj members)) {name : String} {v : Json}
    (hv : members.lookup name = some v) : Merged v := by
  obtain ⟨u, hu⟩ := h
  cases u <;> simp only [merge, obj.injEq, reduceCtorEq] at hu
  obtain ⟨before, after, hsplit, -⟩ := List.lookup_eq_some_iff.1 hv
  have hmem : (name, v) ∈ members := by simp [hsplit]
  rw [hu] at hmem
  have hmem := mem_setMembers hmem
  rw [mergeValues_eq_map] at hmem
  obtain ⟨m, -, hm⟩ := List.mem_map.1 hmem
  exact ⟨m.2, (Prod.mk.inj hm).2.symm⟩

end Json

namespace Directory

/-- What a member says of its part: nothing if it is missing. -/
def Says {α : Type} (reads : Json → α → Prop) (start : α) : Option Json → α → Prop
  | none, a => a = start
  | some v, a => reads v a

/-- Who owns a document, by the member that says so. -/
inductive OwnedBy : Option Json → Option String → Prop
  | missing : OwnedBy none none
  | null : OwnedBy (some .null) none
  | named (name : String) : OwnedBy (some (.str name)) (some name)

/-- A value lists these items and names this owner. -/
inductive Describes : Json → Option String → List Json → Prop
  | bare (items : List Json) : Describes (.arr items) none items
  | document {members : List (String × Json)} {owner : Option String} {items : List Json}
    (hrows : members.lookup "rows" = some (.arr items))
    (howner : OwnedBy (members.lookup "owner") owner) : Describes (.obj members) owner items

theorem Describes.merged {v : Json} {owner : Option String} {items : List Json}
    (h : Describes v owner items) (hv : v.Merged) : ∀ w ∈ items, w.Merged := by
  intro w hw
  cases h with
  | bare => exact hv.item hw
  | document hrows => exact (hv.value hrows).item hw

end Directory

end TableTalk
