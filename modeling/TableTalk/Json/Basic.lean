/-!
# JSON values

A value keeps the order of its members and the kind of its numbers: a whole number as written is an
`int`, any other number a `double`. The members of an object are listed as they were read, so a name
may occur twice; `Json.merge` gives the object that keyed insertion builds from them, where a name
keeps its first position and takes its last value.
-/

namespace TableTalk

inductive Json where
  | null
  | bool (b : Bool)
  | int (n : Int)
  | double (x : Float)
  | str (s : String)
  | arr (items : List Json)
  | obj (members : List (String × Json))
deriving Repr, Inhabited

/-- Sets the value of a name: in its place if it is there, else at the end. -/
def setMember {α : Type _} (name : String) (value : α) : List (String × α) → List (String × α)
  | [] => [(name, value)]
  | (n, v) :: rest =>
    if n = name then (n, value) :: rest else (n, v) :: setMember name value rest

/-- The members after inserting each in turn. -/
def setMembers {α : Type _} (members : List (String × α)) : List (String × α) :=
  members.foldl (fun acc m => setMember m.1 m.2 acc) []

theorem map_fst_setMember {α : Type _} (name : String) (value : α) (ms : List (String × α)) :
    (setMember name value ms).map Prod.fst
      = if name ∈ ms.map Prod.fst then ms.map Prod.fst else ms.map Prod.fst ++ [name] := by
  induction ms with
  | nil => simp [setMember]
  | cons m ms ih =>
    obtain ⟨n, v⟩ := m
    by_cases h : n = name
    · simp [setMember, h]
    · simp only [setMember, h, if_false, List.map_cons, ih, List.mem_cons]
      have h' : ¬ name = n := fun e => h e.symm
      by_cases hm : name ∈ ms.map Prod.fst <;> simp [hm, h']

theorem nodup_setMember {α : Type _} {name : String} {value : α} {ms : List (String × α)}
    (h : (ms.map Prod.fst).Nodup) : ((setMember name value ms).map Prod.fst).Nodup := by
  rw [map_fst_setMember]
  split
  · exact h
  · next hm => exact List.nodup_append.2 ⟨h, by simp, by
      intro a ha b hb e
      simp only [List.mem_singleton] at hb
      exact hm (hb ▸ e ▸ ha)⟩

theorem nodup_foldl_setMember {α : Type _} (ms : List (String × α)) {acc : List (String × α)}
    (h : (acc.map Prod.fst).Nodup) :
    ((ms.foldl (fun acc m => setMember m.1 m.2 acc) acc).map Prod.fst).Nodup := by
  induction ms generalizing acc with
  | nil => exact h
  | cons m ms ih => exact ih (nodup_setMember h)

theorem nodup_setMembers {α : Type _} (ms : List (String × α)) :
    ((setMembers ms).map Prod.fst).Nodup :=
  nodup_foldl_setMember ms (by simp)

namespace Json

mutual

/-- Every object with its repeated names merged, at every depth. -/
def merge : Json → Json
  | arr items => arr (mergeItems items)
  | obj members => obj (setMembers (mergeValues members))
  | v => v

def mergeItems : List Json → List Json
  | [] => []
  | v :: vs => v.merge :: mergeItems vs

def mergeValues : List (String × Json) → List (String × Json)
  | [] => []
  | (k, v) :: ms => (k, v.merge) :: mergeValues ms

end

/-- The value of the first member with this name. -/
def member? (name : String) : Json → Option Json
  | obj members => members.lookup name
  | _ => none

def asArray? : Json → Option (List Json)
  | arr items => some items
  | _ => none

def asText? : Json → Option String
  | str s => some s
  | _ => none

/-- A double as a value; one that is not finite has none and becomes `null`. -/
def ofFloat (x : Float) : Json := if x.isFinite then double x else null

end Json

end TableTalk
