import TableTalk.Settings.Load
import TableTalk.Source.Directory
/-!
# Trees of files

A path is read from a place in a tree, part by part. An empty part and a dot stay in the directory,
two dots go to the one above it and stay at the top, and any other part is a name in it. A path with
a slash in front is read from the top.
-/

namespace TableTalk

inductive FileTree where
  | file (bytes : ByteArray)
  | directory (members : List (String × FileTree))

def FileTree.entry : FileTree → Entry
  | file bytes => .file bytes
  | directory _ => .unreadable "IsADirectory"

/-- The tree with another one where some names lead, as far as the directories of the way are there. -/
def FileTree.put : FileTree → FileTree → List String → FileTree
  | _, new, [] => new
  | file bytes, _, _ :: _ => file bytes
  | directory members, new, [name] => directory (setMember name new members)
  | directory members, new, name :: rest =>
    match members.lookup name with
    | none => directory members
    | some t => directory (setMember name (t.put new rest) members)

/-- What stands at a place, and the directories above it from the nearest to the top. -/
structure Place where
  above : List FileTree
  here : FileTree

namespace Place

def top (p : Place) : Place :=
  match p.above.getLast? with
  | none => p
  | some t => ⟨[], t⟩

/-- The longest name that a directory can have in it, in bytes. -/
def nameLimit : Nat := 255

def step (p : Place) (part : String) : Except Entry Place :=
  match p.here with
  | .file _ => .error (.unreadable "NotADirectory")
  | .directory members =>
    if part = "" ∨ part = "." then .ok p
    else if part = ".." then
      match p.above with
      | [] => .ok p
      | up :: above => .ok ⟨above, up⟩
    else if nameLimit < part.utf8ByteSize then .error (.unreadable "InvalidFilename")
    else
      match members.lookup part with
      | none => .error .absent
      | some t => .ok ⟨p.here :: p.above, t⟩

def walk (p : Place) (parts : List String) : Except Entry Place := parts.foldlM step p

def parts (path : String) : List String := (path.toList.splitOn '/').map String.ofList

/-- Where a path starts. -/
def start (p : Place) (path : String) : Place :=
  if path.toList.head? = some '/' then p.top else p

/-- The place that a path leads to. -/
def find (p : Place) (path : String) : Except Entry Place :=
  if '\x00' ∈ path.toList then .error (.unreadable "InvalidInput")
  else if path = "" then .error .absent
  else (p.start path).walk (parts path)

/-- What stands under a path. -/
def read (p : Place) (path : String) : Entry :=
  match p.find path with
  | .error e => e
  | .ok q => q.here.entry

/-- The data sets of a directory, its path read from here. -/
def source (p : Place) (directory : String) : Source Id :=
  Directory.source fun name => pure (p.read (joined directory name))

def rows (p : Place) (directory id : String) : Except SourceError (List Row) :=
  ((p.source directory).rows id).run

def owner (p : Place) (directory id : String) : Except SourceError (Option String) :=
  ((p.source directory).owner id).run

end Place

end TableTalk
