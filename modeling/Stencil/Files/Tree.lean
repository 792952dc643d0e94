import Stencil.Error
import Stencil.Files.Path

/-!
# File trees

The files and directories below a working directory, as a finite map from paths. The operations
fail as a file system does: the reason is the first that stands in the way.

There are files and directories only, and one owner who may do everything. Links, other owners and
their rights, and names of files that are no Unicode text lie outside. An operation takes place as a
whole or not at all: no disk is full.
-/

namespace Stencil.Files

/-- A file. -/
structure File where
  bytes : List UInt8
  executable : Bool := false
  deriving DecidableEq, Repr, Inhabited

/-- What can stand at a path. -/
inductive Entry where
  | file (f : File)
  | directory
  deriving DecidableEq, Repr, Inhabited

/-- Entries by path, one for each path. The root is always a directory and is not listed. -/
structure Tree where
  entries : List (List String × Entry) := []
  nodup : (entries.map Prod.fst).Nodup := by simp
  deriving DecidableEq, Repr

namespace Tree

instance : Inhabited Tree := ⟨{}⟩

/-- Paths stay apart when entries are taken away. -/
theorem nodup_filter (t : Tree) (keep : List String × Entry → Bool) :
    ((t.entries.filter keep).map Prod.fst).Nodup :=
  t.nodup.sublist (List.filter_sublist.map Prod.fst)

/-- What stands at a path. -/
def get? (t : Tree) (parts : List String) : Option Entry :=
  if parts.isEmpty then some .directory else t.entries.lookup parts

/-- Puts an entry at a path in place of what stands there. -/
def set (t : Tree) (parts : List String) (e : Entry) : Tree :=
  { entries := (parts, e) :: t.entries.filter fun x => x.1 != parts
    nodup := by
      rw [List.map_cons, List.nodup_cons]
      exact ⟨by simp, t.nodup_filter _⟩ }

/-- Takes away what stands at a path. -/
def erase (t : Tree) (parts : List String) : Tree :=
  { entries := t.entries.filter fun x => x.1 != parts
    nodup := t.nodup_filter _ }

/-- Takes away what stands at a path and below it. -/
def eraseAll (t : Tree) (parts : List String) : Tree :=
  { entries := t.entries.filter fun x => !parts.isPrefixOf x.1
    nodup := t.nodup_filter _ }

/-- The file at a place, if there is one. -/
def file? (t : Tree) (parts : List String) : Option File :=
  match t.get? parts with
  | some (.file f) => some f
  | _ => none

/-- Is there a directory at the place? -/
def isDirectory (t : Tree) (parts : List String) : Bool :=
  t.get? parts == some .directory

/-- The names in a directory, in no particular order. -/
def names (t : Tree) (parts : List String) : List String :=
  t.entries.filterMap fun x =>
    if x.1.length == parts.length + 1 && parts.isPrefixOf x.1 then x.1.getLast? else none

/-- The files with their paths. -/
def files (t : Tree) : List (List String × File) :=
  t.entries.filterMap fun x =>
    match x.2 with
    | .file f => some (x.1, f)
    | .directory => none

/-- The files that an earlier tree lacks or has with other contents. -/
def changedFrom (after before : Tree) : List (List String × File) :=
  after.files.filter fun x => (before.file? x.1).map File.bytes != some x.2.bytes

/-- The paths of the files that a later tree lacks. -/
def lostIn (before after : Tree) : List (List String) :=
  (before.files.map Prod.fst).filter fun p => (after.file? p).isNone

/-- The most bytes of a name. -/
def longestName : Nat := 255

/-- What stands in the way of a path: a component that is too long, or is missing, or is no
directory. -/
def obstacle? (t : Tree) (p : Path) : Option Unexpected :=
  let fault (parts : List String) (name : String) : Option Unexpected :=
    match t.get? parts with
    | none => some (.notFound p.toString)
    | some (.file _) => some (.notDirectory p.toString)
    | some .directory =>
      if (Text.encode name).length > longestName then some (.nameTooLong p.toString) else none
  (List.range p.parts.length).findSome? fun i => fault (p.parts.take i) ((p.parts[i]?).getD "")

/-- A path that holds a zero character names nothing. -/
def hasZero (p : Path) : Bool :=
  p.parts.any fun s => Text.hasChar s '\x00'

/-- Is there a file at the path? A name that is too long is an error. -/
def isFile (t : Tree) (p : Path) : Except Unexpected Bool :=
  if hasZero p then .ok false
  else
    match t.obstacle? p with
    | some (.nameTooLong path) => .error (.nameTooLong path)
    | some _ => .ok false
    | none => .ok (t.file? p.parts).isSome

/-- Does anything stand at the path? -/
def exists? (t : Tree) (p : Path) : Except Unexpected Bool :=
  if hasZero p then .ok false
  else
    match t.obstacle? p with
    | some (.nameTooLong path) => .error (.nameTooLong path)
    | some _ => .ok false
    | none => .ok (t.get? p.parts).isSome

/-- Reads a file. -/
def read (t : Tree) (p : Path) : Except Unexpected (List UInt8) :=
  if hasZero p then .error .zeroInPath
  else
    match t.obstacle? p with
    | some e => .error e
    | none =>
      match t.get? p.parts with
      | some (.file f) => .ok f.bytes
      | some .directory => .error (.isDirectory p.toString)
      | none => .error (.notFound p.toString)

/-- Writes a file. One that is there keeps its permissions. -/
def write (t : Tree) (p : Path) (bytes : List UInt8) : Except Unexpected Tree :=
  if hasZero p then .error .zeroInPath
  else
    match t.obstacle? p with
    | some e => .error e
    | none =>
      match t.get? p.parts with
      | some (.file f) => .ok (t.set p.parts (.file { f with bytes }))
      | some .directory => .error (.isDirectory p.toString)
      | none => .ok (t.set p.parts (.file { bytes }))

/-- Lets a file be executed. -/
def makeExecutable (t : Tree) (p : Path) : Tree :=
  match t.file? p.parts with
  | some f => t.set p.parts (.file { f with executable := true })
  | none => t

/-- Takes a file away. -/
def remove (t : Tree) (p : Path) : Except Unexpected Tree :=
  if hasZero p then .error .zeroInPath
  else
    match t.obstacle? p with
    | some e => .error e
    | none =>
      match t.get? p.parts with
      | some (.file _) => .ok (t.erase p.parts)
      | some .directory => .error (.isDirectory p.toString)
      | none => .error (.notFound p.toString)

/-- Makes the directories on the way to `done ++ todo`, as far as they are missing. -/
def makeFrom (t : Tree) (done : List String) : List String → Tree
  | [] => t
  | name :: rest =>
    let here := done ++ [name]
    let t' := if (t.get? here).isSome then t else t.set here .directory
    makeFrom t' here rest

/-- Makes a directory and the directories that lead to it. They may be there already. -/
def makeDirectory (t : Tree) (p : Path) : Except Unexpected Tree :=
  if hasZero p then .error .zeroInPath
  else
    match (List.range (p.parts.length + 1)).findSome? fun i =>
        match t.get? (p.parts.take i) with
        | some (.file _) => some i
        | _ => none with
    | some i =>
      if i == p.parts.length then .error (.fileExists p.toString)
      else .error (.notDirectory p.toString)
    | none =>
      match p.parts.find? fun s => (Text.encode s).length > longestName with
      | some _ => .error (.nameTooLong p.toString)
      | none => .ok (t.makeFrom [] p.parts)

end Tree

end Stencil.Files
