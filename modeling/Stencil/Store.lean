import Stencil.Files.Tree
import Stencil.Metadata
import Stencil.Shell.Run

/-!
# The store

Templates live in a directory, each as an executable script named after it. A script describes
itself: run with one argument it prints the source of its template, with another its payload.

A step of type `FileM` works on a file tree. What it did to the tree stays when it fails.

The trees are those of `Stencil.Files`: a template's file is no link, it belongs to whoever works on
it, so it can be read, replaced and made executable, and its bytes are written at one go.
-/

namespace Stencil

/-- A step that works on a file tree. -/
abbrev FileM := ExceptT Failure (StateM Files.Tree)

namespace FileM

/-- A failure of the file system ends the step. -/
def liftFile {α : Type} : Except Unexpected α → FileM α
  | .ok a => return a
  | .error e => throw (.unexpected e)

/-- Replaces the tree by the result of an operation. -/
def change (f : Files.Tree → Except Unexpected Files.Tree) : FileM Unit := do
  set (← liftFile (f (← get)))

/-- Writes a text to a file. The file is opened first, which empties it, so a text without an
encoding leaves it empty. -/
def writeText (p : Files.Path) (text : Text.Points) : FileM Unit :=
  match text.encode with
  | .ok bytes => change (·.write p bytes)
  | .error e => do
    change (·.write p [])
    throw (.unexpected (.unencodable e))

end FileM

/-- A directory of templates. -/
structure Store where
  root : Files.Path
  deriving DecidableEq, Repr, Inhabited

namespace Store

/-- The end of a script's file name. -/
def scriptSuffix : String := ".mh"

/-- May a template have the name? It must be the name of a file that is not hidden. -/
def isTemplateName (name : String) : Bool :=
  !name.isEmpty && !Text.hasChar name '/' && !Text.startsWith name "."

/-- The path of a template's script. -/
def pathFor (s : Store) (name : String) : Except Error Files.Path :=
  if isTemplateName name then .ok (s.root.child (name ++ scriptSuffix))
  else .error (.invalidTemplateName name)

/-- The part of a script's file name before its suffix. Nothing may stand before the suffix but a
name. -/
def stem? (fileName : String) : Option String :=
  let n := fileName.length - scriptSuffix.length
  if Text.endsWith fileName scriptSuffix &&
    n != 0 then some (String.ofList (fileName.toList.take n))
  else none

/-- The names of the templates, by code point. -/
def names (s : Store) (t : Files.Tree) : List String :=
  let isScript (name : String) : Bool := (t.file? (s.root.parts ++ [name])).isSome
  (((t.names s.root.parts).filter isScript).filterMap stem?).mergeSort fun a b => !decide (b < a)

/-- The path of a template, if its name is accepted. -/
def requirePath (s : Store) (name : String) : FileM Files.Path :=
  match s.pathFor name with
  | .ok p => return p
  | .error e => throw (.known e)

/-- Is there a template with the name? -/
def exists? (s : Store) (name : String) : FileM Bool := do
  let p ← s.requirePath name
  FileM.liftFile ((← get).isFile p)

/-- The path of a script that must be there. -/
def require (s : Store) (name : String) : FileM Files.Path := do
  let p ← s.requirePath name
  if ← FileM.liftFile ((← get).isFile p) then return p
  else throw (.known (.templateNotFound name))

/-- Writes a script and makes it executable. -/
def save (s : Store) (name : String) (script : Text.Points) : FileM Files.Path := do
  let p ← s.requirePath name
  FileM.change (·.makeDirectory p.parent)
  FileM.writeText p script
  modify (·.makeExecutable p)
  return p

/-- Takes a template away. -/
def delete (s : Store) (name : String) : FileM Unit := do
  let p ← s.require name
  FileM.change (·.remove p)

/-- What a script prints when it is run with one argument. -/
def describe (s : Store) (name request : String) : FileM String := do
  let p ← s.require name
  let script ← FileM.liftFile ((← get).read p)
  let result := Shell.runScript (← get) p.toString script [request]
  set result.tree
  match Text.decodeLines result.out, Text.decodeLines result.err with
  | .error e, _ => throw (.unexpected (.undecodable e))
  | .ok _, .error e => throw (.unexpected (.undecodable e))
  | .ok out, .ok err =>
    if result.status == some 0 then return out
    else throw (.known (.templateUnreadable name err))

/-- A text without one line end at its end. -/
def dropLineEnd (s : String) : String :=
  if Text.endsWith s "\n" then String.ofList s.toList.dropLast else s

/-- The source of a template. -/
def readTemplate (s : Store) (name : String) : FileM String := do
  return dropLineEnd (← s.describe name "get-template")

/-- The metadata of a template. -/
def readMetadata (s : Store) (name : String) : FileM Metadata := do
  match Metadata.decode (← s.describe name "get-vars") with
  | .ok m => return m
  | .error fault => throw (.known (.invalidMetadata fault))

end Store

end Stencil
