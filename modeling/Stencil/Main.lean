import Stencil.CommandLine

/-!
# The program

Loads the files that a command can need, runs the command on them, and writes back what it changed.

A command can need the files of the project with fixed names, the templates and files that its
arguments name, and the files that the variable `STENCIL_FILES` lists. No editor is started: each
time one is wanted, the text is taken from the next of the files that the variable `STENCIL_DRAFTS`
lists. The paths in both are separated by colons.
-/

namespace Stencil.Program

/-- How the program is called. -/
def usageText : String :=
  "Usage: moho [-v] init | list | create NAME [PATH] [--source FILE] | edit NAME | delete NAME\n"

/-- The paths in a variable of the environment. -/
def pathsIn (setting : String) : IO (List String) := do
  return (Text.cutAt ':' ((← IO.getEnv setting).getD "")).filter fun p => !p.isEmpty

/-- Paths that an argument can stand for: a file, the value of an option, or a template. -/
def pathsOf (arg : String) : List Files.Path :=
  let value := String.ofList ((arg.toList.dropWhile (· != '=')).drop 1)
  let asTemplate := match Project.store.pathFor arg with
    | .ok p => [p]
    | .error _ => []
  [Files.Path.ofString arg, Files.Path.ofString value] ++ asTemplate

/-- Adds the file at a path to a tree, if it can be read. -/
def load (t : Files.Tree) (p : Files.Path) : IO Files.Tree := do
  try
    let bytes := (← IO.FS.readBinFile p.toString).toList
    match t.makeDirectory p.parent with
    | .ok t' => return t'.set p.parts (.file { bytes })
    | .error _ => return t
  catch _ => return t

/-- The text of a file, if it can be read. -/
def loadText (path : String) : IO (Option String) := do
  try return some (← IO.FS.readFile path)
  catch _ => return none

/-- Writes a file, and the directories that lead to it. -/
def save (parts : List String) (f : Files.File) : IO Unit := do
  let p : Files.Path := { parts }
  IO.FS.createDirAll p.parent.toString
  IO.FS.writeBinFile p.toString (ByteArray.mk f.bytes.toArray)
  if f.executable then
    let all : IO.AccessRight := { read := true, write := true, execution := true }
    let most : IO.AccessRight := { read := true, execution := true }
    IO.setAccessRights p.toString { user := all, group := most, other := most }

/-- The rest of the standard input. -/
partial def readAll (input : IO.FS.Stream) (before : String) : IO String := do
  let line ← input.getLine
  if line.isEmpty then return before else readAll input (before ++ line)

/-- Does the command ask questions? -/
def asks : CommandLine.Invocation → Bool
  | .run (.create ..) | .run (.edit ..) => true
  | _ => false

end Stencil.Program

open Stencil in
/-- Reads a request from the arguments and does it with the files of the system. -/
def main (args : List String) : IO UInt32 := do
  let invocation := CommandLine.read args
  let paths := [Project.settingsPath, Project.readmePath] ++ args.flatMap Program.pathsOf ++
    (← Program.pathsIn "STENCIL_FILES").map Files.Path.ofString
  let tree ← paths.foldlM Program.load default
  let edits ← (← Program.pathsIn "STENCIL_DRAFTS").mapM Program.loadText
  let input ← if Program.asks invocation then Program.readAll (← IO.getStdin) "" else pure ""
  let result := CommandLine.run args { tree, terminal := Terminal.ofInput input, edits }
  let after := result.session.tree
  for (parts, f) in after.changedFrom tree do
    Program.save parts f
  for parts in tree.lostIn after do
    IO.FS.removeFile ({ parts : Files.Path }).toString
  IO.print result.session.terminal.output
  IO.eprint result.session.errors
  if result.status == 2 then IO.eprint Program.usageText
  match invocation with
  | .help => IO.print Program.usageText
  | _ => pure ()
  return UInt32.ofNat result.status.toNat
