import Stencil.Settings
import Stencil.Store

/-!
# Projects

A project keeps its templates, its settings and a note in one directory. `Project.scaffold` makes
what is missing and leaves the rest alone.

Commands work in the directory that they are called from, and that is the root of the file tree
here. So all paths of a project start there, and a project elsewhere is the same project in the tree
of that other directory.
-/

namespace Stencil.Project

/-- The directory of a project's templates. -/
def directory : Files.Path := Files.Path.ofString ".moho"

/-- The file of a project's settings. -/
def settingsPath : Files.Path := directory.child "config.yaml"

/-- The file of the note. -/
def readmePath : Files.Path := directory.child "readme.md"

/-- The note that stands in a new project. -/
def readmeText : String :=
  "# moho\n\nthis folder contains this project's moho templates\n"

/-- The store of a project. -/
def store : Store := { root := directory }

/-- The settings of a new project. -/
def newSettings : Settings := { version := some 1 }

/-- Reads the settings. Without a file there are none. -/
def settings : FileM Settings := do
  if ← FileM.liftFile ((← get).exists? settingsPath) then
    let bytes ← FileM.liftFile ((← get).read settingsPath)
    match Settings.ofBytes settingsPath.toString bytes with
    | .ok s => return s
    | .error e => throw e
  else return {}

/-- Writes a file unless it is there. Gives its path if it was missing. -/
def provide (p : Files.Path) (text : String) : FileM (List Files.Path) := do
  if ← FileM.liftFile ((← get).isFile p) then return []
  else
    FileM.change (·.write p (Text.encode text))
    return [p]

/-- Makes the directory, the settings and the note as far as they are missing. Gives the files
made. -/
def scaffold : FileM (List Files.Path) := do
  FileM.change (·.makeDirectory directory)
  let a ← provide settingsPath newSettings.text
  let b ← provide readmePath readmeText
  return a ++ b

end Stencil.Project
