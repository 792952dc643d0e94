import Stencil.Console.Table
import Stencil.Session

/-!
# Commands

The commands of the program as steps in a session, and what they print when they succeed.
-/

namespace Stencil.Command

open Session

/-- A command with its arguments. -/
inductive Request where
  | init
  | create (name : String) (path : Option Text.Points) (source : Option String) (retry : Bool)
  | edit (name : String) (retry : Bool)
  | list
  | delete (name : String)
  deriving DecidableEq, Repr, Inhabited

/-- Sets up a project. -/
def init : CommandM Unit := do
  let made ← onFiles Project.scaffold
  print <| Console.printed <|
    if made.isEmpty then "[yellow]moho is already initialized[/yellow]"
    else "Initialized moho in current directory"

/-- The text of a file that seeds the editor. -/
def readSource (path : String) : FileM String := do
  let bytes ← FileM.liftFile ((← get).read (Files.Path.ofString path))
  match Text.decodeLines bytes with
  | .ok text => return text
  | .error e => throw (.unexpected (.undecodable e))

/-- The message that a script was written. The name stands in it as it is, so it is read as
markup. -/
def announcement (done name : String) (path : Files.Path) : String :=
  "[green]" ++ done ++ " template[/green] " ++ name ++ " [dim](" ++ path.toString ++ ")[/dim]"

/-- Tells that a script was written. -/
def announce (done name : String) (path : Files.Path) : CommandM Unit :=
  say (announcement done name path)

/-- Makes a new template from a text that is written in the editor. -/
def create (name : String) (path : Option Text.Points) (source : Option String) (retry : Bool) :
    CommandM Unit := do
  let settings ← onFiles Project.settings
  discard (onFiles (Project.store.requirePath name))
  let seed ← match source with
    | none => pure ""
    | some file => onFiles (readSource file)
  let t ← editUntilValid settings.editorCommand retry seed
  let t ← t.collect ask {}
  let script := Script.compilePoints { extra := settings.extraFilters } name t path
  let saved ← onFiles (Project.store.save name script)
  announce "Created" name saved

/-- Opens a template again, with its metadata on offer. -/
def edit (name : String) (retry : Bool) : CommandM Unit := do
  let settings ← onFiles Project.settings
  let seed ← onFiles (Project.store.readTemplate name)
  let previous ← onFiles (Project.store.readMetadata name)
  let t ← editUntilValid settings.editorCommand retry seed
  let path ← askPath ask previous.defaultPath
  let t ← t.collect ask previous
  let script := Script.compile { extra := settings.extraFilters } name t path
  let saved ← onFiles (Project.store.save name script)
  announce "Updated" name saved

/-- The row of a template in a listing. A hidden script has no path, which no command expects. -/
def row (name : String) : Except Failure (List String) :=
  match Project.store.pathFor name with
  | .ok p => .ok [name, p.toString]
  | .error e => .error (.unreported (.known e))

/-- Lists the templates. -/
def list : CommandM Unit := do
  match Project.store.names (← get).tree with
  | [] => print (Console.printed "[yellow]No templates found[/yellow]")
  | names =>
    match names.mapM row with
    | .error e => throw e
    | .ok rows =>
      if rows.any (·.any Console.isFaulty) then throw (.unreported .badStyle)
      print (Console.Table.printed { heads := ["Name", "Path"], rows })

/-- The message that a template was taken away. -/
def farewell (name : String) : String :=
  "Deleted template " ++ name

/-- Takes a template away. -/
def delete (name : String) : CommandM Unit := do
  onFiles (Project.store.delete name)
  say (farewell name)

/-- Does what is requested. -/
def perform : Request → CommandM Unit
  | .init => init
  | .create name path source retry => create name path source retry
  | .edit name retry => edit name retry
  | .list => list
  | .delete name => delete name

end Stencil.Command
