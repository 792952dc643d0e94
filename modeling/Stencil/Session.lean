import Stencil.Console.Style
import Stencil.Project
import Stencil.Prompt
import Stencil.Script

/-!
# Sessions

A command works in a session: a file tree, a terminal, an error stream and an editor. The editor's
results are known in advance, and a session keeps a note of each time the editor was opened.

`editUntilValid` opens the editor until the text is a template or the user gives up.
-/

namespace Stencil

/-- The editor was opened. -/
structure Opening where
  /-- The text to edit. -/
  seed : String
  /-- The command of the editor, if the settings have one. -/
  command : Option String
  deriving DecidableEq, Repr, Inhabited

/-- The state in which commands work. -/
structure Session where
  tree : Files.Tree
  terminal : Terminal
  /-- What was printed to the error stream. -/
  errors : String := ""
  /-- The results of the editor: a text, or nothing if it is closed without saving. -/
  edits : List (Option String) := []
  openings : List Opening := []
  deriving Inhabited

/-- A step of a command. -/
abbrev CommandM := ExceptT Failure (StateM Session)

namespace Session

/-- Works on the files of the session. -/
def onFiles {α : Type} (act : FileM α) : CommandM α := fun s =>
  let (r, tree) := act.run s.tree
  (r, { s with tree })

/-- Prints to the terminal. -/
def print (text : String) : CommandM Unit :=
  modify fun s => { s with terminal := s.terminal.print text }

/-- Prints a text with markup, unless one of its tags is faulty. -/
def say (text : String) : CommandM Unit :=
  if Console.isFaulty text then throw (.unreported .badStyle) else print (Console.printed text)

/-- Prints to the error stream. -/
def printError (text : String) : CommandM Unit :=
  modify fun s => { s with errors := s.errors ++ text }

/-- Asks a question at the terminal. -/
def ask (q : Question) : CommandM String := fun s =>
  let (answer, terminal) := Terminal.ask q s.terminal
  (match answer with
    | some a => .ok a
    | none => .error .abort, { s with terminal })

/-- Asks for a yes or a no at the terminal. -/
def confirm (question : String) : CommandM Bool := fun s =>
  let (answer, terminal) := Terminal.confirm question s.terminal
  (match answer with
    | some a => .ok a
    | none => .error .abort, { s with terminal })

/-- Opens the editor. -/
def edit (command : Option String) (seed : String) : CommandM String := fun s =>
  let s' := { s with edits := s.edits.tail, openings := s.openings ++ [{ seed, command }] }
  match s.edits.head?.join with
  | some text => (.ok text, s')
  | none => (.error (.known .editAborted), s')

/-- The question after a text that is no template. -/
def retryQuestion : String := "Edit the template again?"

/-- Opens the editor until its text is a template. After each text that is none, the user may go on
or give up. The fuel bounds the openings. -/
def editFrom (command : Option String) (retry : Bool) : Nat → String → CommandM Template
  | 0, _ => throw (.known .editAborted)
  | fuel + 1, seed => do
    let text ← edit command seed
    match Template.parse text with
    | .ok t => return t
    | .error e =>
      if !retry then throw (.known (.parse e))
      printError (Error.parse e).report
      if ← confirm retryQuestion then editFrom command retry fuel text
      else throw (.known (.parse e))

/-- Opens the editor until its text is a template. Each opening uses up one of the editor's
results. -/
def editUntilValid (command : Option String) (retry : Bool) (seed : String) :
    CommandM Template := do
  editFrom command retry ((← get).edits.length + 1) seed

end Session

end Stencil
