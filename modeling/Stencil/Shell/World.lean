import Stencil.Files.Place
import Stencil.Shell.Syntax

/-!
# The state of a run

A script runs in a world: its arguments, variables and functions, the file tree, and what it has
printed. A step of a run changes the world and may leave the commands around it early.
-/

namespace Stencil.Shell

/-- Where the output of a descriptor goes. -/
inductive Sink where
  | output
  | errors
  /-- The text of a substitution, by its depth. -/
  | capture (depth : Nat)
  | file (path : Files.Path)
  | nowhere
  | closed
  deriving DecidableEq, Repr, Inhabited

/-- The variable that counts the options which were looked at. -/
def optionIndex : List Char := "OPTIND".toList

/-- The state of a run. -/
structure World where
  /-- The name of the script in reports. -/
  scriptName : String
  args : List (List Char)
  vars : List (List Char × List Char) := [(optionIndex, ['1'])]
  functions : List (List Char × Command) := []
  documents : List (Nat × Word) := []
  status : Nat := 0
  /-- The status of the last substitution. -/
  substStatus : Nat := 0
  line : Nat := 0
  /-- The line up to which the script was read. -/
  readTo : Nat := 1
  /-- The command that reads text of its own, for reports. -/
  reporter : Option String := none
  /-- Variables that may not be set again. -/
  fixed : List (List Char) := []
  /-- How many loops and functions the current command stands in. -/
  loops : Nat := 0
  calls : Nat := 0
  /-- The commands to run at the end. -/
  last : List Char := []
  /-- The letters of the options that are on. -/
  options : List Char := []
  tree : Files.Tree
  /-- Where the tree stands. -/
  place : Files.Place := {}
  input : List Char := []
  sinks : List (Nat × Sink) := [(0, .closed), (1, .output), (2, .errors)]
  out : List Char := []
  err : List Char := []
  captures : List (Nat × List Char) := []
  depth : Nat := 0

/-- A failing command ends the run. -/
def World.stopsOnFailure (w : World) : Bool :=
  w.options.contains 'e'

/-- Using a variable that is not set is an error. -/
def World.refusesUnset (w : World) : Bool :=
  w.options.contains 'u'

/-- Why the commands in a row are left early. -/
inductive Jump where
  | exit (status : Nat)
  | leave (loops : Nat)
  | again (loops : Nat)
  | back (status : Nat)
  | killed
  | outOfFuel
  deriving DecidableEq, Repr

/-- A step of a run. What was printed and written stays when it is left early. -/
abbrev RunM := ExceptT Jump (StateM World)

/-! ## Output -/

/-- Puts a text where the output goes. -/
def writeTo (sink : Sink) (text : List Char) : RunM Unit :=
  modify fun w =>
    match sink with
    | .output => { w with out := w.out ++ text }
    | .errors => { w with err := w.err ++ text }
    | .capture d =>
      { w with captures := (d, (w.captures.lookup d).getD [] ++ text) ::
               w.captures.filter (·.1 != d) }
    | .file p =>
      match w.tree.read p with
      | .ok old =>
        match w.tree.write p (old ++ text.map fun c => UInt8.ofNat c.toNat) with
        | .ok tree => { w with tree }
        | .error _ => w
      | .error _ => w
    | .nowhere | .closed => w

/-- Prints a text to a numbered output. -/
def printTo (fd : Nat) (text : List Char) : RunM Unit := do
  writeTo (((← get).sinks.lookup fd).getD .closed) text

/-- Prints a text. -/
def print (text : List Char) : RunM Unit :=
  printTo 1 text

/-- Reports something on the line of the current command. -/
def warn (message : String) : RunM Unit := do
  let w ← get
  printTo 2 (w.scriptName ++ ": " ++ toString w.line ++ ": " ++ message ++ "\n").toList

/-- Reports an error that ends the run. -/
def die {α : Type} (message : String) (status : Nat := 2) : RunM α := do
  warn message
  throw (.exit status)

/-! ## Variables -/

/-- The letters of options. -/
def optionLetters : List Char :=
  "efImnsixvVECabup".toList

/-- May the variable hold the value? The one that counts options holds a number. -/
def isAllowed (name value : List Char) : Bool :=
  name != optionIndex || (wholeNumber? value).any fun n => 0 ≤ n && n ≤ 2147483647

/-- Sets a variable. A report starts with the command that sets it, if there is one. -/
def setVar (name value : List Char) (command : String := "") : RunM Unit := do
  if (← get).fixed.contains name then die (command ++ String.ofList name ++ ": is read only")
  if !isAllowed name value then die (command ++ "Illegal number: " ++ String.ofList value)
  modify fun w => { w with vars := (name, value) :: w.vars.filter (·.1 != name) }

/-- Takes a variable away. The one that counts options stays. -/
def unsetVar (name : List Char) : RunM Unit := do
  if (← get).fixed.contains name then die ("unset: " ++ String.ofList name ++ ": is read only")
  if name == optionIndex then die "unset: Illegal number: "
  modify fun w => { w with vars := w.vars.filter (·.1 != name) }

/-- The number that stands for the shell's own process. -/
def processNumber : List Char := "1000".toList

/-- The characters that separate fields. -/
def separators (w : World) : List Char :=
  (w.vars.lookup "IFS".toList).getD [' ', '\t', '\n']

/-- The value of a parameter, if it is set. -/
def paramValue (w : World) (name : List Char) : Option (List Char) :=
  let joined (sep : List Char) : List Char := List.intercalate sep w.args
  match name with
  | ['#'] => some (toString w.args.length).toList
  | ['?'] => some (toString w.status).toList
  | ['$'] => some processNumber
  | ['!'] => none
  | ['-'] => some (optionLetters.reverse.filter w.options.contains)
  | ['@'] => if w.args.isEmpty then none else some (joined [' '])
  | ['*'] => if w.args.isEmpty then none else some (joined ((separators w).take 1))
  | ['0'] => some w.scriptName.toList
  | c :: cs =>
    if isDigit c then w.args[digitsValue (c :: cs) - 1]? else w.vars.lookup (c :: cs)
  | [] => none

end Stencil.Shell
