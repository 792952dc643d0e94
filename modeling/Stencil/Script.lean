import Stencil.Filter
import Stencil.Metadata
import Stencil.OutputPath
import Stencil.Text.Point
import Stencil.Text.Upper

/-!
# Scripts

The shell script of a template. Run with `get-template` or `get-vars` it prints its source or its
payload; otherwise it reads options, applies filters and prints the text or writes it to a file. A
script is a row of sections, each of which is a row of whole lines.
-/

namespace Stencil.Script

/-- How a script starts. -/
def preamble : String :=
  "#!/bin/sh\nset -e\n\n"

/-- Opens the part that is skipped when the script is asked about itself. -/
def guardOpen : String :=
  "if [ ! \"$1\" = \"get-template\" ] && [ ! \"$1\" = \"get-vars\" ]; then\n\n" ++
    "# normal template-outputing block\n"

/-- Closes that part. -/
def guardClose : String :=
  "\n# end normal block\nfi\n"

/-- Every variable starts empty, whatever the environment holds. -/
def declarations (t : Template) : String :=
  "\n# variable declarations\n" ++ String.join (t.vars.map fun v => v.name ++ "=''\n")

/-- The flag that asks for the help. -/
def helpFlag : String := "-h, --help"

/-- The flag that gives the name of the file. -/
def nameFlag : String := "--name NAME"

/-- The flag of a variable in the help text. -/
def flagOf (v : Variable) : String :=
  "--" ++ v.name ++ " " ++ Text.upper v.name

/-- The column at which the descriptions of the help text start. -/
def helpColumn (t : Template) : Nat :=
  let widest := (t.vars.map fun v => 2 * v.name.length + 3).foldl max 0
  max widest (max helpFlag.length nameFlag.length) + 5

/-- Blanks from the end of a flag to the column of the descriptions. -/
def pad (column used : Nat) : String :=
  String.ofList (List.replicate (column - used) ' ')

/-- A flag and its description, one column apart from the others. -/
def option (column : Nat) (flag description : String) : String :=
  flag ++ pad column flag.length ++ description

/-- A line that prints what stands between double quotes. -/
def echo (indent quoted : String) : String :=
  indent ++ "echo \"" ++ quoted ++ "\"\n"

/-- The option line of a variable. -/
def variableOption (column : Nat) (v : Variable) : String :=
  echo "      " <|
    match v.description with
    | none => flagOf v
    | some d => option column (flagOf v) d

/-- The branch that prints the help text. -/
def help (name : String) (t : Template) (path : Option String) : String :=
  let column := helpColumn t
  "    *)\n" ++
    echo "      " (Escape.escape name ++ ":") ++
    echo "      " ("generates file at " ++ OutputPath.forHelp path) ++
    echo "      " "" ++
    echo "      " "options:" ++
    echo "      " (option column helpFlag "show brief help") ++
    echo "      " (option column nameFlag "filename (without extension)") ++
    String.join ((t.vars.filter (·.name != nameVariable)).map (variableOption column)) ++
    "      exit 0\n      ;;\n"

/-- The branch that takes the value of a variable. -/
def optionBranch (v : Variable) : String :=
  "    --" ++ v.name ++ ")\n      shift\n      " ++ v.name ++ "=\"$1\"\n      shift\n      ;;\n"

/-- The loop over the arguments. -/
def arguments (name : String) (t : Template) (path : Option String) : String :=
  "\n# parse arguments\nwhile test $# -gt 0; do\n  case \"$1\" in\n" ++
    String.join (t.vars.map optionBranch) ++ help name t path ++ "  esac\ndone\n"

/-- The line that sets a variable that is still empty. -/
def defaultLine (v : Variable) : Option String :=
  v.default.map fun d => v.name ++ "=$\x7b" ++ v.name ++ ":-\"" ++ d ++ "\"\x7d\n"

/-- The part that gives the variables their defaults. -/
def defaults (t : Template) : String :=
  match t.vars.filterMap defaultLine with
  | [] => ""
  | lines => "\n# set variable defaults\n" ++ String.join lines

/-- Stops the script when a variable has no value and the condition holds. -/
def check (name condition : String) : String :=
  "if [ -z \"$" ++ name ++ "\" ]" ++ condition ++
    "; then\n  echo \"Error: No value provided for " ++
    name ++ "\"\n  exit 1\nfi\n"

/-- A name that the source does not use is needed only to write a file. -/
def checks (t : Template) : String :=
  "\n# check that all variables have values\n" ++
    String.join ((t.vars.filter (·.name != nameVariable)).map fun v => check v.name "") ++
    check nameVariable (if t.usesName then "" else " && [ -t 1 ]")

/-- The expression of a chain, the first filter innermost. -/
def chainExpression (c : Chain) : String :=
  c.filters.foldl (fun e f => "$(" ++ f ++ " " ++ e ++ ")") ("\"$" ++ c.base ++ "\"")

/-- The part that defines the filters and computes the chains. -/
def filters (lib : FilterLibrary) (t : Template) : String :=
  if t.chains.isEmpty then ""
  else
    "\n# filters\n" ++ lib.render t.usedFilters ++ "\n# filtered variables\n" ++
      String.join (t.chains.map fun c => c.name ++ "=" ++ chainExpression c ++ "\n")

/-- The line that makes the directory of the file. -/
def makeDirectory (path : Option String) : String :=
  match OutputPath.directory? path with
  | none => ""
  | some d => "  mkdir -p \"" ++ d ++ "\"\n"

/-- Prints the text, or writes it to a file when the output is a terminal. -/
def output (t : Template) (path : Option String) : String :=
  let file := OutputPath.forScript path
  "\nout=\"" ++ t.skeleton ++ "\"\nif [ -t 1 ] ; then\n" ++ makeDirectory path ++
    "\n  # check if file exists\n  if [ -f \"" ++ file ++ "\" ] ; then\n" ++
    "     read -r -p \"File already exists, overwrite? [y/N] \" response\n" ++
    "     case \"$response\" in\n       [yY][eE][sS]|[yY])\n         ;;\n       *)\n" ++
    "         echo \"Stopping\"\n         exit 1\n         ;;\n     esac\n  fi\n\n" ++
    "  echo \"$out\" > \"" ++ file ++ "\"\n  echo \"created file at " ++ file ++ "\";\nelse\n" ++
    "  echo \"$out\"\nfi\n"

/-- Prints the source or the payload on request. -/
def editing (t : Template) (path : Option String) : String :=
  "\n# template editing section\n\nif [ \"$1\" = \"get-template\" ]; then\n" ++
    echo "" (Escape.escape t.source) ++ "fi\n\nif [ \"$1\" = \"get-vars\" ]; then\n" ++
    echo "" (Escape.escape (Metadata.payload t path)) ++ "fi\n"

/-- The script of a template. -/
def compile (lib : FilterLibrary) (name : String) (t : Template) (path : Option String) : String :=
  preamble ++ guardOpen ++ declarations t ++ arguments name t path ++ defaults t ++ checks t ++
    filters lib t ++ output t path ++ guardClose ++ editing t path

/-- The script of a template whose default path may hold halves of characters. To every section a
half is a letter like others, so two scripts with different letters in their place show where the
halves end up. -/
def compilePoints (lib : FilterLibrary) (name : String) (t : Template) (path : Option Text.Points) :
    Text.Points :=
  let script (base : Nat) : String := compile lib name t (path.map (Text.Points.standIn base))
  Text.Points.ofStandIns 0x10000 (script 0x10000) (script 0x20000)

/-- With a path that is a text, the script is the one of that text. -/
@[simp]
theorem compilePoints_ofString (lib : FilterLibrary) (name : String) (t : Template)
    (path : Option String) :
    compilePoints lib name t (path.map Text.Points.ofString) =
      Text.Points.ofString (compile lib name t path) := by
  simp [compilePoints, Function.comp_def]

end Stencil.Script
