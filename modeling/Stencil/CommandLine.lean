import Stencil.Command

/-!
# The command line

Arguments are read in two rounds: the options of the program up to the name of a command, then the
options and arguments of that command. What cannot be read is a usage error, which ends the program
with status 2.
-/

namespace Stencil.CommandLine

/-- The options that there are. -/
inductive Switch where
  | verbose
  | version
  | help
  | retry (b : Bool)
  | source
  deriving DecidableEq, Repr

/-- An option with its names: some stand behind two hyphens, others are a letter behind one. -/
structure Known where
  switch : Switch
  long : List String
  short : List Char := []
  takesValue : Bool := false

/-- An option that was given, with its value if it takes one. -/
structure Given where
  switch : Switch
  value : String := ""
  deriving DecidableEq, Repr

/-- The options of the program itself. -/
def programOptions : List Known :=
  [ { switch := .verbose, long := ["--verbose"], short := ['v'] },
    { switch := .version, long := ["--version"] },
    { switch := .help, long := ["--help"] } ]

/-- The options of a command that opens the editor. -/
def editingOptions : List Known :=
  [ { switch := .retry true, long := ["--retry"] },
    { switch := .retry false, long := ["--no-retry"] },
    { switch := .help, long := ["--help"] } ]

/-- The options of the command that makes a template. -/
def createOptions : List Known :=
  { switch := .source, long := ["--source"], short := ['s'], takesValue := true } :: editingOptions

/-- The option that every command has. -/
def plainOptions : List Known :=
  [{ switch := .help, long := ["--help"] }]

/-- Reads letters behind one hyphen. A letter that takes a value takes the rest, or the next
argument. -/
def readShort (known : List Known) : List Char → List String → Option (List Given × List String)
  | [], rest => some ([], rest)
  | c :: cs, rest =>
    match known.find? fun k => k.short.contains c with
    | none => none
    | some k =>
      if k.takesValue then
        match cs, rest with
        | [], [] => none
        | [], value :: rest' => some ([{ switch := k.switch, value }], rest')
        | cs, rest => some ([{ switch := k.switch, value := String.ofList cs }], rest)
      else (readShort known cs rest).map fun (gs, r) => ({ switch := k.switch } :: gs, r)

/-- Reads an argument that begins with a hyphen. A long name may have its value behind an equals
sign. -/
def readOption (known : List Known) (arg : String) (rest : List String) :
    Option (List Given × List String) :=
  let cs := arg.toList
  let name := String.ofList (cs.takeWhile (· != '='))
  let attached : Option String :=
    match cs.dropWhile (· != '=') with
    | [] => none
    | _ :: value => some (String.ofList value)
  match known.find? fun k => k.long.contains name with
  | some k =>
    match k.takesValue, attached, rest with
    | true, some value, rest => some ([{ switch := k.switch, value }], rest)
    | true, none, value :: rest' => some ([{ switch := k.switch, value }], rest')
    | true, none, [] => none
    | false, some _, _ => none
    | false, none, rest => some ([{ switch := k.switch }], rest)
  | none => if Text.startsWith arg "--" then none else readShort known (cs.drop 1) rest

/-- Reads options and arguments. Where `mixed` does not hold, the first argument ends the options,
as two hyphens do everywhere. The fuel bounds the number of steps. -/
def readArguments (known : List Known) (mixed : Bool) :
    Nat → List String → Option (List Given × List String)
  | 0, _ => none
  | _ + 1, [] => some ([], [])
  | fuel + 1, arg :: rest =>
    if arg == "--" then some ([], rest)
    else if Text.startsWith arg "-" && arg.length > 1 then
      match readOption known arg rest with
      | none => none
      | some (gs, rest') =>
        (readArguments known mixed fuel rest').map fun (more, args) => (gs ++ more, args)
    else if mixed then
      (readArguments known mixed fuel rest).map fun (gs, args) => (gs, arg :: args)
    else some ([], arg :: rest)

/-- What the arguments of the program ask for. -/
inductive Invocation where
  | usage
  | help
  | version
  | run (r : Command.Request)
  deriving DecidableEq, Repr

/-- Was the switch given? -/
def has (gs : List Given) (s : Switch) : Bool :=
  gs.any (·.switch == s)

/-- Shall the editor be opened again after an error? The last word counts. -/
def retryOf (gs : List Given) : Bool :=
  (gs.filterMap fun g =>
    match g.switch with
    | .retry b => some b
    | _ => none).getLast?.getD true

/-- The source file that was given last. -/
def sourceOf (gs : List Given) : Option String :=
  (gs.filterMap fun g =>
    match g.switch with
    | .source => some g.value
    | _ => none).getLast?

/-- The options of a command. -/
def optionsOf? (command : String) : Option (List Known) :=
  match command with
  | "init" | "list" | "delete" => some plainOptions
  | "create" => some createOptions
  | "edit" => some editingOptions
  | _ => none

/-- The request that a command's options and arguments stand for. -/
def request? (command : String) (gs : List Given) (args : List String) : Option Command.Request :=
  match command, args with
  | "init", [] => some .init
  | "list", [] => some .list
  | "delete", [name] => some (.delete name)
  | "edit", [name] => some (.edit name (retryOf gs))
  | "create", [name] => some (.create name none (sourceOf gs) (retryOf gs))
  | "create", [name, path] => some (.create name (some path) (sourceOf gs) (retryOf gs))
  | _, _ => none

/-- Enough fuel for the arguments. -/
def fuelFor (args : List String) : Nat :=
  args.length + 1

/-- Reads the arguments of a command. -/
def readCommand (command : String) (args : List String) : Invocation :=
  match optionsOf? command with
  | none => .usage
  | some known =>
    match readArguments known true (fuelFor args) args with
    | none => .usage
    | some (gs, rest) =>
      if has gs .help then .help
      else
        match request? command gs rest with
        | some r => .run r
        | none => .usage

/-- Reads the arguments of the program. -/
def read (args : List String) : Invocation :=
  match readArguments programOptions false (fuelFor args) args with
  | none => .usage
  | some (gs, rest) =>
    if has gs .help then .help
    else if has gs .version then .version
    else
      match rest with
      | [] => .usage
      | command :: more => readCommand command more

/-- The text that tells the version. -/
def versionText : String := "moho 0.1.0\n"

/-- May the file seed the editor? It must be there and be no directory. -/
def isSource (t : Files.Tree) (path : String) : Bool :=
  !path.isEmpty && !Text.endsWith path "/" &&
    match t.exists? (Files.Path.ofString path) with
    | .ok there => there && !t.isDirectory (Files.Path.ofString path).parts
    | .error _ => false

/-- A request for a source that is not there is a usage error. -/
def isUsable (t : Files.Tree) : Command.Request → Bool
  | .create _ _ (some source) _ => isSource t source
  | _ => true

/-- How a run of the program ended. -/
structure Result where
  status : Int
  session : Session
  /-- An error that no command reported. -/
  unreported : Option Escaped := none

/-- What an abort prints. -/
def abortText : String := "Aborted.\n"

/-- Ends a session after a failure. -/
def finish (s : Session) (e : Failure) : Result :=
  let (text, ending) := e.handle
  match ending with
  | .abort => { status := 1, session := { s with errors := s.errors ++ text ++ abortText } }
  | .exit status =>
    let unreported := match e with
      | .unreported err => some err
      | _ => none
    { status, session := { s with errors := s.errors ++ text }, unreported }

/-- Performs a request. -/
def perform (r : Command.Request) (s : Session) : Result :=
  match (Command.perform r).run s with
  | (.ok _, s') => { status := 0, session := s' }
  | (.error e, s') => finish s' e

/-- Runs the program with arguments in a session. -/
def run (args : List String) (s : Session) : Result :=
  match read args with
  | .usage => { status := 2, session := s }
  | .help => { status := 0, session := s }
  | .version => { status := 0, session := { s with terminal := s.terminal.print versionText } }
  | .run r => if isUsable s.tree r then perform r s else { status := 2, session := s }

end Stencil.CommandLine
