import Stencil.Shell.Condition
import Stencil.Shell.Field
import Stencil.Shell.World

/-!
# Commands that need no script

The commands that the shell has built in, and a few that work on files. All others are not found.
-/

namespace Stencil.Shell

/-! ## Files -/

/-- What a test can ask about the files. -/
def factsOf (t : Files.Tree) : FileFacts :=
  let entry := entryAt? t
  { exists? := fun a => (entry a).isSome
    isFile := fun a =>
      match entry a with
      | some (.file _) => true
      | _ => false
    isDirectory := fun a => entry a == some .directory
    isExecutable := fun a =>
      match entry a with
      | some (.file f) => f.executable
      | some .directory => true
      | none => false
    isNonempty := fun a =>
      match entry a with
      | some (.file f) => !f.bytes.isEmpty
      | some .directory => true
      | none => false }

/-- A reason as the system words it. -/
def systemReason : Unexpected → String
  | .fileExists _ => "File exists"
  | .isDirectory _ => "Is a directory"
  | .notDirectory _ => "Not a directory"
  | .nameTooLong _ => "File name too long"
  | _ => "No such file or directory"

/-- Bytes as the characters with their numbers. -/
def bytesText (bs : List UInt8) : List Char :=
  bs.map fun b => Char.ofNat b.toNat

/-- Opens a file for a descriptor. -/
def openFile (fd : Nat) (kind : RedirectKind) (arg : List Char) : RunM Unit := do
  let w ← get
  let p := pathOf arg
  let name := String.ofList arg
  let bind (sink : Sink) : RunM Unit :=
    modify fun w => { w with sinks := (fd, sink) :: w.sinks.filter (·.1 != fd) }
  if name == "/dev/null" then
    if fd == 0 then modify fun w => { w with input := [] }
    bind .nowhere
  else if kind == .read || kind == .readWrite then
    match w.tree.read p with
    | .ok bs => if fd == 0 then modify fun w => { w with input := bytesText bs }
    | .error (.isDirectory _) => pure ()
    | .error (.notFound _) =>
      match kind, w.tree.write p [] with
      | .readWrite, .ok tree => set { w with tree }
      | _, _ => die ("cannot open " ++ name ++ ": No such file")
    | .error _ => die ("cannot open " ++ name ++ ": No such file")
  else
    let old := match w.tree.read p with
      | .ok bs => bs
      | .error _ => []
    match w.tree.write p (if kind == .append then old else []) with
    | .ok tree =>
      set { w with tree }
      bind (.file p)
    | .error (.isDirectory _) => die ("cannot create " ++ name ++ ": Is a directory")
    | .error (.notDirectory _) => die ("cannot create " ++ name ++ ": Not a directory")
    | .error _ => die ("cannot create " ++ name ++ ": Directory nonexistent")

/-- A target that is no descriptor is noticed late, on the line up to which the script was read. -/
def badDescriptor : RunM Unit := do
  modify fun w => { w with line := w.readTo }
  die "Syntax error: Bad fd number"

/-- Makes a descriptor a copy of another, or closes it. -/
def copyDescriptor (fd : Nat) (arg : List Char) : RunM Unit := do
  let w ← get
  let bind (sink : Sink) : RunM Unit :=
    set { w with sinks := (fd, sink) :: w.sinks.filter (·.1 != fd) }
  match arg with
  | ['-'] => bind .closed
  | [c] =>
    if isDigit c then
      match w.sinks.lookup (c.toNat - '0'.toNat) with
      | some sink => bind sink
      | none => die (c.toString ++ ": Bad file descriptor")
    else badDescriptor
  | _ => badDescriptor

/-! ## Builtin commands -/

/-- Runs the step in a place of its own: what it does to variables, functions and descriptors is
undone, and it gives a status even when it is left early. -/
def apart (act : RunM Unit) : RunM Nat := fun w =>
  let (r, w') := act.run w
  let back : World :=
    { w with
      tree := w'.tree
      input := w'.input
      out := w'.out
      err := w'.err
      captures := w'.captures }
  match r with
  | .ok _ => (.ok w'.status, back)
  | .error .killed => (.error .killed, back)
  | .error .outOfFuel => (.error .outOfFuel, back)
  | .error (.exit n) => (.ok n, back)
  | .error (.back n) => (.ok n, back)
  | .error _ => (.ok w'.status, back)

/-- A status given as an argument. -/
def statusArg (command : String) (args : List (List Char)) : RunM Nat := do
  match args with
  | [] => return (← get).status
  | a :: _ =>
    if !a.isEmpty && a.all isDigit then return digitsValue a % 256
    else die (command ++ ": Illegal number: " ++ String.ofList a)

/-- A count given as an argument. -/
def countArg (command : String) (args : List (List Char)) : RunM Nat := do
  match args with
  | [] => return 1
  | a :: _ =>
    if !a.isEmpty && a.all isDigit then return digitsValue a
    else die (command ++ ": Illegal number: " ++ String.ofList a)

/-- A variable given as an argument. -/
def checkName (command : String) (name : List Char) : RunM Unit := do
  if !isName name then die (command ++ ": " ++ String.ofList name ++ ": bad variable name")

/-- The names of options with their letters. -/
def optionNames : List (String × Char) :=
  [("errexit", 'e'), ("noglob", 'f'), ("ignoreeof", 'I'), ("monitor", 'm'), ("noexec", 'n'),
    ("stdin", 's'), ("interactive", 'i'), ("xtrace", 'x'), ("verbose", 'v'), ("vi", 'V'),
    ("emacs", 'E'), ("noclobber", 'C'), ("allexport", 'a'), ("notify", 'b'), ("nounset", 'u'),
    ("privileged", 'p')]

/-- Turns an option on or off. -/
def setOption (on : Bool) (c : Char) : RunM Unit :=
  modify fun w => { w with options := if on then c :: w.options else w.options.filter (· != c) }

/-- Sets the options of a row of letters. One that asks for a name takes it from the arguments that
follow. -/
def setLetters (on : Bool) : List Char → List (List Char) → RunM (List (List Char))
  | [], rest => return rest
  | c :: cs, rest => do
    if c == 'o' then
      match rest with
      | [] => setLetters on cs []
      | name :: rest =>
        match optionNames.lookup (String.ofList name) with
        | some letter =>
          setOption on letter
          setLetters on cs rest
        | none => die ("set: Illegal option -o " ++ String.ofList name)
    else if optionLetters.contains c then
      setOption on c
      setLetters on cs rest
    else die ("set: Illegal option -" ++ c.toString)

/-- Sets the options and arguments of the shell. -/
def setOptions : Nat → List (List Char) → RunM Unit
  | 0, _ => pure ()
  | _ + 1, [] => pure ()
  | fuel + 1, arg :: rest =>
    match arg with
    | ['-', '-'] => modify fun w => { w with args := rest }
    | ['-'] => if rest.isEmpty then pure () else modify fun w => { w with args := rest }
    | '-' :: c :: cs => do setOptions fuel (← setLetters true (c :: cs) rest)
    | '+' :: cs => do setOptions fuel (← setLetters false cs rest)
    | _ => modify fun w => { w with args := arg :: rest }

/-- Sends a signal. Only the shell's own process can be reached. -/
def kill (args : List (List Char)) : RunM Nat := do
  let (signal, targets) :=
    match args with
    | ['-', 's'] :: s :: rest => (s, rest)
    | ('-' :: s) :: rest => (s, rest)
    | rest => ("TERM".toList, rest)
  let harmless := ["0", "CHLD", "CONT", "URG", "WINCH", "17", "18", "23", "28"]
  if harmless.contains (String.ofList signal) then return 0
  if targets.contains processNumber then throw .killed
  warn "kill: No such process"
  return 1

/-- Gives the fields of a line to variables. The last one takes all that is left. -/
def giveFields (seps : List Char) : List (List Char) → List Char → RunM Unit
  | [], _ => pure ()
  | [name], line =>
    setVar name ((line.reverse.dropWhile fun c => isBlank c && seps.contains c).reverse) "read: "
  | name :: names, line => do
    let value := line.takeWhile fun c => !seps.contains c
    setVar name value "read: "
    let rest := (line.drop value.length).dropWhile fun c => isBlank c && seps.contains c
    let isMark := rest.head?.any fun c => seps.contains c
    giveFields seps names <|
      if isMark then rest.tail.dropWhile fun c => isBlank c && seps.contains c else rest
where
  isBlank (c : Char) : Bool := c == ' ' || c == '\t' || c == '\n'

/-- Joins lines that end in a backslash, and drops other backslashes. Gives also what follows the
line. -/
def joinLines : List Char → List Char × List Char
  | [] => ([], [])
  | '\\' :: '\n' :: rest => joinLines rest
  | '\\' :: c :: rest =>
    let (line, after) := joinLines rest
    (c :: line, after)
  | '\n' :: rest => ([], '\n' :: rest)
  | c :: rest =>
    let (line, after) := joinLines rest
    (c :: line, after)

/-- Reads a line into variables. It goes no further than to one that cannot be set. -/
def readLine (args : List (List Char)) : RunM Nat := do
  let names := args.dropWhile fun a => a.head? == some '-'
  if names.isEmpty then
    warn "read: arg count"
    return 2
  let w ← get
  let isRaw := args.contains ['-', 'r']
  let (line, rest) :=
    if isRaw then (w.input.takeWhile (· != '\n'), w.input.dropWhile (· != '\n'))
    else joinLines w.input
  set { w with input := rest.drop 1 }
  let seps := separators w
  try
    giveFields seps names (line.dropWhile fun c => (c == ' ' || c == '\t') && seps.contains c)
    return if rest.isEmpty then 1 else 0
  catch
    | .exit status => return status
    | j => throw j

/-- Prints files one after the other, or the input. -/
def concatenate (args : List (List Char)) : RunM Nat := do
  let files := args.filter fun a => a == ['-'] || a.head? != some '-'
  let takeInput : RunM Unit := do
    let text := (← get).input
    modify fun w => { w with input := [] }
    print text
  if files.isEmpty then
    takeInput
    return 0
  else
    files.foldlM (fun status f => do
      if f == ['-'] then
        takeInput
        return status
      else
        match (← get).tree.read (pathOf f) with
        | .ok bs =>
          print (bytesText bs)
          return status
        | .error e =>
          printTo 2 ("cat: " ++ String.ofList f ++ ": " ++ systemReason e ++ "\n").toList
          return 1) 0

/-- Makes directories. -/
def makeDirectories (args : List (List Char)) : RunM Nat := do
  let parents := args.any fun a => a.head? == some '-' && a.contains 'p'
  let dirs := args.filter fun a => a.head? != some '-'
  dirs.foldlM (fun status d => do
    let w ← get
    let p := pathOf d
    let report (reason : String) : RunM Nat := do
      printTo 2
        ("mkdir: cannot create directory ‘" ++ String.ofList d ++ "’: " ++ reason ++ "\n").toList
      return 1
    if parents then
      match w.tree.makeDirectory p with
      | .ok tree =>
        set { w with tree }
        return status
      | .error e => report (systemReason e)
    else
      match w.tree.obstacle? p with
      | some e => report (systemReason e)
      | none =>
        if (w.tree.get? p.parts).isSome then report "File exists"
        else
          set { w with tree := w.tree.set p.parts .directory }
          return status) 0

/-- Makes files that are missing. -/
def touch (args : List (List Char)) : RunM Nat := do
  (args.filter fun a => a.head? != some '-').foldlM (fun status f => do
    let w ← get
    let p := pathOf f
    match w.tree.get? p.parts with
    | some _ => return status
    | none =>
      match w.tree.write p [] with
      | .ok tree =>
        set { w with tree }
        return status
      | .error e =>
        printTo 2
          ("touch: cannot touch '" ++ String.ofList f ++ "': " ++ systemReason e ++ "\n").toList
        return 1) 0

/-- Takes files away. -/
def removeFiles (args : List (List Char)) : RunM Nat := do
  let has (c : Char) : Bool := args.any fun a => a.head? == some '-' && a.contains c
  (args.filter fun a => a.head? != some '-').foldlM (fun status f => do
    let w ← get
    let p := pathOf f
    match w.tree.get? p.parts with
    | some (.file _) =>
      set { w with tree := w.tree.erase p.parts }
      return status
    | some .directory =>
      if has 'r' || has 'R' then
        set { w with tree := w.tree.eraseAll p.parts }
        return status
      else
        printTo 2 ("rm: cannot remove '" ++ String.ofList f ++ "': Is a directory\n").toList
        return 1
    | none =>
      if has 'f' then return status
      else
        printTo 2
          ("rm: cannot remove '" ++ String.ofList f ++ "': No such file or directory\n").toList
        return 1) 0

/-- Evaluates a condition. -/
def test (name : String) (args : List (List Char)) : RunM Nat := do
  let args ←
    if name == "[" then
      if args.getLast? == some [']'] then pure args.dropLast
      else
        warn "[: missing ]"
        return 2
    else pure args
  match Condition.eval (factsOf (← get).tree) args with
  | .ok b => return if b then 0 else 1
  | .error message =>
    warn (name ++ ": " ++ message)
    return 2

/-- Prints arguments by a format. -/
def printFormat (args : List (List Char)) : RunM Nat := do
  match (if args.head? == some ['-', '-'] then args.tail else args) with
  | [] =>
    warn "printf: usage: printf format [arg ...]"
    return 2
  | format :: rest =>
    let p := formatAll format (rest.length + 2) rest
    print p.text
    for c in p.complaints do
      warn ("printf: " ++ c)
    return if p.failed then 2 else if p.complaints.isEmpty then 0 else 1

/-- The names of the commands that the shell has built in. -/
def builtinNames : List String :=
  [":", "true", "false", "echo", "printf", "test", "[", "exit", "return", "break", "continue",
    "shift", "set", "unset", "export", "readonly", "local", "trap", "kill", "read", "umask",
    "ulimit", "wait", "hash", "times", "cd", "alias", "unalias", "eval", "exec", "command", ".",
    "type", "getopts", "pwd", "jobs", "fg", "bg", "chdir"]

/-- The names of the commands that work on files. -/
def fileCommands : List String :=
  ["cat", "mkdir", "touch", "rm"]

/-- Tells what a name stands for: in a sentence, or only by the name. -/
def describe (inSentence : Bool) (name : List Char) : RunM Nat := do
  let text := String.ofList name
  let tell (what : String) : RunM Nat := do
    print ((if inSentence then text ++ what else text).toList ++ ['\n'])
    return 0
  if reservedWords.contains text then tell " is a shell keyword"
  else if ((← get).functions.lookup name).isSome then tell " is a shell function"
  else if builtinNames.contains text then
    tell
      (if specialBuiltins.contains text then " is a special shell builtin"
        else " is a shell builtin")
  else
    if inSentence then print (text ++ ": not found\n").toList
    return 127

/-- Runs a command by its name, if it is known and no function. -/
def builtin (name : String) (args : List (List Char)) : RunM (Option Nat) := do
  match name with
  | ":" | "true" => return some 0
  | "false" => return some 1
  | "echo" =>
    print (echo args)
    return some 0
  | "printf" => return some (← printFormat args)
  | "test" | "[" => return some (← test name args)
  | "exit" => throw (.exit (← statusArg name args))
  | "return" => throw (.back (← statusArg name args))
  | "break" | "continue" =>
    let n ← countArg name args
    if n == 0 then die (name ++ ": Illegal number: 0")
    let depth := (← get).loops
    if depth == 0 then return some 0
    throw (if name == "break" then .leave (min depth n) else .again (min depth n))
  | "shift" =>
    let n ← countArg name args
    let w ← get
    if n > w.args.length then die "shift: can't shift that many"
    set { w with args := w.args.drop n }
    return some 0
  | "set" =>
    setOptions args.length args
    return some 0
  | "unset" =>
    let names := args.dropWhile fun a => a.head? == some '-'
    for a in names do
      if args.head? != some ['-', 'f'] then
        checkName name a
        unsetVar a
      else modify fun w => { w with functions := w.functions.filter (·.1 != a) }
    return some 0
  | "export" | "readonly" | "local" =>
    if name == "local" && (← get).calls == 0 then die "local: not in a function"
    for a in args.dropWhile fun a => a.head? == some '-' do
      let n := a.takeWhile (· != '=')
      checkName name n
      if n.length < a.length then setVar n (a.drop (n.length + 1)) (name ++ ": ")
      if name == "readonly" then modify fun w => { w with fixed := n :: w.fixed }
    return some 0
  | "trap" =>
    match args with
    | action :: signals =>
      if signals.any fun s => s == ['0'] || s == "EXIT".toList then
        modify fun w => { w with last := if action == ['-'] then [] else action }
    | [] => pure ()
    return some 0
  | "type" => return some (← args.foldlM (fun status a => return max status (← describe true a)) 0)
  | "kill" => return some (← kill args)
  | "read" => return some (← readLine args)
  | "umask" | "ulimit" | "wait" | "hash" | "times" | "cd" | "alias" | "unalias" => return some 0
  | "cat" => return some (← concatenate args)
  | "mkdir" => return some (← makeDirectories args)
  | "touch" => return some (← touch args)
  | "rm" => return some (← removeFiles args)
  | _ => return none

end Stencil.Shell
