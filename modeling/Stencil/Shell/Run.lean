import Stencil.Shell.Arithmetic
import Stencil.Shell.Builtin
import Stencil.Shell.Parse

/-!
# Running a script

A script runs on a file tree with some arguments. It ends with a status, or by a signal, and leaves
the text that it printed and the tree as it then is.

Loops need not end, so a run has a bound on its steps.
-/

namespace Stencil.Shell

/-- A word that is followed by others in braces counts as missing. -/
def isMissing (colon : Bool) : Option (List Char) → Bool
  | none => true
  | some v => colon && v.isEmpty

/-- Ends the run if the last command failed and that matters. -/
def checkFailure (tested : Bool) : RunM Unit := do
  let w ← get
  if w.stopsOnFailure && !tested && w.status != 0 then throw (.exit w.status)

/-- Is the name one of a function or of a command that can be run? -/
def isKnown (w : World) (name : List Char) : Bool :=
  let text := String.ofList name
  (w.functions.lookup name).isSome || builtinNames.contains text || fileCommands.contains text

/-- Reports a command that cannot be run: there is none of that name, or what has the name cannot be
executed. -/
def missing (reporter : String) (name : List Char) : RunM Unit := do
  let refused := name.isEmpty || (name.contains '/' && (entryAt? (← get).tree name).isSome)
  warn (reporter ++ String.ofList name ++ if refused then ": Permission denied" else ": not found")
  modify fun w => { w with status := if refused then 126 else 127 }

mutual

/-- Expands a part of a word. -/
def expandPart (p : Part) : Nat → RunM (List Atom)
  | 0 => throw .outOfFuel
  | fuel + 1 => do
    match p with
    | .char c q => return [.char c q]
    | .quote => return [.quote]
    | .arithmetic inside quoted =>
      let text := joinedText (← expandParts inside fuel)
      let w ← get
      match Arithmetic.eval w.vars text with
      | .ok (n, vars) =>
        match w.fixed.find? fun name => vars.lookup name != w.vars.lookup name with
        | some name => die (String.ofList name ++ ": is read only")
        | none =>
          match (vars.lookup optionIndex).filter fun index => !isAllowed optionIndex index with
          | some index => die ("Illegal number: " ++ String.ofList index)
          | none =>
            set { w with vars }
            return atomsOf quoted (toString n).toList
      | .error e => die (e.message text)
    | .command cs quoted =>
      let text ← substitute cs fuel
      return atomsOf quoted text
    | .param name op word quoted =>
      let w ← get
      let v := paramValue w name
      let checked : RunM (List Atom) := do
        match v with
        | some text =>
          if name == ['@'] && quoted then
            return (List.intersperse [Atom.cut]
              (w.args.map fun a => .quote :: atomsOf true a)).flatten
          else if (name == ['@'] || name == ['*']) && !quoted then
            return (List.intersperse [Atom.cut] (w.args.map (atomsOf false))).flatten
          else return atomsOf quoted text
        | none =>
          if w.refusesUnset && !(name == ['@'] || name == ['*']) then
            die (String.ofList name ++ ": parameter not set")
          else return []
      match op with
      | .value => checked
      | .bad => die "Bad substitution"
      | .length =>
        if v.isNone && w.refusesUnset then die (String.ofList name ++ ": parameter not set")
        return atomsOf quoted (toString (v.getD []).length).toList
      | .default colon => if isMissing colon v then expandParts word fuel else checked
      | .alternative colon => if isMissing colon v then return [] else expandParts word fuel
      | .assign colon =>
        if isMissing colon v then
          let text := joinedText (← expandParts word fuel)
          if !isName name then die (String.ofList name ++ ": bad variable name")
          setVar name text
          return atomsOf quoted text
        else checked
      | .require colon =>
        if isMissing colon v then
          let text := joinedText (← expandParts word fuel)
          let message := if text.isEmpty then
              if colon then "parameter not set or null" else "parameter not set"
            else String.ofList text
          die (String.ofList name ++ ": " ++ message)
        else checked
      | .trim atStart longest =>
        let pattern := patternText (← expandParts word fuel)
        match v with
        | none =>
          if w.refusesUnset then die (String.ofList name ++ ": parameter not set")
          return []
        | some text =>
          let out :=
            if atStart then trimStart longest pattern text else trimEnd longest pattern text
          return atomsOf quoted out

/-- Expands the parts of a word. -/
def expandParts (ps : Word) : Nat → RunM (List Atom)
  | 0 => throw .outOfFuel
  | fuel + 1 => do
    match ps with
    | [] => return []
    | p :: rest => return (← expandPart p fuel) ++ (← expandParts rest fuel)

/-- Expands a word to fields. -/
def fields (word : Word) : Nat → RunM (List (List Char))
  | 0 => throw .outOfFuel
  | fuel + 1 => do
    let atoms ← expandParts word fuel
    let noArgs := (← get).args.isEmpty && word.any fun p =>
      match p with
      | .param ['@'] .value _ true => true
      | _ => false
    let atoms := if noArgs && atoms.all (· == .quote) then [] else atoms
    let w ← get
    let found := fieldsFrom (separators w) none atoms
    return if w.options.contains 'f' then found.map Field.text
      else found.flatMap (pathsOf w.place w.tree)

/-- Expands words to fields. -/
def allFields (ws : List Word) : Nat → RunM (List (List Char))
  | 0 => throw .outOfFuel
  | fuel + 1 => do
    match ws with
    | [] => return []
    | w :: rest => return (← fields w fuel) ++ (← allFields rest fuel)

/-- Expands a word to one text. -/
def textOf (word : Word) : Nat → RunM (List Char)
  | 0 => throw .outOfFuel
  | fuel + 1 => do
    return joinedText (← expandParts word fuel)

/-- What commands print, without the line ends at its end. -/
def substitute (cs : List Command) : Nat → RunM (List Char)
  | 0 => throw .outOfFuel
  | fuel + 1 => do
    let d := (← get).depth
    let status ← apart do
      modify fun w =>
        { w with
          depth := d + 1
          sinks := (1, .capture d) :: w.sinks.filter (·.1 != 1)
          captures := (d, []) :: w.captures.filter (·.1 != d) }
      runAll cs false fuel
    let text := ((← get).captures.lookup d).getD []
    modify fun w => { w with substStatus := status, captures := w.captures.filter (·.1 != d) }
    return dropNewlines (text.filter (· != '\x00'))

/-- Performs redirections. -/
def redirect (rs : List Redirect) : Nat → RunM Unit
  | 0 => throw .outOfFuel
  | fuel + 1 => do
    match rs with
    | [] => pure ()
    | .mk fd kind word :: rest =>
      match kind with
      | .document n =>
        let text ← textOf (((← get).documents.lookup n).getD []) fuel
        if fd == 0 then modify fun w => { w with input := text }
      | .copyOut | .copyIn => copyDescriptor fd (← textOf word fuel)
      | kind => openFile fd kind (← textOf word fuel)
      redirect rest fuel

/-- Runs a step with redirections, which are undone after it. One that fails stands for the step,
unless it is fatal. -/
def withRedirects (rs : List Redirect) (isFatal : Bool) (act : RunM Unit) : Nat → RunM Unit
  | 0 => throw .outOfFuel
  | fuel + 1 => do
    if rs.isEmpty then act
    else
      let before := (← get).sinks
      let input := (← get).input
      let feeds := rs.any fun r =>
        match r with
        | .mk fd _ _ => fd == 0
      let undo : RunM Unit :=
        modify fun w => { w with sinks := before, input := if feeds then input else w.input }
      let opened ← try
          redirect rs fuel
          pure none
        catch j => pure (some j)
      match opened with
      | none =>
        try
          act
          undo
        catch j =>
          undo
          throw j
      | some (.exit status) =>
        undo
        if isFatal then throw (.exit status)
        modify fun w => { w with status }
      | some j => throw j

/-- Runs commands in a row. In a tested row, failures do not end the run. -/
def runAll (cs : List Command) (tested : Bool) : Nat → RunM Unit
  | 0 => throw .outOfFuel
  | fuel + 1 => do
    match cs with
    | [] => pure ()
    | c :: rest =>
      run c tested fuel
      runAll rest tested fuel

/-- Runs commands for their status. -/
def succeeds (cs : List Command) : Nat → RunM Bool
  | 0 => throw .outOfFuel
  | fuel + 1 => do
    runAll cs true fuel
    return (← get).status == 0

/-- Runs the first branch whose test succeeds. -/
def runBranches (bs : List (List Command × List Command)) (otherwise : List Command)
    (tested : Bool) :
    Nat → RunM Unit
  | 0 => throw .outOfFuel
  | fuel + 1 => do
    match bs with
    | [] =>
      modify fun w => { w with status := 0 }
      runAll otherwise tested fuel
    | (test, inside) :: rest =>
      if ← succeeds test fuel then runAll inside tested fuel
      else runBranches rest otherwise tested fuel

/-- Runs the body of a loop once. Tells whether the loop goes on. -/
def runOnce (inside : List Command) (tested : Bool) : Nat → RunM Bool
  | 0 => throw .outOfFuel
  | fuel + 1 => do
    let before := (← get).loops
    modify fun w => { w with loops := before + 1 }
    let left ← try
        runAll inside tested fuel
        pure none
      catch j => pure (some j)
    modify fun w => { w with loops := before }
    match left with
    | none => return true
    | some (.leave n) => if n ≤ 1 then return false else throw (.leave (n - 1))
    | some (.again n) => if n ≤ 1 then return true else throw (.again (n - 1))
    | some j => throw j

/-- Runs a loop. -/
def runLoop (isUntil : Bool) (test inside : List Command) (tested : Bool) (status : Nat) :
    Nat → RunM Unit
  | 0 => throw .outOfFuel
  | fuel + 1 => do
    if (← succeeds test fuel) != isUntil then
      if ← runOnce inside tested fuel then runLoop isUntil test inside tested (← get).status fuel
      else modify fun w => { w with status := 0 }
    else modify fun w => { w with status }

/-- Runs a loop over values. -/
def runEach (name : List Char) (values : List (List Char)) (inside : List Command) (tested : Bool) :
    Nat → RunM Unit
  | 0 => throw .outOfFuel
  | fuel + 1 => do
    match values with
    | [] => pure ()
    | v :: rest =>
      setVar name v
      if ← runOnce inside tested fuel then runEach name rest inside tested fuel

/-- Does the text fit one of the patterns? -/
def fitsAny (text : List Char) (ps : List Word) : Nat → RunM Bool
  | 0 => throw .outOfFuel
  | fuel + 1 => do
    match ps with
    | [] => return false
    | p :: rest =>
      if matchesPattern (patternText (← expandParts p fuel)) text then return true
      else fitsAny text rest fuel

/-- Runs the first case that fits. -/
def runCases (text : List Char) (cases : List (List Word × List Command)) (tested : Bool) :
    Nat → RunM Unit
  | 0 => throw .outOfFuel
  | fuel + 1 => do
    match cases with
    | [] => modify fun w => { w with status := 0 }
    | (ps, inside) :: rest =>
      if ← fitsAny text ps fuel then
        modify fun w => { w with status := 0 }
        runAll inside tested fuel
      else runCases text rest tested fuel

/-- Runs commands one after the other, each with the output of the one before as its input. -/
def runPipeline (cs : List Command) : Nat → RunM Unit
  | 0 => throw .outOfFuel
  | fuel + 1 => do
    match cs with
    | [] => pure ()
    | [c] =>
      let status ← apart (run c false fuel)
      modify fun w => { w with status }
    | c :: rest =>
      let d := (← get).depth
      discard <| apart do
        modify fun w =>
          { w with
            depth := d + 1
            sinks := (1, .capture d) :: w.sinks.filter (·.1 != 1)
            captures := (d, []) :: w.captures.filter (·.1 != d) }
        run c false fuel
      let text := ((← get).captures.lookup d).getD []
      modify fun w => { w with input := text, captures := w.captures.filter (·.1 != d) }
      runPipeline rest fuel

/-- Makes assignments. -/
def assignAll (as : List (List Char × Word)) : Nat → RunM Unit
  | 0 => throw .outOfFuel
  | fuel + 1 => do
    match as with
    | [] => pure ()
    | (name, word) :: rest =>
      setVar name (← textOf word fuel)
      assignAll rest fuel

/-- Runs a command by its name: a function, a builtin, or nothing that is known. -/
def call (name : List Char) (args : List (List Char)) (tested : Bool) : Nat → RunM Unit
  | 0 => throw .outOfFuel
  | fuel + 1 => do
    match (← get).functions.lookup name with
    | some body =>
      let before ← get
      let undo : RunM Unit :=
        modify fun w => { w with args := before.args, loops := before.loops, calls := before.calls }
      modify fun w => { w with args, loops := 0, calls := before.calls + 1 }
      try
        run body tested fuel
        undo
      catch j =>
        undo
        match j with
        | .back status => modify fun w => { w with status }
        | j => throw j
    | none =>
      let text := String.ofList name
      match text with
      | "eval" =>
        let source := List.intercalate [' '] args
        let before := (← get).reporter
        modify fun w => { w with status := 0, reporter := some text }
        runText (Reader.ofScript source) fuel
        modify fun w => { w with reporter := before }
      | "exec" =>
        match args with
        | [] => modify fun w => { w with status := 0 }
        | n :: rest =>
          if !isKnown (← get) n then missing "exec: " n
          else call n rest tested fuel
          throw (.exit (← get).status)
      | "command" =>
        match args with
        | [] => modify fun w => { w with status := 0 }
        | ['-', 'v'] :: names | ['-', 'V'] :: names =>
          let status ← names.foldlM
            (fun status n => return max status (← describe (args.head? == some ['-', 'V']) n)) 0
          modify fun w => { w with status }
        | ['-', 'p'] :: n :: rest => call n rest tested fuel
        | ('-' :: c :: _) :: _ => die ("command: Illegal option -" ++ c.toString)
        | n :: rest => call n rest tested fuel
      | "." =>
        match args with
        | [] => modify fun w => { w with status := 0 }
        | f :: _ =>
          match (← get).tree.read (pathOf f) with
          | .ok bs => runText (Reader.ofScript (bytesText bs)) fuel
          | .error _ =>
            if f.contains '/' then die (".: cannot open " ++ String.ofList f ++ ": No such file")
            else die (".: " ++ String.ofList f ++ ": not found")
      | text =>
        match ← builtin text args with
        | some status => modify fun w => { w with status }
        | none => missing "" name

/-- Runs the commands of a text. -/
def runText (r : Reader) : Nat → RunM Unit
  | 0 => throw .outOfFuel
  | fuel + 1 => do
    match r.next with
    | .error e =>
      modify fun w => { w with line := e.line }
      die (((← get).reporter.map (· ++ ": ")).getD "" ++ e.message)
    | .ok (none, _) => pure ()
    | .ok (some cs, r') =>
      modify fun w => { w with documents := r'.documents, readTo := r'.line }
      runAll cs false fuel
      runText r' fuel

/-- Runs a command. -/
def run (c : Command) (tested : Bool) : Nat → RunM Unit
  | 0 => throw .outOfFuel
  | fuel + 1 => do
    match c with
    | .simple line as ws rs =>
      modify fun w => { w with line, substStatus := 0 }
      let argv ← allFields ws fuel
      match argv with
      | [] =>
        modify fun w => { w with status := 0 }
        withRedirects rs false (assignAll as fuel) fuel
        modify fun w => if w.substStatus == 0 then w else { w with status := w.substStatus }
      | name :: args =>
        let isSpecial := specialBuiltins.contains (String.ofList name)
        if name == "exec".toList && args.isEmpty then redirect rs fuel
        else
          let before := (← get).vars
          assignAll as fuel
          withRedirects rs isSpecial (call name args tested fuel) fuel
          if !as.isEmpty && !isSpecial then modify fun w => { w with vars := before }
      checkFailure tested
    | .pipeline negated cs =>
      match cs with
      | [c] =>
        run c (tested || negated) fuel
      | cs => runPipeline cs fuel
      if negated then modify fun w => { w with status := if w.status == 0 then 1 else 0 }
      else checkFailure tested
    | .andThen a b =>
      run a true fuel
      if (← get).status == 0 then run b tested fuel
    | .orElse a b =>
      run a true fuel
      if (← get).status != 0 then run b tested fuel
    | .background body =>
      discard (apart (run body true fuel))
      modify fun w => { w with status := 0 }
    | .subshell line body rs =>
      modify fun w => { w with line }
      let status ← apart (withRedirects rs false (runAll body tested fuel) fuel)
      modify fun w => { w with status }
      checkFailure tested
    | .group body rs => withRedirects rs false (runAll body tested fuel) fuel
    | .conditional bs otherwise rs =>
      withRedirects rs false (runBranches bs otherwise tested fuel) fuel
    | .loop isUntil test body rs =>
      withRedirects rs false (runLoop isUntil test body tested 0 fuel) fuel
    | .forEach line name ws body rs =>
      modify fun w => { w with line }
      let values ← allFields ws fuel
      modify fun w => { w with status := 0 }
      withRedirects rs false (runEach name values body tested fuel) fuel
    | .select line word cases rs =>
      modify fun w => { w with line }
      let text ← textOf word fuel
      withRedirects rs false (runCases text cases tested fuel) fuel
    | .define name body =>
      modify fun w =>
        { w with
          functions := (name, body) :: w.functions.filter (·.1 != name)
          status := 0 }

end

/-- How a run ended. -/
structure Outcome where
  /-- The exit status, unless a signal ended the run. -/
  status : Option Nat
  out : List UInt8
  err : List UInt8
  tree : Files.Tree

/-- The characters as the bytes with their numbers. -/
def toBytes (cs : List Char) : List UInt8 :=
  cs.map fun c => UInt8.ofNat c.toNat

/-- The bound on the steps of a run. -/
def mostSteps (script : List UInt8) : Nat :=
  100 * script.length + 100000

/-- The status with which a run ends. -/
def endStatus (r : Except Jump Unit) (w : World) : Option Nat :=
  match r with
  | .ok _ => some w.status
  | .error (.exit n) => some n
  | .error (.back n) => some n
  | .error .killed => none
  | .error _ => some w.status

/-- Runs the commands that are left for the end. -/
def runLast (fuel : Nat) : RunM Unit := do
  let text := (← get).last
  if text.isEmpty then pure ()
  else
    modify fun w => { w with last := [] }
    runText (Reader.ofScript text) fuel

/-- Runs a script. -/
def runScript (tree : Files.Tree) (scriptName : String) (script : List UInt8) (args : List String) :
    Outcome :=
  let start : World :=
    { scriptName := String.ofList (bytesText (Text.encode scriptName))
      args := args.map fun a => bytesText (Text.encode a)
      tree }
  let fuel := mostSteps script
  let (r, w) := (runText (Reader.ofScript (bytesText script)) fuel).run start
  let status := endStatus r w
  let (r', w') := (runLast fuel).run { w with status := status.getD 0 }
  let finished : World := if status.isNone then w else w'
  { status := match r' with
      | .error (.exit n) => if status.isNone then none else some n
      | _ => status
    out := toBytes finished.out
    err := toBytes finished.err
    tree := finished.tree }

end Stencil.Shell
