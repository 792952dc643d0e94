import Stencil.Shell.Syntax

/-!
# Reading a script

A script is read command by command: `Reader.next` gives the next complete command of a script, or
tells that there is none, or says on which line the text is no command.

A word is read in one of several modes, which differ in what the special characters mean and in what
ends it. Inside a word there can be commands, so words and commands are read by one another.
-/

namespace Stencil.Shell

/-- Why a text is no command, and the line on which that was seen. -/
structure SyntaxError where
  line : Nat
  message : String
  deriving DecidableEq, Repr, Inhabited

/-- Lines of the script that belong to a redirection and are still to be read. -/
structure Pending where
  number : Nat
  delimiter : List Char
  /-- Are the lines taken as they stand? -/
  verbatim : Bool
  dropTabs : Bool

/-- A script that is being read. -/
structure Reader where
  rest : List Char
  line : Nat := 1
  /-- Is the last token to be read again? -/
  pushed : Bool := false
  last : Token := .newline
  /-- The word of the last token. -/
  word : Word := []
  /-- The redirection of the last token: its descriptor and how it opens its target. -/
  fd : Nat := 0
  kind : RedirectKind := .read
  dropTabs : Bool := false
  /-- How many rows of lines were asked for so far. -/
  asked : Nat := 0
  pending : List Pending := []
  documents : List (Nat × Word) := []

/-- A step of reading a script. -/
abbrev ReadM := StateT Reader (Except SyntaxError)

/-- Which tokens are looked for: newlines can be passed over, reserved words can count, and dollars
and backquotes can stand for themselves. -/
structure Looking where
  pastNewlines : Bool := false
  forReserved : Bool := false
  forDelimiter : Bool := false

/-- The modes of reading a word. -/
inductive Mode where
  /-- Outside of quotes. -/
  | bare
  /-- Inside braces, outside of quotes. -/
  | bareBraces
  /-- Between double quotes, which may themselves stand inside braces. -/
  | quotes (inBraces : Bool)
  /-- Inside braces between double quotes. -/
  | quotedBraces
  /-- Inside an arithmetic expression. -/
  | arithmetic
  /-- Lines of a redirection. -/
  | document
  deriving DecidableEq, Repr

namespace Mode

/-- Does the text stand in quotes? -/
def isQuoted : Mode → Bool
  | .bare | .bareBraces => false
  | _ => true

/-- Does the text stand in braces? -/
def isInBraces : Mode → Bool
  | .bareBraces | .quotedBraces | .quotes true => true
  | _ => false

/-- The mode inside braces. A pattern to trim with is read as outside of quotes. -/
def inner (m : Mode) (isTrim : Bool) : Mode :=
  if isTrim || !m.isQuoted then .bareBraces else .quotedBraces

/-- Characters that mean nothing in particular in the mode. -/
def isOrdinary (m : Mode) (c : Char) : Bool :=
  let special :=
    match m with
    | .bare => "\\'\"$\x60\n<>();&| \t"
    | .bareBraces => "\\'\"$\x60\n\x7d"
    | .quotes _ => "\\\"$\x60\n"
    | .quotedBraces => "\\\"$\x60\n\x7d"
    | .arithmetic => "\\$\x60\n()"
    | .document => "\\$\x60\n"
  !special.toList.contains c

end Mode

/-- Ends the reading with a message. -/
def fail {α : Type} (message : String) : ReadM α := do
  throw { line := (← get).line, message }

/-- The last token was not expected; another one may have been. -/
def unexpected {α : Type} (wanted : Option Token := none) : ReadM α := do
  let last := (← get).last.shown
  fail <| "Syntax error: " ++
    match wanted with
    | none => last ++ " unexpected"
    | some t => last ++ " unexpected (expecting " ++ t.shown ++ ")"

/-- Passes over line breaks behind backslashes. The fuel bounds their number. -/
def dropJoins : Nat → ReadM Unit
  | 0 => pure ()
  | fuel + 1 => do
    match (← get).rest with
    | '\\' :: '\n' :: rest =>
      modify fun s => { s with rest, line := s.line + 1 }
      dropJoins fuel
    | _ => pure ()

/-- The next character, past joined lines. -/
def peek? : ReadM (Option Char) := do
  dropJoins ((← get).rest.length + 1)
  return (← get).rest.head?

/-- Passes over a character. -/
def skip : ReadM Unit :=
  modify fun s =>
    match s.rest with
    | [] => s
    | c :: rest => { s with rest, line := if c == '\n' then s.line + 1 else s.line }

/-- Passes over a character that counts as no line, whatever it is. -/
def skipMark : ReadM Unit :=
  modify fun s => { s with rest := s.rest.tail }

/-- Skips some characters. -/
def skipBy (n : Nat) : ReadM Unit :=
  modify fun s =>
    { s with rest := s.rest.drop n, line := s.line + (s.rest.take n).count '\n' }

/-- Puts the last token back. -/
def pushBack : ReadM Unit :=
  modify fun s => { s with pushed := true }

/-- Notes the token that was read. -/
def setLast (t : Token) : ReadM Token := do
  modify fun s => { s with last := t }
  return t

/-- Reads an operator whose second character may be doubled. -/
def operator (second : Char) (double single : Token) : ReadM Token := do
  skip
  if (← peek?) == some second then
    skip
    setLast double
  else setLast single

/-- Quoted characters. -/
def quotedChars (cs : List Char) : Word :=
  cs.map fun c => .char c true

/-- Reads the inside of single quotes. -/
def singleQuotes : ReadM Word := do
  skip
  let inside := (← get).rest.takeWhile (· != '\x27')
  skipBy inside.length
  if (← get).rest.isEmpty then fail "Syntax error: Unterminated quoted string"
  skip
  return .quote :: quotedChars inside

/-- Reads what a backslash stands before. Between quotes it counts before few characters. -/
def backslash (m : Mode) : ReadM Word := do
  skip
  match (← get).rest with
  | [] => return [.char '\\' true]
  | c :: _ =>
    skip
    let counts :=
      !m.isQuoted || c == '\\' || c == '\x60' || c == '$' || (c == '\x22' && m != .document) ||
        (c == '}' && m.isInBraces)
    return if counts then [.char c true] else [.char '\\' true, .char c true]

/-- A run of characters that mean nothing in particular. -/
def ordinary (m : Mode) : ReadM Word := do
  let run := (← get).rest.takeWhile m.isOrdinary
  skipBy run.length
  return run.map fun c => .char c m.isQuoted

/-- Reads up to the closing backquote. Some backslashes are taken away. -/
def backquoted (isQuoted : Bool) : Nat → ReadM (List Char)
  | 0 => fail "Syntax error: EOF in backquote substitution"
  | fuel + 1 => do
    match ← peek? with
    | none => fail "Syntax error: EOF in backquote substitution"
    | some '\x60' =>
      skip
      return []
    | some '\\' =>
      skip
      match (← get).rest with
      | [] => return '\\' :: (← backquoted isQuoted fuel)
      | c :: _ =>
        skip
        let dropped := c == '\\' || c == '\x60' || c == '$' || (isQuoted && c == '\x22')
        let more ← backquoted isQuoted fuel
        return if dropped then c :: more else '\\' :: c :: more
    | some c =>
      skip
      return c :: (← backquoted isQuoted fuel)

/-- The name of a parameter. One letter is enough after a bare dollar if it is a mark or a digit. -/
def paramName (braced : Bool) : ReadM (List Char) := do
  match ← peek? with
  | none => return []
  | some c =>
    if isNameStart c then
      let rec run : Nat → ReadM (List Char)
        | 0 => return []
        | fuel + 1 => do
          match ← peek? with
          | some c =>
            if isNameChar c then
              skip
              return c :: (← run fuel)
            else return []
          | none => return []
      run ((← get).rest.length + 1)
    else if isDigit c then
      skip
      if braced then
        let more := (← get).rest.takeWhile isDigit
        skipBy more.length
        return c :: more
      else return [c]
    else return []

/-- A parameter as the text after `${` names it, and what to do with it. The closing brace is read
only for a plain value. Gives also whether that is all. -/
def bracedParam : ReadM (List Char × ParamOp × Bool) := do
  let first ← peek?
  -- A number sign asks for a length if a parameter follows.
  if first == some '#' then
    skip
    let second ← peek?
    match second with
    | some c =>
      if isNameChar c then
        let name ← paramName true
        let op := if (← peek?) == some '}' then ParamOp.length else .bad
        return (name, op, false)
      else
        match (← get).rest with
        | d :: '}' :: _ =>
          if d != '}' then
            skip
            return ([d], if isSpecialParam d then .length else .bad, false)
        | _ => pure ()
        operation ['#']
    | none => operation ['#']
  else
    let name ← paramName true
    if !name.isEmpty then operation name
    else
      match first with
      | none => return ([], .bad, false)
      | some '}' => return ([], .bad, false)
      | some c =>
        skipMark
        if isSpecialParam c then operation [c] else return ([], .bad, false)
where
  /-- Reads what follows the name. -/
  operation (name : List Char) : ReadM (List Char × ParamOp × Bool) := do
    match ← peek? with
    | none => return (name, .bad, false)
    | some c =>
      skipMark
      if c == '%' || c == '#' then
        let longest := (← peek?) == some c
        if longest then skip
        return (name, .trim (c == '#') longest, false)
      else
        let colon := c == ':'
        let mark ← if colon then peek? else pure (some c)
        if colon then skipMark
        match mark with
        | some '}' => if colon then return (name, .bad, false) else return (name, .value, true)
        | some '-' => return (name, .default colon, false)
        | some '+' => return (name, .alternative colon, false)
        | some '?' => return (name, .require colon, false)
        | some '=' => return (name, .assign colon, false)
        | _ => return (name, .bad, false)

/-- How a redirection begins: its mark is next. -/
def redirection (fd : Option Nat) : ReadM Token := do
  let isOut := (← get).rest.head? == some '>'
  skip
  let c ← peek?
  let number := (← get).asked
  let (kind, taken) :=
    if isOut then
      match c with
      | some '>' => (RedirectKind.append, true)
      | some '|' => (.write, true)
      | some '&' => (.copyOut, true)
      | _ => (.write, false)
    else
      match c with
      | some '<' => (.document number, true)
      | some '&' => (.copyIn, true)
      | some '>' => (.readWrite, true)
      | _ => (.read, false)
  if taken then skip
  let isDocument := !isOut && c == some '<'
  let dropTabs ← if isDocument then do
      let strips := (← peek?) == some '-'
      if strips then skip
      pure strips
    else pure false
  modify fun s =>
    { s with
      fd := fd.getD (if isOut then 1 else 0)
      kind
      dropTabs
      asked := if isDocument then s.asked + 1 else s.asked }
  setLast .redirect

/-- The descriptor that a word before a redirection stands for, if it does. -/
def descriptor? (w : Word) : Option (Option Nat) :=
  match w with
  | [] => some none
  | [.char c false] => if isDigit c then some (some (c.toNat - '0'.toNat)) else none
  | _ => none

/-- Splits an assignment into its name and its value. -/
def assignment? (w : Word) : Option (List Char × Word) :=
  let plain (p : Part) : Option Char :=
    match p with
    | .char c false => some c
    | _ => none
  let name := (w.takeWhile fun p => (plain p).any isNameChar).filterMap plain
  match w.drop name.length with
  | .char '=' false :: value => if isName name then some (name, value) else none
  | _ => none

/-- The text of a word without its quotes. -/
def unquotedText (w : Word) : List Char :=
  w.filterMap fun p =>
    match p with
    | .char c _ => some c
    | _ => none

/-- Takes lines up to the delimiter. Gives them and the number of lines, the delimiter's
included. -/
def takeLines (delimiter : List Char) (dropTabs : Bool) : List (List Char) → List (List Char) × Nat
  | [] => ([], 0)
  | line :: rest =>
    let line' := if dropTabs then line.dropWhile (· == '\t') else line
    if line' == delimiter then ([], 1)
    else
      let (more, n) := takeLines delimiter dropTabs rest
      (line' :: more, n + 1)

mutual

/-- Reads the parts of a word in a mode, up to what ends it. -/
def parts (m : Mode) : Nat → ReadM Word
  | 0 => fail "Syntax error: Unterminated quoted string"
  | fuel + 1 => do
    match ← peek? with
    | none =>
      match m with
      | .bare | .document => return []
      | .bareBraces => fail "Syntax error: Missing '\x7d'"
      | .arithmetic => fail "Syntax error: Missing '))'"
      | _ => fail "Syntax error: Unterminated quoted string"
    | some c =>
      if m.isOrdinary c then return (← ordinary m) ++ (← parts m fuel)
      else if c == '\\' then return (← backslash m) ++ (← parts m fuel)
      else if c == '$' then return (← dollar m fuel) ++ (← parts m fuel)
      else if c == '\x60' then
        skip
        let text ← backquoted m.isQuoted ((← get).rest.length + 1)
        let body ← nested text fuel
        return .command body m.isQuoted :: (← parts m fuel)
      else
        match m, c with
        | .bare, '\x27' => return (← singleQuotes) ++ (← parts m fuel)
        | .bareBraces, '\x27' => return (← singleQuotes) ++ (← parts m fuel)
        | .bare, '\x22' =>
          skip
          return .quote :: ((← parts (.quotes false) fuel) ++ (← parts m fuel))
        | .bareBraces, '\x22' =>
          skip
          return .quote :: ((← parts (.quotes true) fuel) ++ (← parts m fuel))
        | .quotedBraces, '\x22' =>
          skip
          return .quote :: ((← parts (.quotes true) fuel) ++ (← parts m fuel))
        | .quotes _, '\x22' =>
          skip
          return []
        | .bareBraces, '}' =>
          skip
          return []
        | .quotedBraces, '}' =>
          skip
          return []
        | .arithmetic, '(' =>
          skip
          let inside ← parts .arithmetic fuel
          return .char '(' true :: (inside ++ .char ')' true :: (← parts m fuel))
        | .arithmetic, ')' =>
          skip
          return []
        | .bare, _ => return []
        | m, c =>
          skip
          return .char c m.isQuoted :: (← parts m fuel)

/-- Reads a substitution, from its dollar on. -/
def dollar (m : Mode) : Nat → ReadM Word
  | 0 => fail "Syntax error: Unterminated quoted string"
  | fuel + 1 => do
    skip
    match ← peek? with
    | some '(' =>
      skip
      if (← peek?) == some '(' then
        skip
        return [.arithmetic (← arithmetic fuel) m.isQuoted]
      else
        let before := (← get).pending
        modify fun s => { s with pending := [] }
        let (body, _) ← commands false true [] fuel
        if (← next {} fuel) != .closeParen then unexpected (some .closeParen)
        modify fun s => { s with pending := before }
        return [.command body m.isQuoted]
    | some '{' =>
      skip
      let (name, op, isDone) ← bracedParam
      if isDone then return [.param name op [] m.isQuoted]
      else
        let isTrim := match op with
          | .trim _ _ => true
          | _ => false
        let word ← parts (m.inner isTrim) fuel
        return [.param name op word m.isQuoted]
    | some c =>
      if isNameStart c || isDigit c then
        let name ← paramName false
        return [.param name .value [] m.isQuoted]
      else if isSpecialParam c then
        skip
        return [.param [c] .value [] m.isQuoted]
      else return [.char '$' m.isQuoted]
    | none => return [.char '$' m.isQuoted]

/-- Reads an arithmetic expression up to its two closing parentheses. One alone is part of it. -/
def arithmetic : Nat → ReadM Word
  | 0 => fail "Syntax error: Missing '))'"
  | fuel + 1 => do
    let inside ← parts .arithmetic fuel
    if (← peek?) == some ')' then
      skip
      return inside
    else return inside ++ .char ')' true :: (← arithmetic fuel)

/-- Reads a text of its own as commands. What cannot be read at its end does not count. -/
def nested (text : List Char) : Nat → ReadM (List Command)
  | 0 => return []
  | fuel + 1 => do
    let outer ← get
    set { outer with rest := text, line := 1, pushed := false, pending := [] }
    let (body, _) ← commands false true [] fuel
    let inner ← get
    set { outer with
      asked := inner.asked
      documents := inner.documents
      pushed := false }
    return body

/-- Reads the next token from the text. -/
def scan (forDelimiter : Bool) : Nat → ReadM Token
  | 0 => setLast .endOfFile
  | fuel + 1 => do
    match ← peek? with
    | none => setLast .endOfFile
    | some ' ' | some '\t' =>
      skip
      scan forDelimiter fuel
    | some '#' =>
      skipBy ((← get).rest.takeWhile (· != '\n')).length
      scan forDelimiter fuel
    | some '\n' =>
      skip
      setLast .newline
    | some '&' => operator '&' .and .ampersand
    | some '|' => operator '|' .or .pipe
    | some ';' => operator ';' .endCase .semicolon
    | some '(' =>
      skip
      setLast .openParen
    | some ')' =>
      skip
      setLast .closeParen
    | some _ =>
      let w ← if forDelimiter then delimiter fuel else parts .bare fuel
      let c := (← get).rest.head?
      match descriptor? w with
      | some fd =>
        if c == some '>' || c == some '<' then redirection fd
        else
          modify fun s => { s with word := w }
          setLast .word
      | none =>
        modify fun s => { s with word := w }
        setLast .word

/-- Reads a delimiter: a word in which dollars and backquotes stand for themselves. -/
def delimiter : Nat → ReadM Word
  | 0 => return []
  | fuel + 1 => do
    match (← get).rest with
    | '$' :: _ =>
      skip
      return .char '$' false :: (← delimiter fuel)
    | '\x60' :: _ =>
      skip
      return .char '\x60' false :: (← delimiter fuel)
    | '\\' :: _ => return (← backslash .bare) ++ (← delimiter fuel)
    | '\x27' :: _ => return (← singleQuotes) ++ (← delimiter fuel)
    | '\x22' :: _ =>
      skip
      let inside := (← get).rest.takeWhile (· != '\x22')
      skipBy inside.length
      if (← get).rest.isEmpty then fail "Syntax error: Unterminated quoted string"
      skip
      return .quote :: (quotedChars inside ++ (← delimiter fuel))
    | c :: _ =>
      if Mode.bare.isOrdinary c then return (← ordinary .bare) ++ (← delimiter fuel) else return []
    | [] => return []

/-- Gives the next token, which may have been pushed back. -/
def next (look : Looking) : Nat → ReadM Token
  | 0 => setLast .endOfFile
  | fuel + 1 => do
    let s ← get
    let t ←
      if s.pushed then do
        set { s with pushed := false }
        pure s.last
      else scan look.forDelimiter fuel
    if t == .newline && look.pastNewlines then
      readDocuments fuel
      next look fuel
    else if t == .word && look.forReserved then
      let w := (← get).word
      match plainText? w with
      | some cs =>
        let text := String.ofList cs
        if reservedWords.contains text then setLast (.reserved text) else return t
      | none => return t
    else return t

/-- Reads the lines that redirections wait for. -/
def readDocuments : Nat → ReadM Unit
  | 0 => pure ()
  | fuel + 1 => do
    match (← get).pending with
    | [] => pure ()
    | p :: more =>
      let s ← get
      let pieces := s.rest.splitOn '\n'
      let whole := if pieces.getLast? == some [] then pieces.dropLast else pieces
      let (ls, count) := takeLines p.delimiter p.dropTabs whole
      let text := ls.flatMap fun l => l ++ ['\n']
      let used := (whole.take count).foldl (fun n l => n + l.length + 1) 0
      skipBy used
      modify fun s => { s with pending := more }
      let w ←
        if p.verbatim then pure (quotedChars text)
        else do
          let outer ← get
          set { outer with rest := text, line := s.line, pushed := false }
          let w ← parts .document fuel
          let inner ← get
          set { outer with asked := inner.asked, documents := inner.documents }
          pure w
      modify fun s => { s with documents := (p.number, w) :: s.documents }
      readDocuments fuel

/-- Reads commands up to the end of a line, if they stand at the top of a script, and else up to a
token that ends them. Tells whether the script ended before any. -/
def commands (top canEnd : Bool) (before : List Command) : Nat → ReadM (List Command × Bool)
  | 0 => return (before, true)
  | fuel + 1 => do
    let t ← next { pastNewlines := !top, forReserved := true } fuel
    if t == .newline then
      readDocuments fuel
      return (before, false)
    else if t == .endOfFile then
      readDocuments fuel
      pushBack
      discard (setLast .endOfFile)
      return (before, before.isEmpty)
    else
      pushBack
      if canEnd && t.endsList then return (before, false)
      let c ← andOr fuel
      let t ← next {} fuel
      let after := before ++ [if t == .ampersand then .background c else c]
      match t with
      | .endOfFile =>
        readDocuments fuel
        pushBack
        discard (setLast .endOfFile)
        return (after, false)
      | .newline =>
        pushBack
        commands top (!top) after fuel
      | .ampersand | .semicolon => commands top (!top) after fuel
      | _ =>
        if top then unexpected
        pushBack
        return (after, false)

/-- Reads commands joined by `&&` and `||`. -/
def andOr : Nat → ReadM Command
  | 0 => unexpected
  | fuel + 1 => do
    let c ← pipeline fuel
    andOrFrom c fuel

/-- Goes on after a first command. -/
def andOrFrom (c : Command) : Nat → ReadM Command
  | 0 => return c
  | fuel + 1 => do
    let t ← next {} fuel
    if t == .and || t == .or then
      -- The next command may stand on another line.
      let t' ← next { pastNewlines := true, forReserved := true } fuel
      discard (setLast t')
      pushBack
      let d ← pipeline fuel
      andOrFrom (if t == .and then .andThen c d else .orElse c d) fuel
    else
      pushBack
      return c

/-- Reads commands joined by bars, with a mark of negation before them or not. -/
def pipeline : Nat → ReadM Command
  | 0 => unexpected
  | fuel + 1 => do
    let negated ← do
      if (← next {} fuel) == .reserved "!" then
        let t ← next { forReserved := true } fuel
        discard (setLast t)
        pushBack
        pure true
      else
        pushBack
        pure false
    let c ← command fuel
    let cs ← pipelineFrom fuel
    return if cs.isEmpty && !negated then c else .pipeline negated (c :: cs)

/-- Reads the commands after bars. -/
def pipelineFrom : Nat → ReadM (List Command)
  | 0 => return []
  | fuel + 1 => do
    if (← next {} fuel) == .pipe then
      let t ← next { pastNewlines := true, forReserved := true } fuel
      discard (setLast t)
      pushBack
      let c ← command fuel
      return c :: (← pipelineFrom fuel)
    else
      pushBack
      return []

/-- Reads commands of which there is at least one, and the token that must follow them. -/
def body (closing : Token) : Nat → ReadM (List Command)
  | 0 => return []
  | fuel + 1 => do
    let (cs, _) ← commands false false [] fuel
    if (← next {} fuel) != closing then unexpected (some closing)
    return cs

/-- Reads a command. -/
def command : Nat → ReadM Command
  | 0 => unexpected
  | fuel + 1 => do
    let line := (← get).line
    match ← next {} fuel with
    | .reserved "if" =>
      let test ← body (.reserved "then") fuel
      let (branches, otherwise) ← branches test fuel
      return .conditional branches otherwise (← redirects fuel)
    | .reserved "while" =>
      let test ← body (.reserved "do") fuel
      let inside ← body (.reserved "done") fuel
      return .loop false test inside (← redirects fuel)
    | .reserved "until" =>
      let test ← body (.reserved "do") fuel
      let inside ← body (.reserved "done") fuel
      return .loop true test inside (← redirects fuel)
    | .reserved "for" => forLoop line fuel
    | .reserved "case" =>
      if (← next {} fuel) != .word then unexpected (some .word)
      let w := (← get).word
      if (← next { pastNewlines := true, forReserved := true } fuel) != .reserved "in" then
        unexpected (some (.reserved "in"))
      let cs ← cases fuel
      return .select line w cs (← redirects fuel)
    | .openParen =>
      let inside ← body .closeParen fuel
      return .subshell line inside (← redirects fuel)
    | .reserved "\x7b" =>
      let inside ← body (.reserved "\x7d") fuel
      return .group inside (← redirects fuel)
    | .word | .redirect =>
      pushBack
      simple fuel
    | _ => unexpected

/-- Reads the branches of a conditional from the first branch on, and what stands otherwise. -/
def branches (test : List Command) :
    Nat → ReadM (List (List Command × List Command) × List Command)
  | 0 => unexpected
  | fuel + 1 => do
    let (inside, _) ← commands false false [] fuel
    match ← next {} fuel with
    | .reserved "elif" =>
      let test' ← body (.reserved "then") fuel
      let (more, otherwise) ← branches test' fuel
      return ((test, inside) :: more, otherwise)
    | .reserved "else" =>
      let otherwise ← body (.reserved "fi") fuel
      return ([(test, inside)], otherwise)
    | .reserved "fi" => return ([(test, inside)], [])
    | _ => unexpected (some (.reserved "fi"))

/-- Reads a loop over words, after its first word. -/
def forLoop (line : Nat) : Nat → ReadM Command
  | 0 => unexpected
  | fuel + 1 => do
    let t ← next {} fuel
    let name := plainText? (← get).word
    match t, name with
    | .word, some cs =>
      if !isName cs then fail "Syntax error: Bad for loop variable"
      let t ← next { pastNewlines := true, forReserved := true } fuel
      let ws ←
        if t == .reserved "in" then do
          let ws ← words fuel
          let last := (← get).last
          if last != .newline && last != .semicolon then unexpected
          pure ws
        else do
          if t != .semicolon then pushBack
          pure [[Part.quote, Part.param ['@'] .value [] true]]
      if (← next { pastNewlines := true, forReserved := true } fuel) != .reserved "do" then
        unexpected (some (.reserved "do"))
      let inside ← body (.reserved "done") fuel
      return .forEach line cs ws inside (← redirects fuel)
    | _, _ => fail "Syntax error: Bad for loop variable"

/-- Reads words up to another token. -/
def words : Nat → ReadM (List Word)
  | 0 => return []
  | fuel + 1 => do
    if (← next {} fuel) == .word then
      let w := (← get).word
      return w :: (← words fuel)
    else return []

/-- Reads the cases of a selection and its end. -/
def cases : Nat → ReadM (List (List Word × List Command))
  | 0 => return []
  | fuel + 1 => do
    let t ← next { pastNewlines := true, forReserved := true } fuel
    if t == .reserved "esac" then return []
    if t == .openParen then discard (next {} fuel)
    let ps ← patterns fuel
    if (← get).last != .closeParen then unexpected (some .closeParen)
    let (inside, _) ← commands false true [] fuel
    let t ← next { pastNewlines := true, forReserved := true } fuel
    if t == .reserved "esac" then return [(ps, inside)]
    else if t == .endCase then return (ps, inside) :: (← cases fuel)
    else unexpected (some .endCase)

/-- Reads patterns with bars between them. The first one is the last word. -/
def patterns : Nat → ReadM (List Word)
  | 0 => return []
  | fuel + 1 => do
    let w := (← get).word
    if (← next {} fuel) == .pipe then
      discard (next {} fuel)
      return w :: (← patterns fuel)
    else return [w]

/-- Reads the target of the redirection that was the last token. -/
def target : Nat → ReadM Redirect
  | 0 => unexpected
  | fuel + 1 => do
    let s ← get
    let forDelimiter := match s.kind with
      | .document _ => true
      | _ => false
    if (← next { forDelimiter } fuel) != .word then unexpected
    let w := (← get).word
    match s.kind with
    | .document number =>
      let p : Pending :=
        { number
          delimiter := unquotedText w
          verbatim := hasQuotes w
          dropTabs := s.dropTabs }
      modify fun s => { s with pending := s.pending ++ [p] }
      return .mk s.fd s.kind []
    | kind => return .mk s.fd kind w

/-- Reads the redirections after a command. -/
def redirects : Nat → ReadM (List Redirect)
  | 0 => return []
  | fuel + 1 => do
    if (← next { forReserved := true } fuel) == .redirect then
      let r ← target fuel
      return r :: (← redirects fuel)
    else
      pushBack
      return []

/-- Reads a simple command or the definition of a function. -/
def simple : Nat → ReadM Command
  | 0 => unexpected
  | fuel + 1 => do
    let line := (← get).line
    simpleFrom line [] [] [] fuel

/-- Goes on after some assignments, words and redirections. -/
def simpleFrom (line : Nat) (assignments : List (List Char × Word)) (ws : List Word)
    (rs : List Redirect) : Nat → ReadM Command
  | 0 => unexpected
  | fuel + 1 => do
    match ← next {} fuel with
    | .word =>
      let w := (← get).word
      match (if ws.isEmpty then assignment? w else none) with
      | some a => simpleFrom line (assignments ++ [a]) ws rs fuel
      | none => simpleFrom line assignments (ws ++ [w]) rs fuel
    | .redirect =>
      let r ← target fuel
      simpleFrom line assignments ws (rs ++ [r]) fuel
    | .openParen =>
      match ws, assignments, rs with
      | [w], [], [] =>
        if (← next {} fuel) != .closeParen then unexpected (some .closeParen)
        match plainText? w with
        | some name =>
          if !isName name || specialBuiltins.contains (String.ofList name) then
            fail "Syntax error: Bad function name"
          let t ← next { pastNewlines := true, forReserved := true } fuel
          discard (setLast t)
          pushBack
          let inside ← command fuel
          return .define name inside
        | none => fail "Syntax error: Bad function name"
      | _, _, _ =>
        pushBack
        return .simple line assignments ws rs
    | _ =>
      pushBack
      return .simple line assignments ws rs

end

namespace Reader

/-- A script at its start. Zero bytes do not count. -/
def ofScript (text : List Char) : Reader :=
  { rest := text.filter (· != '\x00') }

/-- More than enough fuel for the rest of a script. -/
def fuel (r : Reader) : Nat :=
  20 * r.rest.length + 100

/-- The next command line of a script, or nothing at its end. -/
def next (r : Reader) : Except SyntaxError (Option (List Command) × Reader) :=
  match (commands true false [] r.fuel).run { r with pushed := false, pending := [] } with
  | .error e => .error e
  | .ok ((cs, isOver), r') => .ok (if isOver then none else some cs, r')

end Reader

end Stencil.Shell
