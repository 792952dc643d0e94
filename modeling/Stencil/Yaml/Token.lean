import Stencil.Text.Utf8

/-!
# YAML tokens

The tokens of a YAML 1.1 text. Indentation is made explicit: blocks open and close by tokens of
their own, and a key that turns out to be one only at its colon gets its marks put in before it.

`Token.scan` gives the tokens of a text, or nothing if some part of it can start or end no token. A
number that is out of range ends the tokens with a fault.
-/

namespace Stencil.Yaml

/-- What a directive says. -/
inductive Directive where
  | version (major minor : Nat)
  | tag (handle start : String)
  | other (name : String)
  deriving DecidableEq, Repr

/-- Why a text stands for no value. -/
inductive Fault where
  /-- It is no YAML, or a node does not fit its tag. -/
  | malformed
  /-- A number or a date is out of range or has the wrong form. -/
  | badNumber (message : String)
  /-- A code point is no number of the machine. -/
  | hugeCode
  /-- A number has so many parts in sixties that a unit is out of range. -/
  | hugeUnit
  /-- A number has no text. -/
  | emptyNumber
  /-- A word is no truth value. -/
  | unknownTruth (word : String)
  /-- A text has not the form of a date. -/
  | notDate
  /-- A mapping stands where the text of a date should. -/
  | notText
  deriving DecidableEq, Repr

/-- A token of a YAML text. -/
inductive Token where
  | directive (d : Directive)
  | documentStart
  | documentEnd
  | blockSequenceStart
  | blockMappingStart
  | blockEnd
  | flowSequenceStart
  | flowSequenceEnd
  | flowMappingStart
  | flowMappingEnd
  | key
  | value
  | blockEntry
  | flowEntry
  | alias (name : String)
  | anchor (name : String)
  | tag (handle : Option String) (suffix : String)
  | scalar (text : String) (isPlain : Bool)
  /-- Something that cannot be read ends the tokens early. -/
  | fault (f : Fault)
  deriving DecidableEq, Repr

/-- A place where a key may have begun. -/
structure KeyMark where
  /-- The number of tokens before it. -/
  tokens : Nat
  /-- Must there be a colon? -/
  required : Bool
  index : Nat
  line : Nat
  column : Nat
  deriving Repr

/-- A scanner: the text still to be read and its place, the tokens read, the open blocks, and the
places where keys may have begun, by depth of brackets. -/
structure Scanner where
  rest : List Char
  index : Nat := 0
  line : Nat := 0
  column : Nat := 0
  tokens : List Token := []
  indent : Int := -1
  indents : List Int := []
  depth : Nat := 0
  keyAllowed : Bool := true
  keys : List (Nat × KeyMark) := []

/-- Why a scanner stops: the text is malformed, or there is a fault. It shows behind the tokens that
are sure by then. -/
inductive Stop where
  | malformed
  | fault (tokens : List Token) (f : Fault)

/-- A step of a scanner. -/
abbrev ScanM := StateT Scanner (Except Stop)

/-- Stands for the end of the text, in which it never occurs. -/
def endMark : Char := '\x00'

/-- Does the character break a line? -/
def isBreak (c : Char) : Bool :=
  c == '\n' || c == '\r' || c.toNat == 0x85 || c.toNat == 0x2028 || c.toNat == 0x2029

/-- A line break or the end. -/
def isBreakOrEnd (c : Char) : Bool :=
  c == endMark || isBreak c

/-- A blank, a line break or the end. -/
def isBlankOrEnd (c : Char) : Bool :=
  c == ' ' || c == '\t' || isBreakOrEnd c

/-- A blank that is no tab, a line break or the end. -/
def isSpaceOrEnd (c : Char) : Bool :=
  c == ' ' || isBreakOrEnd c

/-- Letters, digits, hyphen and underscore. -/
def isWordChar (c : Char) : Bool :=
  ('a' ≤ c && c ≤ 'z') || ('A' ≤ c && c ≤ 'Z') || ('0' ≤ c && c ≤ '9') || c == '-' || c == '_'

/-- Is the character a decimal digit? -/
def isDecimal (c : Char) : Bool :=
  '0' ≤ c && c ≤ '9'

/-- Is the character a hexadecimal digit? -/
def isHex (c : Char) : Bool :=
  isDecimal c || ('a' ≤ c && c ≤ 'f') || ('A' ≤ c && c ≤ 'F')

/-- Is the character one of those in the text? -/
def isOneOf (s : String) (c : Char) : Bool :=
  s.toList.contains c

namespace Scanner

/-- The character `n` places ahead. -/
def peekAt (s : Scanner) (n : Nat) : Char :=
  (s.rest[n]?).getD endMark

/-- The scanner one character further. -/
def advance (s : Scanner) : Scanner :=
  match s.rest with
  | [] => s
  | c :: rest =>
    let next := rest.head?.getD endMark
    if isBreak c && !(c == '\r' && next == '\n') then
      { s with rest, index := s.index + 1, line := s.line + 1, column := 0 }
    else if c.toNat == 0xFEFF then { s with rest, index := s.index + 1 }
    else { s with rest, index := s.index + 1, column := s.column + 1 }

/-- Moves on by some characters. -/
def advanceBy : Nat → Scanner → Scanner
  | 0, s => s
  | n + 1, s => advanceBy n s.advance

end Scanner

/-- The character that comes so many places later. -/
def peek (n : Nat := 0) : ScanM Char := do
  return (← get).peekAt n

/-- Moves on. -/
def forward (n : Nat := 1) : ScanM Unit :=
  modify (Scanner.advanceBy n)

/-- Reads the longest run of characters that satisfy `p`. -/
def takeRun (p : Char → Bool) : ScanM (List Char) := do
  let run := (← get).rest.takeWhile p
  forward run.length
  return run

/-- Skips the characters that satisfy `p`. -/
def skipRun (p : Char → Bool) : ScanM Unit := do
  discard (takeRun p)

/-- Skips blanks. -/
def skipBlanks : ScanM Unit :=
  skipRun (· == ' ')

/-- Succeeds if the condition holds. -/
def need (b : Bool) : ScanM Unit :=
  if b then pure () else throw .malformed

/-- Stops at a fault. -/
def stop {α : Type} (f : Fault) : ScanM α :=
  throw (.fault [] f)

/-- Puts a token behind the others. -/
def emit (t : Token) : ScanM Unit :=
  modify fun s => { s with tokens := s.tokens ++ [t] }

/-- Puts tokens in at an earlier place. -/
def emitAt (place : Nat) (ts : List Token) : ScanM Unit :=
  modify fun s => { s with tokens := s.tokens.take place ++ ts ++ s.tokens.drop place }

/-- Notes whether a key may begin here. -/
def allowKey (b : Bool) : ScanM Unit :=
  modify fun s => { s with keyAllowed := b }

/-- Reads a line break, if there is one, and gives what it counts as. -/
def lineBreak : ScanM (List Char) := do
  let c ← peek
  if c == '\r' && (← peek 1) == '\n' then
    forward 2
    return ['\n']
  else if c == '\r' || c == '\n' || c.toNat == 0x85 then
    forward
    return ['\n']
  else if isBreak c then
    forward
    return [c]
  else return []

/-- Does a document mark stand here? -/
def atMark (mark : Char) : ScanM Bool := do
  return (← peek 0) == mark && (← peek 1) == mark && (← peek 2) == mark && isBlankOrEnd (← peek 3)

/-- Is a mark of a document next? -/
def atAnyMark : ScanM Bool := do
  return (← atMark '-') || (← atMark '.')

/-- Passes over a comment, if there is one. -/
def comment : ScanM Unit := do
  if (← peek) == '#' then skipRun (!isBreakOrEnd ·)

/-- Passes over blanks, comments and line breaks up to the next token. The fuel bounds the lines. -/
def toNextToken : Nat → ScanM Unit
  | 0 => pure ()
  | fuel + 1 => do
    skipBlanks
    comment
    if (← lineBreak).isEmpty then pure ()
    else
      if (← get).depth == 0 then allowKey true
      toNextToken fuel

/-- Is the place on an earlier line or too far back? -/
def Scanner.isStale (s : Scanner) (k : KeyMark) : Bool :=
  k.line != s.line || s.index > k.index + 1024

/-- Forgets the places that are stale. A required key must not be forgotten. -/
def dropStaleKeys : ScanM Unit := do
  let s ← get
  need (!s.keys.any fun (_, k) => s.isStale k && k.required)
  set { s with keys := s.keys.filter fun (_, k) => !s.isStale k }

/-- The number of tokens that are sure. Where a key may have begun, more has to be read before the
token that stands there. -/
def Scanner.sure (s : Scanner) : Nat :=
  ((s.keys.filter fun (_, k) => !s.isStale k).map fun (_, k) => k.tokens).min?.getD s.tokens.length

/-- Forgets the place at the current depth. -/
def dropKey : ScanM Unit := do
  let s ← get
  match s.keys.lookup s.depth with
  | none => pure ()
  | some k =>
    need (!k.required)
    set { s with keys := s.keys.filter (·.1 != s.depth) }

/-- Notes that a key may begin here. -/
def markKey : ScanM Unit := do
  let s ← get
  if s.keyAllowed then
    dropKey
    let mark : KeyMark :=
      { tokens := s.tokens.length
        required := s.depth == 0 && s.indent == (s.column : Int)
        index := s.index
        line := s.line
        column := s.column }
    modify fun s => { s with keys := s.keys ++ [(s.depth, mark)] }

/-- Closes the blocks that are indented more than the given column. -/
def closeBlocks (column : Int) : Nat → ScanM Unit
  | 0 => pure ()
  | fuel + 1 => do
    let s ← get
    if s.depth == 0 && s.indent > column then
      set { s with
        indent := s.indents.head?.getD (-1)
        indents := s.indents.tail
        tokens := s.tokens ++ [Token.blockEnd] }
      closeBlocks column fuel

/-- Closes the blocks that are indented more than the column. -/
def unwind (column : Int) : ScanM Unit := do
  closeBlocks column ((← get).indents.length + 1)

/-- Opens a block at the given column unless one is open there. -/
def openBlock (column : Nat) : ScanM Bool := do
  let s ← get
  if s.indent < column then
    set { s with indents := s.indent :: s.indents, indent := (column : Int) }
    return true
  else return false

/-- The value of a run of decimal digits. -/
def decimalValue (ds : List Char) : Nat :=
  ds.foldl (fun n d => 10 * n + (d.toNat - '0'.toNat)) 0

/-- The most digits that a decimal number may have. -/
def Scalar.mostDigits : Nat := 4300

/-- The fault of a number with too many digits. -/
def Fault.tooLong (length : Nat) : Fault :=
  .badNumber (s!"Exceeds the limit ({Scalar.mostDigits} digits) for integer string conversion: " ++
    s!"value has {length} digits; use sys.set_int_max_str_digits() to increase the limit")

/-- Reads a decimal number. -/
def decimalRun : ScanM Nat := do
  let ds ← takeRun isDecimal
  need !ds.isEmpty
  if ds.length > Scalar.mostDigits then stop (.tooLong ds.length)
  return decimalValue ds

/-- The value of a run of hexadecimal digits. -/
def hexRunValue (ds : List Char) : Nat :=
  ds.foldl (fun n d =>
    16 * n + (if isDecimal d then d.toNat - '0'.toNat else d.toLower.toNat - 'a'.toNat + 10)) 0

/-- Reads exactly `n` hexadecimal digits. -/
def hexRun (n : Nat) : ScanM Nat := do
  let ds := (← get).rest.take n
  need (ds.length == n && ds.all isHex)
  forward n
  return hexRunValue ds

/-- Reads bytes written with percent signs. The fuel bounds their number. -/
def escapedBytes : Nat → ScanM (List UInt8)
  | 0 => return []
  | fuel + 1 => do
    if (← peek) == '%' then
      forward
      let b ← hexRun 2
      return UInt8.ofNat b :: (← escapedBytes fuel)
    else return []

/-- Can the character stand in the name of a tag as it is? -/
def isUriChar (c : Char) : Bool :=
  isWordChar c || isOneOf ";/?:@&=+$,.!~*'()[]" c

/-- Reads the characters of a tag. The fuel bounds the number of stretches. -/
def uriFrom : Nat → ScanM (List Char)
  | 0 => return []
  | fuel + 1 => do
    let run ← takeRun isUriChar
    if (← peek) == '%' then
      let bytes ← escapedBytes (← get).rest.length
      match Text.decode bytes with
      | .ok s => return run ++ s.toList ++ (← uriFrom fuel)
      | .error _ => throw .malformed
    else return run

/-- Reads the name of a tag. -/
def uri : ScanM String := do
  let start := (← get).rest.length
  let cs ← uriFrom (start + 1)
  need ((← get).rest.length != start)
  return String.ofList cs

/-- Reads a tag handle: an exclamation mark, or two with a word between them. -/
def tagHandle : ScanM String := do
  need ((← peek) == '!')
  forward
  let w ← if (← peek) == ' ' then pure [] else takeRun isWordChar
  let next ← peek
  if next == '!' then
    forward
    return String.ofList (['!'] ++ w ++ ['!'])
  else
    need (w.isEmpty && next == ' ')
    return "!"

/-- Passes over the rest of a line that may hold no more than a comment. -/
def restOfLine : ScanM Unit := do
  skipBlanks
  comment
  need (isBreakOrEnd (← peek))
  discard lineBreak

/-- Reads a directive. -/
def directive : ScanM Unit := do
  forward
  let name ← takeRun isWordChar
  need (!name.isEmpty && isSpaceOrEnd (← peek))
  let d ←
    if name == "YAML".toList then do
      skipBlanks
      let major ← decimalRun
      need ((← peek) == '.')
      forward
      let minor ← decimalRun
      need (isSpaceOrEnd (← peek))
      pure (Directive.version major minor)
    else if name == "TAG".toList then do
      skipBlanks
      let handle ← tagHandle
      need ((← peek) == ' ')
      skipBlanks
      let start ← uri
      need (isSpaceOrEnd (← peek))
      pure (Directive.tag handle start)
    else do
      skipRun (!isBreakOrEnd ·)
      pure (Directive.other (String.ofList name))
  restOfLine
  emit (.directive d)

/-- Reads the name of an anchor or alias. -/
def anchorName : ScanM String := do
  forward
  let name ← takeRun isWordChar
  let next ← peek
  need (!name.isEmpty && (isBlankOrEnd next || isOneOf "?:,]\x7d%@\x60" next))
  return String.ofList name

/-- Does another exclamation mark follow before the word ends? -/
def hasHandle (s : Scanner) : Bool :=
  ((s.rest.drop 1).takeWhile fun c => !isSpaceOrEnd c).contains '!'

/-- Reads a tag. -/
def tag : ScanM Unit := do
  let next ← peek 1
  if next == '<' then
    forward 2
    let suffix ← uri
    need ((← peek) == '>')
    forward
    need (isSpaceOrEnd (← peek))
    emit (.tag none suffix)
  else if isBlankOrEnd next then
    forward
    need (isSpaceOrEnd (← peek))
    emit (.tag none "!")
  else
    let handle ← if hasHandle (← get) then tagHandle else do
      forward
      pure "!"
    let suffix ← uri
    need (isSpaceOrEnd (← peek))
    emit (.tag (some handle) suffix)

/-- What a block scalar does with the line breaks at its end. -/
inductive Chomping where
  | clip
  | strip
  | keep
  deriving DecidableEq

/-- The mark for how a block ends, if there is one. -/
def chompingMark : ScanM (Option Chomping) := do
  let c ← peek
  if c == '+' then
    forward
    return some .keep
  else if c == '-' then
    forward
    return some .strip
  else return none

/-- The mark for how far a block is indented, if there is one. -/
def indentMark : ScanM (Option Nat) := do
  let c ← peek
  if isDecimal c then
    need (c != '0')
    forward
    return some (c.toNat - '0'.toNat)
  else return none

/-- Reads the marks after the bar or the angle: how to end, and how far to indent, in either
order. -/
def blockMarks : ScanM (Chomping × Option Nat) := do
  let first ← chompingMark
  let increment ← indentMark
  let second ← if first.isNone && increment.isSome then chompingMark else pure none
  need (isSpaceOrEnd (← peek))
  return ((first.or second).getD .clip, increment)

/-- Reads blank lines and finds the widest indentation among them and the line after. -/
def leadingLines (widest : Nat) : Nat → ScanM (List Char × Nat)
  | 0 => return ([], widest)
  | fuel + 1 => do
    let c ← peek
    if c == ' ' then
      forward
      leadingLines (max widest (← get).column) fuel
    else if isBreak c then
      let b ← lineBreak
      let (bs, w) ← leadingLines widest fuel
      return (b ++ bs, w)
    else return ([], widest)

/-- Passes over blanks up to a column. -/
def skipTo (column : Int) : Nat → ScanM Unit
  | 0 => pure ()
  | fuel + 1 => do
    if ((← get).column : Int) < column && (← peek) == ' ' then
      forward
      skipTo column fuel

/-- Reads blank lines up to the next line at the given column. -/
def blankLines (column : Int) : Nat → ScanM (List Char)
  | 0 => return []
  | fuel + 1 => do
    skipTo column (← get).rest.length
    if isBreak (← peek) then
      let b ← lineBreak
      return b ++ (← blankLines column fuel)
    else return []

/-- Reads the lines of a block scalar at the given column. `breaks` are the line breaks before the
next line. Gives the text, the last line break and the blank lines after it. -/
def blockLines (folded : Bool) (column : Int) (breaks : List Char) :
    Nat → ScanM (List Char × List Char × List Char)
  | 0 => return ([], [], breaks)
  | fuel + 1 => do
    let here ← peek
    if ((← get).column : Int) == column && here != endMark then
      let text ← takeRun (!isBreakOrEnd ·)
      let br ← lineBreak
      let more ← blankLines column ((← get).rest.length + 1)
      let next ← peek
      if ((← get).column : Int) == column && next != endMark then
        let isText (c : Char) : Bool := !(c == ' ' || c == '\t')
        let joint :=
          if folded && br == ['\n'] && isText here && isText next then
            if more.isEmpty then [' '] else []
          else br
        let (cs, last, trailing) ← blockLines folded column more fuel
        return (breaks ++ text ++ joint ++ cs, last, trailing)
      else return (breaks ++ text, br, more)
    else return ([], [], breaks)

/-- Reads a text that is written as a block. -/
def blockScalar (folded : Bool) : ScanM Unit := do
  forward
  let (chomping, increment) ← blockMarks
  restOfLine
  let s ← get
  let least := max (s.indent + 1) 1
  let (column, breaks) ←
    match increment with
    | some n => do
      let column := least + n - 1
      let bs ← blankLines column (s.rest.length + 1)
      pure (column, bs)
    | none => do
      let (bs, widest) ← leadingLines 0 (s.rest.length + 1)
      pure (max least widest, bs)
  let (text, last, trailing) ← blockLines folded column breaks ((← get).rest.length + 1)
  let out :=
    match chomping with
    | .clip => text ++ last
    | .strip => text
    | .keep => text ++ last ++ trailing
  emit (.scalar (String.ofList out) false)

/-- The escapes of one character between double quotes. -/
def escapeOf? (c : Char) : Option Char :=
  [('0', 0x00), ('a', 0x07), ('b', 0x08), ('t', 0x09), ('\t', 0x09), ('n', 0x0A), ('v', 0x0B),
    ('f', 0x0C), ('r', 0x0D), ('e', 0x1B), (' ', 0x20), ('\x22', 0x22), ('\\', 0x5C), ('/', 0x2F),
    ('N', 0x85), ('_', 0xA0), ('L', 0x2028), ('P', 0x2029)].lookup c |>.map Char.ofNat

/-- The number of digits of an escape that names a code point. -/
def escapeDigits? (c : Char) : Option Nat :=
  [('x', 2), ('u', 4), ('U', 8)].lookup c

/-- Reads line breaks inside quotes, with the blanks around them. -/
def quotedBreaks : Nat → ScanM (List Char)
  | 0 => return []
  | fuel + 1 => do
    need !(← atAnyMark)
    skipRun fun c => c == ' ' || c == '\t'
    if isBreak (← peek) then
      let b ← lineBreak
      return b ++ (← quotedBreaks fuel)
    else return []

/-- The fault of a code point that is too large for a character. -/
def Fault.ofCode (code : Nat) : Fault :=
  if code < Nat.pow 2 31 then .badNumber "chr() arg not in range(0x110000)" else .hugeCode

/-- The character of a code point. Half of a pair is none, and has the replacement character in its
place. -/
def charOfCode (code : Nat) : Char :=
  if code.isValidChar then Char.ofNat code else Char.ofNat 0xFFFD

/-- Reads an escape between double quotes, from its backslash on. -/
def quotedEscape : ScanM (List Char) := do
  forward
  let c ← peek
  match escapeOf? c with
  | some d =>
    forward
    return [d]
  | none =>
    match escapeDigits? c with
    | some n =>
      forward
      let code ← hexRun n
      if code ≤ 0x10FFFF then return [charOfCode code] else stop (.ofCode code)
    | none =>
      need (isBreak c)
      discard lineBreak
      quotedBreaks ((← get).rest.length + 1)

/-- Reads blanks or line breaks inside quotes. -/
def quotedSpace : ScanM (List Char) := do
  let blanks ← takeRun fun c => c == ' ' || c == '\t'
  let c ← peek
  need (c != endMark)
  if isBreak c then
    let br ← lineBreak
    let more ← quotedBreaks ((← get).rest.length + 1)
    let joint := if br != ['\n'] then br else if more.isEmpty then [' '] else []
    return joint ++ more
  else return blanks

/-- Reads the inside of a quoted scalar up to and with its closing quote. -/
def quotedFrom (double : Bool) : Nat → ScanM (List Char)
  | 0 => throw .malformed
  | fuel + 1 => do
    let quote := if double then '\x22' else '\x27'
    let c ← peek
    if !double && c == '\x27' && (← peek 1) == '\x27' then
      forward 2
      return '\x27' :: (← quotedFrom double fuel)
    else if c == quote then
      forward
      return []
    else if isBlankOrEnd c then
      let cs ← quotedSpace
      return cs ++ (← quotedFrom double fuel)
    else if double && c == '\\' then
      let cs ← quotedEscape
      return cs ++ (← quotedFrom double fuel)
    else
      forward
      return c :: (← quotedFrom double fuel)

/-- Reads a text in quotes. -/
def quotedScalar (double : Bool) : ScanM Unit := do
  forward
  let cs ← quotedFrom double ((← get).rest.length + 1)
  emit (.scalar (String.ofList cs) false)

/-- Does a plain scalar end at the character, which the other follows? -/
def endsPlain (inFlow : Bool) (c next : Char) : Bool :=
  isBlankOrEnd c ||
    (c == ':' && (isBlankOrEnd next || (inFlow && isOneOf ",[]\x7b\x7d" next))) ||
    (inFlow && isOneOf ",?[]\x7b\x7d" c)

/-- The start of a text up to where a plain scalar ends. -/
def plainRun (inFlow : Bool) : List Char → List Char
  | [] => []
  | c :: cs => if endsPlain inFlow c (cs.head?.getD endMark) then [] else c :: plainRun inFlow cs

/-- Reads line breaks within a plain scalar. Gives nothing at a document mark. -/
def plainBreaks : Nat → ScanM (Option (List Char))
  | 0 => return some []
  | fuel + 1 => do
    let c ← peek
    if c == ' ' then
      forward
      plainBreaks fuel
    else if isBreak c then
      let b ← lineBreak
      if ← atAnyMark then return none
      return (← plainBreaks fuel).map (b ++ ·)
    else return some []

/-- Reads blanks or line breaks within a plain scalar. Gives nothing if the scalar ends here. -/
def plainSpace : ScanM (List Char) := do
  let blanks ← takeRun (· == ' ')
  if isBreak (← peek) then
    let br ← lineBreak
    allowKey true
    if ← atAnyMark then return []
    match ← plainBreaks ((← get).rest.length + 1) with
    | none => return []
    | some more =>
      let joint := if br != ['\n'] then br else if more.isEmpty then [' '] else []
      return joint ++ more
  else return blanks

/-- Reads a plain scalar. `space` stands before the next stretch of it. -/
def plainFrom (space : List Char) : Nat → ScanM (List Char)
  | 0 => return []
  | fuel + 1 => do
    if (← peek) == '#' then return []
    let s ← get
    let run := plainRun (s.depth != 0) s.rest
    if run.isEmpty then return []
    allowKey false
    forward run.length
    let more ← plainSpace
    let s' ← get
    if more.isEmpty || (← peek) == '#' || (s'.depth == 0 && (s'.column : Int) < s'.indent + 1) then
      return space ++ run
    else return space ++ run ++ (← plainFrom more fuel)

/-- Reads a text without quotes. -/
def plainScalar : ScanM Unit := do
  let cs ← plainFrom [] ((← get).rest.length + 1)
  emit (.scalar (String.ofList cs) true)

/-- May a plain scalar begin with the character, which the other follows? -/
def startsPlain (inFlow : Bool) (c next : Char) : Bool :=
  !(isBlankOrEnd c || isOneOf "-?:,[]\x7b\x7d#&*!|>'\"%@\x60" c) ||
    (!isBlankOrEnd next && (c == '-' || (!inFlow && (c == '?' || c == ':'))))

/-- Reads a mark of a document. -/
def documentMark (t : Token) : ScanM Unit := do
  unwind (-1)
  dropKey
  allowKey false
  forward 3
  emit t

/-- Opens a bracket or a brace. -/
def openFlow (t : Token) : ScanM Unit := do
  markKey
  modify fun s => { s with depth := s.depth + 1 }
  allowKey true
  forward
  emit t

/-- Closes a bracket or a brace. -/
def closeFlow (t : Token) : ScanM Unit := do
  dropKey
  let s ← get
  need (s.depth != 0)
  set { s with depth := s.depth - 1 }
  allowKey false
  forward
  emit t

/-- Reads a comma between brackets or braces. -/
def flowEntry : ScanM Unit := do
  allowKey true
  dropKey
  forward
  emit .flowEntry

/-- Reads the mark of an item. -/
def blockEntry : ScanM Unit := do
  let s ← get
  if s.depth == 0 then
    need s.keyAllowed
    if ← openBlock s.column then emit .blockSequenceStart
  allowKey true
  dropKey
  forward
  emit .blockEntry

/-- Reads the mark of a key. -/
def keyMark : ScanM Unit := do
  let s ← get
  if s.depth == 0 then
    need s.keyAllowed
    if ← openBlock s.column then emit .blockMappingStart
  allowKey (s.depth == 0)
  dropKey
  forward
  emit .key

/-- Reads the mark of a value. -/
def valueMark : ScanM Unit := do
  let s ← get
  match s.keys.lookup s.depth with
  | some k =>
    set { s with keys := s.keys.filter (·.1 != s.depth) }
    let opened ← if s.depth == 0 then openBlock k.column else pure false
    emitAt k.tokens (if opened then [.blockMappingStart, .key] else [.key])
    allowKey false
  | none =>
    if s.depth == 0 then
      need s.keyAllowed
      if ← openBlock s.column then emit .blockMappingStart
    allowKey (s.depth == 0)
    dropKey
  forward
  emit .value

/-- Passes over what stands before the next token, and closes the blocks that end there. -/
def approach : ScanM Unit := do
  toNextToken ((← get).rest.length + 1)
  dropStaleKeys
  unwind ((← get).column : Int)

/-- Reads the token that stands here. It is no mark of a document. -/
def fetchInside : ScanM Unit := do
  let s ← get
  let c := s.peekAt 0
  let next := s.peekAt 1
  let inFlow := s.depth != 0
  if c == '[' then openFlow .flowSequenceStart
  else if c == '{' then openFlow .flowMappingStart
  else if c == ']' then closeFlow .flowSequenceEnd
  else if c == '}' then closeFlow .flowMappingEnd
  else if c == ',' then flowEntry
  else if c == '-' && isBlankOrEnd next then blockEntry
  else if c == '?' && (inFlow || isBlankOrEnd next) then keyMark
  else if c == ':' && (inFlow || isBlankOrEnd next) then valueMark
  else if c == '*' then
    markKey
    allowKey false
    emit (.alias (← anchorName))
  else if c == '&' then
    markKey
    allowKey false
    emit (.anchor (← anchorName))
  else if c == '!' then
    markKey
    allowKey false
    tag
  else if (c == '|' || c == '>') && !inFlow then
    allowKey true
    dropKey
    blockScalar (c == '>')
  else if c == '\x27' || c == '\x22' then
    markKey
    allowKey false
    quotedScalar (c == '\x22')
  else if startsPlain inFlow c next then
    markKey
    allowKey false
    plainScalar
  else throw .malformed

/-- Reads the token that stands here with all that comes with it. Gives false at the end of the
text. -/
def fetch : ScanM Bool := do
  let s ← get
  let c := s.peekAt 0
  if c == endMark then
    unwind (-1)
    dropKey
    return false
  if c == '%' && s.column == 0 then
    unwind (-1)
    dropKey
    allowKey false
    directive
  else if s.column == 0 && (← atMark '-') then documentMark .documentStart
  else if s.column == 0 && (← atMark '.') then documentMark .documentEnd
  else fetchInside
  return true

/-- Reads the next token. Gives false at the end of the text. -/
def nextToken : ScanM Bool := do
  let s ← get
  tryCatch (do approach; fetch) fun e =>
    match e with
    | .fault _ f => throw (.fault (s.tokens.take s.sure) f)
    | .malformed => throw .malformed

/-- Reads all tokens. The fuel bounds their number. -/
def allTokens : Nat → ScanM Unit
  | 0 => throw .malformed
  | fuel + 1 => do
    if ← nextToken then allTokens fuel

/-- May the character stand in a YAML text? -/
def isAllowed (c : Char) : Bool :=
  let n := c.toNat
  n == 0x09 || n == 0x0A || n == 0x0D || (0x20 ≤ n && n ≤ 0x7E) || n == 0x85 ||
    (0xA0 ≤ n && n ≤ 0xD7FF) || (0xE000 ≤ n && n ≤ 0xFFFD) || 0x10000 ≤ n

/-- A byte order mark at the very start does not count. -/
def dropMark (s : Scanner) : Scanner :=
  if s.rest.head? == some (Char.ofNat 0xFEFF) then s.advance else s

/-- The tokens of a text. -/
def Token.scan (text : String) : Option (List Token) :=
  let cs := text.toList
  if cs.all isAllowed then
    match (allTokens (2 * cs.length + 2)).run (dropMark { rest := cs }) with
    | .ok r => some r.2.tokens
    | .error (.fault tokens f) => some (tokens ++ [.fault f])
    | .error .malformed => none
  else none

end Stencil.Yaml
