import Stencil.Yaml.Tag

/-!
# Writing mappings of texts

A block mapping is written with one entry a line. A text is written plain if it would be read back
as the same text, else between single quotes, and between double quotes with escapes if it has
characters that no other style can hold. Lines are folded at blanks once they are wider than the
margin.
-/

namespace Stencil.Yaml

/-- Lines are folded at the first blank after this column. -/
def margin : Nat := 80

/-- The ways to write a text. -/
inductive Style where
  | plain
  | single
  | double
  deriving DecidableEq, Repr

namespace Style

/-- Characters that only an escape can write. -/
def needsEscape (c : Char) : Bool :=
  !(c == '\n' || (' ' ≤ c && c ≤ '~'))

/-- Is the character a blank or a newline? -/
def isGap (c : Char) : Bool :=
  c == ' ' || c == '\n'

/-- Does a blank meet a line break somewhere? -/
def hasBrokenBlank : List Char → Bool
  | a :: b :: rest => (isGap a && isGap b && a != b) || hasBrokenBlank (b :: rest)
  | _ => false

/-- Does a character that ends or begins a plain text stand within it? A colon ends one before a
blank, and a number sign begins a comment after one. -/
def hasIndicator : List Char → Bool
  | a :: b :: rest =>
    (a == ':' && isGap b) || (isGap a && b == '#') || hasIndicator (b :: rest)
  | [a] => a == ':'
  | [] => false

/-- Does the text begin like something else? -/
def startsOtherwise : List Char → Bool
  | [] => false
  | c :: rest =>
    let next := rest.head?.getD ' '
    isOneOf "#,[]\x7b\x7d&*!|>'\"%@\x60" c ||
      ((c == '?' || c == ':' || c == '-') && isGap next) ||
      (c == '-' && rest.take 2 == ['-', '-']) || (c == '.' && rest.take 2 == ['.', '.'])

/-- May a text stand between single quotes? -/
def allowsSingle (cs : List Char) : Bool :=
  !(cs.any needsEscape || hasBrokenBlank cs)

/-- May a text be written plain, as far as its characters go? -/
def allowsPlain (cs : List Char) : Bool :=
  allowsSingle cs && !cs.contains '\n' && cs.head? != some ' ' && cs.getLast? != some ' ' &&
    !startsOtherwise cs && !hasIndicator cs

/-- The style of a text. -/
def of (s : String) : Style :=
  if tagOf s == coreTag "str" && allowsPlain s.toList then .plain
  else if allowsSingle s.toList then .single
  else .double

end Style

/-- A line break and the blanks after it. -/
def newLine (indent : Nat) : List Char :=
  '\n' :: List.replicate indent ' '

/-- Cuts a text into runs of blanks, runs of line breaks and runs of other characters. -/
def runsOf (cs : List Char) : List (List Char) :=
  cs.splitBy fun a b => if Style.isGap a || Style.isGap b then a == b else true

/-- Writes the runs of a text. `first` holds at the start of a text that may not be folded there. -/
def foldRuns (write : List Char → List Char) (guarded first : Bool) (indent column : Nat) :
    List (List Char) → List Char
  | [] => []
  | run :: rest =>
    match run with
    | '\n' :: _ =>
      List.replicate (run.length + 1) '\n' ++ List.replicate indent ' ' ++
        foldRuns write guarded false indent indent rest
    | [' '] =>
      if margin < column && !(guarded && (first || rest.isEmpty)) then
        newLine indent ++ foldRuns write guarded false indent indent rest
      else ' ' :: foldRuns write guarded false indent (column + 1) rest
    | run =>
      let out := write run
      out ++ foldRuns write guarded false indent (column + out.length) rest

/-- Quotes within single quotes are written twice. -/
def doubleQuotes (cs : List Char) : List Char :=
  cs.flatMap fun c => if c == '\x27' then ['\x27', '\x27'] else [c]

/-- A code point in upper hexadecimal digits. -/
def upperHexDigits (n width : Nat) : List Char :=
  let ds := (Nat.toDigits 16 n).map Char.toUpper
  List.replicate (width - ds.length) '0' ++ ds

/-- The letters of the escapes that have one. -/
def escapeLetter? (c : Char) : Option Char :=
  [(0x00, '0'), (0x07, 'a'), (0x08, 'b'), (0x09, 't'), (0x0A, 'n'), (0x0B, 'v'), (0x0C, 'f'),
    (0x0D, 'r'),
    (0x1B, 'e'), (0x22, '\x22'), (0x5C, '\\'), (0x85, 'N'), (0xA0, '_'), (0x2028, 'L'),
    (0x2029, 'P')].lookup c.toNat

/-- The escape of a character that cannot stand for itself between double quotes. -/
def escaped? (c : Char) : Option (List Char) :=
  match escapeLetter? c with
  | some l => some ['\\', l]
  | none =>
    let n := c.toNat
    if ' ' ≤ c && c ≤ '~' then none
    else if n ≤ 0xFF then some ('\\' :: 'x' :: upperHexDigits n 2)
    else if n ≤ 0xFFFF then some ('\\' :: 'u' :: upperHexDigits n 4)
    else some ('\\' :: 'U' :: upperHexDigits n 8)

/-- Writes the inside of double quotes. `pending` was passed over and is not yet counted in the
column; `start` holds at the first character. A line may be broken, behind a backslash, before a
blank or after an escape; a blank that would then begin a line gets a backslash of its own. -/
def escapeFold (fold : Bool) (indent : Nat) (start : Bool) (column : Nat) (pending : List Char) :
    List Char → List Char
  | [] => pending
  | c :: rest =>
    let inside := fold && !start && !rest.isEmpty
    match escaped? c with
    | some e =>
      let column' := column + pending.length + e.length
      if inside && margin + 1 < column' then
        let guard := if rest.head? == some ' ' then ['\\'] else []
        pending ++ e ++ ['\\'] ++ newLine indent ++ guard ++
          escapeFold fold indent false (indent + guard.length) [] rest
      else pending ++ e ++ escapeFold fold indent false column' [] rest
    | none =>
      if inside && (c == ' ' || pending.isEmpty) && margin < column + pending.length then
        let guard := if c == ' ' then ['\\'] else []
        pending ++ ['\\'] ++ newLine indent ++ guard ++
          escapeFold fold indent false (indent + guard.length) [c] rest
      else escapeFold fold indent false column (pending ++ [c]) rest

/-- A text as it is written from some column on. -/
def writeText (fold : Bool) (indent column : Nat) (s : String) : List Char :=
  let cs := s.toList
  match Style.of s with
  | .plain => if fold then foldRuns id false false indent column (runsOf cs) else cs
  | .single =>
    let inside :=
      if fold then foldRuns doubleQuotes true true indent (column + 1) (runsOf cs)
      else doubleQuotes cs
    ['\x27'] ++ inside ++ ['\x27']
  | .double => ['\x22'] ++ escapeFold fold indent true (column + 1) [] cs ++ ['\x22']

/-- The most characters of a key that stands on one line with its value. -/
def longestKey : Nat := 122

/-- A key as it is written, with the mark after it. -/
def writeKey (indent : Nat) (key : String) : List Char :=
  let margin := List.replicate indent ' '
  if key.length ≤ longestKey then margin ++ writeText false 0 indent key ++ [':']
  else margin ++ ['?', ' '] ++ writeText true (indent + 2) (indent + 2) key ++ newLine indent ++
    [':']

/-- The column after a key and its mark. -/
def keyColumn (indent : Nat) (key : String) : Nat :=
  if key.length ≤ longestKey then (writeKey indent key).length else indent + 1

/-- An entry whose value is a text. -/
def writeEntry (indent : Nat) (key value : String) : List Char :=
  writeKey indent key ++ [' '] ++ writeText true (indent + 2) (keyColumn indent key + 1) value ++
    ['\n']

end Stencil.Yaml
