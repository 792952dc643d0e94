import Stencil.Toml.Value

/-!
# Scalars and keys of TOML

Scanners for the parts of a document that hold no other values: keys, strings, numbers, dates and
times. Each takes the text from its first character on and gives what it read and the text that
follows.
-/

namespace Stencil.Toml

/-- A scanner's result: what was read and what follows, or nothing if the text is malformed. -/
abbrev Scan (α : Type) := Option (α × List Char)

/-- Blanks within a line. -/
def isSpace (c : Char) : Bool :=
  c == ' ' || c == '\t'

/-- Blanks and line feeds. -/
def isSpaceOrLine (c : Char) : Bool :=
  isSpace c || c == '\n'

/-- Controls, which no comment and no string on one line may hold. A tab is none. -/
def isControl (c : Char) : Bool :=
  (c.toNat < 0x20 && c != '\t') || c.toNat == 0x7F

/-- Characters of a key without quotes. -/
def isBareKey (c : Char) : Bool :=
  ('a' ≤ c && c ≤ 'z') || ('A' ≤ c && c ≤ 'Z') || ('0' ≤ c && c ≤ '9') || c == '-' || c == '_'

/-- Is the character a decimal digit? -/
def isDigit (c : Char) : Bool :=
  '0' ≤ c && c ≤ '9'

/-- The value of a hexadecimal digit. -/
def hexValue? (c : Char) : Option Nat :=
  if '0' ≤ c && c ≤ '9' then some (c.toNat - '0'.toNat)
  else if 'a' ≤ c && c ≤ 'f' then some (c.toNat - 'a'.toNat + 10)
  else if 'A' ≤ c && c ≤ 'F' then some (c.toNat - 'A'.toNat + 10)
  else none

/-- The characters behind the blanks. -/
def skipSpaces (cs : List Char) : List Char :=
  cs.dropWhile isSpace

/-- Passes over a comment, if there is one. -/
def skipComment : List Char → Option (List Char)
  | '#' :: cs =>
    if (cs.takeWhile (· != '\n')).any isControl then none else some (cs.dropWhile (· != '\n'))
  | cs => some cs

/-- Reads `n` hexadecimal digits. -/
def hexNumber : Nat → Nat → List Char → Scan Nat
  | 0, acc, cs => some (acc, cs)
  | _ + 1, _, [] => none
  | n + 1, acc, c :: cs =>
    match hexValue? c with
    | some d => hexNumber n (16 * acc + d) cs
    | none => none

/-- The character of a code point that is a scalar value. -/
def scalar? (n : Nat) : Option Char :=
  if n < 0xD800 || (0xE000 ≤ n && n ≤ 0x10FFFF) then some (Char.ofNat n) else none

/-- Reads the rest of an escape that names a code point with `n` digits. -/
def hexEscape (n : Nat) (cs : List Char) : Scan Char :=
  match hexNumber n 0 cs with
  | none => none
  | some (code, rest) => (scalar? code).map (·, rest)

/-- The escapes of one letter. -/
def letterEscape? (c : Char) : Option Char :=
  if c == 'b' then some '\x08'
  else if c == 't' then some '\t'
  else if c == 'n' then some '\n'
  else if c == 'f' then some '\x0c'
  else if c == 'r' then some '\r'
  else if c == '\x22' then some '\x22'
  else if c == '\\' then some '\\'
  else none

/-- Reads an escape after its backslash. -/
def escape : List Char → Scan Char
  | [] => none
  | c :: cs =>
    if c == 'u' then hexEscape 4 cs
    else if c == 'U' then hexEscape 8 cs
    else (letterEscape? c).map (·, cs)

/-- Reads the rest of a basic string on one line; the text before the first quote. The fuel bounds
the number of characters. -/
def basicString : Nat → List Char → Scan (List Char)
  | 0, _ => none
  | _ + 1, [] => none
  | fuel + 1, c :: cs =>
    if c == '\x22' then some ([], cs)
    else if c == '\\' then
      match escape cs with
      | none => none
      | some (d, rest) => (basicString fuel rest).map fun (s, r) => (d :: s, r)
    else if isControl c then none
    else (basicString fuel cs).map fun (s, r) => (c :: s, r)

/-- Passes over a line break that a backslash hides, with the blanks around it. -/
def hiddenBreak (cs : List Char) : Option (List Char) :=
  match cs.dropWhile isSpace with
  | '\n' :: rest => some (rest.dropWhile isSpaceOrLine)
  | _ => none

/-- Reads the rest of a basic string over several lines, up to and with its three quotes. -/
def longBasicString : Nat → List Char → Scan (List Char)
  | 0, _ => none
  | _ + 1, [] => none
  | fuel + 1, c :: cs =>
    match c, cs with
    | '\x22', '\x22' :: '\x22' :: rest => some ([], rest)
    | '\\', d :: _ =>
      if isSpaceOrLine d then
        match hiddenBreak cs with
        | none => none
        | some rest => longBasicString fuel rest
      else
        match escape cs with
        | none => none
        | some (e, rest) => (longBasicString fuel rest).map fun (s, r) => (e :: s, r)
    | _, _ =>
      if c == '\\' || (isControl c && c != '\n') then none
      else (longBasicString fuel cs).map fun (s, r) => (c :: s, r)

/-- Reads the rest of a literal string on one line. -/
def literalString : List Char → Scan (List Char)
  | [] => none
  | c :: cs =>
    if c == '\x27' then some ([], cs)
    else if isControl c then none
    else (literalString cs).map fun (s, r) => (c :: s, r)

/-- Reads the rest of a literal string over several lines, up to and with its three quotes. -/
def longLiteralString : List Char → Scan (List Char)
  | [] => none
  | c :: cs =>
    match c, cs with
    | '\x27', '\x27' :: '\x27' :: rest => some ([], rest)
    | _, _ =>
      if isControl c && c != '\n' then none
      else (longLiteralString cs).map fun (s, r) => (c :: s, r)

/-- Up to two more quotes right after the three that end a long string belong to it. -/
def extraQuotes (q : Char) (s : List Char) : List Char → List Char × List Char
  | c :: d :: rest =>
    if c == q && d == q then (s ++ [q, q], rest)
    else if c == q then (s ++ [q], d :: rest)
    else (s, c :: d :: rest)
  | [c] => if c == q then (s ++ [q], []) else (s, [c])
  | [] => (s, [])

/-- A line feed right after the opening quotes of a long string does not count. -/
def dropFirstBreak : List Char → List Char
  | '\n' :: cs => cs
  | cs => cs

/-- Reads a string, of whatever kind, from its first quote on. -/
def string (cs : List Char) : Scan String :=
  match cs with
  | '\x22' :: '\x22' :: '\x22' :: rest =>
    (longBasicString (rest.length + 1) (dropFirstBreak rest)).map fun (s, r) =>
      let (t, r') := extraQuotes '\x22' s r
      (String.ofList t, r')
  | '\x22' :: rest =>
    (basicString (rest.length + 1) rest).map fun (s, r) => (String.ofList s, r)
  | '\x27' :: '\x27' :: '\x27' :: rest =>
    (longLiteralString (dropFirstBreak rest)).map fun (s, r) =>
      let (t, r') := extraQuotes '\x27' s r
      (String.ofList t, r')
  | '\x27' :: rest => (literalString rest).map fun (s, r) => (String.ofList s, r)
  | _ => none

/-- Reads one part of a key. -/
def keyPart (cs : List Char) : Scan String :=
  match cs with
  | [] => none
  | c :: rest =>
    if isBareKey c then
      some (String.ofList (cs.takeWhile isBareKey), cs.dropWhile isBareKey)
    else if c == '\x22' then
      (basicString (rest.length + 1) rest).map fun (s, r) => (String.ofList s, r)
    else if c == '\x27' then (literalString rest).map fun (s, r) => (String.ofList s, r)
    else none

/-- Reads a key: parts with dots between them, and the blanks after it. The fuel bounds the number
of parts. -/
def key : Nat → List Char → Scan (List String)
  | 0, _ => none
  | fuel + 1, cs =>
    match keyPart cs with
    | none => none
    | some (part, rest) =>
      match skipSpaces rest with
      | '.' :: more => (key fuel (skipSpaces more)).map fun (ps, r) => (part :: ps, r)
      | rest' => some ([part], rest')

/-- Reads digits that may have single underscores between them, at least one. -/
def digitRun (p : Char → Bool) : List Char → Scan (List Char)
  | [] => none
  | c :: cs =>
    if p c then
      match cs with
      | '_' :: d :: rest =>
        if p d then (digitRun p (d :: rest)).map fun (s, r) => (c :: s, r) else some ([c], cs)
      | d :: rest =>
        if p d then (digitRun p (d :: rest)).map fun (s, r) => (c :: s, r) else some ([c], cs)
      | [] => some ([c], [])
    else none

/-- The number of digits in the given base. -/
def digitsValue (base : Nat) (ds : List Char) : Nat :=
  ds.foldl (fun n d => base * n + (hexValue? d).getD 0) 0

/-- Is the character a hexadecimal digit? -/
def isHexDigit (c : Char) : Bool := (hexValue? c).isSome

/-- Is the character an octal digit? -/
def isOctalDigit (c : Char) : Bool := '0' ≤ c && c ≤ '7'

/-- Is the character a binary digit? -/
def isBinaryDigit (c : Char) : Bool := c == '0' || c == '1'

/-- Reads an integer in another base. -/
def basedInteger (cs : List Char) : Scan Value :=
  let read (base : Nat) (p : Char → Bool) (rest : List Char) : Scan Value :=
    (digitRun p rest).map fun (ds, r) => (.integer (digitsValue base ds), r)
  match cs with
  | '0' :: 'x' :: rest => read 16 isHexDigit rest
  | '0' :: 'b' :: rest => read 2 isBinaryDigit rest
  | '0' :: 'o' :: rest => read 8 isOctalDigit rest
  | _ => none

/-- Reads a sign, if there is one. -/
def sign : List Char → List Char × List Char
  | '+' :: cs => (['+'], cs)
  | '-' :: cs => (['-'], cs)
  | cs => ([], cs)

/-- The integer part of a decimal number: a lone zero, or digits that do not begin with one. -/
def integerPart : List Char → Scan (List Char)
  | '0' :: cs => some (['0'], cs)
  | cs => digitRun isDigit cs

/-- The fraction of a decimal number, if there is one. -/
def fraction (cs : List Char) : List Char × List Char :=
  match cs with
  | '.' :: rest =>
    match digitRun isDigit rest with
    | some (ds, r) => ('.' :: ds, r)
    | none => ([], cs)
  | _ => ([], cs)

/-- The exponent of a decimal number, if there is one. -/
def exponent (cs : List Char) : List Char × List Char :=
  match cs with
  | e :: rest =>
    if e == 'e' || e == 'E' then
      let (s, r) := sign rest
      match digitRun isDigit r with
      | some (ds, r') => ('e' :: s ++ ds, r')
      | none => ([], cs)
    else ([], cs)
  | [] => ([], [])

/-- Reads a decimal number. -/
def decimal (cs : List Char) : Scan Value :=
  let (s, r₀) := sign cs
  match integerPart r₀ with
  | none => none
  | some (ds, r₁) =>
    let (f, r₂) := fraction r₁
    let (e, r₃) := exponent r₂
    if f.isEmpty && e.isEmpty then
      let n : Int := digitsValue 10 ds
      some (.integer (if s == ['-'] then -n else n), r₃)
    else some (.float (String.ofList (s ++ ds ++ f ++ e)), r₃)

/-- Reads exactly `n` decimal digits. -/
def fixedDigits : Nat → Nat → List Char → Scan Nat
  | 0, acc, cs => some (acc, cs)
  | _ + 1, _, [] => none
  | n + 1, acc, c :: cs =>
    if isDigit c then fixedDigits n (10 * acc + (c.toNat - '0'.toNat)) cs else none

/-- Reads a number of two digits within bounds. -/
def twoDigits (low high : Nat) (cs : List Char) : Scan Nat :=
  match fixedDigits 2 0 cs with
  | some (n, rest) => if low ≤ n && n ≤ high then some (n, rest) else none
  | none => none

/-- Passes over one given character. -/
def expect (c : Char) : List Char → Option (List Char)
  | d :: cs => if d == c then some cs else none
  | [] => none

/-- Passes over a time of day. -/
def timeOfDay (cs : List Char) : Option (List Char) := do
  let (_, cs) ← twoDigits 0 23 cs
  let cs ← expect ':' cs
  let (_, cs) ← twoDigits 0 59 cs
  let cs ← expect ':' cs
  let (_, cs) ← twoDigits 0 59 cs
  match cs with
  | '.' :: c :: rest => if isDigit c then some ((c :: rest).dropWhile isDigit) else some cs
  | _ => some cs

/-- Passes over an offset from universal time, if there is one. -/
def timeOffset (cs : List Char) : List Char :=
  match cs with
  | c :: rest =>
    if c == 'Z' || c == 'z' then rest
    else if c == '+' || c == '-' then
      let offset : Option (List Char) := do
        let (_, r) ← twoDigits 0 23 rest
        let r ← expect ':' r
        let (_, r) ← twoDigits 0 59 r
        return r
      offset.getD cs
    else cs
  | [] => []

/-- Does the year have a leap day? -/
def isLeapYear (y : Nat) : Bool :=
  y % 4 == 0 && (y % 100 != 0 || y % 400 == 0)

/-- The number of days of a month. -/
def daysIn (y m : Nat) : Nat :=
  if m == 2 then (if isLeapYear y then 29 else 28)
  else if m == 4 || m == 6 || m == 9 || m == 11 then 30
  else 31

/-- A year, month and day as they are written, and what follows. -/
def dateParts (cs : List Char) : Option ((Nat × Nat × Nat) × List Char) := do
  let (y, cs) ← fixedDigits 4 0 cs
  let cs ← expect '-' cs
  let (m, cs) ← twoDigits 1 12 cs
  let cs ← expect '-' cs
  let (d, cs) ← twoDigits 1 31 cs
  return ((y, m, d), cs)

/-- Reads a date or a date with a time. -/
def dateOrDateTime (cs : List Char) : Scan Value :=
  match dateParts cs with
  | none => none
  | some ((y, m, d), rest) =>
    if y == 0 || d > daysIn y m then none
    else
      match rest with
      | c :: more =>
        if c == 'T' || c == 't' || c == ' ' then
          match timeOfDay more with
          | some r => some (.dateTime, timeOffset r)
          | none => some (.date, rest)
        else some (.date, rest)
      | [] => some (.date, [])

/-- The words that stand for numbers beyond all others, and for no number. -/
def specialFloats : List String :=
  ["inf", "nan", "-inf", "+inf", "-nan", "+nan"]

/-- Does the text begin with a word, and if so what follows? -/
def word? : List Char → List Char → Option (List Char)
  | [], cs => some cs
  | w :: ws, c :: cs => if w == c then word? ws cs else none
  | _ :: _, [] => none

/-- Reads one of the special numbers. -/
def specialFloat (cs : List Char) : Scan Value :=
  specialFloats.findSome? fun w => (word? w.toList cs).map fun r => (.float w, r)

/-- Reads a number, a date or a time. A text that begins like a date is one. -/
def numeric (cs : List Char) : Scan Value :=
  if (dateParts cs).isSome then dateOrDateTime cs
  else
    match timeOfDay cs with
    | some rest => some (.time, rest)
    | none => (basedInteger cs).or ((decimal cs).or (specialFloat cs))

end Stencil.Toml
