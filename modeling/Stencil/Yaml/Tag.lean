import Stencil.Yaml.Token

/-!
# Tags

The tag of a node says what kind of value it stands for. A plain scalar without a tag gets one from
its spelling: truth values, numbers, dates and so on have spellings of their own, and all else is
text.
-/

namespace Stencil.Yaml

/-- The start of the tags that the language itself defines. -/
def coreStart : String := "tag:yaml.org,2002:"

/-- A tag of the language. -/
def coreTag (name : String) : String := coreStart ++ name

namespace Spelling

/-- Does the text stand for nothing? -/
def isNull (s : String) : Bool :=
  ["", "~", "null", "Null", "NULL"].contains s

/-- The words that stand for truth values. -/
def truthWords : List (String × Bool) :=
  [("yes", true), ("no", false), ("true", true), ("false", false), ("on", true), ("off", false)]

/-- A word in small letters, with a capital, or in capitals. -/
def isWordIn (words : List String) (s : String) : Bool :=
  words.any fun w => s == w || s == w.capitalize || s == w.map Char.toUpper

/-- Is the text a truth value? -/
def isBool (s : String) : Bool :=
  isWordIn (truthWords.map Prod.fst) s

/-- The characters without the sign before them. -/
def dropSign : List Char → List Char
  | '-' :: cs => cs
  | '+' :: cs => cs
  | cs => cs

/-- Is the character a digit or a bar between digits? -/
def isDigitOrBar (c : Char) : Bool :=
  isDecimal c || c == '_'

/-- A digit and any digits and underscores after it. -/
def dropDigits? : List Char → Option (List Char)
  | c :: cs => if isDecimal c then some (cs.dropWhile isDigitOrBar) else none
  | [] => none

/-- Colons, each with a number below sixty. Gives what follows them, and how many there are. -/
def dropSixties : Nat → List Char → Nat × List Char
  | 0, cs => (0, cs)
  | fuel + 1, cs =>
    match cs with
    | ':' :: a :: b :: rest =>
      if '0' ≤ a && a ≤ '5' && isDecimal b then
        let (n, r) := dropSixties fuel rest
        (n + 1, r)
      else if isDecimal a then
        let (n, r) := dropSixties fuel (b :: rest)
        (n + 1, r)
      else (0, cs)
    | [':', a] => if isDecimal a then (1, []) else (0, cs)
    | cs => (0, cs)

/-- A row of characters that all satisfy `p`, at least one. -/
def isRun (p : Char → Bool) (cs : List Char) : Bool :=
  !cs.isEmpty && cs.all p

/-- Is the character an octal digit or a bar between digits? -/
def isOctalOrBar (c : Char) : Bool :=
  ('0' ≤ c && c ≤ '7') || c == '_'

/-- A row of digits that does not begin with zero, with parts in sixties after it or not. -/
def isCounting (cs : List Char) : Bool :=
  match cs with
  | c :: rest =>
    isDecimal c && c != '0' && (dropSixties rest.length (rest.dropWhile isDigitOrBar)).2.isEmpty
  | [] => false

/-- Integers: binary, octal, decimal, hexadecimal, or in sixties. -/
def isInt (s : String) : Bool :=
  match dropSign s.toList with
  | '0' :: 'b' :: cs => isRun (fun c => c == '0' || c == '1' || c == '_') cs
  | '0' :: 'x' :: cs => isRun (fun c => isHex c || c == '_') cs
  | '0' :: cs => cs.all isOctalOrBar
  | cs => isCounting cs

/-- An exponent with its sign, or nothing. -/
def isExponent : List Char → Bool
  | [] => true
  | e :: sign :: ds => (e == 'e' || e == 'E') && (sign == '-' || sign == '+') && isRun isDecimal ds
  | _ => false

/-- The fraction after a point. -/
def isFraction (cs : List Char) : Bool :=
  isExponent (cs.dropWhile isDigitOrBar)

/-- Do the characters stand for infinity? -/
def isInfinity (cs : List Char) : Bool :=
  [".inf", ".Inf", ".INF"].contains (String.ofList cs)

/-- A number with a point, with parts in sixties before it or not. -/
def isPointed (cs : List Char) : Bool :=
  match dropDigits? cs with
  | none => false
  | some rest =>
    match dropSixties rest.length rest with
    | (0, '.' :: fraction) => isFraction fraction
    | (_ + 1, '.' :: fraction) => fraction.all isDigitOrBar
    | _ => false

/-- Floating point numbers: with a point, infinite, or none at all. -/
def isFloat (s : String) : Bool :=
  let cs := s.toList
  isPointed (dropSign cs) || isInfinity (dropSign cs) || [".nan", ".NaN", ".NAN"].contains s ||
    match cs with
    | '.' :: c :: rest => isDecimal c && isFraction rest
    | _ => false

end Spelling

/-- An offset from universal time. -/
structure Offset where
  negative : Bool
  hours : Nat
  minutes : Nat
  deriving DecidableEq, Repr

/-- The zone of a time of day. -/
inductive Zone where
  | unknown
  | universal
  | offset (o : Offset)
  deriving DecidableEq, Repr

/-- A time of day. The fraction counts millionths of a second. -/
structure TimeOfDay where
  hour : Nat
  minute : Nat
  second : Nat
  fraction : Nat
  zone : Zone
  deriving DecidableEq, Repr

/-- A date, with a time of day or not. -/
structure Timestamp where
  year : Nat
  month : Nat
  day : Nat
  time : Option TimeOfDay
  deriving DecidableEq, Repr

namespace Timestamp

/-- A number of at least `least` and at most two digits. -/
def number? (least : Nat) (cs : List Char) : Option (Nat × List Char) :=
  let ds := (cs.take 2).takeWhile isDecimal
  if ds.length < least then none else some (decimalValue ds, cs.drop ds.length)

/-- The characters behind the one that is demanded. -/
def mark? (c : Char) : List Char → Option (List Char)
  | d :: rest => if d == c then some rest else none
  | [] => none

/-- The millionths that a row of digits after a point stands for. -/
def millionths (ds : List Char) : Nat :=
  decimalValue ((ds ++ List.replicate 6 '0').take 6)

/-- Reads a zone up to the end. -/
def zone? (cs : List Char) : Option Zone :=
  if cs.isEmpty then some .unknown
  else
    match cs.dropWhile fun c => c == ' ' || c == '\t' with
    | ['Z'] => some .universal
    | sign :: rest =>
      if sign == '-' || sign == '+' then
        match number? 1 rest with
        | some (h, []) => some (.offset { negative := sign == '-', hours := h, minutes := 0 })
        | some (h, ':' :: more) =>
          match number? 2 more with
          | some (m, []) => some (.offset { negative := sign == '-', hours := h, minutes := m })
          | _ => none
        | _ => none
      else none
    | [] => none

/-- Reads a time of day up to the end. -/
def time? (cs : List Char) : Option TimeOfDay := do
  let (hour, cs) ← number? 1 cs
  let (minute, cs) ← number? 2 (← mark? ':' cs)
  let (second, cs) ← number? 2 (← mark? ':' cs)
  let (fraction, cs) :=
    match cs with
    | '.' :: rest => (millionths (rest.takeWhile isDecimal), rest.dropWhile isDecimal)
    | cs => (0, cs)
  let zone ← zone? cs
  return { hour, minute, second, fraction, zone }

/-- What stands between a date and a time of day: a letter or blanks. -/
def dropGap? (cs : List Char) : Option (List Char) :=
  match cs with
  | c :: rest =>
    if c == 'T' || c == 't' then some rest
    else if c == ' ' || c == '\t' then some (rest.dropWhile fun c => c == ' ' || c == '\t')
    else none
  | [] => none

/-- Reads a date, with a time of day or not, up to the end. -/
def ofText? (s : String) : Option Timestamp := do
  let cs := s.toList
  let ys := cs.take 4
  guard (ys.length == 4 && ys.all isDecimal)
  let (month, cs) ← number? 1 (← mark? '-' (cs.drop 4))
  let (day, cs) ← number? 1 (← mark? '-' cs)
  if cs.isEmpty then return { year := decimalValue ys, month, day, time := none }
  let time ← time? (← dropGap? cs)
  return { year := decimalValue ys, month, day, time := some time }

/-- Is the text a date by its spelling alone? Without a time of day it must have all its digits. -/
def isSpelled (s : String) : Bool :=
  match ofText? s with
  | none => false
  | some t => t.time.isSome || s.length == 10

end Timestamp

/-- The text without a line break at its end. One that is all there is stays. -/
def dropFinalBreak (s : String) : String :=
  match s.toList.reverse with
  | '\n' :: c :: cs => String.ofList (c :: cs).reverse
  | _ => s

/-- The kind of value that a spelling stands for. -/
def kindOf (s : String) : String :=
  if Spelling.isBool s then "bool"
  else if Spelling.isFloat s then "float"
  else if Spelling.isInt s then "int"
  else if s == "<<" then "merge"
  else if Spelling.isNull s then "null"
  else if Timestamp.isSpelled s then "timestamp"
  else if s == "=" then "value"
  else if ["!", "&", "*"].contains s then "yaml"
  else "str"

/-- The tag that a plain scalar has by its spelling. A line break at its end does not count. -/
def tagOf (s : String) : String :=
  coreTag (kindOf (dropFinalBreak s))

/-- Reads a date, with a time of day or not. A line break at its end does not count. -/
def Timestamp.read? (s : String) : Option Timestamp :=
  ofText? (dropFinalBreak s)

end Stencil.Yaml
