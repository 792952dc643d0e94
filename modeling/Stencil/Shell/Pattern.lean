import Stencil.Shell.Syntax

/-!
# Patterns

The patterns of a selection, of trimming and of paths: a star stands for any text, a question mark
for one character and brackets for one of several. A quoted character stands for itself, and so does
one behind a backslash.
-/

namespace Stencil.Shell

/-- A piece of a pattern. -/
inductive PatternItem where
  | char (c : Char)
  | any
  | star
  | oneOf (negated : Bool) (ranges : List (Char × Char)) (classes : List String)
  deriving DecidableEq, Repr

namespace PatternItem

/-- Is the character in a class such as `alpha`? -/
def inClass (c : Char) (name : String) : Bool :=
  let n := c.toNat
  match name with
  | "alpha" => c.isAlpha
  | "digit" => isDigit c
  | "alnum" => c.isAlpha || isDigit c
  | "upper" => c.isUpper
  | "lower" => c.isLower
  | "space" => c == ' ' || (9 ≤ n && n ≤ 13)
  | "blank" => c == ' ' || c == '\t'
  | "punct" => 33 ≤ n && n ≤ 126 && !c.isAlpha && !isDigit c
  | "print" => 32 ≤ n && n ≤ 126
  | "graph" => 33 ≤ n && n ≤ 126
  | "cntrl" => n < 32 || n == 127
  | "xdigit" => isDigit c || ('a' ≤ c && c ≤ 'f') || ('A' ≤ c && c ≤ 'F')
  | _ => false

/-- The place of a byte in the order of bytes with a sign. -/
def signed (c : Char) : Int :=
  if c.toNat < 128 then c.toNat else c.toNat - 256

/-- Does a single character fit the piece? -/
def fits (c : Char) : PatternItem → Bool
  | .char d => c == d
  | .any => true
  | .star => true
  | .oneOf negated ranges classes =>
    (ranges.any (fun r => signed r.1 ≤ signed c && signed c ≤ signed r.2) ||
      classes.any (inClass c)) != negated

end PatternItem

/-- All ends of a text, the whole text first. -/
def endsOf : List Char → List (List Char)
  | [] => [[]]
  | c :: cs => (c :: cs) :: endsOf cs

/-- Does the text fit the pattern? -/
def fitsPattern : List PatternItem → List Char → Bool
  | [], cs => cs.isEmpty
  | .star :: ps, cs => (endsOf cs).any (fitsPattern ps)
  | p :: ps, cs =>
    match cs with
    | [] => false
    | c :: cs => p.fits c && fitsPattern ps cs

/-- Reads the inside of brackets up to the closing one. A closing bracket at the start stands for
itself. -/
def bracket (first : Bool) (ranges : List (Char × Char)) (classes : List String) :
    Nat → List (Char × Bool) → Option (List (Char × Char) × List String × List (Char × Bool))
  | 0, _ => none
  | _ + 1, [] => none
  | fuel + 1, (c, q) :: rest =>
    if c == ']' && !q && !first then some (ranges, classes, rest)
    else
      match (c, q), rest with
      | ('[', false), (':', _) :: more =>
        let name := (more.takeWhile fun x => x.1 != ':').map Prod.fst
        match more.drop name.length with
        | (':', _) :: (']', _) :: after =>
          bracket false ranges (classes ++ [String.ofList name]) fuel after
        | _ => bracket false (ranges ++ [(c, c)]) classes fuel rest
      | (c, _), ('-', false) :: (d, q') :: more =>
        if d == ']' && !q' then bracket false (ranges ++ [(c, c)]) classes fuel rest
        else bracket false (ranges ++ [(c, d)]) classes fuel more
      | (c, _), rest => bracket false (ranges ++ [(c, c)]) classes fuel rest

/-- The pattern of characters, each quoted or not. -/
def patternOf : Nat → List (Char × Bool) → List PatternItem
  | 0, _ => []
  | _ + 1, [] => []
  | fuel + 1, (c, q) :: rest =>
    if q then .char c :: patternOf fuel rest
    else if c == '*' then .star :: patternOf fuel rest
    else if c == '?' then .any :: patternOf fuel rest
    else if c == '[' then
      let (negated, inside) :=
        match rest with
        | ('!', false) :: more => (true, more)
        | rest => (false, rest)
      match bracket true [] [] (inside.length + 1) inside with
      | some (ranges, classes, after) => .oneOf negated ranges classes :: patternOf fuel after
      | none => .char c :: patternOf fuel rest
    else .char c :: patternOf fuel rest

/-- The characters with a backslash before each quoted one. -/
def withBackslashes (cs : List (Char × Bool)) : List Char :=
  cs.flatMap fun x => if x.2 then ['\\', x.1] else [x.1]

/-- Takes each backslash for a quote around the character behind it. -/
def quotedBehind : List Char → List (Char × Bool)
  | [] => []
  | '\\' :: c :: rest => (c, true) :: quotedBehind rest
  | c :: rest => (c, c == '\\') :: quotedBehind rest

/-- The pattern of characters: those behind an unquoted backslash are quoted too. -/
def settled (cs : List (Char × Bool)) : List (Char × Bool) :=
  quotedBehind (withBackslashes cs)

/-- Does a text fit a pattern without unquoted backslashes? -/
def fitsSettled (pattern : List (Char × Bool)) (text : List Char) : Bool :=
  fitsPattern (patternOf (pattern.length + 1) pattern) text

/-- Does a text fit a pattern of characters? -/
def matchesPattern (pattern : List (Char × Bool)) (text : List Char) : Bool :=
  fitsSettled (settled pattern) text

/-- The text without the shortest or longest start that fits the pattern. -/
def trimStart (longest : Bool) (pattern : List (Char × Bool)) (text : List Char) : List Char :=
  let cuts := List.range (text.length + 1)
  let order := if longest then cuts.reverse else cuts
  match order.find? fun i => matchesPattern pattern (text.take i) with
  | some i => text.drop i
  | none => text

/-- The text without the shortest or longest end that fits the pattern. -/
def trimEnd (longest : Bool) (pattern : List (Char × Bool)) (text : List Char) : List Char :=
  let cuts := List.range (text.length + 1)
  let order := if longest then cuts else cuts.reverse
  match order.find? fun i => matchesPattern pattern (text.drop i) with
  | some i => text.take i
  | none => text

end Stencil.Shell
