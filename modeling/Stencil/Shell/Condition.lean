import Stencil.Shell.Print

/-!
# Conditions

The expressions of `test`: texts and numbers are compared, files are looked at, and the results are
combined by "not", "and" and "or".
-/

namespace Stencil.Shell

/-- What a condition can ask of files. -/
structure FileFacts where
  exists? : List Char → Bool
  isFile : List Char → Bool
  isDirectory : List Char → Bool
  isExecutable : List Char → Bool
  isNonempty : List Char → Bool

/-- A text as an argument. -/
def argOf (s : String) : List Char := s.toList

/-- The operators between two words. -/
def binaryOperators : List String :=
  ["=", "!=", "<", ">", "-eq", "-ne", "-gt", "-ge", "-lt", "-le", "-nt", "-ot", "-ef"]

/-- The operators before a word. -/
def unaryOperators : List String :=
  ["-r", "-w", "-x", "-f", "-d", "-c", "-b", "-p", "-u", "-g", "-k", "-s", "-t", "-z", "-n", "-h",
    "-L", "-e", "-S", "-O", "-G"]

/-- Does the word stand between two others? -/
def isBinary (a : List Char) : Bool :=
  binaryOperators.contains (String.ofList a)

/-- Does the word stand before another one? -/
def isUnary (a : List Char) : Bool :=
  unaryOperators.contains (String.ofList a)

namespace Condition

/-- A whole number as an operand. -/
def number (a : List Char) : Except String Int :=
  match wholeNumber? a with
  | some n => .ok n
  | none => .error ("Illegal number: " ++ String.ofList a)

/-- Compares two words. -/
def compare (op : String) (a b : List Char) : Except String Bool :=
  match op with
  | "=" => .ok (a == b)
  | "!=" => .ok (a != b)
  | "<" => .ok (decide (a < b))
  | ">" => .ok (decide (b < a))
  | "-eq" => do return (← number a) == (← number b)
  | "-ne" => do return (← number a) != (← number b)
  | "-gt" => do return decide ((← number a) > (← number b))
  | "-ge" => do return decide ((← number a) ≥ (← number b))
  | "-lt" => do return decide ((← number a) < (← number b))
  | "-le" => do return decide ((← number a) ≤ (← number b))
  | _ => .ok false

/-- Asks something about a word. -/
def ask (facts : FileFacts) (op : String) (a : List Char) : Bool :=
  match op with
  | "-n" => !a.isEmpty
  | "-z" => a.isEmpty
  | "-f" => facts.isFile a
  | "-d" => facts.isDirectory a
  | "-x" => facts.isExecutable a
  | "-s" => facts.isNonempty a
  | "-e" | "-r" | "-w" | "-O" | "-G" => facts.exists? a
  | _ => false

mutual

/-- Conditions joined by "or". -/
def either (facts : FileFacts) : Nat → List (List Char) → Except String (Bool × List (List Char))
  | 0, args => .ok (false, args)
  | fuel + 1, args => do
    let (a, rest) ← both facts fuel args
    match rest with
    | ['-', 'o'] :: more =>
      let (b, rest') ← either facts fuel more
      return (a || b, rest')
    | rest => return (a, rest)

/-- Conditions joined by "and". -/
def both (facts : FileFacts) : Nat → List (List Char) → Except String (Bool × List (List Char))
  | 0, args => .ok (false, args)
  | fuel + 1, args => do
    let (a, rest) ← negation facts fuel args
    match rest with
    | ['-', 'a'] :: more =>
      let (b, rest') ← both facts fuel more
      return (a && b, rest')
    | rest => return (a, rest)

/-- A condition with marks of negation before it. -/
def negation (facts : FileFacts) : Nat → List (List Char) → Except String (Bool × List (List Char))
  | 0, args => .ok (false, args)
  | fuel + 1, args => do
    match args with
    | ['!'] :: rest =>
      let isOperand := match rest with
        | op :: _ :: _ => isBinary op
        | _ => rest.isEmpty
      if isOperand then primary facts fuel args
      else
        let (a, rest') ← negation facts fuel rest
        return (!a, rest')
    | args => primary facts fuel args

/-- A single condition. -/
def primary (facts : FileFacts) : Nat → List (List Char) → Except String (Bool × List (List Char))
  | 0, args => .ok (false, args)
  | fuel + 1, args => do
    match args with
    | [] => return (false, [])
    | a :: op :: b :: rest =>
      if isBinary op then return (← compare (String.ofList op) a b, rest)
      else if a == ['('] then
        let (r, left) ← either facts fuel (op :: b :: rest)
        match left with
        | [')'] :: left' => return (r, left')
        | _ => throw "closing paren expected"
      else if isUnary a then return (ask facts (String.ofList a) op, b :: rest)
      else return (!a.isEmpty, op :: b :: rest)
    | [a, b] =>
      if isUnary a then return (ask facts (String.ofList a) b, [])
      else return (!a.isEmpty, [b])
    | [a] => return (!a.isEmpty, [])

end

/-- The value of a condition. -/
def eval (facts : FileFacts) (args : List (List Char)) : Except String Bool := do
  if args.isEmpty then return false
  let inside :=
    match args with
    | ['('] :: rest =>
      if (args.length == 3 || args.length == 4) && rest.getLast? == some [')'] &&
          !((rest.head?.any isBinary) && args.length == 3) then rest.dropLast
      else args
    | args => args
  let (r, rest) ← either facts (10 * inside.length + 10) inside
  if rest.isEmpty then return r
  let last := (inside[inside.length - rest.length - 1]?).getD []
  throw (String.ofList last ++ ": unexpected operator")

end Condition

end Stencil.Shell
