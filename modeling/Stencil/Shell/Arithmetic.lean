import Stencil.Shell.Print

/-!
# Arithmetic

The expressions of `$((…))`: numbers and variables under the operators of whole-number arithmetic,
in words of 64 bits. An assignment changes a variable, unless it stands where its value is not
needed.
-/

namespace Stencil.Shell.Arithmetic

/-- A token of an expression. -/
inductive Token where
  | number (n : Int)
  | name (text : List Char)
  | operator (text : String)
  /-- A character that stands for nothing. -/
  | other
  deriving DecidableEq, Repr

/-- Why an expression has no value. -/
inductive Fault where
  /-- The grammar wants something else. -/
  | expecting (what : String)
  | divisionByZero
  /-- A variable whose value is no number. -/
  | notNumber (value : List Char)
  deriving DecidableEq, Repr

/-- How a fault in the expression `text` is reported. -/
def Fault.message (text : List Char) : Fault → String
  | .expecting what =>
    "arithmetic expression: expecting " ++ what ++ ": \"" ++ String.ofList text ++ "\""
  | .divisionByZero => "arithmetic expression: division by zero: \"" ++ String.ofList text ++ "\""
  | .notNumber value => "Illegal number: " ++ String.ofList value

/-- The number in a word of 64 bits. -/
def wrap (n : Int) : Int :=
  n.bmod (Nat.pow 2 64)

/-- The nearest number that a word holds. -/
def clamp (n : Int) : Int :=
  max (-Int.pow 2 63) (min n (Int.pow 2 63 - 1))

/-! ## Tokens -/

/-- The operators, longer ones before those that they start with. -/
def operators : List String :=
  ["<<=", ">>=", "<<", ">>", "<=", ">=", "==", "!=", "&&", "||", "+=", "-=", "*=", "/=", "%=", "&=",
    "|=", "^=", "<", ">", "=", "!", "&", "|", "^", "~", "+", "-", "*", "/", "%", "?", ":", "(",
    ")"]

/-- The digits of a number at the start of a text: all of them, but none that its base lacks. -/
def numeral (cs : List Char) : List Char :=
  let isHex (c : Char) : Bool := isDigit c || ('a' ≤ c && c ≤ 'f') || ('A' ≤ c && c ≤ 'F')
  match cs with
  | '0' :: x :: rest =>
    if (x == 'x' || x == 'X') && rest.head?.any isHex then '0' :: 'x' :: rest.takeWhile isHex
    else '0' :: (x :: rest).takeWhile isOctal
  | cs => cs.takeWhile isDigit

/-- The tokens of an expression. -/
def tokens : Nat → List Char → List Token
  | 0, _ => []
  | _ + 1, [] => []
  | fuel + 1, c :: cs =>
    if c == ' ' || c == '\t' || c == '\n' then tokens fuel cs
    else if isDigit c then
      let digits := numeral (c :: cs)
      .number (clamp (leadingInt digits).1) :: tokens fuel ((c :: cs).drop digits.length)
    else if isNameChar c then
      let name := (c :: cs).takeWhile isNameChar
      .name name :: tokens fuel ((c :: cs).drop name.length)
    else
      match operators.find? fun o => o.toList.isPrefixOf (c :: cs) with
      | some o => .operator o :: tokens fuel ((c :: cs).drop o.length)
      | none => .other :: tokens fuel cs

/-! ## Operators -/

/-- How loosely an operator with two operands binds. -/
def looseness (op : String) : Option Nat :=
  [("*", 0), ("/", 0), ("%", 0), ("+", 1), ("-", 1), ("<<", 2), (">>", 2), ("<", 3), (">", 3),
    ("<=", 3),
    (">=", 3), ("==", 4), ("!=", 4), ("&", 5), ("^", 6), ("|", 7)].lookup op

/-- The word as a number without sign. -/
def bits (n : Int) : Nat :=
  (n % Int.pow 2 64).toNat

/-- A truth value as a number. -/
def truth (p : Bool) : Int :=
  if p then 1 else 0

/-- The value of an operator. -/
def apply (op : String) (a b : Int) : Except Fault Int :=
  match op with
  | "+" => .ok (wrap (a + b))
  | "-" => .ok (wrap (a - b))
  | "*" => .ok (wrap (a * b))
  | "/" => if b == 0 then .error .divisionByZero else .ok (wrap (a.tdiv b))
  | "%" => if b == 0 then .error .divisionByZero else .ok (a.tmod b)
  | "<<" => .ok (wrap (a * Int.pow 2 (bits b % 64)))
  | ">>" => .ok (a >>> (bits b % 64))
  | "<" => .ok (truth (a < b))
  | ">" => .ok (truth (a > b))
  | "<=" => .ok (truth (a ≤ b))
  | ">=" => .ok (truth (a ≥ b))
  | "==" => .ok (truth (a == b))
  | "!=" => .ok (truth (a != b))
  | "&" => .ok (wrap (bits a &&& bits b))
  | "^" => .ok (wrap (bits a ^^^ bits b))
  | _ => .ok (wrap (bits a ||| bits b))

/-! ## Values -/

/-- The tokens that are left and the variables. -/
structure State where
  rest : List Token
  vars : List (List Char × List Char)

/-- Steps that read tokens and set variables, and may fail. -/
abbrev ArithM := ExceptT Fault (StateM State)

/-- The next token. -/
def next? : ArithM (Option Token) := do
  return (← get).rest.head?

/-- Drops a token. -/
def drop : ArithM Unit :=
  modify fun s => { s with rest := s.rest.tail }

/-- The value of a variable. One that is not set counts as zero. -/
def valueOf (name : List Char) : ArithM Int := do
  let isSpace (c : Char) : Bool := c == ' ' || c == '\t' || c == '\n'
  let value := ((← get).vars.lookup name).getD []
  let cs := ((value.dropWhile isSpace).reverse.dropWhile isSpace).reverse
  let digits := if cs.head? == some '-' || cs.head? == some '+' then cs.tail else cs
  if cs.isEmpty then return 0
  else if digits.head?.any isDigit && (numeral digits).length == digits.length then
    return clamp (leadingInt cs).1
  else throw (.notNumber value)

/-- Sets a variable to a number. -/
def assign (name : List Char) (n : Int) : ArithM Unit :=
  modify fun s => { s with vars := (name, (toString n).toList) :: s.vars.filter (·.1 != name) }

mutual

/-- A number, a variable, or an expression in parentheses, with signs before it. Variables are
looked up only where the value is needed. -/
def primary (needed : Bool) : Nat → ArithM Int
  | 0 => throw (.expecting "primary")
  | fuel + 1 => do
    let token ← next?
    drop
    match token with
    | some (.number n) => return n
    | some (.name name) => if needed then valueOf name else return 0
    | some (.operator "+") => primary needed fuel
    | some (.operator "-") => return wrap (-(← primary needed fuel))
    | some (.operator "!") => return truth ((← primary needed fuel) == 0)
    | some (.operator "~") => return -(← primary needed fuel) - 1
    | some (.operator "(") =>
      let n ← assignment needed fuel
      if (← next?) != some (.operator ")") then throw (.expecting "')'")
      drop
      return n
    | _ => throw (.expecting "primary")

/-- Goes on after the operand `a`, as long as operators bind more tightly than `limit`. -/
def operations (needed : Bool) (limit : Nat) (a : Int) : Nat → ArithM Int
  | 0 => return a
  | fuel + 1 => do
    match ← next? with
    | some (.operator op) =>
      match looseness op with
      | some l =>
        if l < limit then
          drop
          let b ← operations needed l (← primary needed fuel) fuel
          operations needed limit (← if needed then apply op a b else pure b) fuel
        else return a
      | none => return a
    | _ => return a

/-- Operands joined by "and". The ones after a false one are not needed. -/
def conjunction (needed : Bool) : Nat → ArithM Int
  | 0 => throw (.expecting "primary")
  | fuel + 1 => do
    let a ← operations needed 8 (← primary needed fuel) fuel
    if (← next?) == some (.operator "&&") then
      drop
      let b ← conjunction (needed && a != 0) fuel
      return truth (a != 0 && b != 0)
    else return a

/-- Operands joined by "or". The ones after a true one are not needed. -/
def disjunction (needed : Bool) : Nat → ArithM Int
  | 0 => throw (.expecting "primary")
  | fuel + 1 => do
    let a ← conjunction needed fuel
    if (← next?) == some (.operator "||") then
      drop
      let b ← disjunction (needed && a == 0) fuel
      return truth (a != 0 || b != 0)
    else return a

/-- A choice between two values. -/
def choice (needed : Bool) : Nat → ArithM Int
  | 0 => throw (.expecting "primary")
  | fuel + 1 => do
    let a ← disjunction needed fuel
    if (← next?) == some (.operator "?") then
      drop
      let b ← assignment (needed && a != 0) fuel
      if (← next?) != some (.operator ":") then throw (.expecting "':'")
      drop
      let c ← choice (needed && a == 0) fuel
      return if a != 0 then b else c
    else return a

/-- An assignment, or an expression without one. -/
def assignment (needed : Bool) : Nat → ArithM Int
  | 0 => throw (.expecting "primary")
  | fuel + 1 => do
    match (← get).rest with
    | .name name :: .operator op :: _ =>
      let inner := String.ofList op.toList.dropLast
      if op == "=" ||
        (op.toList.getLast? == some '=' && (looseness inner).isSome && (looseness op).isNone) then
        drop
        drop
        let n ← assignment needed fuel
        if !needed then return n
        let value ← if op == "=" then pure n else do apply inner (← valueOf name) n
        assign name value
        return value
      else choice needed fuel
    | _ => choice needed fuel

end

/-- The value of an expression, and the variables after it. -/
def eval (vars : List (List Char × List Char)) (text : List Char) :
    Except Fault (Int × List (List Char × List Char)) :=
  let ts := tokens (text.length + 1) text
  match (assignment true (10 * ts.length + 10)).run { rest := ts, vars } with
  | (.ok n, s) => if s.rest.isEmpty then .ok (n, s.vars) else .error (.expecting "EOF")
  | (.error e, _) => .error e

end Stencil.Shell.Arithmetic
