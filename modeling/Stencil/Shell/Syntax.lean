/-!
# The shell's commands

What the text of a script stands for. A character stands for one byte of the script. A word is a row
of parts, some of which are replaced when the word is used.
-/

namespace Stencil.Shell

/-- What `${name…}` does with a variable beside looking it up. -/
inductive ParamOp where
  /-- The value itself. -/
  | value
  /-- The number of characters. -/
  | length
  /-- A word in place of a missing value. With `colon`, an empty value counts as missing. -/
  | default (colon : Bool)
  /-- A word if there is a value. -/
  | alternative (colon : Bool)
  /-- A word in place of a missing value, which the variable keeps. -/
  | assign (colon : Bool)
  /-- An error if the value is missing. -/
  | require (colon : Bool)
  /-- The value without a start or an end that matches a pattern. -/
  | trim (atStart longest : Bool)
  /-- None of these: using it is an error. -/
  | bad
  deriving DecidableEq, Repr, Inhabited

/-- How a redirection opens its target. -/
inductive RedirectKind where
  | read
  | write
  | append
  | readWrite
  /-- A copy of another descriptor. -/
  | copyOut
  | copyIn
  /-- Lines that follow in the script, by their number among all such. -/
  | document (number : Nat)
  deriving DecidableEq, Repr, Inhabited

mutual

/-- A part of a word. `quoted` holds between quotes and behind a backslash. -/
inductive Part where
  | char (c : Char) (quoted : Bool)
  /-- A quote, which makes even an empty word count. -/
  | quote
  | param (name : List Char) (op : ParamOp) (word : List Part) (quoted : Bool)
  | command (body : List Command) (quoted : Bool)
  | arithmetic (body : List Part) (quoted : Bool)

/-- A redirection of a descriptor. -/
inductive Redirect where
  | mk (fd : Nat) (kind : RedirectKind) (target : List Part)

/-- A command. -/
inductive Command where
  | simple (line : Nat) (assignments : List (List Char × List Part)) (words : List (List Part))
      (redirects : List Redirect)
  | pipeline (negated : Bool) (parts : List Command)
  | andThen (first second : Command)
  | orElse (first second : Command)
  | background (body : Command)
  | subshell (line : Nat) (body : List Command) (redirects : List Redirect)
  | group (body : List Command) (redirects : List Redirect)
  | conditional (branches : List (List Command × List Command)) (otherwise : List Command)
      (redirects : List Redirect)
  | loop (isUntil : Bool) (test body : List Command) (redirects : List Redirect)
  | forEach (line : Nat) (name : List Char) (words : List (List Part)) (body : List Command)
      (redirects : List Redirect)
  | select (line : Nat) (word : List Part) (cases : List (List (List Part) × List Command))
      (redirects : List Redirect)
  | define (name : List Char) (body : Command)

end

instance : Inhabited Part := ⟨.quote⟩

instance : Inhabited Redirect := ⟨.mk 0 .read []⟩

instance : Inhabited Command := ⟨.background (.simple 0 [] [] [])⟩

/-- A word is a row of parts. -/
abbrev Word := List Part

/-- The tokens of a script that its grammar tells apart. -/
inductive Token where
  | endOfFile
  | newline
  | semicolon
  | ampersand
  | and
  | or
  | pipe
  | openParen
  | closeParen
  | endCase
  | redirect
  | word
  /-- A reserved word. -/
  | reserved (w : String)
  deriving DecidableEq, Repr, Inhabited

/-- The reserved words. -/
def reservedWords : List String :=
  ["!", "case", "do", "done", "elif", "else", "esac", "fi", "for", "if", "in", "then", "until",
    "while",
    "\x7b", "\x7d"]

/-- A token as a report names it. -/
def Token.shown : Token → String
  | .endOfFile => "end of file"
  | .newline => "newline"
  | .semicolon => "\";\""
  | .ampersand => "\"&\""
  | .and => "\"&&\""
  | .or => "\"||\""
  | .pipe => "\"|\""
  | .openParen => "\"(\""
  | .closeParen => "\")\""
  | .endCase => "\";;\""
  | .redirect => "redirection"
  | .word => "word"
  | .reserved w => "\"" ++ w ++ "\""

/-- Tokens that end a list of commands. -/
def Token.endsList : Token → Bool
  | .endOfFile | .closeParen | .endCase => true
  | .reserved w => ["do", "done", "elif", "else", "esac", "fi", "then", "\x7d"].contains w
  | _ => false

/-- Can the character start a name? -/
def isNameStart (c : Char) : Bool :=
  ('a' ≤ c && c ≤ 'z') || ('A' ≤ c && c ≤ 'Z') || c == '_'

/-- Is the character a decimal digit? -/
def isDigit (c : Char) : Bool :=
  '0' ≤ c && c ≤ '9'

/-- The value of a row of digits. -/
def digitsValue (ds : List Char) : Nat :=
  ds.foldl (fun n d => 10 * n + (d.toNat - '0'.toNat)) 0

/-- The whole number that a text stands for. It may have a sign before it and blanks around it. -/
def wholeNumber? (a : List Char) : Option Int :=
  let isSpace (c : Char) : Bool := c == ' ' || (9 ≤ c.toNat && c.toNat ≤ 13)
  let (negative, ds) :=
    match ((a.dropWhile isSpace).reverse.dropWhile isSpace).reverse with
    | '-' :: rest => (true, rest)
    | '+' :: rest => (false, rest)
    | cs => (false, cs)
  if ds.isEmpty || !ds.all isDigit then none
  else some (if negative then -(digitsValue ds : Int) else digitsValue ds)

/-- Can the character stand in a name? -/
def isNameChar (c : Char) : Bool :=
  isNameStart c || isDigit c

/-- Parameters that are a single mark. -/
def isSpecialParam (c : Char) : Bool :=
  "!#$*-?@".toList.contains c || isDigit c

/-- Is the text the name of a variable? -/
def isName : List Char → Bool
  | [] => false
  | c :: cs => isNameStart c && cs.all isNameChar

/-- The text of a word of plain characters. -/
def plainText? (w : Word) : Option (List Char) :=
  w.mapM fun p =>
    match p with
    | .char c false => some c
    | _ => none

/-- Is any part of the word quoted? -/
def hasQuotes (w : Word) : Bool :=
  w.any fun p =>
    match p with
    | .quote => true
    | .char _ q => q
    | _ => false

/-- The builtins that no function may be named after. -/
def specialBuiltins : List String :=
  ["break", ":", "continue", ".", "eval", "exec", "exit", "export", "local", "readonly", "return",
    "set",
    "shift", "times", "trap", "unset"]

end Stencil.Shell
