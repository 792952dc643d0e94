import Stencil.Escape
import Stencil.Error

/-!
# Questions

A question has a label and may offer a value. Answers come from a script (a fixed row of answers) or
from the lines of a terminal. `Template.collect` asks for the defaults and descriptions of a
template's variables, whoever answers.
-/

namespace Stencil

/-- A question, and the value it offers. -/
structure Question where
  label : String
  offered : Option String := none
  deriving DecidableEq, Repr, Inhabited

/-- The answer that clears a value. -/
def clearAnswer : String := "-"

/-- The value that an answer stands for: none if it is empty or clears. -/
def answerValue (answer : String) : Option String :=
  if answer.isEmpty || answer == clearAnswer then none else some answer

/-- Answers given in advance, and the questions asked so far. -/
structure Answers where
  remaining : List (Option String)
  asked : List Question := []
  deriving Repr, Inhabited

/-- Answers a question with the next answer, or with the offered value if that is missing. -/
def Answers.ask (q : Question) : StateM Answers String := fun s =>
  let offered := q.offered.getD ""
  let answer := (s.remaining.head?.join).getD offered
  (Text.trim answer, { remaining := s.remaining.tail, asked := s.asked ++ [q] })

/-- A terminal: the lines that were typed and not yet read, and what was printed. -/
structure Terminal where
  input : List String
  output : String := ""
  deriving Repr, Inhabited

namespace Terminal

/-- The lines of an input. The last one needs no line end. -/
def linesOf (text : String) : List String :=
  let pieces := (Text.unifyLineEnds text.toList).splitOn '\n'
  let lines := if pieces.getLast? == some [] then pieces.dropLast else pieces
  lines.map String.ofList

/-- A terminal at which the text is typed. -/
def ofInput (text : String) : Terminal :=
  { input := linesOf text }

/-- The terminal after the text was printed. -/
def print (t : Terminal) (s : String) : Terminal :=
  { t with output := t.output ++ s }

/-- The rest of a colour sequence after its opening bracket, if it is one. -/
def colourEnd? (cs : List Char) : Option (List Char) :=
  match cs.dropWhile fun c => c == ';' || c == '?' || ('0' ≤ c && c ≤ '9') with
  | c :: rest => if c.isAlpha then some rest else none
  | [] => none

/-- Takes the colour sequences out of a text. The fuel bounds the number of characters. -/
def dropColours : Nat → List Char → List Char
  | 0, cs => cs
  | _ + 1, [] => []
  | fuel + 1, c :: cs =>
    match c, cs with
    | '\x1b', '[' :: rest =>
      match colourEnd? rest with
      | some after => dropColours fuel after
      | none => c :: dropColours fuel cs
    | _, _ => c :: dropColours fuel cs

/-- What is printed before an answer is read. -/
def prompt (q : Question) : String :=
  let text :=
    match q.offered with
    | none => q.label ++ ": "
    | some d => q.label ++ " ('" ++ clearAnswer ++ "' to clear) [" ++ d ++ "]: "
  String.ofList (dropColours text.toList.length text.toList)

/-- Prints a text and reads a line, which the terminal echoes. There may be none. -/
def readAfter (text : String) (t : Terminal) : Option String × Terminal :=
  let t := t.print text
  match t.input with
  | [] => (none, t)
  | line :: rest => (some line, { t with input := rest, output := t.output ++ line ++ "\n" })

/-- Answers a question from the terminal. An empty line takes the offered value. -/
def ask (q : Question) (t : Terminal) : Option String × Terminal :=
  match t.readAfter (prompt q) with
  | (none, t') => (none, t')
  | (some line, t') =>
    let answer := if line.isEmpty then q.offered.getD "" else line
    (some (Text.trim answer), t')

/-- What a line answers to a question that wants yes or no; an empty line is a yes. -/
def yesOrNo? (line : String) : Option Bool :=
  let word := String.ofList ((Text.trimChars line.toList).map Char.toLower)
  if word == "y" || word == "yes" || word.isEmpty then some true
  else if word == "n" || word == "no" then some false
  else none

/-- Asks until a line says yes or no. The lines of the input bound the number of questions. -/
def confirmFrom (text : String) (output : String) : List String → Option Bool × Terminal
  | [] => (none, { input := [], output := output ++ text })
  | line :: rest =>
    let shown := output ++ text ++ line ++ "\n"
    match yesOrNo? line with
    | some b => (some b, { input := rest, output := shown })
    | none => confirmFrom text (shown ++ "Error: invalid input\n") rest

/-- Asks a question that wants yes or no. -/
def confirm (question : String) (t : Terminal) : Option Bool × Terminal :=
  confirmFrom (question ++ " [Y/n]: ") t.output t.input

end Terminal

/-- The question for a template's default path. -/
def pathQuestion (previous : Option String) : Question :=
  { label := "default path (leave empty for no default path)", offered := previous }

/-- The question for a variable's default. -/
def defaultQuestion (previous : Metadata) (name : String) : Question :=
  { label := "default value for " ++ name ++ " (leave empty for no default)"
    offered := previous.defaults.lookup name }

/-- The question for a variable's description. -/
def descriptionQuestion (previous : Metadata) (name : String) : Question :=
  { label := "description value for " ++ name ++ " (leave empty for no description)"
    offered := previous.descriptions.lookup name }

/-- The stored form of an answer, if it stands for a value, and else what was stored before. -/
def storeAnswer (before : Option String) (answer : String) : Option String :=
  match answerValue answer with
  | some v => some (Escape.escape v)
  | none => before

section

variable {m : Type → Type} [Monad m]

/-- Asks for the default path. -/
def askPath (ask : Question → m String) (previous : Option String) : m (Option String) := do
  let answer ← ask (pathQuestion previous)
  return answerValue answer

/-- Asks for the default and the description of a variable. -/
def Variable.collect (ask : Question → m String) (previous : Metadata) (v : Variable) :
    m Variable := do
  if v.name == nameVariable then return v
  let d ← ask (defaultQuestion previous v.name)
  let e ← ask (descriptionQuestion previous v.name)
  return { v with default := storeAnswer v.default d, description := storeAnswer v.description e }

/-- Asks for the defaults and descriptions of all variables but the name, in order. -/
def Template.collect (ask : Question → m String) (previous : Metadata) (t : Template) :
    m Template := do
  let vars ← t.vars.mapM (Variable.collect ask previous)
  return { t with vars }

end

end Stencil
