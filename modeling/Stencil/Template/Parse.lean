import Stencil.Escape
import Stencil.Template.Basic
import Stencil.Text.Blank

/-!
# Reading a template

A source is a row of segments: literal text, and placeholders between two opening and two closing
braces. The body of a placeholder is a variable and the filters applied to it, with bars between
them. A scanner goes through the source once, from left to right, and looks back by one character.

`Template.parse` reads a source into a `Template` or gives the leftmost error.
-/

namespace Stencil

/-- What can be wrong with a source. -/
inductive ParseError where
  | nested
  | unfinished
  | invalidName (token reason : String)
  | emptyChain (body : String)
  | clash (name takenBy : String)
  /-- Any other complaint about a source, with the exit status it leads to. -/
  | other (message : String) (status : Int)
  deriving DecidableEq, Repr, Inhabited

/-- A piece of a source. -/
inductive Segment where
  | literal (text : List Char)
  | placeholder (base : String) (filters : List String)
  deriving DecidableEq, Repr, Inhabited

/-- The variable of the script that holds a chain's result. -/
def derivedName (base : String) (filters : List String) : String :=
  Text.joinWith "_" (base :: filters)

/-- The chain of a base and its filters. -/
def Chain.of (base : String) (filters : List String) : Chain :=
  { base, filters, name := derivedName base filters }

namespace Segment

/-- The parts of a placeholder's body, without the blanks around them. -/
def parts (body : List Char) : List String :=
  (body.splitOn '|').map fun p => String.ofList (Text.trimChars p)

/-- The first part that is not a name, as an error. -/
def badPart? (ps : List String) : Option ParseError :=
  ps.findSome? fun p => (Name.fault? p).map fun f => .invalidName p (f.reason p)

/-- Reads a placeholder's body as a base and its filters. -/
def readChain (body : List Char) : Except ParseError (String × List String) :=
  match badPart? (parts body) with
  | some e => .error e
  | none =>
    match parts body with
    | [] => .error (.emptyChain (String.ofList body))
    | base :: filters => .ok (base, filters)

/-- A segment as it stands between double quotes in a script. -/
def render : Segment → List Char
  | .literal text => Escape.escapeChars text
  | .placeholder base filters => ['$', '{'] ++ (derivedName base filters).toList ++ ['}']

/-- The variable that a segment asks for. -/
def base? : Segment → Option String
  | .literal _ => none
  | .placeholder base _ => some base

/-- The chain that a segment applies: a placeholder without filters applies none. -/
def chain? : Segment → Option Chain
  | .literal _ => none
  | .placeholder _ [] => none
  | .placeholder base (f :: fs) => some (Chain.of base (f :: fs))

end Segment

/-- A chain as it is written in a source. -/
def Chain.written (c : Chain) : String :=
  "\x7b\x7b " ++ Text.joinWith " | " (c.base :: c.filters) ++ " \x7d\x7d"

/-- The first of the chains whose name belongs to a variable or to a chain before it. -/
def findClash (vars : VariableSet) (before : List Chain) : List Chain → Option ParseError
  | [] => none
  | c :: cs =>
    if c.name ∈ vars then some (.clash c.name ("variable " ++ c.name))
    else
      match before.find? (·.name == c.name) with
      | some other => some (.clash c.name other.written)
      | none => findClash vars (before ++ [c]) cs

/-- Every derived name becomes a variable of the script, so none may be taken already. -/
def clash? (vars : VariableSet) (chains : List Chain) : Option ParseError :=
  findClash vars [] chains

namespace Template

/-- A scanner: what was made of a source up to some place. The last character is kept back until
the next one is seen, since two braces are one mark. -/
structure Scanner where
  /-- The text of the template so far, from its end. -/
  skeleton : List Char := []
  vars : VariableSet := .empty
  chains : ChainSet := .empty
  /-- The character that is kept back. -/
  last : Option Char := none
  /-- The body of an open placeholder so far, from its end. -/
  body : Option (List Char) := none

namespace Scanner

/-- Puts a piece of the source into the template. -/
def put (s : Scanner) (seg : Segment) : Scanner :=
  { s with
    skeleton := seg.render.reverse ++ s.skeleton
    vars := seg.base?.elim s.vars s.vars.insert
    chains := seg.chain?.elim s.chains s.chains.insert }

/-- Keeps a character back. The one before it belongs to no mark. -/
def keep (s : Scanner) (c : Char) : Scanner :=
  match s.last, s.body with
  | none, _ => { s with last := some c }
  | some l, none => { s.put (.literal [l]) with last := some c }
  | some l, some body => { s with last := some c, body := some (l :: body) }

/-- Ends a placeholder. -/
def close (s : Scanner) (body : List Char) : Except ParseError Scanner :=
  match Segment.readChain (Text.trimChars body.reverse) with
  | .error e => .error e
  | .ok (base, filters) =>
    .ok { s.put (.placeholder base filters) with last := none, body := none }

/-- Takes in one character. -/
def step (s : Scanner) (c : Char) : Except ParseError Scanner :=
  match s.last, c, s.body with
  | some '{', '{', some _ => .error .nested
  | some '{', '{', none => .ok { s with last := none, body := some [] }
  | some '}', '}', some body => s.close body
  | _, _, _ => .ok (s.keep c)

/-- Ends the source. No placeholder may be open, and the last character is kept back no more. -/
def finish (s : Scanner) : Except ParseError Scanner :=
  match s.body, s.last with
  | some _, _ => .error .unfinished
  | none, none => .ok s
  | none, some l => .ok { s.put (.literal [l]) with last := none }

/-- Takes in the characters one by one, from the left. -/
def run (s : Scanner) (cs : List Char) : Except ParseError Scanner := do
  (← cs.foldlM step s).finish

/-- The template of a source that was taken in. -/
def template (s : Scanner) (source : String) : Template :=
  { source
    skeleton := String.ofList s.skeleton.reverse
    vars := if nameVariable ∈ s.vars then s.vars.items else s.vars.items ++ [.ofName nameVariable]
    chains := s.chains.items
    usesName := nameVariable ∈ s.vars }

end Scanner

/-- Reads a source. -/
def parse (source : String) : Except ParseError Template :=
  match Scanner.run {} source.toList with
  | .error e => .error e
  | .ok s =>
    match clash? s.vars s.chains.items with
    | some e => .error e
    | none => .ok (s.template source)

end Template

end Stencil
