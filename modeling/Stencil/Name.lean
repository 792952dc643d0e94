/-!
# Names

A name is what a shell variable may be called: an ASCII letter or underscore followed by ASCII
letters, digits and underscores, with the single underscore left out. Variables and filters are
named this way.
-/

namespace Stencil.Name

/-- The rule that a token breaks when it is not a name. -/
inductive Fault where
  | empty
  | badStart
  | badCharacter
  deriving DecidableEq, Repr

/-- May a name begin with this character? -/
def isStart (c : Char) : Bool :=
  ('a' ≤ c && c ≤ 'z') || ('A' ≤ c && c ≤ 'Z') || c == '_'

/-- May a name contain this character? -/
def isPart (c : Char) : Bool :=
  isStart c || ('0' ≤ c && c ≤ '9')

/-- The first rule that a token breaks, if any. -/
def faultOf : List Char → Option Fault
  | [] => some .empty
  | c :: cs =>
    if c == '_' && cs.isEmpty then some .empty
    else if !isStart c then some .badStart
    else if cs.all isPart then none
    else some .badCharacter

/-- The first rule that a token breaks, if any. -/
def fault? (token : String) : Option Fault :=
  faultOf token.toList

/-- A token that breaks no rule. -/
def Valid (token : String) : Prop :=
  fault? token = none

instance (token : String) : Decidable (Valid token) :=
  inferInstanceAs (Decidable (fault? token = none))

/-- The sentence that tells a user what is wrong with a token. -/
def Fault.reason (token : String) : Fault → String
  | .empty => "identifiers can't be empty or a single underscore"
  | .badStart => s!"identifier {token} has to start with a letter or an underscore"
  | .badCharacter => s!"identifier {token} contains invalid characters"

end Stencil.Name
