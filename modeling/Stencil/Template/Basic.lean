import Stencil.Name
import Stencil.OrderedSet

/-!
# Templates

What a template is after its source was read: the variables it asks for, the filter chains it
applies and the text to expand. Variables and chains are kept in the order in which they first
occur, once each.
-/

namespace Stencil

/-- A variable of a template. The two texts are stored as they stand between double quotes in a
script, that is, escaped. -/
structure Variable where
  name : String
  default : Option String := none
  description : Option String := none
  deriving DecidableEq, Repr, Inhabited

/-- A variable without texts. -/
def Variable.ofName (n : String) : Variable :=
  { name := n }

/-- A variable seen through filters; `name` is the variable of the script that holds the result. -/
structure Chain where
  base : String
  filters : List String
  name : String
  deriving DecidableEq, Repr, Inhabited

/-- What makes two chains the same: their base and their filters. -/
def Chain.key (c : Chain) : String × List String :=
  (c.base, c.filters)

/-- A template that was read. -/
structure Template where
  /-- The source as it was given. -/
  source : String
  /-- The text of the template as it stands between double quotes in a script. -/
  skeleton : String
  vars : List Variable
  chains : List Chain
  /-- Does the source itself refer to `name`? -/
  usesName : Bool
  deriving DecidableEq, Repr, Inhabited

/-- The variable that names the file to write. Every template has it. -/
def nameVariable : String := "name"

namespace Template

/-- The names of the variables. -/
def variableNames (t : Template) : List String :=
  t.vars.map Variable.name

/-- The filters of all chains in order of first use, once each. -/
def usedFilters (t : Template) : List String :=
  (t.chains.flatMap Chain.filters).foldl (fun seen f => if f ∈ seen then seen else seen ++ [f]) []

end Template

/-- The variables of a source by name. -/
abbrev VariableSet := OrderedSet Variable.name

namespace VariableSet

/-- The set without variables. -/
def empty : VariableSet := OrderedSet.empty

/-- The names of the variables in the set. -/
def names (s : VariableSet) : List String :=
  s.items.map Variable.name

/-- Adds the variable of a name. -/
def add (n : String) : StateM VariableSet Bool :=
  OrderedSet.add (.ofName n)

/-- The set after a name was added. -/
def insert (s : VariableSet) (n : String) : VariableSet :=
  OrderedSet.insert s (.ofName n)

end VariableSet

/-- The filter chains of a source by base and filters. The name of a chain is no part of its key. -/
abbrev ChainSet := OrderedSet Chain.key

namespace ChainSet

/-- The set without chains. -/
def empty : ChainSet := OrderedSet.empty

/-- Adds a chain, and tells whether it is new. -/
def add (c : Chain) : StateM ChainSet Bool :=
  OrderedSet.add c

/-- The set after a chain was added. -/
def insert (s : ChainSet) (c : Chain) : ChainSet :=
  OrderedSet.insert s c

end ChainSet

end Stencil
