import Stencil.Text.Blank

/-!
# Filters

A filter is a shell function that prints its first argument changed in some way. A library holds the
bodies of the known filters: the built-in ones and those of a project, which win.
-/

namespace Stencil

/-- The filters that every project has. -/
def builtinFilters : List (String × String) :=
  [ ("upper", "echo $(echo \"$1\" | tr '[:lower:]' '[:upper:]')"),
    ("lower", "echo $(echo \"$1\" | tr '[:upper:]' '[:lower:]')"),
    ("capitalize",
      "echo $(echo \"$1\" | awk '\x7b print toupper(substr($0, 1, 1)) substr($0, 2) \x7d')"),
    ("snake",
      "echo $(echo \"$1\" | sed -e 's/\\([a-z0-9]\\)\\([A-Z]\\)/\\1_\\2/g' -e 's/[ -]/_/g' | " ++
        "tr '[:upper:]' '[:lower:]')"),
    ("kebab",
      "echo $(echo \"$1\" | sed -e 's/\\([a-z0-9]\\)\\([A-Z]\\)/\\1-\\2/g' -e 's/[ _]/-/g' | " ++
        "tr '[:upper:]' '[:lower:]')") ]

/-- The filters known to a project. -/
structure FilterLibrary where
  /-- The project's own filters by name. -/
  extra : List (String × String) := []
  deriving Repr, Inhabited

namespace FilterLibrary

/-- The body of a filter. -/
def body? (lib : FilterLibrary) (name : String) : Option String :=
  (lib.extra.lookup name).or (builtinFilters.lookup name)

/-- Is the filter known? -/
def contains (lib : FilterLibrary) (name : String) : Bool :=
  (lib.body? name).isSome

/-- The names of the known filters, by code point. -/
def names (lib : FilterLibrary) : List String :=
  (((builtinFilters ++ lib.extra).map Prod.fst).eraseDups).mergeSort fun a b => !decide (b < a)

/-- A line of a body inside a function definition: indented, unless it is blank. -/
def indentLine (line : String) : String :=
  if Text.isAllBlank line then "" else "  " ++ line

/-- A filter as a shell function. -/
def define (name body : String) : String :=
  let inner := String.ofList (Text.trimWhile (· == '\n') body.toList)
  let lines := (Text.cutAt '\n' inner).map indentLine
  name ++ "() \x7b\n" ++ Text.joinWith "\n" lines ++ "\n\x7d\n"

/-- A known filter as a shell function. -/
def function? (lib : FilterLibrary) (name : String) : Option String :=
  (lib.body? name).map (define name)

/-- The definitions of the known ones among the filters, each once, in order of first mention. -/
def render (lib : FilterLibrary) (filters : List String) : String :=
  String.join (filters.eraseDups.filterMap lib.function?)

end FilterLibrary

end Stencil
