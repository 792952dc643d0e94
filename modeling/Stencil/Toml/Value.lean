/-!
# TOML values

The values of a TOML document. Numbers, dates and times are kept only as far as a reader of texts
needs them.
-/

namespace Stencil.Toml

/-- A TOML value. Tables keep their keys in the order in which they were first mentioned. -/
inductive Value where
  | text (s : String)
  | integer (n : Int)
  | float (literal : String)
  | boolean (b : Bool)
  | date
  | time
  | dateTime
  | array (items : List Value)
  | table (entries : List (String × Value))
  deriving Repr, Inhabited

/-- A table: its keys and values in order. -/
abbrev Table := List (String × Value)

/-- What a value is called in a message. -/
def Value.kind : Value → String
  | .text _ => "str"
  | .integer _ => "int"
  | .float _ => "float"
  | .boolean _ => "bool"
  | .date => "date"
  | .time => "time"
  | .dateTime => "datetime"
  | .array _ => "array"
  | .table _ => "object"

end Stencil.Toml
