import Stencil.Escape
import Stencil.Template.Basic
import Stencil.Toml.Document
import Stencil.Toml.Quote

/-!
# Metadata

What a script tells about its template beside the source: the default path, and the defaults and
descriptions of the variables, all as the user gave them. It travels as a TOML document, the
payload.
-/

namespace Stencil

/-- The default path, defaults and descriptions of a template, unescaped. -/
structure Metadata where
  defaultPath : Option String := none
  defaults : List (String × String) := []
  descriptions : List (String × String) := []
  deriving DecidableEq, Repr, Inhabited

namespace Metadata

/-- A line of a payload for each variable that has the given text. -/
def lines (text : Variable → Option String) (vars : List Variable) : String :=
  String.join (vars.filterMap fun v =>
    (text v).map fun t => v.name ++ "=" ++ Toml.quote (Escape.unescape t) ++ "\n")

/-- The line of a payload that holds the default path. -/
def pathLine : Option String → String
  | none => ""
  | some p => "default_path=" ++ Toml.quote p ++ "\n"

/-- The payload of a template. -/
def payload (t : Template) (defaultPath : Option String) : String :=
  "\n" ++ pathLine defaultPath ++
    "\n[defaults]\n" ++ lines Variable.default t.vars ++
    "\n[descriptions]\n" ++ lines Variable.description t.vars ++ "\n"

/-- Why a payload cannot be read. -/
inductive Fault where
  /-- It is no TOML document. -/
  | malformed
  /-- A value has the wrong kind. -/
  | wrongKind (expected got place : String)
  /-- Any other reason. -/
  | other (detail : String)
  deriving DecidableEq, Repr, Inhabited

/-- The sentence that tells what is wrong with a payload. -/
def Fault.detail : Fault → String
  | .malformed => "not a TOML document"
  | .wrongKind expected got place => s!"Expected `{expected}`, got `{got}` - at `{place}`"
  | .other detail => detail

/-- Reads a table of texts. -/
def readTexts (place : String) : Toml.Table → Except Fault (List (String × String))
  | [] => .ok []
  | (k, .text s) :: more =>
    match readTexts place more with
    | .error e => .error e
    | .ok rest => .ok ((k, s) :: rest)
  | (_, v) :: _ => .error (.wrongKind "str" v.kind (place ++ "[...]"))

/-- Takes over an entry of a payload. Entries with other keys do not count. -/
def readEntry (m : Metadata) (key : String) (v : Toml.Value) : Except Fault Metadata :=
  if key == "default_path" then
    match v with
    | .text s => .ok { m with defaultPath := some s }
    | v => .error (.wrongKind "str | null" v.kind "$.default_path")
  else if key == "defaults" then
    match v with
    | .table t => (readTexts "$.defaults" t).map fun d => { m with defaults := d }
    | v => .error (.wrongKind "object" v.kind "$.defaults")
  else if key == "descriptions" then
    match v with
    | .table t => (readTexts "$.descriptions" t).map fun d => { m with descriptions := d }
    | v => .error (.wrongKind "object" v.kind "$.descriptions")
  else .ok m

/-- Reads the entries of a payload in order, up to the first that has the wrong kind. -/
def readEntries (m : Metadata) : Toml.Table → Except Fault Metadata
  | [] => .ok m
  | (k, v) :: rest =>
    match readEntry m k v with
    | .error e => .error e
    | .ok m' => readEntries m' rest

/-- Reads a payload. -/
def decode (text : String) : Except Fault Metadata :=
  match Toml.parse text with
  | none => .error .malformed
  | some t => readEntries {} t

end Metadata

end Stencil
