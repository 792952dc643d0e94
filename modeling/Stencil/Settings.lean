import Stencil.Error
import Stencil.Yaml.Printer

/-!
# Settings

A project's settings: a version, the editor's command and the project's own filters, each given or
not. They are kept as a YAML mapping. `Settings.ofText` reads one and `Settings.text` writes one.
-/

namespace Stencil

/-- The settings that were given. -/
structure Settings where
  version : Option Int := none
  editor : Option (Option String) := none
  filters : Option (List (String × String)) := none
  deriving DecidableEq, Repr, Inhabited

namespace Settings

/-- The version, which is the first unless it is given. -/
def schema (s : Settings) : Int :=
  s.version.getD 1

/-- The editor's command, if there is one. -/
def editorCommand (s : Settings) : Option String :=
  s.editor.join

/-- The project's own filters. -/
def extraFilters (s : Settings) : List (String × String) :=
  s.filters.getD []

/-- The names of the fields that were given, in alphabetical order. -/
def given (s : Settings) : List String :=
  (if s.editor.isSome then ["editor"] else []) ++ (if s.filters.isSome then ["filters"] else []) ++
    (if s.version.isSome then ["version"] else [])

/-! ## Whole numbers in texts -/

/-- Is the character a decimal digit? -/
def isDigit (c : Char) : Bool :=
  '0' ≤ c && c ≤ '9'

/-- The value of a numeral: a sign and digits without zeros before them. -/
def numeral? (cs : List Char) : Option (Except FieldFault.Kind Int) :=
  let negative := cs.head? == some '-'
  let ds := if negative then cs.drop 1 else cs
  if ds.isEmpty || !ds.all isDigit || (ds.head? == some '0' && ds.length != 1) then none
  else if ds.length > Yaml.Scalar.mostDigits then some (.error .tooLong)
  else
    let n : Int := Yaml.decimalValue ds
    some (.ok (if negative then -n else n))

/-- Takes a plus sign away. A second sign after it is an error. -/
def dropPlus? : List Char → Option (List Char)
  | '+' :: rest => if rest.head? == some '-' then none else some rest
  | cs => some cs

/-- Takes zeros away, and underscores among them, but keeps one digit before a point or the end. -/
def dropZeros? : List Char → Option (List Char)
  | '0' :: rest =>
    let zeros := rest.takeWhile fun c => c == '0' || c == '_'
    let last := zeros.getLast?.getD '0'
    match rest.dropWhile fun c => c == '0' || c == '_' with
    | [] => some [last]
    | '.' :: more => some (last :: '.' :: more)
    | c :: more => if isDigit c then some (c :: more) else none
  | c :: rest => if isDigit c || c == '-' then some (c :: rest) else none
  | [] => none

/-- Takes a fraction of zeros away. -/
def dropFraction (cs : List Char) : List Char :=
  if ((cs.dropWhile (· != '.')).drop 1).all (· == '0') then cs.takeWhile (· != '.') else cs

/-- Is there an underscore that does not stand alone between others? -/
def hasLooseBar (cs : List Char) : Bool :=
  cs.head? == some '_' || cs.getLast? == some '_' || (cs.zip (cs.drop 1)).contains ('_', '_')

/-- The characters without the bars between digits. -/
def dropBars (cs : List Char) : List Char :=
  if hasLooseBar cs then cs else cs.filter (· != '_')

/-- The whole number that a text stands for: there may be blanks around it, a sign, zeros before it,
single underscores in it and a fraction of zeros after it. -/
def wholeNumber (s : String) : Except FieldFault.Kind Int :=
  match numeral? s.toList with
  | some r => r
  | none =>
    match (dropPlus? (Text.trimWhile Text.isSpace s.toList)).bind dropZeros? with
    | none => .error .notNumeral
    | some cs => (numeral? (dropBars (dropFraction cs))).getD (.error .notNumeral)

/-! ## Fields -/

/-- Reads a version. Truth values count as one and zero. -/
def readVersion : Yaml.Value → Except FieldFault.Kind Int
  | .bool b => .ok (if b then 1 else 0)
  | .int n => .ok n
  | .float x =>
    if (Double.parts? x).isNone then .error .notFinite
    else
      match Double.toInt? x with
      | none => .error .fraction
      | some n => if n.natAbs < Nat.pow 2 63 then .ok n else .error .tooLong
  | .text s => wholeNumber s
  | .bytes bs =>
    match Text.decode bs with
    | .ok s => wholeNumber s
    | .error _ => .error .notNumeral
  | _ => .error .notNumber

/-- Reads a text. -/
def readText : Yaml.Value → Except FieldFault.Kind String
  | .text s => .ok s
  | .bytes bs =>
    match Text.decode bs with
    | .ok s => .ok s
    | .error _ => .error .undecodable
  | _ => .error .notText

/-- Reads the editor's command, which may be null. -/
def readEditor : Yaml.Value → Except FieldFault.Kind (Option String)
  | .null => .ok none
  | v => (readText v).map some

/-- The faults of an entry of the filters. -/
def entryFaults (k v : Yaml.Value) : List FieldFault :=
  let text := k.keyText
  (match readText k with
    | .ok _ => []
    | .error kind => [{ place := ["filters", text, "[key]"], kind }]) ++
  (match readText v with
    | .ok _ => []
    | .error kind => [{ place := ["filters", text], kind }])

/-- The entry of the filters, if it consists of texts. -/
def entry? (k v : Yaml.Value) : Option (String × String) :=
  match readText k, readText v with
  | .ok name, .ok body => some (name, body)
  | _, _ => none

/-- Sets the body of a filter. A name keeps its first place. -/
def setBody (fs : List (String × String)) (name body : String) : List (String × String) :=
  if fs.any (·.1 == name) then fs.map fun f => if f.1 == name then (name, body) else f
  else fs ++ [(name, body)]

/-- Reads the filters: a mapping of texts whose keys are names. -/
def readFilters : Yaml.Value → Except (List FieldFault) (List (String × String))
  | .mapping entries =>
    match entries.flatMap fun e => entryFaults e.1 e.2 with
    | [] =>
      let fs :=
        (entries.filterMap fun e => entry? e.1 e.2).foldl (fun fs f => setBody fs f.1 f.2) []
      match fs.findSome? fun f => (Name.fault? f.1).map fun e => e.reason f.1 with
      | some reason => .error [{ place := ["filters"], kind := .badName reason }]
      | none => .ok fs
    | faults => .error faults
  | .loop true => .error [{ place := ["filters", "filters"], kind := .notText }]
  | _ => .error [{ place := ["filters"], kind := .notMapping }]

/-- Reads a field if it is given. -/
def readField {α : Type} (fields : List (String × Yaml.Value)) (name : String)
    (read : Yaml.Value → Except (List FieldFault) α) : Except (List FieldFault) (Option α) :=
  match fields.lookup name with
  | none => .ok none
  | some v => (read v).map some

/-- A reader whose fault is at the field itself. -/
def atField {α : Type} (name : String) (read : Yaml.Value → Except FieldFault.Kind α)
    (v : Yaml.Value) : Except (List FieldFault) α :=
  match read v with
  | .ok a => .ok a
  | .error kind => .error [{ place := [name], kind }]

/-- What is wrong with a field. -/
def faultsOf {α : Type} : Except (List FieldFault) α → List FieldFault
  | .ok _ => []
  | .error faults => faults

/-- Settings from fields. Other fields do not count. All faults are reported, field by field. -/
def ofFields (fields : List (String × Yaml.Value)) : Except (List FieldFault) Settings :=
  match readField fields "version" (atField "version" readVersion),
      readField fields "editor" (atField "editor" readEditor),
      readField fields "filters" readFilters with
  | .ok version, .ok editor, .ok filters => .ok { version, editor, filters }
  | v, e, f => .error (faultsOf v ++ faultsOf e ++ faultsOf f)

/-- The fields of a mapping, if all keys are texts. -/
def fieldsOf? (entries : List (Yaml.Value × Yaml.Value)) : Option (List (String × Yaml.Value)) :=
  entries.mapM fun (k, v) =>
    match k with
    | .text name => some (name, v)
    | _ => none

/-- Settings from a document. A void document gives none. -/
def ofValue (path : String) (v : Yaml.Value) : Except Failure Settings :=
  if v.isVoid then .ok {}
  else
    match v with
    | .mapping entries =>
      match fieldsOf? entries with
      | none => .error (.unexpected .keyNotText)
      | some fields =>
        match ofFields fields with
        | .ok s => .ok s
        | .error faults => .error (.known (.invalidSettings path (.badFields faults)))
    | _ => .error (.known (.invalidSettings path .notMapping))

/-- Settings from the text of the file at `path`. -/
def ofText (path text : String) : Except Failure Settings :=
  match Yaml.read text with
  | .ok v => ofValue path v
  | .error .malformed => .error (.known (.invalidSettings path .malformed))
  | .error fault => .error (.unexpected (.badScalar fault))

/-- Settings from the bytes of the file at `path`. -/
def ofBytes (path : String) (bs : List UInt8) : Except Failure Settings :=
  match Text.decodeLines bs with
  | .error e => .error (.unexpected (.undecodable e))
  | .ok text => ofText path text

/-! ## Writing -/

/-- The line of the version. -/
def versionText (n : Int) : String :=
  "version: " ++ toString n ++ "\n"

/-- The line of the editor. -/
def editorText : Option String → String
  | none => "editor: null\n"
  | some s => String.ofList (Yaml.writeEntry 0 "editor" s)

/-- The lines of the filters. -/
def filtersText : List (String × String) → String
  | [] => "filters: \x7b\x7d\n"
  | fs => "filters:\n" ++ String.join (fs.map fun (k, v) => String.ofList (Yaml.writeEntry 2 k v))

/-- The settings as a YAML text that holds the fields that were given. -/
def text (s : Settings) : String :=
  if s.version.isNone && s.editor.isNone && s.filters.isNone then "\x7b\x7d\n"
  else
    (s.version.map versionText).getD "" ++ (s.editor.map editorText).getD "" ++
      (s.filters.map filtersText).getD ""

end Settings

end Stencil
