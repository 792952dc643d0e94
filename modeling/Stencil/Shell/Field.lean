import Stencil.Files.Place
import Stencil.Shell.Pattern

/-!
# Fields

A word that is expanded falls into fields at the blanks of its values, not at those that were
written in quotes. A field that is a pattern of paths stands for the paths that fit it, if there are
any.
-/

namespace Stencil.Shell

/-- A character of an expanded word. -/
inductive Atom where
  /-- A character as it was written, quoted or not. -/
  | char (c : Char) (quoted : Bool)
  /-- A character of a value outside of quotes, at which fields may be split. -/
  | loose (c : Char)
  /-- A quote: there is a field, if only an empty one. -/
  | quote
  /-- The end of a field. -/
  | cut
  deriving DecidableEq, Repr

/-- A field: its characters, each quoted or not. -/
abbrev Field := List (Char × Bool)

/-- The characters of the field. -/
def Field.text (f : Field) : List Char :=
  f.map Prod.fst

/-- Splits atoms into fields. -/
def fieldsFrom (seps : List Char) (current : Option Field) : List Atom → List Field
  | [] => current.toList
  | .char c q :: rest => fieldsFrom seps (some (current.getD [] ++ [(c, q)])) rest
  | .quote :: rest => fieldsFrom seps (some (current.getD [])) rest
  | .cut :: rest => current.getD [] :: fieldsFrom seps none rest
  | .loose c :: rest =>
    if seps.contains c then
      let isSpace := c == ' ' || c == '\t' || c == '\n'
      match current with
      | some f => f :: fieldsFrom seps none rest
      | none => if isSpace then fieldsFrom seps none rest else [] :: fieldsFrom seps none rest
    else fieldsFrom seps (some (current.getD [] ++ [(c, false)])) rest

/-- The text of atoms that are not split. -/
def joinedText (as : List Atom) : List Char :=
  as.filterMap fun a =>
    match a with
    | .char c _ => some c
    | .loose c => some c
    | .quote => none
    | .cut => some ' '

/-- The characters of atoms as a pattern. -/
def patternText (as : List Atom) : List (Char × Bool) :=
  as.filterMap fun a =>
    match a with
    | .char c q => some (c, q)
    | .loose c => some (c, false)
    | .quote => none
    | .cut => some (' ', false)

/-- The atoms of a value. -/
def atomsOf (quoted : Bool) (cs : List Char) : List Atom :=
  cs.map fun c => if quoted then .char c true else .loose c

/-- The text without the newlines at its end. -/
def dropNewlines (cs : List Char) : List Char :=
  (cs.reverse.dropWhile (· == '\n')).reverse

/-! ## Paths -/

/-- The components of a field between slashes. -/
def Field.components : Field → List Field
  | [] => [[]]
  | x :: rest =>
    match Field.components rest with
    | [] => [[x]]
    | f :: fs => if x.1 == '/' then [] :: f :: fs else (x :: f) :: fs

/-- A text as the characters of its bytes. -/
def charsOf (s : String) : List Char :=
  (Text.encode s).map fun b => Char.ofNat b.toNat

/-- A path from an argument. -/
def pathOf (arg : List Char) : Files.Path :=
  match Text.decode (arg.map fun c => UInt8.ofNat c.toNat) with
  | .ok s => Files.Path.ofString s
  | .error _ => Files.Path.ofString (String.ofList arg)

/-- The entry at a path that is given as an argument. -/
def entryAt? (t : Files.Tree) (arg : List Char) : Option Files.Entry :=
  let p := pathOf arg
  if arg.isEmpty || (t.obstacle? p).isSome then none else t.get? p.parts

/-- Is there a closing bracket behind the first of the characters? -/
def Field.closes : Field → Bool
  | [] => false
  | _ :: rest => rest.head? == some (']', false) || Field.closes rest

/-- Is the component a pattern? An opening bracket makes it one only with a closing one. -/
def Field.isPattern : Field → Bool
  | [] => false
  | (c, quoted) :: rest =>
    let isMark := !quoted && (c == '*' || c == '?' ||
      (c == '[' && Field.closes (if rest.head? == some ('!', false) then rest.tail else rest)))
    isMark || Field.isPattern rest

/-- Does a name fit the component? One with a dot at its start fits only a component that starts
with one. -/
def Field.fitsName (f : Field) (name : List Char) : Bool :=
  fitsSettled f name && (name.head? != some '.' || f.head?.map Prod.fst == some '.')

/-- A path as the text of its bytes. -/
def textOfBytes (cs : List Char) : Option String :=
  (Text.decode (cs.map fun c => UInt8.ofNat c.toNat)).toOption

/-- The paths that fit components after the path `done`. Without a pattern among the components
there are none. -/
def pathsFrom (p : Files.Place) (t : Files.Tree) (done : List Char) (found : Bool) :
    List Field → List (List Char)
  | [] => if found && ((textOfBytes done).map (p.exists? t)).getD false then [done] else []
  | f :: rest =>
    let join (name : List Char) : List Char :=
      if rest.isEmpty then done ++ name else done ++ name ++ ['/']
    if f.isPattern then
      let names := ((textOfBytes (if done.isEmpty then ['.'] else done)).map (p.namesAt t)).getD []
      ((names.map charsOf).filter f.fitsName).flatMap fun n => pathsFrom p t (join n) true rest
    else pathsFrom p t (join f.text) found rest

/-- The texts that a field stands for: the paths that fit it, in the order of their bytes, or its
own text if there are none. -/
def pathsOf (p : Files.Place) (t : Files.Tree) (f : Field) : List (List Char) :=
  match pathsFrom p t [] false (Field.components (settled f)) with
  | [] => [f.text]
  | found => found.mergeSort fun a b => !decide (String.ofList b < String.ofList a)

end Stencil.Shell
