import Stencil.Text.Blank

/-!
# Output paths

A default path such as `./folder/name.rs` says where a template's output goes: its directory and its
extension are kept, and its last component is replaced by the name of the file to write.
-/

namespace Stencil.OutputPath

/-- The last component of a path: all that follows the last slash. -/
def lastPart (p : List Char) : List Char :=
  (p.reverse.takeWhile (· != '/')).reverse

/-- All of a path up to its last slash, that slash included. -/
def head (p : List Char) : List Char :=
  (p.reverse.dropWhile (· != '/')).reverse

/-- The directory of a path: its head without the slashes at its end, unless it is all slashes. -/
def parent (p : List Char) : List Char :=
  let h := head p
  if h.all (· == '/') then h else Text.dropEndWhile (· == '/') h

/-- The extension of a last component: from its last dot on. Dots at the very start do not count. -/
def extension (part : List Char) : List Char :=
  let r := part.reverse
  match r.dropWhile (· != '.') with
  | [] => []
  | _ :: before =>
    if before.all (· == '.') then [] else '.' :: (r.takeWhile (· != '.')).reverse

/-- Joins a directory and a path below it; an absolute path stands for itself. -/
def join (dir p : List Char) : List Char :=
  if p.head? == some '/' then p
  else if dir.isEmpty || dir.getLast? == some '/' then dir ++ p
  else dir ++ ['/'] ++ p

/-- A default path without the slashes at its end. The path `/` stays. -/
def cleaned (p : List Char) : List Char :=
  if p.length > 1 then Text.dropEndWhile (· == '/') p else p

/-- The directory of a default path. -/
def directory (p : List Char) : List Char :=
  parent (cleaned p)

/-- The extension of a default path. -/
def extensionOf (p : List Char) : List Char :=
  extension (lastPart (cleaned p))

/-- The default path with its last component replaced; without a default path, a file in the
current directory. -/
def substitute (path : Option String) (placeholder : String) : String :=
  match path with
  | none => "./" ++ placeholder
  | some p =>
    String.ofList (join (directory p.toList) (placeholder.toList ++ extensionOf p.toList))

/-- The path as the help text shows it. -/
def forHelp (path : Option String) : String :=
  substitute path "NAME"

/-- The path as the script writes it, with the shell variable that holds the name. -/
def forScript (path : Option String) : String :=
  substitute path "$\x7bname\x7d"

/-- The directory that must exist before the file can be written. -/
def directory? (path : Option String) : Option String :=
  match path with
  | none => none
  | some p =>
    if (directory p.toList).isEmpty then none else some (String.ofList (directory p.toList))

end Stencil.OutputPath
