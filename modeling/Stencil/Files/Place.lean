import Stencil.Files.Tree

/-!
# Places of working directories

A working directory stands somewhere in a file system. Its own files are a tree, and what lies
around it matters to paths that lead out of it: those from the root and those with two dots. There
are files and directories only, no links.
-/

namespace Stencil.Files

/-- Where a working directory stands, and what lies around it, by paths from the root. The
directories on the way to it need not be listed, and nothing below it is looked up here. -/
structure Place where
  here : List String := []
  around : Tree := default

namespace Place

variable (p : Place) (t : Tree)

/-- What stands at a path from the root. -/
def get? (parts : List String) : Option Entry :=
  if p.here.isPrefixOf parts then t.get? (parts.drop p.here.length)
  else if parts.isPrefixOf p.here then some .directory
  else p.around.get? parts

/-- Is the entry a directory? -/
def isDirectory (parts : List String) : Bool :=
  p.get? t parts == some .directory

/-- The names in a directory, those that lead to it and out of it included. -/
def names (parts : List String) : List String :=
  let listed :=
    if p.here.isPrefixOf parts then t.names (parts.drop p.here.length)
    else
      match p.here.drop parts.length with
      | next :: _ =>
        if parts.isPrefixOf p.here then next :: (p.around.names parts).filter (· != next)
        else p.around.names parts
      | [] => p.around.names parts
  "." :: ".." :: listed

/-- Follows the components of a path. All but the last must lead to directories. -/
def follow (seat : List String) : List String → Option (List String)
  | [] => some seat
  | c :: cs =>
    if !p.isDirectory t seat then none
    else if c.isEmpty || c == "." then follow seat cs
    else if c == ".." then follow seat.dropLast cs
    else follow (seat ++ [c]) cs

/-- The path from the root that a text names. -/
def locate? (text : String) : Option (List String) :=
  p.follow t (if text.toList.head? == some '/' then [] else p.here) (Text.cutAt '/' text)

/-- Does the text name anything? -/
def exists? (text : String) : Bool :=
  match p.locate? t text with
  | some parts => (p.get? t parts).isSome
  | none => false

/-- The names in the directory that a text names. -/
def namesAt (text : String) : List String :=
  match p.locate? t text with
  | some parts => if p.isDirectory t parts then p.names t parts else []
  | none => []

end Place

end Stencil.Files
