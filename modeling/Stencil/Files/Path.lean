import Stencil.Text.Blank

/-!
# Paths of files

A path is a row of components below a root: the working directory, or one of the two absolute roots.
Components that are empty or a single dot do not count, so two texts can name one path.
-/

namespace Stencil.Files

/-- A path. The root is empty for a relative path, and else one slash or two. -/
structure Path where
  root : String := ""
  parts : List String := []
  deriving DecidableEq, Repr, Inhabited

namespace Path

/-- The root of a path's text. Exactly two slashes at the start are a root of their own. -/
def rootOf (cs : List Char) : String :=
  match (cs.takeWhile (· == '/')).length with
  | 0 => ""
  | 2 => "//"
  | _ => "/"

/-- The components of a text: what stands between slashes, without empty parts and single dots. -/
def partsOf (s : String) : List String :=
  (Text.cutAt '/' s).filter fun p => !p.isEmpty && p != "."

/-- Reads a path. -/
def ofString (s : String) : Path :=
  { root := rootOf s.toList, parts := partsOf s }

/-- The text of a path. The working directory itself is a dot. -/
def toString (p : Path) : String :=
  if p.root.isEmpty && p.parts.isEmpty then "." else p.root ++ Text.joinWith "/" p.parts

/-- The path of an entry of the directory `p`. -/
def child (p : Path) (name : String) : Path :=
  { p with parts := p.parts ++ [name] }

/-- The directory of a path. -/
def parent (p : Path) : Path :=
  { p with parts := p.parts.dropLast }

end Path

end Stencil.Files
