/-!
# Blanks

White space in the sense of the Unicode property, and the removal of white space from the two ends
of a text. Placeholders, answers and messages are trimmed by this rule, so a no-break space counts
and a zero-width space does not.
-/

namespace Stencil.Text

/-- The characters that trimming removes. -/
def isBlank (c : Char) : Bool :=
  let n := c.toNat
  (0x09 ≤ n && n ≤ 0x0D) || (0x1C ≤ n && n ≤ 0x20) || n == 0x85 || n == 0xA0 || n == 0x1680 ||
    (0x2000 ≤ n && n ≤ 0x200A) || n == 0x2028 || n == 0x2029 || n == 0x202F || n == 0x205F ||
    n == 0x3000

/-- A blank that may stand around a number. The four separators among the controls may not. -/
def isSpace (c : Char) : Bool :=
  isBlank c && !(0x1C ≤ c.toNat && c.toNat ≤ 0x1F)

/-- Drops the longest end of `cs` all of whose elements satisfy `p`. -/
def dropEndWhile {α : Type} (p : α → Bool) (cs : List α) : List α :=
  (cs.reverse.dropWhile p).reverse

/-- Drops the elements that satisfy `p` from both ends. -/
def trimWhile {α : Type} (p : α → Bool) (cs : List α) : List α :=
  dropEndWhile p (cs.dropWhile p)

/-- Removes the blanks at both ends of a character list. -/
def trimChars (cs : List Char) : List Char :=
  trimWhile isBlank cs

/-- Removes the blanks at both ends of a text. -/
def trim (s : String) : String :=
  String.ofList (trimChars s.toList)

/-- Does the text hold nothing but blanks? -/
def isAllBlank (s : String) : Bool :=
  s.toList.all isBlank

/-- Joins texts with a separator between neighbours. -/
def joinWith (sep : String) : List String → String
  | [] => ""
  | [t] => t
  | t :: u :: rest => t ++ sep ++ joinWith sep (u :: rest)

/-- Cuts a text at every occurrence of a character; there is always at least one piece. -/
def cutAt (sep : Char) (s : String) : List String :=
  (s.toList.splitOn sep).map String.ofList

/-- Does `cs` begin with `start`, and if so what follows? -/
def dropStart? {α : Type} [BEq α] : List α → List α → Option (List α)
  | [], cs => some cs
  | _ :: _, [] => none
  | a :: start, c :: cs => if a == c then dropStart? start cs else none

/-- Does the text begin with `start`? -/
def startsWith (s start : String) : Bool :=
  (dropStart? start.toList s.toList).isSome

/-- Does the text end with `tail`? -/
def endsWith (s tail : String) : Bool :=
  (dropStart? tail.toList.reverse s.toList.reverse).isSome

/-- Is the character among those of the text? -/
def hasChar (s : String) (c : Char) : Bool :=
  s.toList.contains c

/-- Replaces every occurrence of the nonempty list `old`, from the left and without overlap. -/
def replaceList {α : Type} [BEq α] (old new : List α) : Nat → List α → List α
  | 0, cs => cs
  | _ + 1, [] => []
  | fuel + 1, c :: cs =>
    match dropStart? old (c :: cs) with
    | some rest => new ++ replaceList old new fuel rest
    | none => c :: replaceList old new fuel cs

end Stencil.Text
