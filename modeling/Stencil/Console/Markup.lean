import Stencil.Text.Blank

/-!
# Markup

Console text may hold style tags in square brackets. A plain console shows none of the styles, so
what is left of a tag is nothing. A backslash before a tag makes it literal, and `escape` puts such
backslashes before everything that would read as a tag.
-/

namespace Stencil.Console

/-- The characters with which a tag may begin. -/
def isTagStart (c : Char) : Bool :=
  ('a' ≤ c && c ≤ 'z') || c == '#' || c == '/' || c == '@'

/-- A tag at the front of a text: the backslashes before it, its inside, and what follows it. -/
structure TagMatch where
  slashes : Nat
  inside : List Char
  rest : List Char

/-- Reads a tag, with the backslashes before it, at the front of a text. -/
def tagAt? (cs : List Char) : Option TagMatch :=
  let slashes := (cs.takeWhile (· == '\\')).length
  match cs.dropWhile (· == '\\') with
  | '[' :: c :: more =>
    let body := more.takeWhile fun d => d != '[' && d != ']'
    match more.dropWhile fun d => d != '[' && d != ']' with
    | ']' :: rest => if isTagStart c then some { slashes, inside := c :: body, rest } else none
    | _ => none
  | _ => none

/-- A stretch of literal text or the inside of a tag. -/
inductive Piece where
  | text (cs : List Char)
  | tag (inside : List Char)
  deriving Repr

/-- Cuts a text into its tags and the stretches between them. `before` is the text since the last
tag, last character first; the fuel bounds the number of steps. -/
def piecesFrom (before : List Char) : Nat → List Char → List Piece
  | 0, _ => [.text before.reverse]
  | _ + 1, [] => [.text before.reverse]
  | fuel + 1, c :: cs =>
    match tagAt? (c :: cs) with
    | none => piecesFrom (c :: before) fuel cs
    | some m =>
      let literal := Piece.text ('[' :: m.inside ++ [']'])
      [.text before.reverse, .text (List.replicate (m.slashes / 2) '\\'),
        if m.slashes % 2 == 1 then literal else .tag m.inside] ++ piecesFrom [] fuel m.rest

/-- The tags of a text and the stretches between them. -/
def pieces (s : String) : List Piece :=
  piecesFrom [] (s.toList.length + 1) s.toList

/-- The control characters that a console drops: bell, backspace, vertical tab, form feed,
return. -/
def isDroppedControl (c : Char) : Bool :=
  [0x07, 0x08, 0x0B, 0x0C, 0x0D].contains c.toNat

/-- What a console shows of a piece. -/
def Piece.shown : Piece → List Char
  | .tag _ => []
  | .text cs =>
    (Text.replaceList ['\\', '['] ['['] cs.length cs).filter fun c => !isDroppedControl c

/-- What a console shows of a text with markup. -/
def plain (s : String) : List Char :=
  (pieces s).flatMap Piece.shown

/-- Puts backslashes before everything that would read as a tag. The fuel bounds the steps. -/
def escapeFrom : Nat → List Char → List Char
  | 0, cs => cs
  | _ + 1, [] => []
  | fuel + 1, c :: cs =>
    match tagAt? (c :: cs) with
    | none => c :: escapeFrom fuel cs
    | some m =>
      List.replicate (2 * m.slashes + 1) '\\' ++ '[' :: m.inside ++ ']' :: escapeFrom fuel m.rest

/-- A text as literal markup. A single backslash at the very end is doubled. -/
def escape (s : String) : String :=
  let out := String.ofList (escapeFrom s.toList.length s.toList)
  if Text.endsWith out "\\" && !Text.endsWith out "\\\\" then out ++ "\\" else out

end Stencil.Console
