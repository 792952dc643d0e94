import Stencil.Console.Markup
import Stencil.Text.Width

/-!
# Lines of a console

How a console of a given width shows a text: tabs become blanks, and lines that are too long are
broken between words. A word that fits on no line is folded or cut off.
-/

namespace Stencil.Console

open Text (isBlank cellWidth cellsOf dropEndWhile)

/-- The width of the console in cells. -/
def width : Nat := 80

/-- Replaces tabs by blanks up to the next multiple of eight cells. -/
def expandTabsFrom (column : Nat) : List Char → List Char
  | [] => []
  | c :: cs =>
    if c == '\t' then
      let n := 8 - column % 8
      List.replicate n ' ' ++ expandTabsFrom (column + n) cs
    else c :: expandTabsFrom (column + cellWidth c) cs

/-- The line with blanks in the place of tabs. -/
def expandTabs (line : List Char) : List Char :=
  expandTabsFrom 0 line

/-- A text broken at its line feeds, with tabs expanded. -/
def rawLines (cs : List Char) : List (List Char) :=
  (cs.splitOn '\n').map expandTabs

/-- Cuts off the first word with the blanks around it. -/
def nextWord (cs : List Char) : List Char × List Char :=
  let lead := cs.takeWhile isBlank
  let r₁ := cs.dropWhile isBlank
  let word := r₁.takeWhile (!isBlank ·)
  let r₂ := r₁.dropWhile (!isBlank ·)
  (lead ++ word ++ r₂.takeWhile isBlank, r₂.dropWhile isBlank)

/-- The words of a line, each with the blanks after it; the first also has those before it. Blanks
alone are no word. The fuel bounds the number of words. -/
def wordsOf : Nat → List Char → List (List Char)
  | 0, _ => []
  | fuel + 1, cs =>
    if cs.all isBlank then []
    else (nextWord cs).1 :: wordsOf fuel (nextWord cs).2

/-- Cuts a word into stretches of at most `w` cells. -/
def chop (w : Nat) (current : List Char) (used : Nat) : List Char → List (List Char)
  | [] => [current.reverse]
  | c :: cs =>
    if used + cellWidth c > w then current.reverse :: chop w [c] (cellWidth c) cs
    else chop w (c :: current) (used + cellWidth c) cs

/-- What to do with a word that fits on no line. -/
inductive Overflow where
  | fold
  | ellipsis
  deriving DecidableEq, Repr

/-- Distributes words over lines. `start` says whether anything stands before the word in the text,
and `used` counts the cells of the current line, which `line` holds. -/
def fill (w : Nat) (overflow : Overflow) (start : Bool) (used : Nat) (line : List Char) :
    List (List Char) → List (List Char)
  | [] => [line]
  | word :: more =>
    let size := cellsOf (dropEndWhile isBlank word)
    if used + size ≤ w then
      fill w overflow true (used + cellsOf word) (line ++ word) more
    else if size > w then
      match overflow with
      | .fold =>
        let folded := chop w [] 0 word
        let last := folded.getLast?.getD []
        let full := folded.dropLast
        (if start then [line] else []) ++ full ++ fill w overflow true (cellsOf last) last more
      | .ellipsis =>
        (if start then [line] else []) ++ fill w overflow true (cellsOf word) word more
    else if used != 0 && start then
      line :: fill w overflow true (cellsOf word) word more
    else fill w overflow true used (line ++ word) more

/-- A line broken between words. A line of blanks alone is not broken. -/
def breakLine (w : Nat) (overflow : Overflow) (line : List Char) : List (List Char) :=
  match wordsOf line.length line with
  | [] => [line]
  | words => fill w overflow false 0 [] words

/-- Takes blanks off the end of a line that has more than `w` characters, as many as are too
many. -/
def cutBlanks (w : Nat) (line : List Char) : List Char :=
  let blanks := line.length - (dropEndWhile isBlank line).length
  line.take (line.length - min blanks (line.length - w))

/-- Looks for a start of the line that takes `w` cells, by halving the range of lengths between
`low` and `high`. A wide character of which only one half fits gives way to a blank. -/
def cutBetween (w : Nat) (line : List Char) : Nat → Nat → Nat → List Char
  | 0, low, _ => line.take (low + 1)
  | fuel + 1, low, high =>
    let middle := (low + high) / 2
    let before := line.take (middle + 1)
    let n := cellsOf before
    if n == w + 1 && before.getLast?.map cellWidth == some 2 then before.dropLast ++ [' ']
    else if n == w then before
    else if n > w then cutBetween w line fuel low middle
    else cutBetween w line fuel middle high

/-- The start of a line that takes `w` cells. Characters without width make several starts fit; the
search decides between them. -/
def takeCells (w : Nat) (line : List Char) : List Char :=
  if w == 0 then [] else cutBetween w line (line.length + 1) 0 line.length

/-- Cuts a line that takes more than `w` cells. -/
def truncate (w : Nat) (overflow : Overflow) (line : List Char) : List Char :=
  if cellsOf line ≤ w then line
  else
    match overflow with
    | .fold => takeCells w line
    | .ellipsis => takeCells (w - 1) line ++ ['…']

/-- The lines that a text takes on `w` cells. -/
def wrap (w : Nat) (overflow : Overflow) (cs : List Char) : List (List Char) :=
  ((rawLines cs).flatMap (breakLine w overflow)).map fun l => truncate w overflow (cutBlanks w l)

/-- Lines as printed, each with a line feed. -/
def unlines (ls : List (List Char)) : String :=
  String.ofList (ls.flatMap fun l => l ++ ['\n'])

/-- A text with markup, printed and wrapped. -/
def printed (s : String) : String :=
  unlines (wrap width .fold (plain s))

/-- A text with markup, printed without wrapping. -/
def printedUnwrapped (s : String) : String :=
  unlines (rawLines (plain s))

end Stencil.Console
