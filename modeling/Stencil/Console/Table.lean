import Stencil.Console.Layout

/-!
# Tables

A table with a heavy frame around its head. Columns are as wide as their contents; when that is too
wide for the console the widest ones shrink, and their cells are broken into lines or cut off.
-/

namespace Stencil.Console

open Text (cellsOf)

/-- A table: the heads of its columns, and rows with a cell for each. All texts may hold markup. -/
structure Table where
  heads : List String
  rows : List (List String)

/-- The characters that end a line for the purpose of measuring a cell. -/
def isLineEnd (c : Char) : Bool :=
  [0x0A, 0x1C, 0x1D, 0x1E, 0x85, 0x2028, 0x2029].contains c.toNat

/-- The cells of the widest line of a text. -/
def textWidth (cs : List Char) : Nat :=
  ((cs.splitOnP isLineEnd).map cellsOf).foldl max 0

/-- A quotient rounded to the nearest number, a half going to the even neighbour. -/
def roundDiv (n d : Nat) : Nat :=
  let q := n / d
  let r := n % d
  if 2 * r < d then q else if 2 * r > d then q + 1 else if q % 2 == 0 then q else q + 1

/-- Takes `excess` off the widths that are equal to `widest`, in equal parts and at most `limit` off
each. `sharers` counts the columns still to be reduced. -/
def reduce (widest limit : Nat) (excess sharers : Nat) : List Nat → List Nat
  | [] => []
  | w :: ws =>
    if w == widest && sharers != 0 then
      let part := min limit (roundDiv excess sharers)
      (w - part) :: reduce widest limit (excess - part) (sharers - 1) ws
    else w :: reduce widest limit excess sharers ws

/-- Shrinks the widest columns until all fit. The fuel bounds the number of rounds. -/
def collapse (limit : Nat) : Nat → List Nat → List Nat
  | 0, ws => ws
  | fuel + 1, ws =>
    let total := ws.foldl (· + ·) 0
    if total ≤ limit then ws
    else
      let widest := ws.foldl max 0
      let second := (ws.filter (· != widest)).foldl max 0
      let excess := total - limit
      collapse limit fuel
        (reduce widest (min excess (widest - second)) excess (ws.count widest) ws)

namespace Table

/-- The cells of a column from top to bottom, without markup. -/
def column (t : Table) (i : Nat) : List (List Char) :=
  (t.heads :: t.rows).map fun row => plain (row[i]?.getD "")

/-- The widths of the columns, the blank on either side included. -/
def widths (t : Table) : List Nat :=
  let room := width - (t.heads.length + 1)
  let natural := (List.range t.heads.length).map fun i =>
    min room (((t.column i).map textWidth).foldl max 0 + 2)
  let fitted := collapse room (natural.foldl (· + ·) 0) natural
  (List.zip natural fitted).map fun (n, f) => min n f

/-- A rule across the table. -/
def rule (left bar cross right : Char) (ws : List Nat) : String :=
  String.ofList <|
    [left] ++ [cross].intercalate (ws.map fun w => List.replicate w bar) ++ [right]

/-- A line of a cell, filled with blanks. -/
def pad (w : Nat) (line : List Char) : List Char :=
  line ++ List.replicate (w - cellsOf line) ' '

/-- The lines of a cell that is `w` cells wide, the blank on either side included. -/
def cellLines (w : Nat) (cell : List Char) : List (List Char) :=
  (wrap (w - 2) .ellipsis cell).map fun l => ' ' :: pad (w - 2) l ++ [' ']

/-- A row of cells between bars. -/
def row (bar : Char) (ws : List Nat) (cells : List (List Char)) : String :=
  let columns := (List.zip ws cells).map fun (w, c) => (w, cellLines w c)
  let height := (columns.map fun c => c.2.length).foldl max 1
  unlines <| (List.range height).map fun i =>
    let parts := columns.map fun (w, ls) => (ls[i]?).getD (List.replicate w ' ')
    [bar] ++ [bar].intercalate parts ++ [bar]

/-- The table as printed. -/
def printed (t : Table) : String :=
  let ws := t.widths
  let cells (r : List String) := r.map plain
  rule '┏' '━' '┳' '┓' ws ++ "\n" ++ row '┃' ws (cells t.heads) ++
    rule '┡' '━' '╇' '┩' ws ++ "\n" ++ String.join (t.rows.map fun r => row '│' ws (cells r)) ++
    rule '└' '─' '┴' '┘' ws ++ "\n"

end Table

end Stencil.Console
