import Stencil.Console.Markup
import Stencil.Text.Digit

/-!
# Styles

A tag asks for a style in words: attributes, colours, a link. A console that shows no styles reads
them all the same. A style that it does not know does not count, and the words behind the first
unknown one are not read. A colour of three numbers is taken for one even if a number is missing,
and then the text cannot be printed (`isFaulty`).

Codes of pictures and closing tags without an opening one lie outside: no text that is printed here
can hold the slash of such a tag.
-/

namespace Stencil.Console

/-- What a word makes of a style. -/
inductive Verdict where
  | known
  | unknown
  /-- It is read as a colour, of which a number is missing. -/
  | faulty
  deriving DecidableEq, Repr

/-- The lower case of a letter in a style. The sign of the kelvin counts as a letter. -/
def lowerCase (c : Char) : Char :=
  if c.toNat == 0x212A then 'k' else c.toLower

/-- The words for attributes, some of them abbreviated. -/
def attributes : List String :=
  ["dim", "d", "bold", "b", "italic", "i", "underline", "u", "blink", "blink2", "reverse", "r",
    "conceal",
    "c", "strike", "s", "underline2", "uu", "frame", "encircle", "overline", "o"]

/-- The names of the colours. -/
def colourNames : List String :=
  ["default", "black", "red", "green", "yellow", "blue", "magenta", "cyan", "white",
    "bright_black", "bright_red", "bright_green", "bright_yellow", "bright_blue",
    "bright_magenta", "bright_cyan", "bright_white", "grey0", "gray0", "navy_blue", "dark_blue",
    "blue3", "blue1", "dark_green", "deep_sky_blue4", "dodger_blue3", "dodger_blue2", "green4",
    "spring_green4", "turquoise4", "deep_sky_blue3", "dodger_blue1", "green3", "spring_green3",
    "dark_cyan", "light_sea_green", "deep_sky_blue2", "deep_sky_blue1", "spring_green2", "cyan3",
    "dark_turquoise", "turquoise2", "green1", "spring_green1", "medium_spring_green", "cyan2",
    "cyan1", "dark_red", "deep_pink4", "purple4", "purple3", "blue_violet", "orange4", "grey37",
    "gray37", "medium_purple4", "slate_blue3", "royal_blue1", "chartreuse4", "dark_sea_green4",
    "pale_turquoise4", "steel_blue", "steel_blue3", "cornflower_blue", "chartreuse3",
    "cadet_blue", "sky_blue3", "steel_blue1", "pale_green3", "sea_green3", "aquamarine3",
    "medium_turquoise", "chartreuse2", "sea_green2", "sea_green1", "aquamarine1",
    "dark_slate_gray2", "dark_magenta", "dark_violet", "purple", "light_pink4", "plum4",
    "medium_purple3", "slate_blue1", "yellow4", "wheat4", "grey53", "gray53", "light_slate_grey",
    "light_slate_gray", "medium_purple", "light_slate_blue", "dark_olive_green3",
    "dark_sea_green", "light_sky_blue3", "sky_blue2", "dark_sea_green3", "dark_slate_gray3",
    "sky_blue1", "chartreuse1", "light_green", "pale_green1", "dark_slate_gray1", "red3",
    "medium_violet_red", "magenta3", "dark_orange3", "indian_red", "hot_pink3", "medium_orchid3",
    "medium_orchid", "medium_purple2", "dark_goldenrod", "light_salmon3", "rosy_brown", "grey63",
    "gray63", "medium_purple1", "gold3", "dark_khaki", "navajo_white3", "grey69", "gray69",
    "light_steel_blue3", "light_steel_blue", "yellow3", "dark_sea_green2", "light_cyan3",
    "light_sky_blue1", "green_yellow", "dark_olive_green2", "dark_sea_green1", "pale_turquoise1",
    "deep_pink3", "magenta2", "hot_pink2", "orchid", "medium_orchid1", "orange3", "light_pink3",
    "pink3", "plum3", "violet", "light_goldenrod3", "tan", "misty_rose3", "thistle3", "plum2",
    "khaki3", "light_goldenrod2", "light_yellow3", "grey84", "gray84", "light_steel_blue1",
    "yellow2", "dark_olive_green1", "honeydew2", "light_cyan1", "red1", "deep_pink2",
    "deep_pink1", "magenta1", "orange_red1", "indian_red1", "hot_pink", "dark_orange", "salmon1",
    "light_coral", "pale_violet_red1", "orchid2", "orchid1", "orange1", "sandy_brown",
    "light_salmon1", "light_pink1", "pink1", "plum1", "gold1", "navajo_white1", "misty_rose1",
    "thistle1", "yellow1", "light_goldenrod1", "khaki1", "wheat1", "cornsilk1", "grey100",
    "gray100", "grey3", "gray3", "grey7", "gray7", "grey11", "gray11", "grey15", "gray15",
    "grey19", "gray19", "grey23", "gray23", "grey27", "gray27", "grey30", "gray30", "grey35",
    "gray35", "grey39", "gray39", "grey42", "gray42", "grey46", "gray46", "grey50", "gray50",
    "grey54", "gray54", "grey58", "gray58", "grey62", "gray62", "grey66", "gray66", "grey70",
    "gray70", "grey74", "gray74", "grey78", "gray78", "grey82", "gray82", "grey85", "gray85",
    "grey89", "gray89", "grey93", "gray93"]

/-- The text inside the brackets of a call such as `rgb(0,0,0)`. -/
def argument? (function : String) (w : List Char) : Option (List Char) :=
  match Text.dropStart? (function ++ "(").toList w with
  | none => none
  | some inside => if inside.getLast? == some ')' then some inside.dropLast else none

/-- The value of decimal digits of any script. -/
def digitsValue? (ds : List Char) : Option Nat :=
  (ds.mapM Text.decimalDigit?).map fun vs => vs.foldl (fun n v => 10 * n + v) 0

/-- The verdict on the three numbers of a colour. -/
def ofNumbers (inside : List Char) : Verdict :=
  if inside.isEmpty || inside.any fun c => c != ',' && (Text.decimalDigit? c).isNone then .unknown
  else
    let numbers := inside.splitOn ','
    if numbers.length != 3 then .unknown
    else if numbers.any List.isEmpty then .faulty
    else if numbers.all fun ds => (digitsValue? ds).any (· ≤ 255) then .known
    else .unknown

/-- The verdict on a word that must be a colour. -/
def colour (word : List Char) : Verdict :=
  let w := word.map lowerCase
  match argument? "rgb" w, argument? "color" w with
  | some inside, _ => ofNumbers inside
  | none, some ds =>
    let isNumber := !ds.isEmpty && ds.length ≤ 3 && ds.all Char.isDigit
    if isNumber && (digitsValue? ds).any (· ≤ 255) then .known else .unknown
  | none, none =>
    let isHex (c : Char) : Bool := c.isDigit || ('a' ≤ c && c ≤ 'f')
    if colourNames.contains (String.ofList w) then .known
    else if w.head? == some '#' && w.length == 7 && w.tail.all isHex then .known
    else .unknown

/-- Do the words lead to a colour of which a number is missing? -/
def isFaultyStyle : List (List Char) → Bool
  | [] => false
  | word :: rest =>
    let w := String.ofList (word.map lowerCase)
    if w == "on" then
      match rest with
      | [] => false
      | ground :: rest =>
        match colour ground with
        | .known => isFaultyStyle rest
        | .unknown => false
        | .faulty => true
    else if w == "not" then
      match rest with
      | [] => false
      | a :: rest => attributes.contains (String.ofList a) && isFaultyStyle rest
    else if w == "link" then
      match rest with
      | [] => false
      | _ :: rest => isFaultyStyle rest
    else if attributes.contains w then isFaultyStyle rest
    else
      match colour word with
      | .known => isFaultyStyle rest
      | .unknown => false
      | .faulty => true

/-- The words of a style. -/
def styleWords (cs : List Char) : List (List Char) :=
  (cs.splitOnP Text.isBlank).filter (!·.isEmpty)

/-- Is the style of a tag faulty? What stands behind an equals sign is read once more behind the
rest. -/
def isFaultyTag (inside : List Char) : Bool :=
  let name := inside.takeWhile (· != '=')
  isFaultyStyle (styleWords (if name.head? == some '/' then name.tail else name)) ||
    match inside.dropWhile (· != '=') with
    | [] => false
    | _ :: more => isFaultyStyle (styleWords (name.map lowerCase) ++ styleWords more)

/-- The insides of the tags of a text. -/
def tags (s : String) : List (List Char) :=
  (pieces s).filterMap fun p =>
    match p with
    | .tag inside => some inside
    | .text _ => none

/-- Does a tag keep the text from being printed? -/
def isFaulty (s : String) : Bool :=
  (tags s).any isFaultyTag

end Stencil.Console
