import Stencil.Shell.Syntax

/-!
# Printing

What the printing commands write. `echo` joins its arguments with blanks and expands escapes; a
first argument of `-n` leaves the line end out, and the escape `\c` ends the output.
-/

namespace Stencil.Shell

/-- The escapes of one letter. -/
def letterEscape? (c : Char) : Option Char :=
  [('\\', 0x5C), ('a', 0x07), ('b', 0x08), ('e', 0x1B), ('f', 0x0C), ('n', 0x0A), ('r', 0x0D),
    ('t', 0x09), ('v', 0x0B)].lookup c |>.map Char.ofNat

/-- Is the character an octal digit? -/
def isOctal (c : Char) : Bool :=
  '0' ≤ c && c ≤ '7'

/-- The byte that up to three octal digits stand for. -/
def octalByte (ds : List Char) : Char :=
  Char.ofNat (ds.foldl (fun n d => 8 * n + (d.toNat - '0'.toNat)) 0 % 256)

/-- Reads an escape after its backslash. Without one there, the backslash stands for itself. -/
def escapeSequence (cs : List Char) : Char × List Char :=
  let ds := (cs.take 3).takeWhile isOctal
  if !ds.isEmpty then (octalByte ds, cs.drop ds.length)
  else
    match cs with
    | c :: rest =>
      match letterEscape? c with
      | some d => (d, rest)
      | none => ('\\', cs)
    | [] => ('\\', [])

/-- Expands the escapes of an argument. A zero may stand before octal digits. Tells also whether the
output goes on after it. -/
def expandEscapes : Nat → List Char → List Char × Bool
  | 0, _ => ([], true)
  | _ + 1, [] => ([], true)
  | fuel + 1, c :: cs =>
    if c != '\\' then
      let (out, more) := expandEscapes fuel cs
      (c :: out, more)
    else
      match cs with
      | 'c' :: _ => ([], false)
      | cs =>
        let cs' :=
          match cs with
          | '0' :: d :: rest => if isOctal d then d :: rest else cs
          | cs => cs
        let (d, rest) := escapeSequence cs'
        let (out, more) := expandEscapes fuel rest
        (d :: out, more)

/-- An argument with its escapes expanded. -/
def expanded (arg : List Char) : List Char × Bool :=
  expandEscapes (arg.length + 1) arg

/-- Prints arguments with blanks between them and a line end if it is wanted. -/
def echoFrom (lineEnd : Bool) : List (List Char) → List Char
  | [] => if lineEnd then ['\n'] else []
  | arg :: args =>
    match expanded arg with
    | (out, false) => out
    | (out, true) =>
      if args.isEmpty then out ++ (if lineEnd then ['\n'] else [])
      else out ++ ' ' :: echoFrom lineEnd args

/-- What `echo` writes. -/
def echo : List (List Char) → List Char
  | ['-', 'n'] :: args => echoFrom false args
  | args => echoFrom true args

/-! ## Formats -/

/-- A whole number at the start of an argument, and whether that is all of it. -/
def leadingInt (arg : List Char) : Int × Bool :=
  let cs := arg.dropWhile fun c => c == ' ' || c == '\t' || c == '\n'
  match cs with
  | '\x27' :: c :: _ | '\x22' :: c :: _ => (c.toNat, true)
  | cs =>
    let (negative, ds) :=
      match cs with
      | '-' :: rest => (true, rest)
      | '+' :: rest => (false, rest)
      | cs => (false, cs)
    let hex := ds.take 2 == ['0', 'x']
    let isDigitHere (c : Char) : Bool :=
      if hex then isDigit c || ('a' ≤ c && c ≤ 'f') || ('A' ≤ c && c ≤ 'F')
      else if ds.head? == some '0' then isOctal c
      else isDigit c
    let base := if hex then 16 else if ds.head? == some '0' then 8 else 10
    let body := if hex then ds.drop 2 else ds
    let run := body.takeWhile isDigitHere
    let value := run.foldl (fun n c =>
      base * n + (if isDigit c then c.toNat - '0'.toNat else c.toLower.toNat - 'a'.toNat + 10)) 0
    let n : Int := if negative then -(value : Int) else value
    (n, (body.drop run.length).isEmpty && !(arg.isEmpty))

/-- Pads a text to a width. -/
def padTo (width : Nat) (left zero : Bool) (text : List Char) : List Char :=
  let gap := width - text.length
  if left then text ++ List.replicate gap ' '
  else if zero then
    match text with
    | '-' :: ds => '-' :: List.replicate gap '0' ++ ds
    | ds => List.replicate gap '0' ++ ds
  else List.replicate gap ' ' ++ text

/-- A conversion of a format: its flags, width, precision and letter. -/
structure Conversion where
  flags : List Char
  width : Nat
  precision : Option Nat
  letter : Char

/-- Reads a conversion after its percent sign. -/
def conversion? (cs : List Char) : Option (Conversion × List Char) :=
  let flags := cs.takeWhile "#-+ 0".toList.contains
  let cs := cs.drop flags.length
  let width := cs.takeWhile isDigit
  let cs := cs.drop width.length
  let (precision, cs) :=
    match cs with
    | '.' :: rest =>
      let ds := rest.takeWhile isDigit
      (some (digitsValue ds), rest.drop ds.length)
    | cs => (none, cs)
  match cs with
  | [] => none
  | letter :: rest => some ({ flags, width := digitsValue width, precision, letter }, rest)

/-- What a format prints: the text, whether it goes on, and what it complains about. -/
structure Printed where
  text : List Char
  goesOn : Bool := true
  complaints : List String := []
  failed : Bool := false

/-- The text of a converted argument. -/
def convert (c : Conversion) (arg : List Char) : Printed :=
  let place (isNumber : Bool) (text : List Char) : List Char :=
    padTo c.width (c.flags.contains '-') (isNumber && c.flags.contains '0') text
  let cut (text : List Char) : List Char := (c.precision.map text.take).getD text
  let number (digits : Int → List Char) : Printed :=
    let (n, isAll) := leadingInt arg
    { text := place true (digits n)
      complaints :=
        if isAll || arg.isEmpty then []
        else
          let started := (arg.head?.any isDigit) || (arg.head? == some '-' && n != 0)
          [String.ofList arg ++ ": " ++ (if started then "not completely converted" else
            "expected numeric value")] }
  let unsigned (n : Int) : Nat := if n < 0 then (Int.pow 2 64 + n).toNat else n.toNat
  match c.letter with
  | 's' => { text := place false (cut arg) }
  | 'c' => { text := place false (arg.take 1) }
  | 'b' =>
    let (out, more) := expanded arg
    { text := place false (cut out), goesOn := more }
  | 'd' | 'i' => number fun n => (toString n).toList
  | 'u' => number fun n => (toString (unsigned n)).toList
  | 'x' => number fun n => Nat.toDigits 16 (unsigned n)
  | 'X' => number fun n => (Nat.toDigits 16 (unsigned n)).map Char.toUpper
  | 'o' => number fun n => Nat.toDigits 8 (unsigned n)
  | l =>
    { text := [], goesOn := false, failed := true,
      complaints := ["%" ++ l.toString ++ ": invalid directive"] }

/-- One pass through a format. Gives also the arguments that are left. -/
def formatOnce : Nat → List Char → List (List Char) → Printed × List (List Char)
  | 0, _, args => ({ text := [] }, args)
  | _ + 1, [], args => ({ text := [] }, args)
  | fuel + 1, c :: cs, args =>
    let put (out : List Char) (r : Printed × List (List Char)) : Printed × List (List Char) :=
      ({ r.1 with text := out ++ r.1.text }, r.2)
    if c == '\\' then
      let (d, rest) := escapeSequence cs
      put [d] (formatOnce fuel rest args)
    else if c != '%' then put [c] (formatOnce fuel cs args)
    else if cs.head? == some '%' then put ['%'] (formatOnce fuel cs.tail args)
    else
      match conversion? cs with
      | none =>
        ({ text := [], goesOn := false, failed := true,
           complaints := ["missing format character"] }, args)
      | some (conv, rest) =>
        let p := convert conv (args.head?.getD [])
        if p.goesOn then
          let (q, left) := formatOnce fuel rest args.tail
          ({ q with text := p.text ++ q.text, complaints := p.complaints ++ q.complaints }, left)
        else (p, args.tail)

/-- Uses a format until the arguments are used up. -/
def formatAll (format : List Char) : Nat → List (List Char) → Printed
  | 0, _ => { text := [] }
  | fuel + 1, args =>
    let (p, left) := formatOnce (format.length + 1) format args
    if !p.goesOn || left.isEmpty || left.length == args.length then p
    else
      let q := formatAll format fuel left
      { q with text := p.text ++ q.text, complaints := p.complaints ++ q.complaints }

end Stencil.Shell
