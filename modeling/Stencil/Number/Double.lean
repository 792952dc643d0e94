/-!
# Numbers of double precision

A finite double is a whole number of some power of two. Its text has the fewest digits that read
back as the same number, written out in full where the exponent is small.
-/

namespace Stencil.Double

/-- A finite double: `mantissa * 2 ^ exponent` with a sign. -/
structure Parts where
  negative : Bool
  mantissa : Nat
  exponent : Int
  deriving DecidableEq, Repr

/-- The parts of a number, unless it is infinite or none at all. -/
def parts? (x : Float) : Option Parts :=
  let bits := x.toBits.toNat
  let fraction : Nat := bits % Nat.pow 2 52
  let power : Nat := bits / Nat.pow 2 52 % Nat.pow 2 11
  let negative := bits / Nat.pow 2 63 == 1
  if power == 2047 then none
  else if power == 0 then some { negative, mantissa := fraction, exponent := -1074 }
  else some { negative, mantissa := fraction + Nat.pow 2 52, exponent := (power : Int) - 1075 }

/-- The whole number that the parts stand for, if they stand for one. -/
def Parts.toInt? (p : Parts) : Option Int :=
  let sign : Int := if p.negative then -1 else 1
  if 0 ≤ p.exponent then some (sign * (p.mantissa * Nat.pow 2 p.exponent.toNat : Nat))
  else
    let d := Nat.pow 2 (-p.exponent).toNat
    if p.mantissa % d == 0 then some (sign * (p.mantissa / d : Nat)) else none

/-- The whole number that a double is, if it is one. -/
def toInt? (x : Float) : Option Int :=
  (parts? x).bind Parts.toInt?

/-- The number of decimal digits. -/
def digitCount (n : Nat) : Nat :=
  (Nat.toDigits 10 n).length

/-- The double next to `digits * 10 ^ exponent`. Far out of range it is infinite or zero. -/
def ofDecimal (negative : Bool) (digits : Nat) (exponent : Int) : Float :=
  let size := exponent + digitCount digits
  let x : Float :=
    if digits == 0 || size < -400 then 0
    else if size > 400 then 1 / 0
    else Float.ofScientific digits (exponent < 0) exponent.natAbs
  if negative then -x else x

/-- The double next to a whole number. Of more than 64 binary digits the last one stands for those
behind it. -/
def ofNat (n : Nat) : Float :=
  let s := n.log2 - 63
  let top := n >>> s
  let rounded := if top <<< s == n then top else top ||| 1
  (UInt64.ofNat rounded).toFloat.scaleB s

/-- A row of digits `n` and its place: the number is `n * 10 ^ place`. -/
structure Decimal where
  digits : Nat
  place : Int
  deriving DecidableEq, Repr

/-- The power of ten of the leading digit of `m * 2 ^ q`. -/
def leadingPower (m : Nat) (q : Int) : Int :=
  let scaled := m * Nat.pow 10 400 * Nat.pow 2 q.toNat / Nat.pow 2 (-q).toNat
  (digitCount scaled : Int) - 401

/-- The decimal of `n` digits that is next to `m * 2 ^ q` among those that round to it, if any
does. -/
def nearest? (m : Nat) (q : Int) (n : Nat) : Option Decimal :=
  let place := leadingPower m q - n + 1
  let scale := Nat.pow 2 (q - 2).toNat * Nat.pow 10 (-place).toNat
  let unit := Nat.pow 2 (2 - q).toNat * Nat.pow 10 place.toNat
  let below := if m == Nat.pow 2 52 && q > -1074 then 1 else 2
  let low := (4 * m - below) * scale
  let high := (4 * m + 2) * scale
  let value := 4 * m * scale
  let reads (d : Nat) : Bool :=
    if m % 2 == 0 then low ≤ d * unit && d * unit ≤ high else low < d * unit && d * unit < high
  let d := value / unit
  let gapBelow := value - d * unit
  let gapAbove := (d + 1) * unit - value
  match reads d, reads (d + 1) with
  | false, false => none
  | true, false => some ⟨d, place⟩
  | false, true => some ⟨d + 1, place⟩
  | true, true =>
    if gapBelow < gapAbove || (gapBelow == gapAbove && d % 2 == 0) then some ⟨d, place⟩
    else some ⟨d + 1, place⟩

/-- The decimal with the fewest digits that reads back as `m * 2 ^ q`. -/
def shortest (m : Nat) (q : Int) : Decimal :=
  ((List.range 17).findSome? fun n => nearest? m q (n + 1)).getD ⟨0, 0⟩

/-- Digits without the zeros at their end. The fuel bounds their number. -/
def dropZeros : Nat → Decimal → Decimal
  | 0, d => d
  | fuel + 1, d =>
    if d.digits != 0 && d.digits % 10 == 0 then dropZeros fuel ⟨d.digits / 10, d.place + 1⟩ else d

/-- The text of an exponent: its sign and at least two digits. -/
def exponentText (e : Int) : String :=
  let ds := toString e.natAbs
  "e" ++ (if e < 0 then "-" else "+") ++ (if ds.length < 2 then "0" ++ ds else ds)

/-- The text of a decimal above zero. It is written out in full if the exponent of its leading digit
is at least -4 and below 16. -/
def Decimal.text (d : Decimal) : String :=
  let ds := Nat.toDigits 10 d.digits
  let power : Int := d.place + ds.length - 1
  if -4 ≤ power && power < 16 then
    if 0 ≤ d.place then String.ofList (ds ++ List.replicate d.place.toNat '0') ++ ".0"
    else if power < 0 then "0." ++ String.ofList (List.replicate (-power - 1).toNat '0' ++ ds)
    else
      let whole := (power + 1).toNat
      String.ofList (ds.take whole) ++ "." ++ String.ofList (ds.drop whole)
  else
    match ds with
    | [c] => String.ofList [c] ++ exponentText power
    | c :: cs => String.ofList (c :: '.' :: cs) ++ exponentText power
    | [] => ""

/-- The text of a double. -/
def text (x : Float) : String :=
  match parts? x with
  | none => if x.isNaN then "nan" else if x < 0 then "-inf" else "inf"
  | some p =>
    (if p.negative then "-" else "") ++
      if p.mantissa == 0 then "0.0"
      else (dropZeros 20 (shortest p.mantissa p.exponent)).text

end Stencil.Double
