import Stencil.Text.Quoted

/-!
# UTF-8

Texts as bytes and back. Decoding refuses whatever is not the encoding of a row of scalar values,
and says which bytes are to blame.
-/

namespace Stencil.Text

/-- The UTF-8 encoding of a character. -/
def encodeChar (c : Char) : List UInt8 :=
  let n := c.toNat
  let tail (k : Nat) : UInt8 := UInt8.ofNat (0x80 + n / Nat.pow 64 k % 64)
  if n < 0x80 then [UInt8.ofNat n]
  else if n < 0x800 then [UInt8.ofNat (0xC0 + n / 64), tail 0]
  else if n < 0x10000 then [UInt8.ofNat (0xE0 + n / Nat.pow 64 2), tail 1, tail 0]
  else [UInt8.ofNat (0xF0 + n / Nat.pow 64 3), tail 2, tail 1, tail 0]

/-- The UTF-8 encoding of a character list. -/
def encodeChars (cs : List Char) : List UInt8 :=
  cs.flatMap encodeChar

/-- The UTF-8 encoding of a text. -/
def encode (s : String) : List UInt8 :=
  encodeChars s.toList

/-- Why bytes are not UTF-8. -/
inductive DecodeFault where
  | invalidStart
  | invalidContinuation
  | unexpectedEnd
  deriving DecidableEq, Repr

/-- The words that report the fault. -/
def DecodeFault.reason : DecodeFault → String
  | .invalidStart => "invalid start byte"
  | .invalidContinuation => "invalid continuation byte"
  | .unexpectedEnd => "unexpected end of data"

/-- The bytes that cannot be decoded: where they start, the first of them, how many they are, and
what is wrong with them. -/
structure DecodeError where
  position : Nat
  byte : UInt8
  length : Nat
  fault : DecodeFault
  deriving DecidableEq, Repr

/-- The sentence that reports undecodable bytes. -/
def DecodeError.message (e : DecodeError) : String :=
  if e.length == 1 then
    let shown := String.ofList (hexDigits 2 e.byte.toNat)
    s!"'utf-8' codec can't decode byte 0x{shown} in position {e.position}: " ++ e.fault.reason
  else
    let last := e.position + e.length - 1
    s!"'utf-8' codec can't decode bytes in position {e.position}-{last}: " ++ e.fault.reason

/-- Is the byte one of those that follow the first byte of a character? -/
def isTail (b : UInt8) : Bool :=
  0x80 ≤ b.toNat && b.toNat < 0xC0

/-- The number of bytes of a character by its first byte, if that is one. -/
def sequenceLength (b : UInt8) : Option Nat :=
  let n := b.toNat
  if n < 0x80 then some 1
  else if n < 0xC2 then none
  else if n < 0xE0 then some 2
  else if n < 0xF0 then some 3
  else if n < 0xF5 then some 4
  else none

/-- May the second byte follow the first? Overlong forms, surrogates and numbers that are too large
are told by the second byte. -/
def isSecond (first second : UInt8) : Bool :=
  let a := first.toNat
  let b := second.toNat
  isTail second && (a != 0xE0 || 0xA0 ≤ b) && (a != 0xED || b < 0xA0) && (a != 0xF0 || 0x90 ≤ b) &&
    (a != 0xF4 || b < 0x90)

/-- The number of bytes after the first that continue its character, at most `limit`. -/
def continuation (first : UInt8) (limit : Nat) (rest : List UInt8) : Nat :=
  match rest with
  | [] => 0
  | b :: bs =>
    if limit == 0 || !isSecond first b then 0
    else 1 + ((bs.take (limit - 1)).takeWhile isTail).length

/-- The code point of a character of one to four bytes. -/
def codePoint (first : UInt8) (tail : List UInt8) : Nat :=
  let n := first.toNat
  let lead := if tail.isEmpty then n else if tail.length == 1 then n % 0x20
    else if tail.length == 2 then n % 0x10 else n % 8
  tail.foldl (fun acc b => 64 * acc + b.toNat % 64) lead

/-- Decodes from a position on. The fuel bounds the number of characters. -/
def decodeFrom (pos : Nat) : Nat → List UInt8 → Except DecodeError (List Char)
  | 0, _ => .ok []
  | _ + 1, [] => .ok []
  | fuel + 1, b :: bs =>
    match sequenceLength b with
    | none => .error { position := pos, byte := b, length := 1, fault := .invalidStart }
    | some len =>
      let got := continuation b (len - 1) bs
      if got + 1 == len then
        match decodeFrom (pos + len) fuel (bs.drop got) with
        | .error e => .error e
        | .ok cs => .ok (Char.ofNat (codePoint b (bs.take got)) :: cs)
      else
        let fault := if got == bs.length then .unexpectedEnd else .invalidContinuation
        .error { position := pos, byte := b, length := got + 1, fault }

/-- The text of some bytes. -/
def decode (bs : List UInt8) : Except DecodeError String :=
  (decodeFrom 0 bs.length bs).map String.ofList

/-- Line ends of every kind as line feeds. -/
def unifyLineEnds : List Char → List Char
  | '\r' :: '\n' :: cs => '\n' :: unifyLineEnds cs
  | '\r' :: cs => '\n' :: unifyLineEnds cs
  | c :: cs => c :: unifyLineEnds cs
  | [] => []

/-- The text of some bytes, with line feeds as its only line ends. -/
def decodeLines (bs : List UInt8) : Except DecodeError String :=
  (decode bs).map fun s => String.ofList (unifyLineEnds s.toList)

end Stencil.Text
