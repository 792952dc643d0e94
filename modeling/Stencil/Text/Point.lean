import Stencil.Text.Utf8

/-!
# Code points

An argument of a program is a row of bytes, and not every row is a text. A byte that is no part of
one counts as half of a surrogate pair. Such a half has no encoding: `Points.encode` fails at the
first.
-/

namespace Stencil.Text

/-- A character, or half of a surrogate pair that stands alone. -/
inductive Point where
  | char (c : Char)
  | half (n : Fin 2048)
  deriving DecidableEq, Repr, Inhabited

/-- A text in which halves of characters may stand. -/
abbrev Points := List Point

/-- Halves that cannot be encoded: where they start, the first of them and how many they are. -/
structure EncodeError where
  position : Nat
  half : Fin 2048
  length : Nat
  deriving DecidableEq, Repr

/-- The sentence that reports halves without an encoding. -/
def EncodeError.message (e : EncodeError) : String :=
  let which :=
    if e.length == 1 then
      let shown := String.ofList (hexDigits 4 (0xD800 + e.half.val))
      s!"character '\\u{shown}' in position {e.position}"
    else
      let last := e.position + e.length - 1
      s!"characters in position {e.position}-{last}"
  s!"'utf-8' codec can't encode {which}: surrogates not allowed"

/-- Is the point half of a character? -/
def Point.isHalf : Point → Bool
  | .char _ => false
  | .half _ => true

namespace Points

/-- A text as it is. -/
def ofString (s : String) : Points :=
  s.toList.map .char

instance : Coe String Points := ⟨ofString⟩

/-- The UTF-8 encoding of code points, the first of which stands at the given place. -/
def encodeFrom (position : Nat) : Points → Except EncodeError (List UInt8)
  | [] => .ok []
  | .char c :: ps => (encodeFrom (position + 1) ps).map (encodeChar c ++ ·)
  | .half n :: ps =>
    .error { position, half := n, length := (ps.takeWhile Point.isHalf).length + 1 }

/-- The UTF-8 encoding of code points. -/
def encode (ps : Points) : Except EncodeError (List UInt8) :=
  encodeFrom 0 ps

/-- A text has its own encoding. -/
@[simp]
theorem encode_ofString (s : String) : encode (ofString s) = .ok (Text.encode s) := by
  have hfrom (cs : List Char) (position : Nat) :
      encodeFrom position (cs.map .char) = .ok (encodeChars cs) := by
    induction cs generalizing position with
    | nil => rfl
    | cons c cs ih =>
      rw [List.map_cons, encodeFrom, ih]
      rfl
  exact hfrom s.toList 0

/-- The text with a character in place of each half. -/
def standIn (base : Nat) (ps : Points) : String :=
  String.ofList <| ps.map fun p =>
    match p with
    | .char c => c
    | .half n => Char.ofNat (base + n.val)

/-- The code points that two texts stand for in which the halves are replaced by characters from two
bases on: where the texts differ there is a half. -/
def ofStandIns (base : Nat) (first second : String) : Points :=
  List.zipWith (fun a b => if a == b then .char a else .half (Fin.ofNat 2048 (a.toNat - base)))
    first.toList second.toList

/-- In a text there is nothing to replace. -/
@[simp]
theorem standIn_ofString (base : Nat) (s : String) : standIn base (ofString s) = s := by
  simp [standIn, ofString, Function.comp_def]

/-- Two texts that agree stand for themselves. -/
@[simp]
theorem ofStandIns_self (base : Nat) (s : String) : ofStandIns base s s = ofString s := by
  simp [ofStandIns, ofString, List.zipWith_self]

end Points

end Stencil.Text
