import Stencil.Escape
import Stencil.Proofs.Text

/-!
# Text between double quotes

What a shell makes of the text between two double quotes. A backslash before one of the four special
characters gives that character, a name in braces behind a dollar is looked up, and every other
character stands for itself. A quote or backquote without a backslash before it ends the text or
starts a command, and a dollar without a name in braces is some other expansion, so none of them may
occur.

Main statements: escaped text reads as the text itself (`read_escapeChars_append`), a reference
reads as a look-up (`read_reference_append`), and escaping and unescaping undo each other on the
texts that escaping can write (`escape_inverse_iff_escaped`).
-/

namespace Stencil

namespace Escape

/-- Nothing is escaped as nothing. -/
@[simp]
lemma escapeChars_nil : escapeChars [] = [] :=
  rfl

/-- Characters are escaped one by one. -/
@[simp]
lemma escapeChars_cons (c : Char) (cs : List Char) :
    escapeChars (c :: cs) = escapeChar c ++ escapeChars cs :=
  rfl

/-- Texts are escaped one after the other. -/
@[simp]
lemma escapeChars_append (cs ds : List Char) :
    escapeChars (cs ++ ds) = escapeChars cs ++ escapeChars ds :=
  List.flatMap_append

/-- A special character is written with a backslash before it. -/
lemma escapeChar_of_special {c : Char} (h : isSpecial c = true) : escapeChar c = ['\\', c] := by
  simp [escapeChar, h]

/-- Any other character is written as it is. -/
lemma escapeChar_of_plain {c : Char} (h : isSpecial c = false) : escapeChar c = [c] := by
  simp [escapeChar, h]

/-- A character that is not special is no backslash. -/
lemma ne_backslash_of_plain {c : Char} (h : isSpecial c = false) : c ≠ '\\' := by
  rintro rfl
  simp [isSpecial] at h

/-- A text without special characters is written as it is. -/
lemma escapeChars_of_plain {cs : List Char} (h : ∀ c ∈ cs, isSpecial c = false) :
    escapeChars cs = cs := by
  induction cs with
  | nil => rfl
  | cons c cs ih =>
    rw [escapeChars_cons, escapeChar_of_plain (h c (by simp)), ih fun d hd => h d (by simp [hd])]
    rfl

/-- Escaping takes no character away. -/
lemma length_le_length_escapeChars (cs : List Char) : cs.length ≤ (escapeChars cs).length := by
  induction cs with
  | nil => exact Nat.le_refl 0
  | cons c cs ih =>
    have hpos : 0 < (escapeChar c).length := by
      unfold escapeChar
      split <;> simp
    rw [escapeChars_cons, List.length_append, List.length_cons]
    omega

/-- Unescaping takes a backslash before a special character away. -/
lemma unescapeChars_special {c : Char} (h : isSpecial c = true) (cs : List Char) :
    unescapeChars ('\\' :: c :: cs) = c :: unescapeChars cs := by
  simp [unescapeChars, h]

/-- Unescaping keeps a character that is not special. -/
lemma unescapeChars_plain {c : Char} (h : isSpecial c = false) (cs : List Char) :
    unescapeChars (c :: cs) = c :: unescapeChars cs := by
  have hb := ne_backslash_of_plain h
  cases cs with
  | nil => rfl
  | cons d r => simp [unescapeChars, hb]

/-- Unescaping undoes escaping, whatever follows. -/
lemma unescapeChars_escapeChars_append (cs ds : List Char) :
    unescapeChars (escapeChars cs ++ ds) = cs ++ unescapeChars ds := by
  induction cs with
  | nil => rfl
  | cons c cs ih =>
    rw [escapeChars_cons, List.append_assoc]
    cases hc : isSpecial c with
    | true =>
      rw [escapeChar_of_special hc, List.cons_append, List.singleton_append,
        unescapeChars_special hc, ih]
      rfl
    | false =>
      rw [escapeChar_of_plain hc, List.singleton_append, unescapeChars_plain hc, ih]
      rfl

/-- Unescaping undoes escaping. -/
lemma unescape_escape (s : String) : unescape (escape s) = s := by
  have h := unescapeChars_escapeChars_append s.toList []
  simp only [List.append_nil] at h
  simp [unescape, escape, h, unescapeChars]

/-- A row of characters other than quote, dollar, backquote and backslash, and of these four with a
backslash before each. -/
inductive Escaped : List Char → Prop
  | nil : Escaped []
  | plain {c : Char} {cs : List Char} : c ∉ ['\x22', '$', '\x60', '\\'] → Escaped cs →
    Escaped (c :: cs)
  | special {c : Char} {cs : List Char} : c ∈ ['\x22', '$', '\x60', '\\'] → Escaped cs →
    Escaped ('\\' :: c :: cs)

/-- Four characters are special. -/
lemma isSpecial_iff {c : Char} : isSpecial c = true ↔ c ∈ ['\x22', '$', '\x60', '\\'] := by
  simp [isSpecial, or_assoc]

/-- All but four characters are not special. -/
lemma isSpecial_eq_false_iff {c : Char} :
    isSpecial c = false ↔ c ∉ ['\x22', '$', '\x60', '\\'] := by
  rw [← isSpecial_iff, Bool.not_eq_true]

/-- What escaping writes is such a row. -/
lemma escaped_escapeChars (cs : List Char) : Escaped (escapeChars cs) := by
  induction cs with
  | nil => exact .nil
  | cons c cs ih =>
    rw [escapeChars_cons]
    cases hc : isSpecial c with
    | true =>
      rw [escapeChar_of_special hc]
      exact .special (isSpecial_iff.mp hc) ih
    | false =>
      rw [escapeChar_of_plain hc]
      exact .plain (isSpecial_eq_false_iff.mp hc) ih

/-- Escaping puts the backslashes of such a row back. -/
lemma Escaped.escapeChars_unescapeChars {cs : List Char} (h : Escaped cs) :
    escapeChars (unescapeChars cs) = cs := by
  induction h with
  | nil => rfl
  | plain hmem _ ih =>
    have hc := isSpecial_eq_false_iff.mpr hmem
    rw [unescapeChars_plain hc, escapeChars_cons, ih, escapeChar_of_plain hc]
    rfl
  | special hmem _ ih =>
    have hc := isSpecial_iff.mpr hmem
    rw [unescapeChars_special hc, escapeChars_cons, ih, escapeChar_of_special hc]
    rfl

/-- Two texts are escaped one after the other. -/
lemma escape_append (s t : String) : escape (s ++ t) = escape s ++ escape t := by
  simp only [escape, String.toList_append, escapeChars_append, String.ofList_append]

/-- Unescaping undoes escaping, escaping undoes unescaping for the texts that escaping can write and
for no others, and texts may be escaped piece by piece. -/
theorem escape_inverse_iff_escaped :
    (∀ s, unescape (escape s) = s) ∧ (∀ s, escape (unescape s) = s ↔ Escaped s.toList) ∧
      ∀ s t, escape (s ++ t) = escape s ++ escape t := by
  refine ⟨unescape_escape, fun s => ⟨fun h => ?_, fun h => ?_⟩, escape_append⟩
  · have hchars : escapeChars (unescape s).toList = s.toList := by
      rw [← String.toList_ofList (l := escapeChars (unescape s).toList)]
      exact congrArg String.toList h
    rw [← hchars]
    exact escaped_escapeChars _
  · rw [escape, unescape, String.toList_ofList, h.escapeChars_unescapeChars, String.ofList_toList]

end Escape

namespace Quotation

/-- A piece of the text between double quotes. -/
inductive Piece where
  | char (c : Char)
  /-- A reference to a variable. -/
  | ref (name : List Char)
  deriving DecidableEq, Repr

/-- The start of a text as far as it may stand in a name. -/
def nameOf (cs : List Char) : List Char :=
  cs.takeWhile Name.isPart

/-- What follows the start of a text that may stand in a name. -/
def afterName (cs : List Char) : List Char :=
  cs.dropWhile Name.isPart

/-- What follows a name is no longer than the whole. -/
lemma length_afterName (cs : List Char) : (afterName cs).length ≤ cs.length :=
  (List.dropWhile_suffix _).length_le

/-- Reads the text between double quotes. There is no reading if a special character stands in it
that is neither behind a backslash nor part of a complete reference. -/
def read : List Char → Option (List Piece)
  | [] => some []
  | '\\' :: c :: rest =>
    if Escape.isSpecial c then (read rest).map (.char c :: ·)
    else (read (c :: rest)).map (.char '\\' :: ·)
  | '$' :: '{' :: rest =>
    match _h : afterName rest with
    | '}' :: after =>
      if Name.faultOf (nameOf rest) = none then (read after).map (.ref (nameOf rest) :: ·) else none
    | _ => none
  | c :: rest =>
    if c == '\x22' || c == '$' || c == '\x60' then none else (read rest).map (.char c :: ·)
termination_by cs => cs.length
decreasing_by
  · simp only [List.length_cons]
    omega
  · simp
  · have := length_afterName rest
    rw [_h, List.length_cons] at this
    simp only [List.length_cons]
    omega
  · simp

/-- What a piece stands for. -/
def Piece.value (env : String → String) : Piece → List Char
  | .char c => [c]
  | .ref name => (env (String.ofList name)).toList

/-- Expands the text between double quotes where variables have the given values. -/
def expand (env : String → String) (text : String) : Option String :=
  (read text.toList).map fun ps => String.ofList (ps.flatMap (Piece.value env))

/-- The names that are looked up in the text between double quotes. -/
def references (text : String) : List String :=
  ((read text.toList).getD []).filterMap fun p =>
    match p with
    | .char _ => none
    | .ref name => some (String.ofList name)

/-- A special character behind a backslash stands for itself. -/
lemma read_escaped {c : Char} (hc : Escape.isSpecial c = true) (rest : List Char) :
    read ('\\' :: c :: rest) = (read rest).map (.char c :: ·) := by
  rw [read]
  simp [hc]

/-- A character that is not special stands for itself. -/
lemma read_plain {c : Char} (hc : Escape.isSpecial c = false) (rest : List Char) :
    read (c :: rest) = (read rest).map (.char c :: ·) := by
  have hc' := hc
  simp only [Escape.isSpecial, Bool.or_eq_false_iff, beq_eq_false_iff_ne] at hc'
  obtain ⟨⟨⟨hq, hd⟩, hb⟩, hs⟩ := hc'
  rw [read]
  · simp [hq, hd, hb]
  · exact fun d r h => absurd h hs
  · exact fun r h => absurd h hd

/-- Escaped text reads as the text itself. -/
lemma read_escapeChars_append (cs rest : List Char) :
    read (Escape.escapeChars cs ++ rest) = (read rest).map (cs.map .char ++ ·) := by
  induction cs with
  | nil => simp
  | cons c cs ih =>
    rw [Escape.escapeChars_cons, List.append_assoc]
    cases hc : Escape.isSpecial c with
    | true =>
      rw [Escape.escapeChar_of_special hc, List.cons_append, List.singleton_append, read_escaped hc,
        ih]
      simp [Function.comp_def]
    | false =>
      rw [Escape.escapeChar_of_plain hc, List.singleton_append, read_plain hc, ih]
      simp [Function.comp_def]

/-- Escaped text expands to the text itself, whatever the values of variables. -/
lemma expand_escape (env : String → String) (s : String) :
    expand env (Escape.escape s) = some s := by
  have h := read_escapeChars_append s.toList []
  rw [List.append_nil, read, Option.map_some, List.append_nil] at h
  rw [expand, Escape.escape, String.toList_ofList, h, Option.map_some, List.flatMap_map]
  simp [Piece.value]

/-- A name ends where a character follows that may not stand in it. -/
lemma nameOf_append {n : List Char} (hn : ∀ c ∈ n, Name.isPart c = true) {d : Char}
    (hd : Name.isPart d = false) (rest : List Char) : nameOf (n ++ d :: rest) = n := by
  unfold nameOf
  rw [List.takeWhile_append_of_pos hn, List.takeWhile_cons_of_neg (by simp [hd]), List.append_nil]

/-- What follows a name starts with the character that may not stand in it. -/
lemma afterName_append {n : List Char} (hn : ∀ c ∈ n, Name.isPart c = true) {d : Char}
    (hd : Name.isPart d = false) (rest : List Char) : afterName (n ++ d :: rest) = d :: rest := by
  unfold afterName
  rw [List.dropWhile_append_of_pos hn, List.dropWhile_cons_of_neg (by simp [hd])]

/-- A name in braces behind a dollar reads as a reference. -/
lemma read_reference_append {n : List Char} (hn : Name.faultOf n = none) (rest : List Char) :
    read (['$', '{'] ++ n ++ ['}'] ++ rest) = (read rest).map (.ref n :: ·) := by
  have hparts : ∀ c ∈ n, Name.isPart c = true := fun c hc => Name.isPart_of_mem hn hc
  have e₁ : nameOf (n ++ '}' :: rest) = n := nameOf_append hparts (by decide) rest
  have e₂ : afterName (n ++ '}' :: rest) = '}' :: rest := afterName_append hparts (by decide) rest
  rw [List.append_assoc, List.append_assoc, List.singleton_append, List.cons_append,
    List.singleton_append, read]
  split
  · rename_i after h
    rw [e₂] at h
    obtain ⟨_, rfl⟩ := List.cons.inj h
    rw [e₁, if_pos hn]
  · rename_i h
    exact absurd e₂ (h rest)

end Quotation

end Stencil
