import Mathlib.Algebra.Group.Nat.Defs
import Stencil.Proofs.Text
import Stencil.Toml.Document
import Stencil.Toml.Quote

/-!
# Reading back TOML

What the reader of documents makes of the few kinds of lines that a payload has: empty lines, a
declaration of a table, and entries that set a name to a text. The main statements: a quoted text is
read back (`string_quoteChars`), and each kind of line takes a document one step further
(`Reads.blank`, `Reads.entry`, `Reads.declaration`).
-/

namespace Stencil.Toml

/-! ## Strings -/

/-- A digit is read back. -/
lemma hexValue?_upper : ∀ d < 16, hexValue? (Nat.digitChar d).toUpper = some d := by
  decide

/-- Digits are read one group after the other. -/
lemma hexNumber_add (w k acc : Nat) (cs : List Char) :
    hexNumber (w + k) acc cs = (hexNumber w acc cs).bind fun x => hexNumber k x.1 x.2 := by
  induction w generalizing acc cs with
  | zero => simp [hexNumber]
  | succ w ih =>
    rw [Nat.add_right_comm]
    cases cs with
    | nil => rfl
    | cons c cs =>
      rw [hexNumber, hexNumber]
      cases hexValue? c with
      | none => rfl
      | some d => exact ih _ _

/-- The digits of a number are read back as the number. -/
lemma hexNumber_upperHex (w n acc : Nat) (rest : List Char) :
    hexNumber w acc (upperHex w n ++ rest) = some (acc * 16 ^ w + n % 16 ^ w, rest) := by
  induction w generalizing n rest with
  | zero => simp [hexNumber, upperHex, Nat.mod_one]
  | succ w ih =>
    rw [upperHex, List.append_assoc, hexNumber_add, ih, Option.bind_some]
    simp only [List.singleton_append, hexNumber, hexValue?_upper (n % 16) (Nat.mod_lt _ (by omega)),
      Option.some.injEq, Prod.mk.injEq, and_true]
    have h := Nat.mod_mul_right_div_self n 16 (16 ^ w)
    have h' := Nat.div_add_mod (n % (16 * 16 ^ w)) 16
    rw [h, Nat.mod_mul_right_mod] at h'
    rw [Nat.pow_succ', ← h', Nat.mul_add, ← Nat.mul_assoc, Nat.mul_comm 16 acc, Nat.mul_assoc]
    omega

/-- A character below the surrogates is a scalar value. -/
lemma scalar?_toNat {c : Char} (h : c.toNat < 0xD800) : scalar? c.toNat = some c := by
  simp [scalar?, h, Char.ofNat_toNat]

/-- The reader of strings at one written character. -/
lemma basicString_quoteChar (fuel : Nat) (c : Char) (rest : List Char) :
    basicString (fuel + 1) (quoteChar c ++ rest) =
      (basicString fuel rest).map fun x => (c :: x.1, x.2) := by
  unfold quoteChar
  split
  · rename_i h
    rw [beq_iff_eq] at h
    subst h
    simp [basicString, escape, letterEscape?]
  · rename_i hq
    split
    · rename_i h
      have hlt : c.toNat < 0x80 := by
        simp only [Bool.or_eq_true, beq_iff_eq, decide_eq_true_eq] at h
        rcases h with (rfl | h) | h
        · decide
        · omega
        · omega
      have hex : hexNumber 4 0 (upperHex 4 c.toNat ++ rest) = some (c.toNat, rest) := by
        rw [hexNumber_upperHex, Nat.zero_mul, Nat.zero_add, Nat.mod_eq_of_lt (by omega)]
      simp [basicString, escape, hexEscape, hex, scalar?_toNat (c := c) (by omega)]
    · rename_i h
      simp only [Bool.or_eq_true, not_or, Bool.not_eq_true, beq_eq_false_iff_ne,
        decide_eq_false_iff_not] at h hq
      obtain ⟨⟨hb, hl⟩, hd⟩ := h
      have hctl : isControl c = false := by simp [isControl, hl, hd]
      simp [basicString, hq, hb, hctl]

/-- A written text is read back up to its closing quote. -/
lemma basicString_flatMap {fuel : Nat} {cs : List Char} (h : cs.length < fuel) (rest : List Char) :
    basicString fuel (cs.flatMap quoteChar ++ '\x22' :: rest) = some (cs, rest) := by
  induction cs generalizing fuel with
  | nil =>
    obtain ⟨f, rfl⟩ := Nat.exists_eq_add_one_of_ne_zero (by omega : fuel ≠ 0)
    simp [basicString]
  | cons c cs ih =>
    obtain ⟨f, rfl⟩ := Nat.exists_eq_add_one_of_ne_zero (by omega : fuel ≠ 0)
    rw [List.flatMap_cons, List.append_assoc, basicString_quoteChar, ih (by simpa using h)]
    rfl

/-- A character is written with at least one character. -/
lemma length_quoteChar_pos (c : Char) : 0 < (quoteChar c).length := by
  unfold quoteChar
  split
  · simp
  · split <;> simp

/-- A text is not written with fewer characters than it has. -/
lemma length_le_flatMap_quoteChar (cs : List Char) : cs.length ≤ (cs.flatMap quoteChar).length := by
  induction cs with
  | nil => simp
  | cons c cs ih =>
    have := length_quoteChar_pos c
    rw [List.flatMap_cons, List.length_append, List.length_cons]
    omega

/-- What is written for a character does not start with a quote. -/
lemma head?_quoteChar (c : Char) : (quoteChar c).head? ≠ some '\x22' := by
  unfold quoteChar
  split
  · simp
  · rename_i h
    split
    · simp
    · simpa using h

/-- A quoted text does not start with three quotes, so it is no text over several lines. -/
lemma not_long {cs rest r : List Char} {d : Char} (hd : d ≠ '\x22') :
    cs.flatMap quoteChar ++ '\x22' :: d :: rest ≠ '\x22' :: '\x22' :: r := by
  cases cs with
  | nil => simp [hd]
  | cons c cs =>
    intro h
    have hc := head?_quoteChar c
    rw [List.flatMap_cons, List.append_assoc] at h
    cases hq : quoteChar c with
    | nil => exact absurd (length_quoteChar_pos c) (by simp [hq])
    | cons e es =>
      rw [hq, List.cons_append, List.cons.injEq] at h
      rw [hq] at hc
      exact hc (by simp [h.1])

/-- A quoted text is read back. -/
lemma string_quoteChars (cs : List Char) {d : Char} (hd : d ≠ '\x22') (rest : List Char) :
    string (quoteChars cs ++ d :: rest) = some (String.ofList cs, d :: rest) := by
  have hlen := length_le_flatMap_quoteChar cs
  have e :
      quoteChars cs ++ d :: rest = '\x22' :: (cs.flatMap quoteChar ++ '\x22' :: d :: rest) := by
    simp [quoteChars]
  rw [e, string]
  · rw [basicString_flatMap (by rw [List.length_append]; omega)]
    rfl
  · exact fun r h => not_long hd h

/-! ## Keys -/

/-- The characters of names may stand in keys without quotes. -/
lemma isBareKey_of_isPart {c : Char} (h : Name.isPart c = true) : isBareKey c = true := by
  simp only [Name.isPart, Name.isStart, Bool.or_eq_true] at h
  simp only [isBareKey, Bool.or_eq_true]
  tauto

/-- The characters of names are no blanks. -/
lemma isSpace_of_isPart {c : Char} (h : Name.isPart c = true) : isSpace c = false := by
  have h₁ := Name.ne_of_isPart h (d := ' ') (by decide)
  have h₂ := Name.ne_of_isPart h (d := '\t') (by decide)
  simp [isSpace, h₁, h₂]

/-- Nothing is skipped before a character that is no blank. -/
lemma skipSpaces_cons {c : Char} (h : isSpace c = false) (cs : List Char) :
    skipSpaces (c :: cs) = c :: cs := by
  simp [skipSpaces, h]

/-- Nothing is skipped before a name. -/
lemma skipSpaces_name {n : List Char} (h : Name.faultOf n = none) (rest : List Char) :
    skipSpaces (n ++ rest) = n ++ rest := by
  obtain ⟨c, r, rfl, hs, _⟩ := Name.faultOf_eq_none.mp h
  exact skipSpaces_cons (isSpace_of_isPart (Name.isPart_of_isStart hs)) _

/-- A name before a character that ends it is read as a key of one part. -/
lemma key_name {fuel : Nat} (hf : fuel ≠ 0) {n : List Char} (h : Name.faultOf n = none) {d : Char}
    (hd : isBareKey d = false ∧ isSpace d = false ∧ d ≠ '.') (rest : List Char) :
    key fuel (n ++ d :: rest) = some ([String.ofList n], d :: rest) := by
  obtain ⟨f, rfl⟩ := Nat.exists_eq_add_one_of_ne_zero hf
  obtain ⟨hbare, hspace, hdot⟩ := hd
  have hall : ∀ c ∈ n, isBareKey c = true :=
    fun c hc => isBareKey_of_isPart (Name.isPart_of_mem h hc)
  have hpart : keyPart (n ++ d :: rest) = some (String.ofList n, d :: rest) := by
    obtain ⟨c, r, rfl, _⟩ := Name.faultOf_eq_none.mp h
    have hc := hall c (by simp)
    rw [List.cons_append, keyPart]
    rw [if_pos hc, ← List.cons_append, List.takeWhile_append_of_pos hall,
      List.dropWhile_append_of_pos hall]
    simp [hbare]
  simp only [key, hpart, skipSpaces_cons hspace]
  split
  · rename_i he
    exact absurd (List.cons.inj he).1 hdot
  · rfl

/-! ## Lines -/

namespace Document

/-- Reading the lines takes the first document to the second. -/
def Reads (d : Document) (cs : List Char) (d' : Document) : Prop :=
  ∀ fuel, cs.length < fuel → lines fuel d cs = some d'

/-- There is nothing left to read. -/
lemma Reads.done (d : Document) : Reads d [] d := by
  intro fuel h
  obtain ⟨f, rfl⟩ := Nat.exists_eq_add_one_of_ne_zero (by omega : fuel ≠ 0)
  simp [lines, skipSpaces]

/-- An empty line changes nothing. -/
lemma Reads.blank {d d' : Document} {rest : List Char} (h : Reads d rest d') :
    Reads d ('\n' :: rest) d' := by
  intro fuel hf
  obtain ⟨f, rfl⟩ := Nat.exists_eq_add_one_of_ne_zero (by omega : fuel ≠ 0)
  rw [lines, skipSpaces_cons (by decide)]
  exact h f (by simpa using hf)

/-- A statement up to the end of its line, and the lines after it. -/
lemma Reads.statement {d d₁ d' : Document} {c : Char} {cs rest : List Char} (hc : isSpace c = false)
    (hn : c ≠ '\n') (hh : c ≠ '#')
    (hs : d.statement (c :: cs) = some (d₁, '\n' :: rest)) (hlen : rest.length < cs.length)
    (h : Reads d₁ rest d') : Reads d (c :: cs) d' := by
  intro fuel hf
  obtain ⟨f, rfl⟩ := Nat.exists_eq_add_one_of_ne_zero (by omega : fuel ≠ 0)
  rw [lines, skipSpaces_cons hc]
  · have he : (c == '#') = false := beq_eq_false_iff_ne.mpr hh
    simp only [he, Bool.false_eq_true, if_false, hs, skipSpaces_cons (c := '\n') (by decide)]
    rw [skipComment]
    · refine h f ?_
      rw [List.length_cons] at hf
      omega
    · simp

/-- The statement that sets a name to a text. -/
lemma statement_entry (d : Document) {n : List Char} (v rest : List Char)
    (hn : Name.faultOf n = none) :
    d.statement (n ++ '=' :: (quoteChars v ++ '\n' :: rest)) =
      (d.addEntry [String.ofList n] (.text (String.ofList v))).map (·, '\n' :: rest) := by
  have hkey :=
    key_name (by simp : (n ++ '=' :: (quoteChars v ++ '\n' :: rest)).length ≠ 0) hn (d := '=')
    (by decide) (quoteChars v ++ '\n' :: rest)
  have hstring := string_quoteChars v (d := '\n') (by decide) rest
  have hvalue : value ((quoteChars v ++ '\n' :: rest).length + 1)
      (skipSpaces (quoteChars v ++ '\n' :: rest)) =
        some (.text (String.ofList v), '\n' :: rest) := by
    have e : quoteChars v ++ '\n' :: rest =
        '\x22' :: (v.flatMap quoteChar ++ '\x22' :: '\n' :: rest) := by
      simp [quoteChars]
    rw [e] at hstring ⊢
    rw [skipSpaces_cons (by decide), value, hstring]
    rfl
  obtain ⟨c, r, rfl, hs, _⟩ := Name.faultOf_eq_none.mp hn
  have hbracket : c ≠ '[' := Name.ne_of_isPart (Name.isPart_of_isStart hs) (by decide)
  rw [List.cons_append] at hkey ⊢
  rw [Document.statement]
  · rw [hkey]
    simp only [hvalue]
  · exact fun r' he => absurd (List.cons.inj he).1 hbracket
  · exact fun r' he => absurd (List.cons.inj he).1 hbracket

/-- The statement that declares a table. -/
lemma statement_declaration (d : Document) {n : List Char} (rest : List Char)
    (hn : Name.faultOf n = none) :
    d.statement ('[' :: (n ++ ']' :: '\n' :: rest)) =
      (d.openTable [String.ofList n]).map (·, '\n' :: rest) := by
  have hkey := key_name (by simp : (n ++ ']' :: '\n' :: rest).length ≠ 0) hn (d := ']')
    (by decide) ('\n' :: rest)
  rw [Document.statement]
  · rw [skipSpaces_name hn, hkey]
    rfl
  · intro r he
    obtain ⟨c, r', rfl, hs, _⟩ := Name.faultOf_eq_none.mp hn
    exact Name.ne_of_isPart (Name.isPart_of_isStart hs) (by decide) (List.cons.inj he).1

/-- A line that sets a name to a text adds an entry. -/
lemma Reads.entry {d d₁ d' : Document} {n v rest : List Char} (hn : Name.faultOf n = none)
    (hadd : d.addEntry [String.ofList n] (.text (String.ofList v)) = some d₁)
    (h : Reads d₁ rest d') :
    Reads d (n ++ '=' :: (quoteChars v ++ '\n' :: rest)) d' := by
  have hstatement := statement_entry d v rest hn
  obtain ⟨c, r, rfl, hs, _⟩ := Name.faultOf_eq_none.mp hn
  have hpart := Name.isPart_of_isStart hs
  have hne {e : Char} (he : Name.isPart e = false) : c ≠ e := Name.ne_of_isPart hpart he
  rw [hadd, Option.map_some, List.cons_append] at hstatement
  rw [List.cons_append]
  refine Reads.statement (isSpace_of_isPart hpart) (hne (by decide)) (hne (by decide))
    hstatement ?_ h
  simp only [List.length_append, List.length_cons]
  omega

/-- A line that declares a table opens it. -/
lemma Reads.declaration {d d₁ d' : Document} {n rest : List Char} (hn : Name.faultOf n = none)
    (hopen : d.openTable [String.ofList n] = some d₁) (h : Reads d₁ rest d') :
    Reads d ('[' :: (n ++ ']' :: '\n' :: rest)) d' := by
  have hstatement := statement_declaration d rest hn
  rw [hopen, Option.map_some] at hstatement
  refine Reads.statement (by decide) (by decide) (by decide) hstatement ?_ h
  simp only [List.length_append, List.length_cons]
  omega

end Document

end Stencil.Toml
