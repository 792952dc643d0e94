import Mathlib.Data.Bool.AllAny
import Mathlib.Tactic.Common
import Stencil.Proofs.Quotation
import Stencil.Shell.Run

/-!
# Texts and their bytes

Decoding undoes encoding (`Text.decode_encode`), and bytes that are no encoding cannot be decoded
(`Text.encode_of_decode`). A shell sees a text as its bytes, each of which counts as a character:
`Shell.raw`. The characters that mean something to a shell are ASCII, so that view keeps them and
adds none (`Shell.mem_raw`).
-/

namespace Stencil

namespace Text

/-- Nothing is encoded as nothing. -/
@[simp]
lemma encodeChars_nil : encodeChars [] = [] :=
  rfl

/-- Characters are encoded one by one. -/
@[simp]
lemma encodeChars_cons (c : Char) (cs : List Char) :
    encodeChars (c :: cs) = encodeChar c ++ encodeChars cs :=
  rfl

/-- Texts are encoded one after the other. -/
@[simp]
lemma encodeChars_append (cs ds : List Char) :
    encodeChars (cs ++ ds) = encodeChars cs ++ encodeChars ds :=
  List.flatMap_append

/-- A number below 256 is a byte. -/
lemma toNat_byte {n : Nat} (h : n < 256) : (UInt8.ofNat n).toNat = n := by
  simp [Nat.mod_eq_of_lt h]

/-- The number of a character is no surrogate and not too large. -/
lemma toNat_range (c : Char) : c.toNat < 0xD800 ∨ 0xDFFF < c.toNat ∧ c.toNat < 0x110000 :=
  c.valid

/-- An ASCII character is one byte. -/
lemma encodeChar_ascii {c : Char} (h : c.toNat < 0x80) : encodeChar c = [UInt8.ofNat c.toNat] := by
  simp [encodeChar, h]

/-- No byte of another character is an ASCII character. -/
lemma le_of_mem_encodeChar {c : Char} (h : 0x80 ≤ c.toNat) {b : UInt8} (hb : b ∈ encodeChar c) :
    0x80 ≤ b.toNat := by
  have hn := toNat_range c
  unfold encodeChar at hb
  simp only [Nat.pow_eq, Nat.pow_zero, Nat.div_one] at hb
  rw [if_neg (by omega)] at hb
  split at hb
  · simp only [List.mem_cons, List.not_mem_nil, or_false] at hb
    rcases hb with rfl | rfl <;> rw [toNat_byte (by omega)] <;> omega
  · split at hb
    · simp only [List.mem_cons, List.not_mem_nil, or_false] at hb
      rcases hb with rfl | rfl | rfl <;> rw [toNat_byte (by omega)] <;> omega
    · simp only [List.mem_cons, List.not_mem_nil, or_false] at hb
      rcases hb with rfl | rfl | rfl | rfl <;> rw [toNat_byte (by omega)] <;> omega

/-- The bytes of a character continue its first byte as far as they should. -/
lemma continuation_append {b : UInt8} {tail : List UInt8}
    (hsecond : ∀ d ∈ tail.head?, isSecond b d = true) (htail : ∀ d ∈ tail, isTail d = true)
    (bs : List UInt8) :
    continuation b tail.length (tail ++ bs) = tail.length := by
  cases tail with
  | nil => cases bs <;> simp [continuation]
  | cons d ds =>
    have htake : ((ds ++ bs).take ds.length).takeWhile isTail = ds := by
      rw [List.take_left]
      exact List.takeWhile_eq_self_iff.mpr fun e he => htail e (by simp [he])
    simp only [List.cons_append, continuation, hsecond d (by simp), List.length_cons,
      Nat.add_sub_cancel, htake]
    simp [Nat.add_comm]

/-- Decodes a character whose bytes are well formed and hold its number. -/
lemma decodeFrom_append {c : Char} {b : UInt8} {tail : List UInt8}
    (hbytes : encodeChar c = b :: tail) (hlen : sequenceLength b = some (tail.length + 1))
    (hsecond : ∀ d ∈ tail.head?, isSecond b d = true) (htail : ∀ d ∈ tail, isTail d = true)
    (hpoint : codePoint b tail = c.toNat) (bs : List UInt8) (pos fuel : Nat) :
    decodeFrom pos (fuel + 1) (encodeChar c ++ bs) =
      (decodeFrom (pos + (encodeChar c).length) fuel bs).map (c :: ·) := by
  rw [hbytes, List.cons_append, decodeFrom]
  simp only [hlen, Nat.add_sub_cancel, continuation_append hsecond htail, beq_self_eq_true, if_true,
    List.drop_left, List.take_left, hpoint, Char.ofNat_toNat, List.length_cons]
  cases decodeFrom (pos + (tail.length + 1)) fuel bs <;> rfl

/-- Decoding undoes the encoding of the first character. -/
lemma decodeFrom_encodeChar_append (c : Char) (bs : List UInt8) (pos fuel : Nat) :
    decodeFrom pos (fuel + 1) (encodeChar c ++ bs) =
      (decodeFrom (pos + (encodeChar c).length) fuel bs).map (c :: ·) := by
  have hn := toNat_range c
  -- The first byte tells the length, and the others hold the last digits of the number in base 64.
  have h₀ : (UInt8.ofNat (0x80 + c.toNat % 64)).toNat = 0x80 + c.toNat % 64 := toNat_byte (by omega)
  have h₁ : (UInt8.ofNat (0x80 + c.toNat / 64 % 64)).toNat = 0x80 + c.toNat / 64 % 64 :=
    toNat_byte (by omega)
  have h₂ : (UInt8.ofNat (0x80 + c.toNat / 4096 % 64)).toNat = 0x80 + c.toNat / 4096 % 64 :=
    toNat_byte (by omega)
  by_cases hone : c.toNat < 0x80
  · have hb : (UInt8.ofNat c.toNat).toNat = c.toNat := toNat_byte (by omega)
    refine decodeFrom_append (encodeChar_ascii hone) ?_ (by simp) (by simp) hb bs pos fuel
    grind [sequenceLength]
  by_cases htwo : c.toNat < 0x800
  · have hb : (UInt8.ofNat (0xC0 + c.toNat / 64)).toNat = 0xC0 + c.toNat / 64 :=
      toNat_byte (by omega)
    have hbytes : encodeChar c =
        [UInt8.ofNat (0xC0 + c.toNat / 64), UInt8.ofNat (0x80 + c.toNat % 64)] := by
      simp only [encodeChar, if_neg hone, if_pos htwo, Nat.pow_eq, Nat.pow_zero, Nat.div_one]
    refine decodeFrom_append hbytes ?_ ?_ ?_ ?_ bs pos fuel
    · grind [sequenceLength]
    · grind [isSecond, isTail]
    · grind [isTail]
    · simp only [codePoint, List.isEmpty_cons, List.length_cons, List.foldl_cons, List.foldl_nil,
        hb, h₀]
      grind
  by_cases hthree : c.toNat < 0x10000
  · have hb : (UInt8.ofNat (0xE0 + c.toNat / 4096)).toNat = 0xE0 + c.toNat / 4096 :=
      toNat_byte (by omega)
    have hbytes : encodeChar c = [UInt8.ofNat (0xE0 + c.toNat / 4096),
        UInt8.ofNat (0x80 + c.toNat / 64 % 64), UInt8.ofNat (0x80 + c.toNat % 64)] := by
      simp only [encodeChar, if_neg hone, if_neg htwo, if_pos hthree, Nat.pow_eq, Nat.pow_zero,
        Nat.div_one, Nat.pow_one, Nat.reducePow]
    refine decodeFrom_append hbytes ?_ ?_ ?_ ?_ bs pos fuel
    · grind [sequenceLength]
    · grind [isSecond, isTail]
    · grind [isTail]
    · simp only [codePoint, List.isEmpty_cons, List.length_cons, List.foldl_cons, List.foldl_nil,
        hb, h₀, h₁]
      grind
  · have hb : (UInt8.ofNat (0xF0 + c.toNat / 262144)).toNat = 0xF0 + c.toNat / 262144 :=
      toNat_byte (by omega)
    have hbytes : encodeChar c = [UInt8.ofNat (0xF0 + c.toNat / 262144),
        UInt8.ofNat (0x80 + c.toNat / 4096 % 64), UInt8.ofNat (0x80 + c.toNat / 64 % 64),
        UInt8.ofNat (0x80 + c.toNat % 64)] := by
      simp only [encodeChar, if_neg hone, if_neg htwo, if_neg hthree, Nat.pow_eq, Nat.pow_zero,
        Nat.div_one, Nat.pow_one, Nat.reducePow]
    refine decodeFrom_append hbytes ?_ ?_ ?_ ?_ bs pos fuel
    · grind [sequenceLength]
    · grind [isSecond, isTail]
    · grind [isTail]
    · simp only [codePoint, List.isEmpty_cons, List.length_cons, List.foldl_cons, List.foldl_nil,
        hb, h₀, h₁, h₂]
      grind

/-- Each character is encoded as at least one byte. -/
lemma length_encodeChar_pos (c : Char) : 0 < (encodeChar c).length := by
  unfold encodeChar
  grind

/-- Decoding undoes encoding, given a step for each character. -/
lemma decodeFrom_encodeChars (cs : List Char) :
    ∀ pos fuel, cs.length ≤ fuel → decodeFrom pos fuel (encodeChars cs) = .ok cs := by
  induction cs with
  | nil => intro pos fuel _; cases fuel <;> rfl
  | cons c cs ih =>
    intro pos fuel hfuel
    obtain ⟨fuel, rfl⟩ := Nat.exists_eq_add_one_of_ne_zero (Nat.ne_of_gt (Nat.lt_of_lt_of_le
      (Nat.succ_pos cs.length) hfuel))
    rw [encodeChars_cons, decodeFrom_encodeChar_append, ih _ _ (Nat.le_of_succ_le_succ hfuel)]
    rfl

/-- There are no more characters than bytes. -/
lemma length_le_length_encodeChars (cs : List Char) : cs.length ≤ (encodeChars cs).length := by
  induction cs with
  | nil => exact Nat.le_refl 0
  | cons c cs ih =>
    have := length_encodeChar_pos c
    simp only [encodeChars_cons, List.length_append, List.length_cons]
    omega

/-- Decoding undoes encoding. -/
lemma decode_encode (s : String) : decode (encode s) = .ok s := by
  unfold decode encode
  rw [decodeFrom_encodeChars _ _ _ (length_le_length_encodeChars _)]
  exact congrArg _ String.ofList_toList

/-- Bytes that continue a first byte as far as they should. -/
lemma of_continuation {b : UInt8} {k : Nat} {bs : List UInt8} (h : continuation b k bs = k) :
    (bs.take k).length = k ∧ (∀ d ∈ (bs.take k).head?, isSecond b d = true) ∧
    ∀ d ∈ bs.take k, isTail d = true := by
  unfold continuation at h
  cases bs with
  | nil =>
    dsimp only at h
    subst h
    simp
  | cons d ds =>
    dsimp only at h
    split_ifs at h with hstop
    · subst h
      simp
    · obtain ⟨k, rfl⟩ : ∃ m, k = m + 1 :=
        Nat.exists_eq_succ_of_ne_zero (by rintro rfl; simp at hstop)
      have hsecond : isSecond b d = true := by simpa using hstop
      have htail : isTail d = true := by
        simp only [isSecond, Bool.and_eq_true] at hsecond
        exact hsecond.1.1.1.1
      have hlength : ((ds.take k).takeWhile isTail).length = k := by
        rw [Nat.add_sub_cancel] at h
        omega
      have hself : (ds.take k).takeWhile isTail = ds.take k := by
        refine List.IsPrefix.eq_of_length_le (List.takeWhile_prefix isTail) ?_
        rw [hlength]
        exact List.length_take_le k ds
      refine ⟨by rw [List.take_succ_cons, List.length_cons, ← hself, hlength], ?_, ?_⟩
      · rintro e ⟨⟩
        exact hsecond
      · intro e he
        rw [List.take_succ_cons] at he
        rcases List.mem_cons.mp he with rfl | he
        · exact htail
        · exact List.takeWhile_eq_self_iff.mp hself e he

/-- The number of the character of a number. -/
lemma toNat_ofNat {n : Nat} (h : n.isValidChar) : (Char.ofNat n).toNat = n := by
  rw [Char.ofNat, dif_pos h]
  rfl

/-- The bytes that a first byte and its continuation hold are those of its character. -/
lemma encodeChar_codePoint {b : UInt8} {tail : List UInt8}
    (hlen : sequenceLength b = some (tail.length + 1))
    (hsecond : ∀ d ∈ tail.head?, isSecond b d = true) (htail : ∀ d ∈ tail, isTail d = true) :
    encodeChar (Char.ofNat (codePoint b tail)) = b :: tail := by
  have hb := b.toNat_lt
  match tail with
  | [] =>
    have hpoint : codePoint b [] = b.toNat := rfl
    have hrange : b.toNat < 0x80 := by grind [sequenceLength]
    have hchar : (Char.ofNat (codePoint b [])).toNat = b.toNat := by
      rw [hpoint]
      exact toNat_ofNat (Or.inl (by omega))
    rw [encodeChar_ascii (by omega), hchar, UInt8.ofNat_toNat]
  | [d] =>
    have hrange : 0xC2 ≤ b.toNat ∧ b.toNat < 0xE0 := by grind [sequenceLength]
    have hd : 0x80 ≤ d.toNat ∧ d.toNat < 0xC0 := by simpa [isTail] using htail d (by simp)
    have hpoint : codePoint b [d] = 64 * (b.toNat - 0xC0) + (d.toNat - 0x80) := by
      simp only [codePoint, List.isEmpty_cons, List.length_cons, List.foldl_cons, List.foldl_nil]
      grind
    have hchar : (Char.ofNat (codePoint b [d])).toNat = codePoint b [d] :=
      toNat_ofNat (Or.inl (by omega))
    have h₀ : 0xC0 + codePoint b [d] / 64 = b.toNat := by omega
    have h₁ : 0x80 + codePoint b [d] % 64 = d.toNat := by omega
    simp only [encodeChar, hchar, if_neg (show ¬codePoint b [d] < 0x80 by omega),
      if_pos (show codePoint b [d] < 0x800 by omega), Nat.pow_eq, Nat.pow_zero, Nat.div_one, h₀, h₁,
      UInt8.ofNat_toNat]
  | [d, e] =>
    have hrange : 0xE0 ≤ b.toNat ∧ b.toNat < 0xF0 := by grind [sequenceLength]
    have hd : 0x80 ≤ d.toNat ∧ d.toNat < 0xC0 := by simpa [isTail] using htail d (by simp)
    have he : 0x80 ≤ e.toNat ∧ e.toNat < 0xC0 := by simpa [isTail] using htail e (by simp)
    have hfirst := hsecond d (by simp)
    have hlow : b.toNat = 0xE0 → 0xA0 ≤ d.toNat := by grind [isSecond]
    have hsurrogate : b.toNat = 0xED → d.toNat < 0xA0 := by grind [isSecond]
    have hpoint : codePoint b [d, e] =
        64 * (64 * (b.toNat - 0xE0) + (d.toNat - 0x80)) + (e.toNat - 0x80) := by
      simp only [codePoint, List.isEmpty_cons, List.length_cons, List.foldl_cons, List.foldl_nil]
      grind
    have hchar : (Char.ofNat (codePoint b [d, e])).toNat = codePoint b [d, e] := by
      refine toNat_ofNat ?_
      unfold Nat.isValidChar
      omega
    have h₀ : 0xE0 + codePoint b [d, e] / 4096 = b.toNat := by omega
    have h₁ : 0x80 + codePoint b [d, e] / 64 % 64 = d.toNat := by omega
    have h₂ : 0x80 + codePoint b [d, e] % 64 = e.toNat := by omega
    simp only [encodeChar, hchar, if_neg (show ¬codePoint b [d, e] < 0x80 by omega),
      if_neg (show ¬codePoint b [d, e] < 0x800 by omega),
      if_pos (show codePoint b [d, e] < 0x10000 by omega), Nat.pow_eq, Nat.pow_zero, Nat.div_one,
      Nat.pow_one, Nat.reducePow, h₀, h₁, h₂, UInt8.ofNat_toNat]
  | [d, e, f] =>
    have hrange : 0xF0 ≤ b.toNat ∧ b.toNat < 0xF5 := by grind [sequenceLength]
    have hd : 0x80 ≤ d.toNat ∧ d.toNat < 0xC0 := by simpa [isTail] using htail d (by simp)
    have he : 0x80 ≤ e.toNat ∧ e.toNat < 0xC0 := by simpa [isTail] using htail e (by simp)
    have hf : 0x80 ≤ f.toNat ∧ f.toNat < 0xC0 := by simpa [isTail] using htail f (by simp)
    have hfirst := hsecond d (by simp)
    have hlow : b.toNat = 0xF0 → 0x90 ≤ d.toNat := by grind [isSecond]
    have hhigh : b.toNat = 0xF4 → d.toNat < 0x90 := by grind [isSecond]
    have hpoint : codePoint b [d, e, f] =
        64 * (64 * (64 * (b.toNat - 0xF0) + (d.toNat - 0x80)) + (e.toNat - 0x80)) +
          (f.toNat - 0x80) := by
      simp only [codePoint, List.isEmpty_cons, List.length_cons, List.foldl_cons, List.foldl_nil]
      grind
    have hchar : (Char.ofNat (codePoint b [d, e, f])).toNat = codePoint b [d, e, f] := by
      refine toNat_ofNat ?_
      unfold Nat.isValidChar
      omega
    have h₀ : 0xF0 + codePoint b [d, e, f] / 262144 = b.toNat := by omega
    have h₁ : 0x80 + codePoint b [d, e, f] / 4096 % 64 = d.toNat := by omega
    have h₂ : 0x80 + codePoint b [d, e, f] / 64 % 64 = e.toNat := by omega
    have h₃ : 0x80 + codePoint b [d, e, f] % 64 = f.toNat := by omega
    simp only [encodeChar, hchar, if_neg (show ¬codePoint b [d, e, f] < 0x80 by omega),
      if_neg (show ¬codePoint b [d, e, f] < 0x800 by omega),
      if_neg (show ¬codePoint b [d, e, f] < 0x10000 by omega), Nat.pow_eq, Nat.pow_zero,
      Nat.div_one, Nat.pow_one, Nat.reducePow, h₀, h₁, h₂, h₃, UInt8.ofNat_toNat]
  | _ :: _ :: _ :: _ :: _ => grind [sequenceLength]

/-- Decoded bytes are those that their characters are encoded as. -/
lemma encodeChars_of_decodeFrom {bs : List UInt8} {cs : List Char} {pos fuel : Nat}
    (h : decodeFrom pos fuel bs = .ok cs) (hfuel : bs.length ≤ fuel) : encodeChars cs = bs := by
  induction fuel generalizing pos bs cs with
  | zero =>
    obtain rfl := List.eq_nil_of_length_eq_zero (Nat.le_zero.mp hfuel)
    cases h
    rfl
  | succ fuel ih =>
    cases bs with
    | nil =>
      cases h
      rfl
    | cons b bs =>
      rw [decodeFrom] at h
      split at h
      · cases h
      · rename_i len hlen
        dsimp only at h
        split_ifs at h with hgot
        split at h
        · cases h
        · rename_i cs hrest
          cases h
          obtain ⟨got, rfl⟩ : ∃ got, len = got + 1 := ⟨_, (beq_iff_eq.mp hgot).symm⟩
          have hcontinued : continuation b got bs = got := Nat.succ.inj (beq_iff_eq.mp hgot)
          rw [Nat.add_sub_cancel, hcontinued] at hrest ⊢
          obtain ⟨hlength, hsecond, htail⟩ := of_continuation hcontinued
          have hdrop : (bs.drop got).length ≤ fuel := by
            rw [List.length_cons] at hfuel
            rw [List.length_drop]
            omega
          rw [encodeChars_cons, encodeChar_codePoint (by rwa [hlength]) hsecond htail,
            ih hrest hdrop, List.cons_append, List.take_append_drop]

/-- Bytes that can be decoded are the encoding of their text. -/
lemma encode_of_decode {bs : List UInt8} {s : String} (h : decode bs = .ok s) : encode s = bs := by
  cases hdecode : decodeFrom 0 bs.length bs with
  | error e =>
    rw [decode, hdecode] at h
    cases h
  | ok cs =>
    rw [decode, hdecode] at h
    cases h
    rw [encode, String.toList_ofList]
    exact encodeChars_of_decodeFrom hdecode (Nat.le_refl _)

/-- A text without carriage returns has unified line ends. -/
lemma unifyLineEnds_of_no_return {cs : List Char} (h : '\r' ∉ cs) : unifyLineEnds cs = cs := by
  induction cs with
  | nil => rfl
  | cons c cs ih =>
    simp only [List.mem_cons, not_or] at h
    rw [unifyLineEnds, ih h.2]
    · exact fun _ hc _ => h.1 hc.symm
    · exact fun hc => h.1 hc.symm

/-- Decoding undoes encoding also where line ends are unified, if there are no carriage returns. -/
lemma decodeLines_encode {s : String} (h : '\r' ∉ s.toList) : decodeLines (encode s) = .ok s := by
  unfold decodeLines
  rw [decode_encode]
  simp [Except.map, unifyLineEnds_of_no_return h]

/-- The characters of a text that is written out. -/
lemma toList_literal {s : String} {cs : List Char} (hs : s = String.ofList cs) : s.toList = cs := by
  rw [hs, String.toList_ofList]

end Text

namespace Shell

open Text Escape

/-- A text as a shell sees it: each byte counts as a character. -/
def raw (cs : List Char) : List Char :=
  bytesText (encodeChars cs)

/-- Nothing is nothing as bytes. -/
@[simp]
lemma raw_nil : raw [] = [] :=
  rfl

/-- Texts are taken as bytes one after the other. -/
@[simp]
lemma raw_append (cs ds : List Char) : raw (cs ++ ds) = raw cs ++ raw ds := by
  simp [raw, bytesText]

/-- An ASCII character is seen as itself. -/
lemma raw_cons_ascii {c : Char} (h : c.toNat < 0x80) (cs : List Char) :
    raw (c :: cs) = c :: raw cs := by
  have hb : (UInt8.ofNat c.toNat).toNat = c.toNat := toNat_byte (by omega)
  simp only [raw, bytesText, encodeChars_cons, encodeChar_ascii h, List.cons_append,
    List.nil_append, List.map_cons, hb, Char.ofNat_toNat]

/-- An ASCII text is seen as itself. -/
lemma raw_ascii {cs : List Char} (h : ∀ c ∈ cs, c.toNat < 0x80) : raw cs = cs := by
  induction cs with
  | nil => rfl
  | cons c cs ih => rw [raw_cons_ascii (h c (by simp)), ih fun d hd => h d (by simp [hd])]

/-- A byte counts as the character of its number. -/
lemma toNat_ofNat_byte (b : UInt8) : (Char.ofNat b.toNat).toNat = b.toNat :=
  toNat_ofNat (.inl (Nat.lt_trans b.toNat_lt (by decide)))

/-- A character that a shell sees belongs to the text or is no ASCII character. -/
lemma mem_raw {c : Char} {cs : List Char} (h : c ∈ raw cs) : c ∈ cs ∨ 0x80 ≤ c.toNat := by
  induction cs with
  | nil => exact .inl h
  | cons d cs ih =>
    rw [← List.singleton_append, raw_append, List.mem_append] at h
    rcases h with h | h
    · by_cases hd : d.toNat < 0x80
      · rw [raw_cons_ascii hd] at h
        exact .inl (List.mem_cons.mpr (.inl (List.mem_singleton.mp h)))
      · obtain ⟨b, hb, rfl⟩ := List.mem_map.mp h
        rw [encodeChars_cons, encodeChars_nil, List.append_nil] at hb
        refine .inr ?_
        rw [toNat_ofNat_byte]
        exact le_of_mem_encodeChar (Nat.le_of_not_lt hd) hb
    · exact (ih h).imp_left (List.mem_cons_of_mem d)

/-- The bytes of what a shell sees are those of the text. -/
lemma toBytes_raw (cs : List Char) : toBytes (raw cs) = encodeChars cs := by
  simp [toBytes, raw, bytesText, Function.comp_def, toNat_ofNat_byte]

/-- Different texts are seen differently. -/
lemma raw_inj {cs ds : List Char} (h : raw cs = raw ds) : cs = ds := by
  have hb : encodeChars cs = encodeChars ds := by rw [← toBytes_raw, ← toBytes_raw, h]
  have hc := decodeFrom_encodeChars cs 0 (cs.length + ds.length) (by omega)
  rw [hb, decodeFrom_encodeChars ds 0 _ (by omega)] at hc
  exact (Except.ok.inj hc).symm

/-- A special character is an ASCII character. -/
lemma ascii_of_isSpecial {c : Char} (h : isSpecial c = true) : c.toNat < 0x80 := by
  simp only [isSpecial, Bool.or_eq_true, beq_iff_eq] at h
  rcases h with ((rfl | rfl) | rfl) | rfl <;> decide

/-- An escaped text is seen as the escaped form of what is seen of the text. -/
lemma raw_escapeChars (cs : List Char) : raw (escapeChars cs) = escapeChars (raw cs) := by
  induction cs with
  | nil => rfl
  | cons c cs ih =>
    rw [escapeChars_cons, raw_append, ih, ← List.singleton_append (l := cs), raw_append,
      escapeChars_append]
    congr 1
    cases hc : isSpecial c with
    | true =>
      have ha := ascii_of_isSpecial hc
      rw [escapeChar_of_special hc, raw_cons_ascii (by decide), raw_cons_ascii ha, raw_nil,
        escapeChars_cons, escapeChar_of_special hc]
      rfl
    | false =>
      rw [escapeChar_of_plain hc]
      refine (escapeChars_of_plain fun d hd => ?_).symm
      rcases mem_raw hd with hd | hd
      · rw [List.mem_singleton.mp hd, hc]
      · cases hs : isSpecial d with
        | true => exact absurd (ascii_of_isSpecial hs) (Nat.not_lt.mpr hd)
        | false => rfl

/-- A text as the reader of scripts gets it: as a shell sees it, with zeros left out. -/
def scanned (s : String) : List Char :=
  (raw s.toList).filter (· != '\x00')

/-- The shell sees two texts one after the other. -/
lemma scanned_append (s t : String) : scanned (s ++ t) = scanned s ++ scanned t := by
  rw [scanned, String.toList_append, raw_append, List.filter_append]
  rfl

/-- A text without zeros is read as it is seen. -/
lemma scanned_eq_raw {s : String} (h : '\x00' ∉ s.toList) : scanned s = raw s.toList := by
  rw [scanned, List.filter_eq_self]
  intro c hc
  refine bne_iff_ne.mpr ?_
  rintro rfl
  rcases mem_raw hc with hmem | hbig
  · exact h hmem
  · exact absurd hbig (by decide)

/-- An ASCII text that is written out is read as its characters. -/
lemma scanned_literal {s : String} {cs : List Char} (hs : s = String.ofList cs)
    (h : cs.all (fun c => 0 < c.toNat && c.toNat < 0x80) = true) : scanned s = cs := by
  simp only [List.all_eq_true, Bool.and_eq_true, decide_eq_true_eq] at h
  have hzero : '\x00' ∉ s.toList := by
    rw [toList_literal hs]
    exact fun hmem => absurd (h _ hmem).1 (by decide)
  rw [scanned_eq_raw hzero, toList_literal hs, raw_ascii fun c hc => (h c hc).2]

/-- A character that is read belongs to the text or is no ASCII character. -/
lemma mem_scanned {c : Char} {s : String} (h : c ∈ scanned s) : c ∈ s.toList ∨ 0x80 ≤ c.toNat :=
  mem_raw (List.mem_filter.mp h).1

/-- An escaped text is read as the escaped form of what is read of the text. -/
lemma scanned_escape (s : String) : scanned (escape s) = escapeChars (scanned s) := by
  rw [scanned, escape, String.toList_ofList, raw_escapeChars, scanned]
  induction raw s.toList with
  | nil => rfl
  | cons c cs ih =>
    rw [escapeChars_cons, List.filter_append, ih, List.filter_cons]
    by_cases hc : c = '\x00'
    · subst hc
      rfl
    · rw [if_pos (bne_iff_ne.mpr hc), escapeChars_cons]
      congr 1
      cases hspecial : isSpecial c with
      | true =>
        rw [escapeChar_of_special hspecial]
        simp [hc]
      | false =>
        rw [escapeChar_of_plain hspecial]
        simp [hc]

end Shell

end Stencil
