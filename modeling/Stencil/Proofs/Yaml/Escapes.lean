import Mathlib.Algebra.Group.Nat.Defs
import Stencil.Proofs.Yaml.Quoted

/-!
# Texts with escapes

A text between double quotes is read back as it was (`run_quotedFrom_escapes`). Characters are
escaped there by letters or by their code points, and a line is broken behind a backslash, so that
no blank of the text is lost.
-/

namespace Stencil.Yaml

open Style

/-! ## Hexadecimal digits -/

/-- The value of a hexadecimal digit. -/
def hexDigitValue (d : Char) : Nat :=
  if isDecimal d then d.toNat - '0'.toNat else d.toLower.toNat - 'a'.toNat + 10

/-- A hexadecimal digit in upper case has its value. -/
lemma hexDigit_toUpper :
    ∀ k < 16, isHex (Nat.digitChar k).toUpper = true ∧
      hexDigitValue (Nat.digitChar k).toUpper = k := by
  decide

/-- The value of a run of digits is computed from the left. -/
lemma hexRunValue_append (ds es : List Char) :
    hexRunValue (ds ++ es) = es.foldl (fun n d => 16 * n + hexDigitValue d) (hexRunValue ds) :=
  List.foldl_append

/-- A number is read back from its hexadecimal digits. -/
lemma hexRunValue_toDigits (n : Nat) :
    (∀ d ∈ (Nat.toDigits 16 n).map Char.toUpper, isHex d = true) ∧
      hexRunValue ((Nat.toDigits 16 n).map Char.toUpper) = n := by
  induction n using Nat.strong_induction_on with
  | _ n ih =>
    by_cases hn : n < 16
    · rw [Nat.toDigits_of_lt_base hn]
      obtain ⟨hhex, hvalue⟩ := hexDigit_toUpper n hn
      refine ⟨by simpa using hhex, ?_⟩
      show 16 * 0 + hexDigitValue (Nat.digitChar n).toUpper = n
      rw [hvalue, Nat.mul_zero, Nat.zero_add]
    · obtain ⟨hall, hvalue⟩ := ih (n / 16) (by omega)
      obtain ⟨hhex, hdigit⟩ := hexDigit_toUpper (n % 16) (by omega)
      rw [Nat.toDigits_of_base_le (by decide) (by omega), List.map_append]
      refine ⟨?_, ?_⟩
      · intro d hd
        rcases List.mem_append.mp hd with hd | hd
        · exact hall d hd
        · rw [List.map_singleton, List.mem_singleton] at hd
          exact hd ▸ hhex
      · rw [hexRunValue_append, hvalue]
        show 16 * (n / 16) + hexDigitValue (Nat.digitChar (n % 16)).toUpper = n
        rw [hdigit]
        omega

/-- Zeros at the start do not count. -/
lemma hexRunValue_zeros (k : Nat) (ds : List Char) :
    hexRunValue (List.replicate k '0' ++ ds) = hexRunValue ds := by
  induction k with
  | zero => rfl
  | succ k ih => exact ih

/-- A number that fits is read back from its digits. -/
lemma upperHexDigits_spec {n width : Nat} (hwidth : 0 < width) (h : n < 16 ^ width) :
    (upperHexDigits n width).length = width ∧ (upperHexDigits n width).all isHex = true ∧
      hexRunValue (upperHexDigits n width) = n := by
  obtain ⟨hall, hvalue⟩ := hexRunValue_toDigits n
  have hlength := (Nat.length_toDigits_le_iff (by decide) hwidth).mpr h
  refine ⟨?_, ?_, ?_⟩
  · simp only [upperHexDigits, List.length_append, List.length_replicate, List.length_map]
    omega
  · rw [List.all_eq_true]
    intro d hd
    rcases List.mem_append.mp hd with hd | hd
    · rw [List.eq_of_mem_replicate hd]
      decide
    · exact hall d hd
  · exact (hexRunValue_zeros ..).trans hvalue

/-! ## The escape of one character -/

section

variable {s s' : Scanner} {r cs out e : List Char} {c : Char} {indent fuel : Nat}

/-- A character has a code point below the limit. -/
lemma toNat_lt (c : Char) : c.toNat < 0x110000 :=
  c.valid.elim (fun h => Nat.lt_trans h (by decide)) And.right

/-- A letter shows, and stands for the character that it is written for. -/
lemma of_escapeLetter? {l : Char} (h : escapeLetter? c = some l) :
    needsEscape l = false ∧ escapeOf? l = some c := by
  obtain ⟨before, after, htable, -⟩ := List.lookup_eq_some_iff.mp h
  have hall : ∀ p ∈ [(0x00, '0'), (0x07, 'a'), (0x08, 'b'), (0x09, 't'), (0x0A, 'n'), (0x0B, 'v'),
      (0x0C, 'f'), (0x0D, 'r'), (0x1B, 'e'), (0x22, '\x22'), (0x5C, '\\'), (0x85, 'N'),
      (0xA0, '_'), (0x2028, 'L'), (0x2029, 'P')],
      needsEscape p.2 = false ∧ escapeOf? p.2 = some (Char.ofNat p.1) := by
    decide
  have hmem := hall (c.toNat, l) (by simp [htable])
  rwa [Char.ofNat_toNat] at hmem

/-- An escape with a letter is read as its character. -/
lemma run_quotedEscape_letter {l : Char} (hl : escapeOf? l = some c) (h : s.rest = '\\' :: l :: r) :
    quotedEscape.run s = .ok ([c], s.advanceBy 2) := by
  have hhere : (s.advanceBy 1).peekAt 0 = l := peekAt_zero (r := r) (by simp [h])
  rw [quotedEscape, run_then (run_forward 1), run_then (run_peek 0), hhere, hl]
  rfl

/-- The code point of a character is read as the character. -/
lemma charOfCode_toNat (c : Char) : charOfCode c.toNat = c := by
  rw [charOfCode, if_pos (show c.toNat.isValidChar from c.valid), Char.ofNat_toNat]

/-- Digits are read as the character with that code point. -/
lemma run_quotedEscape_code {mark : Char} {width : Nat} (hmark : escapeOf? mark = none)
    (hwidth : escapeDigits? mark = some width) (hpos : 0 < width) (hc : c.toNat < 16 ^ width)
    (h : s.rest = '\\' :: mark :: (upperHexDigits c.toNat width ++ r)) :
    quotedEscape.run s = .ok ([c], s.advanceBy (width + 2)) := by
  obtain ⟨hlength, hhex, hvalue⟩ := upperHexDigits_spec hpos hc
  have hhere : (s.advanceBy 1).peekAt 0 = mark :=
    peekAt_zero (r := upperHexDigits c.toNat width ++ r) (by simp [h])
  have htake : ((s.advanceBy 1).advanceBy 1).rest.take width = upperHexDigits c.toNat width := by
    simp [h, List.take_left' hlength]
  have hrun : (hexRun width).run ((s.advanceBy 1).advanceBy 1) =
      .ok (c.toNat, ((s.advanceBy 1).advanceBy 1).advanceBy width) := by
    rw [hexRun, run_get_then, htake]
    simp only [hlength, hhex, hvalue, beq_self_eq_true, Bool.and_self]
    rfl
  have hrange : c.toNat ≤ 0x10FFFF := Nat.le_of_lt_succ (toNat_lt c)
  rw [quotedEscape, run_then (run_forward 1), run_then (run_peek 0), hhere, hmark]
  simp only [hwidth]
  rw [run_then (run_forward 1), run_then hrun, if_pos hrange, charOfCode_toNat,
    ← Scanner.advanceBy_add, ← Scanner.advanceBy_add, ← Nat.add_assoc, Nat.add_comm width]
  rfl

/-- What is written for a character is read as that character. -/
lemma run_quotedEscape (h : escaped? c = some e) (hs : s.rest = e ++ r) :
    quotedEscape.run s = .ok ([c], s.advanceBy e.length) := by
  unfold escaped? at h
  split at h
  · rename_i l hl
    cases h
    exact run_quotedEscape_letter (of_escapeLetter? hl).2 hs
  · dsimp only at h
    have hlt := toNat_lt c
    split_ifs at h with hprinted hbyte hshort
    all_goals cases h
    · have hc : c.toNat < 16 ^ 2 := by omega
      rw [List.length_cons, List.length_cons, (upperHexDigits_spec (by decide) hc).1]
      exact run_quotedEscape_code (by decide) (by decide) (by decide) hc hs
    · have hc : c.toNat < 16 ^ 4 := by omega
      rw [List.length_cons, List.length_cons, (upperHexDigits_spec (by decide) hc).1]
      exact run_quotedEscape_code (by decide) (by decide) (by decide) hc hs
    · have hc : c.toNat < 16 ^ 8 := by omega
      rw [List.length_cons, List.length_cons, (upperHexDigits_spec (by decide) hc).1]
      exact run_quotedEscape_code (by decide) (by decide) (by decide) hc hs

/-- A character without an escape shows, unless it is a blank, and means nothing else. -/
lemma of_escaped?_eq_none (h : escaped? c = none) :
    (c = ' ' ∨ Visible c) ∧ c ≠ '\x22' ∧ c ≠ '\\' := by
  have hne (d : Char) (hd : (escaped? d).isSome = true) : c ≠ d := by
    rintro rfl
    rw [h] at hd
    cases hd
  refine ⟨?_, hne _ (by decide), hne _ (by decide)⟩
  unfold escaped? at h
  split at h
  · cases h
  · dsimp only at h
    split_ifs at h with hprinted
    simp only [Bool.and_eq_true, decide_eq_true_eq] at hprinted
    have hlow : 0x20 ≤ c.toNat := hprinted.1
    have hhigh : c.toNat ≤ 0x7E := hprinted.2
    rcases Nat.eq_or_lt_of_le hlow with heq | hlt
    · exact .inl (Char.toNat_inj.mp heq.symm)
    · exact .inr ⟨hlt, hhigh⟩

/-- A hexadecimal digit can be seen. -/
lemma visible_of_isHex (h : isHex c = true) : Visible c := by
  simp only [isHex, isDecimal, Bool.or_eq_true, Bool.and_eq_true, decide_eq_true_eq] at h
  rcases h with (⟨hlow, hhigh⟩ | ⟨hlow, hhigh⟩) | ⟨hlow, hhigh⟩
  all_goals exact ⟨Nat.le_trans (by decide) hlow, Nat.le_trans hhigh (by decide)⟩

/-- An escape is made of characters that need none. -/
lemma printed_of_escaped? (h : escaped? c = some e) : ∀ d ∈ e, needsEscape d = false := by
  unfold escaped? at h
  split at h
  · rename_i l hl
    cases h
    simpa using ⟨show needsEscape '\\' = false from rfl, (of_escapeLetter? hl).1⟩
  · dsimp only at h
    have hlt := toNat_lt c
    have hdigits {width : Nat} (hwidth : 0 < width) (hc : c.toNat < 16 ^ width) :
        ∀ d ∈ upperHexDigits c.toNat width, needsEscape d = false := fun d hd =>
      needsEscape_of_visible
        (visible_of_isHex (List.all_eq_true.mp (upperHexDigits_spec hwidth hc).2.1 d hd))
    split_ifs at h with hprinted hbyte hshort
    all_goals
      cases h
      refine List.forall_mem_cons.mpr
        ⟨rfl, List.forall_mem_cons.mpr ⟨rfl, hdigits (by decide) (by omega)⟩⟩

/-- An escape starts with a backslash. -/
lemma exists_of_escaped?_eq_some (h : escaped? c = some e) : ∃ tail, e = '\\' :: tail := by
  unfold escaped? at h
  split at h
  · cases h
    exact ⟨_, rfl⟩
  · dsimp only at h
    split_ifs at h
    all_goals cases h; exact ⟨_, rfl⟩

end

/-! ## Between double quotes -/

/-- `out` is a way to write `cs` between double quotes. A line ends behind a backslash, and the next
one does not begin with a blank of the text, which would be lost. -/
inductive Escapes (indent : Nat) : List Char → List Char → Prop where
  | nil : Escapes indent [] []
  | char {c : Char} {cs out : List Char} : escaped? c = none → Escapes indent cs out →
    Escapes indent (c :: cs) (c :: out)
  | escape {c : Char} {e cs out : List Char} : escaped? c = some e → Escapes indent cs out →
    Escapes indent (c :: cs) (e ++ out)
  | blank {cs out : List Char} : Escapes indent cs out →
    Escapes indent (' ' :: cs) ('\\' :: ' ' :: out)
  | fold {cs out : List Char} : (∀ c ∈ out.head?, Visible c) → Escapes indent cs out →
    Escapes indent cs ('\\' :: (newLine indent ++ out))

section

variable {s s' : Scanner} {r cs out : List Char} {indent fuel : Nat}

/-- An escaped text that does not start with a blank starts with a character that can be seen. -/
lemma Escapes.head (h : Escapes indent cs out) (hcs : cs.head? ≠ some ' ') :
    ∀ c ∈ out.head?, Visible c := by
  have hslash : Visible '\\' := by decide
  cases h with
  | nil => simp
  | @char c _ _ hc _ =>
    rintro _ ⟨⟩
    exact (of_escaped?_eq_none hc).1.resolve_left fun h => hcs (congrArg some h)
  | @escape _ e _ _ he _ =>
    obtain ⟨tail, rfl⟩ := exists_of_escaped?_eq_some he
    rintro _ ⟨⟩
    exact hslash
  | blank _ => exact absurd rfl hcs
  | fold _ _ =>
    rintro _ ⟨⟩
    exact hslash

/-- An escaped text has only characters that can be shown. -/
lemma Escapes.printed (h : Escapes indent cs out) : ∀ c ∈ out, needsEscape c = false := by
  induction h with
  | nil => simp
  | @char c _ _ hc _ ih =>
    refine List.forall_mem_cons.mpr ⟨?_, ih⟩
    rcases (of_escaped?_eq_none hc).1 with rfl | hvisible
    · rfl
    · exact needsEscape_of_visible hvisible
  | escape he _ ih => exact List.forall_mem_append.mpr ⟨printed_of_escaped? he, ih⟩
  | blank _ ih => exact List.forall_mem_cons.mpr ⟨rfl, List.forall_mem_cons.mpr ⟨rfl, ih⟩⟩
  | fold _ _ ih =>
    refine List.forall_mem_cons.mpr ⟨rfl, List.forall_mem_append.mpr ⟨?_, ih⟩⟩
    exact List.forall_mem_cons.mpr ⟨rfl, fun c hc => List.eq_of_mem_replicate hc ▸ rfl⟩

/-- What is written between double quotes. The induction is on the number of characters, as a blank
that begins a line is written together with the character before it. -/
lemma escapes_escapeFold (hindent : indent < margin) (fold start : Bool) (column : Nat)
    (pending cs : List Char) :
    ∃ out, escapeFold fold indent start column pending cs = pending ++ out ∧
      Escapes indent cs out := by
  induction hn : cs.length using Nat.strong_induction_on generalizing start column pending cs with
  | _ n ih =>
    have ih' (ds : List Char) (hds : ds.length < cs.length) (column : Nat) (pending : List Char) :
        ∃ out, escapeFold fold indent false column pending ds = pending ++ out ∧
          Escapes indent ds out :=
      ih ds.length (hn ▸ hds) false column pending ds rfl
    cases cs with
    | nil => exact ⟨[], (List.append_nil _).symm, .nil⟩
    | cons c rest =>
      rw [escapeFold]
      dsimp only
      split
      · rename_i e he
        split_ifs with hfold hblank
        · -- The next line would begin with a blank, which gets a backslash.
          obtain ⟨rest, rfl⟩ : ∃ ds, rest = ' ' :: ds := by
            cases rest with
            | nil => cases hblank
            | cons d ds => exact ⟨ds, by simpa using hblank⟩
          obtain ⟨out, hout, hescapes⟩ :=
            ih' rest (by rw [List.length_cons, List.length_cons]; omega) (indent + 1) [' ']
          have hstay : escapeFold fold indent false (indent + 1) [] (' ' :: rest) =
              escapeFold fold indent false (indent + 1) [' '] rest := by
            rw [escapeFold]
            simp [show escaped? ' ' = none from rfl, Nat.not_lt.mpr hindent]
          refine ⟨e ++ ('\\' :: (newLine indent ++ ('\\' :: ' ' :: out))), ?_,
            .escape he (.fold ?_ (.blank hescapes))⟩
          · simp [hstay, hout]
          · rintro _ ⟨⟩
            decide
        · obtain ⟨out, hout, hescapes⟩ := ih' rest (by simp) indent []
          refine ⟨e ++ ('\\' :: (newLine indent ++ out)), ?_,
            .escape he (.fold (hescapes.head (by simpa using hblank)) hescapes)⟩
          simp [hout]
        · obtain ⟨out, hout, hescapes⟩ := ih' rest (by simp) (column + pending.length + e.length) []
          exact ⟨e ++ out, by simp [hout], .escape he hescapes⟩
      · rename_i hc
        split_ifs with hfold hblank
        · obtain rfl : c = ' ' := by simpa using hblank
          obtain ⟨out, hout, hescapes⟩ := ih' rest (by simp) (indent + 1) [' ']
          refine ⟨'\\' :: (newLine indent ++ ('\\' :: ' ' :: out)), ?_, .fold ?_ (.blank hescapes)⟩
          · simp [hout]
          · rintro _ ⟨⟩
            decide
        · obtain ⟨out, hout, hescapes⟩ := ih' rest (by simp) indent [c]
          refine ⟨'\\' :: (newLine indent ++ (c :: out)), ?_, .fold ?_ (.char hc hescapes)⟩
          · simp [hout]
          · rintro _ ⟨⟩
            exact (of_escaped?_eq_none hc).1.resolve_left (by simpa using hblank)
        · obtain ⟨out, hout, hescapes⟩ := ih' rest (by simp) column (pending ++ [c])
          exact ⟨c :: out, by simp [hout], .char hc hescapes⟩

/-- An escape in double quotes is followed by the rest of the text. -/
lemma run_quotedFrom_escape {e : List Char} {s₁ : Scanner} (h : s.peekAt 0 = '\\')
    (hescape : quotedEscape.run s = .ok (e, s₁))
    (hrest : (quotedFrom true fuel).run s₁ = .ok (cs, s')) :
    (quotedFrom true (fuel + 1)).run s = .ok (e ++ cs, s') := by
  rw [quotedFrom_succ, run_then (run_peek 0), run_then (run_peek 1), h]
  simp only [show isBlankOrEnd '\\' = false from rfl, show ('\\' == quoteOf true) = false from rfl,
    Bool.not_true, Bool.false_and, Bool.true_and, beq_self_eq_true, Bool.false_eq_true, if_false,
    if_true]
  rw [run_then hescape, run_then hrest]
  rfl

/-- Blanks are read with what follows them, if that is no blank. -/
lemma run_quotedFrom_blanks {k n : Nat} {c : Char} (hs : s.rest = List.replicate k ' ' ++ c :: r)
    (hc : isBlankOrEnd c = false) (hfuel : n + k < fuel)
    (hrest : ∀ fuel, n < fuel → (quotedFrom true fuel).run (s.advanceBy k) = .ok (cs, s')) :
    (quotedFrom true fuel).run s = .ok (List.replicate k ' ' ++ cs, s') := by
  obtain ⟨fuel, rfl⟩ := Nat.exists_eq_succ_of_ne_zero (Nat.ne_zero_of_lt hfuel)
  cases k with
  | zero => exact hrest _ (by omega)
  | succ k =>
    refine run_quotedFrom_space ?_ (run_quotedSpace_blanks hs hc) (hrest fuel (by omega))
    rw [peekAt_zero hs]
    rfl

/-- A line break behind a backslash is no part of the text. -/
lemma run_quotedEscape_fold {c : Char} (hindent : 0 < indent) (hc : isBlankOrEnd c = false)
    (hs : s.rest = '\\' :: (newLine indent ++ c :: r)) :
    quotedEscape.run s = .ok ([], s.advanceBy (1 + (1 + indent))) := by
  have hnext : (s.advanceBy 1).rest = '\n' :: (List.replicate indent ' ' ++ c :: r) :=
    by simp [hs, newLine]
  have hbreaks :
      (quotedBreaks (((s.advanceBy 1).advanceBy 1).rest.length + 1)).run
        ((s.advanceBy 1).advanceBy 1) =
      .ok ([], ((s.advanceBy 1).advanceBy 1).advanceBy (0 + indent)) :=
    run_quotedBreaks (k := 0) (c := c) (r := r) (by simp [hs, newLine]) hindent hc (Nat.succ_pos _)
  have hdiscard :
      (discard lineBreak).run (s.advanceBy 1) = .ok ((), (s.advanceBy 1).advanceBy 1) := by
    rw [show (discard lineBreak : ScanM Unit) = (lineBreak >>= fun _ => pure ()) from rfl,
      run_then (run_lineBreak_newline hnext)]
    rfl
  rw [quotedEscape, run_then (run_forward 1), run_then (run_peek 0), peekAt_zero hnext]
  simp only [show escapeOf? '\n' = none from rfl, show escapeDigits? '\n' = none from rfl,
    show isBreak '\n' = true from rfl]
  rw [run_then run_need_true, run_then hdiscard, run_get_then, hbreaks, ← Scanner.advanceBy_add,
    ← Scanner.advanceBy_add, Nat.zero_add]

/-- Between double quotes a text is read back, with any blanks before it. -/
lemma run_quotedFrom_escapes (hindent : 0 < indent) (h : Escapes indent cs out) {k : Nat}
    (hs : s.rest = List.replicate k ' ' ++ (out ++ '\x22' :: r)) (hr : r.head? ≠ some '\x27')
    (hfuel : out.length + k < fuel) :
    (quotedFrom true fuel).run s =
      .ok (List.replicate k ' ' ++ cs, s.advanceBy (out.length + 1 + k)) := by
  -- Blanks, then a piece of length `m`, then the rest and the quote.
  have hparts (s : Scanner) (k m n : Nat) :
      s.advanceBy (m + n + 1 + k) = ((s.advanceBy k).advanceBy m).advanceBy (n + 1) := by
    rw [← Scanner.advanceBy_add, ← Scanner.advanceBy_add]
    congr 1
    omega
  induction h generalizing s fuel k with
  | nil =>
    refine run_quotedFrom_blanks hs (by decide) hfuel fun fuel hfuel => ?_
    obtain ⟨fuel, rfl⟩ := Nat.exists_eq_succ_of_ne_zero (Nat.ne_zero_of_lt hfuel)
    rw [Nat.add_comm, Scanner.advanceBy_add]
    exact run_quotedFrom_close (Scanner.rest_after_replicate hs) hr fuel
  | @char c cs out hc _ ih =>
    obtain ⟨hvisible, hquote, hslash⟩ := of_escaped?_eq_none hc
    rw [List.length_cons] at hfuel ⊢
    rcases hvisible with rfl | hvisible
    · rw [List.append_cons, ← List.replicate_succ', Nat.add_right_comm _ 1 k]
      exact ih (by simp [hs, List.replicate_succ']) (by omega)
    · have hafter := Scanner.rest_after_replicate hs
      refine run_quotedFrom_blanks hs (isBlankOrEnd_of_visible hvisible) hfuel fun fuel hfuel => ?_
      obtain ⟨fuel, rfl⟩ := Nat.exists_eq_succ_of_ne_zero (Nat.ne_zero_of_lt hfuel)
      refine run_quotedFrom_char hafter (isBlankOrEnd_of_visible hvisible) hquote
        (fun _ => hslash) ?_
      rw [Nat.add_comm out.length, hparts]
      exact ih (k := 0) (Scanner.rest_after (p := [c]) hafter) (by omega)
  | @escape c e cs out he _ ih =>
    obtain ⟨tail, rfl⟩ := exists_of_escaped?_eq_some he
    rw [List.append_assoc] at hs
    have hafter := Scanner.rest_after_replicate hs
    rw [List.length_append] at hfuel ⊢
    refine run_quotedFrom_blanks hs (by decide) hfuel fun fuel hfuel => ?_
    obtain ⟨fuel, rfl⟩ := Nat.exists_eq_succ_of_ne_zero (Nat.ne_zero_of_lt hfuel)
    refine run_quotedFrom_escape (peekAt_zero hafter) (run_quotedEscape he hafter) ?_
    rw [hparts]
    exact ih (k := 0) (Scanner.rest_after hafter) (by rw [List.length_cons] at hfuel; omega)
  | @blank cs out _ ih =>
    have hafter := Scanner.rest_after_replicate hs
    have hlength : ('\\' :: ' ' :: out).length = 2 + out.length := Nat.add_comm out.length 2
    rw [hlength] at hfuel ⊢
    refine run_quotedFrom_blanks hs (by decide) hfuel fun fuel hfuel => ?_
    obtain ⟨fuel, rfl⟩ := Nat.exists_eq_succ_of_ne_zero (Nat.ne_zero_of_lt hfuel)
    refine run_quotedFrom_escape (peekAt_zero hafter)
      (run_quotedEscape_letter (c := ' ') (by decide) hafter) ?_
    rw [hparts]
    exact ih (k := 0) (Scanner.rest_after (p := ['\\', ' ']) hafter) (by omega)
  | @fold cs out hhead _ ih =>
    have hafter := Scanner.rest_after_replicate hs
    have hlength : ('\\' :: (newLine indent ++ out)).length = 1 + (1 + indent) + out.length := by
      simp [newLine]
      omega
    obtain ⟨c, tail, htail, hc⟩ : ∃ c tail, out ++ '\x22' :: r = c :: tail ∧
        isBlankOrEnd c = false := by
      cases out with
      | nil => exact ⟨_, _, rfl, by decide⟩
      | cons c out => exact ⟨_, _, rfl, isBlankOrEnd_of_visible (hhead c rfl)⟩
    rw [List.cons_append, List.append_assoc] at hafter
    rw [hlength] at hfuel ⊢
    refine run_quotedFrom_blanks hs (by decide) hfuel fun fuel hfuel => ?_
    obtain ⟨fuel, rfl⟩ := Nat.exists_eq_succ_of_ne_zero (Nat.ne_zero_of_lt hfuel)
    refine run_quotedFrom_escape (peekAt_zero hafter)
      (run_quotedEscape_fold hindent hc (htail ▸ hafter)) ?_
    rw [hparts]
    refine ih (k := 0) ?_ (by omega)
    rw [Scanner.rest_advanceBy, hafter, newLine, Nat.add_comm 1]
    simp [Nat.add_comm 1]

end

end Stencil.Yaml
