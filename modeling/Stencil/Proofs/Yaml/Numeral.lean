import Mathlib.Tactic.IntervalCases
import Stencil.Proofs.Text
import Stencil.Proofs.Yaml.Written
import Stencil.Yaml.Value

/-!
# Numerals

A whole number in decimal digits is a plain scalar (`Numeral.written`) whose spelling makes it an
integer (`Numeral.tagOf`), namely the same one if it is not too long (`Numeral.int`).
-/

namespace Stencil.Yaml

open Spelling Style

section

variable {c d : Char} {cs : List Char} {m : Nat} {n : Int}

/-! ## Digits -/

/-- The decimal digits are ten characters in a row. -/
lemma isDecimal_iff : isDecimal c = true ↔ 48 ≤ c.toNat ∧ c.toNat ≤ 57 := by
  simp only [isDecimal, Bool.and_eq_true, decide_eq_true_eq]
  rfl

/-- A digit differs from each character that is none. -/
lemma ne_of_isDecimal (h : isDecimal c = true) (hd : isDecimal d = false) : c ≠ d := by
  rintro rfl
  simp [h] at hd

/-- A digit can be seen. -/
lemma visible_of_isDecimal (h : isDecimal c = true) : Visible c := by
  have hrange := isDecimal_iff.mp h
  exact ⟨by omega, by omega⟩

/-- A digit is plain. -/
lemma plainChar_of_isDecimal (h : isDecimal c = true) : Scalar.plainChar c = c := by
  have hrange := isDecimal_iff.mp h
  have hdigit : Text.decimalDigit? c = some (c.toNat - 48) := by
    rw [Text.decimalDigit?, Text.zeros,
      List.find?_cons_of_pos (by simpa using ⟨hrange.1, by omega⟩)]
    rfl
  have hcode : '0'.toNat + (c.toNat - 48) = c.toNat := by
    change 48 + (c.toNat - 48) = c.toNat
    omega
  rw [Scalar.plainChar, hdigit]
  dsimp only
  rw [hcode, Char.ofNat_toNat]

/-- A number has at least one digit, and the first is zero only in zero itself. -/
lemma exists_toDigits (m : Nat) :
    ∃ d ds, Nat.toDigits 10 m = d :: ds ∧ (∀ c ∈ d :: ds, isDecimal c = true) ∧
      (d = '0' → m = 0) := by
  have hdecimal : ∀ c ∈ Nat.toDigits 10 m, isDecimal c = true := by
    intro c hc
    have hdigit := Nat.isDigit_of_mem_toDigits (by decide) (Nat.le_refl 10) hc
    simpa [isDecimal, Char.isDigit, Char.le_def] using hdigit
  have hhead : (Nat.toDigits 10 m).head? = some '0' → m = 0 := by
    clear hdecimal
    induction m using Nat.strong_induction_on with
    | _ m ih =>
      by_cases hm : m < 10
      · rw [Nat.toDigits_of_lt_base hm]
        interval_cases m <;> decide
      · rw [Nat.toDigits_of_base_le (by decide) (Nat.le_of_not_lt hm),
          List.head?_append_of_ne_nil _ Nat.toDigits_ne_nil]
        intro hzero
        have hten := ih (m / 10) (by omega) hzero
        omega
  obtain ⟨d, ds, hcons⟩ := List.exists_cons_of_ne_nil (Nat.toDigits_ne_nil (n := m) (b := 10))
  rw [hcons] at hdecimal hhead
  exact ⟨d, ds, hcons, hdecimal, fun hd => hhead (by rw [hd]; rfl)⟩

/-- The characters of a numeral. -/
lemma toList_toString (n : Int) :
    (toString n).toList = (if n < 0 then ['-'] else []) ++ Nat.toDigits 10 n.natAbs := by
  cases n with
  | ofNat m =>
    have hrepr : toString (Int.ofNat m) = String.ofList (Nat.toDigits 10 m) :=
      Nat.repr_eq_ofList_toDigits
    rw [hrepr, String.toList_ofList, if_neg (by simp)]
    rfl
  | negSucc m =>
    have hrepr : toString (Int.negSucc m) = "-" ++ String.ofList (Nat.toDigits 10 (m + 1)) :=
      congrArg ("-" ++ ·) Nat.repr_eq_ofList_toDigits
    rw [hrepr, String.toList_append, String.toList_ofList (l := Nat.toDigits 10 (m + 1)),
      if_pos (Int.negSucc_lt_zero m)]
    rfl

/-- A text without line breaks has none at its end. -/
lemma dropFinalBreak_of_not_mem {s : String} (h : '\n' ∉ s.toList) : dropFinalBreak s = s := by
  unfold dropFinalBreak
  split
  · rename_i c cs heq
    exact absurd (List.mem_reverse.mp (heq ▸ List.mem_cons_self)) h
  · rfl

/-- A numeral: digits, behind a minus sign if `negative` holds, and no zero before others. -/
structure Numeral (s : String) (negative : Bool) (d : Char) (ds : List Char) : Prop where
  toList : s.toList = (if negative then ['-'] else []) ++ d :: ds
  decimal : ∀ c ∈ d :: ds, isDecimal c = true
  zero : d = '0' → ds = []

/-- A written number is a numeral. -/
lemma numeral_toString (n : Int) :
    ∃ d ds, Nat.toDigits 10 n.natAbs = d :: ds ∧ Numeral (toString n) (n < 0) d ds := by
  obtain ⟨d, ds, hcons, hdecimal, hzero⟩ := exists_toDigits n.natAbs
  have hlist := toList_toString n
  rw [hcons] at hlist
  refine ⟨d, ds, hcons, by simpa using hlist, hdecimal, fun hd => ?_⟩
  rw [hzero hd] at hcons
  exact (List.cons.inj hcons).2.symm

/-! ## Spelling -/

namespace Numeral

variable {s t : String} {negative : Bool} {ds : List Char}

/-- Without its sign a numeral is its digits. -/
lemma dropSign (h : Numeral s negative d ds) : dropSign s.toList = d :: ds := by
  have hd := h.decimal d List.mem_cons_self
  have hminus := ne_of_isDecimal hd (show isDecimal '-' = false by decide)
  have hplus := ne_of_isDecimal hd (show isDecimal '+' = false by decide)
  rw [h.toList]
  cases negative
  · change Spelling.dropSign (d :: ds) = _
    unfold Spelling.dropSign
    split <;> simp_all
  · rfl

/-- A numeral goes on with digits. -/
lemma tail (h : Numeral s negative d ds) : ∀ c ∈ ds, isDecimal c = true :=
  fun c hc => h.decimal c (List.mem_cons_of_mem d hc)

/-- The digits of a numeral go on to its end. -/
lemma dropWhile_tail (h : Numeral s negative d ds) : ds.dropWhile isDigitOrBar = [] :=
  List.dropWhile_eq_nil_iff.mpr fun c hc => by simp [isDigitOrBar, h.tail c hc]

/-- No numeral is among texts that begin like none. -/
lemma not_mem (h : Numeral s negative d ds) {ts : List String}
    (hts : ts.all (fun t => t.toList.head?.all fun c => !(c == '-' || isDecimal c)) = true) :
    s ∉ ts := by
  intro hmem
  have hd := h.decimal d List.mem_cons_self
  have hs := List.all_eq_true.mp hts s hmem
  rw [h.toList] at hs
  cases negative <;> simp [hd] at hs

/-- A numeral is no truth value. -/
lemma isBool (h : Numeral s negative d ds) : isBool s = false := by
  have hheads :
      (truthWords.map Prod.fst).all (fun w => [w, w.capitalize, w.map Char.toUpper].all fun t =>
        t.toList.head?.all fun c => !(c == '-' || isDecimal c)) = true := by decide +kernel
  rw [Spelling.isBool, isWordIn, List.any_eq_false]
  intro w hw
  have hword := h.not_mem (List.all_eq_true.mp hheads w hw)
  simpa [and_assoc] using hword

/-- The digits without their sign. -/
lemma digits (h : Numeral s negative d ds) : Numeral (String.ofList (d :: ds)) false d ds :=
  ⟨String.toList_ofList, h.decimal, h.zero⟩

/-- A numeral is no fraction. -/
lemma isFloat (h : Numeral s negative d ds) : isFloat s = false := by
  have hpointed : isPointed (d :: ds) = false := by
    rw [isPointed, dropDigits?, if_pos (h.decimal d List.mem_cons_self), h.dropWhile_tail]
    rfl
  have hinfinity : isInfinity (d :: ds) = false := by
    have hmem : String.ofList (d :: ds) ∉ [".inf", ".Inf", ".INF"] :=
      h.digits.not_mem (by decide +kernel)
    rw [isInfinity]
    exact Bool.eq_false_iff.mpr (mt List.contains_iff_mem.mp hmem)
  have hnan : [".nan", ".NaN", ".NAN"].contains s = false := by
    have hmem : s ∉ [".nan", ".NaN", ".NAN"] := h.not_mem (by decide +kernel)
    exact Bool.eq_false_iff.mpr (mt List.contains_iff_mem.mp hmem)
  have hpoint : ∀ c r, s.toList ≠ '.' :: c :: r := by
    rintro c r heq
    have hmem : s ∉ [s] := h.not_mem (by rw [List.all_cons, heq]; rfl)
    exact hmem List.mem_cons_self
  rw [Spelling.isFloat, h.dropSign, hpointed, hinfinity, hnan]
  split
  · exact absurd ‹_› (hpoint _ _)
  · rfl

/-- A numeral is a whole number. -/
lemma isInt (h : Numeral s negative d ds) : isInt s = true := by
  have hd := h.decimal d List.mem_cons_self
  rw [Spelling.isInt, h.dropSign]
  by_cases hzero : d = '0'
  · rw [hzero, h.zero hzero]
    rfl
  · have hcounting : isCounting (d :: ds) = true := by
      have hsixties (k : Nat) : dropSixties k [] = (0, []) := by cases k <;> rfl
      simp [isCounting, hd, hzero, h.dropWhile_tail, hsixties]
    split <;> simp_all

/-- A numeral has nothing but digits and a minus sign. -/
lemma mem_toList (h : Numeral s negative d ds) (hc : c ∈ s.toList) :
    c = '-' ∨ isDecimal c = true := by
  rw [h.toList] at hc
  rcases List.mem_append.mp hc with hc | hc
  · cases negative <;> simp_all
  · exact Or.inr (h.decimal c hc)

/-- A numeral is an integer by its spelling. -/
lemma tagOf (h : Numeral s negative d ds) : tagOf s = coreTag "int" := by
  have hbreak : '\n' ∉ s.toList := fun hmem => by
    rcases h.mem_toList hmem with hc | hc <;> revert hc <;> decide
  simp [Yaml.tagOf, kindOf, dropFinalBreak_of_not_mem hbreak, h.isBool, h.isFloat, h.isInt]

/-! ## Reading -/

/-- The digits of a numeral are read as digits. -/
lemma digits?_eq (h : Numeral s negative d ds) :
    Scalar.digits? 10 (d :: ds) = some (Nat.ofDigitChars 10 (d :: ds) 0) := by
  have hfold : ∀ (cs : List Char) (m : Nat), (∀ c ∈ cs, isDecimal c = true) →
      cs.foldlM (fun n c => (Scalar.digit? 10 c).map (10 * n + ·)) m =
        some (Nat.ofDigitChars 10 cs m) := by
    intro cs
    induction cs with
    | nil => exact fun m _ => rfl
    | cons c cs ih =>
      intro m hcs
      have hc := hcs c List.mem_cons_self
      have hdigit : Scalar.digit? 10 c = some (c.toNat - '0'.toNat) := by
        have hrange := isDecimal_iff.mp hc
        rw [Scalar.digit?, if_pos hc, if_pos]
        change c.toNat - 48 < 10
        omega
      rw [List.foldlM_cons, hdigit, Nat.ofDigitChars_cons]
      exact ih _ fun c' hc' => hcs c' (List.mem_cons_of_mem c hc')
  rw [Scalar.digits?, if_neg (by simp)]
  exact hfold (d :: ds) 0 h.decimal

/-- A numeral that does not start with a zero is read to base ten. -/
lemma wholeIn_ten (h : Numeral s negative d ds) (hzero : d ≠ '0')
    (hlong : ds.length < Scalar.mostDigits) :
    Scalar.wholeIn 10 (d :: ds) = .ok (Nat.ofDigitChars 10 (d :: ds) 0) := by
  have hplain : Scalar.plainChars (d :: ds) = d :: ds := by
    have hblank : ∀ c ∈ d :: ds, (c == ' ') = false := fun c hc =>
      beq_eq_false_iff_ne.mpr (ne_of_isDecimal (h.decimal c hc) (by decide))
    rw [Scalar.plainChars, List.map_congr_left fun c hc => plainChar_of_isDecimal (h.decimal c hc),
      List.map_id']
    exact Text.trimWhile_eq_self (fun c hc => hblank c (List.mem_of_mem_head? hc))
      fun c hc => hblank c (List.mem_of_mem_getLast? hc)
  have hsign : Spelling.dropSign (d :: ds) = d :: ds := by
    rw [← String.toList_ofList (l := d :: ds), h.digits.dropSign, String.toList_ofList]
  have hbase : Scalar.dropBase 10 (d :: ds) = d :: ds := by
    unfold Scalar.dropBase
    split <;> simp_all
  have hminus : ((d :: ds).head? == some '-') = false :=
    beq_eq_false_iff_ne.mpr fun hd =>
      ne_of_isDecimal (h.decimal d List.mem_cons_self) (by decide) (Option.some.inj hd)
  have hshort : (10 == 10 && decide ((d :: ds).length > Scalar.mostDigits)) = false := by
    rw [List.length_cons]
    simpa using Nat.succ_le_of_lt hlong
  simp only [Scalar.wholeIn, hplain, hsign, hbase, h.digits?_eq, hshort, hminus,
    Bool.false_eq_true, if_false]

/-- A numeral stands for its number. -/
lemma int (h : Numeral s negative d ds) (hlong : ds.length < Scalar.mostDigits) :
    Scalar.int s = .ok (if negative then -(Nat.ofDigitChars 10 (d :: ds) 0 : Int)
      else Nat.ofDigitChars 10 (d :: ds) 0) := by
  have hbars : s.toList.filter (· != '_') = s.toList := by
    refine List.filter_eq_self.mpr fun c hc => ?_
    rcases h.mem_toList hc with rfl | hc
    · decide
    · simpa using ne_of_isDecimal hc (show isDecimal '_' = false by decide)
  have hcolon : (d :: ds).contains ':' = false := by
    refine Bool.eq_false_iff.mpr fun hmem => ?_
    exact absurd (h.decimal ':' (List.contains_iff_mem.mp hmem)) (by decide)
  have hminus : (d == '-') = false :=
    beq_eq_false_iff_ne.mpr (ne_of_isDecimal (h.decimal d List.mem_cons_self) (by decide))
  have hlist := h.toList
  have hdrop := h.dropSign
  by_cases hzero : d = '0'
  · rw [hzero, h.zero hzero] at hlist ⊢
    cases negative <;> simp [Scalar.int, hlist, Spelling.dropSign, Nat.ofDigitChars]
  · have hwhole := h.wholeIn_ten hzero hlong
    rw [Scalar.int, hbars]
    rw [hlist] at hdrop ⊢
    cases negative
    all_goals
      simp only [Bool.false_eq_true, if_true, if_false, List.nil_append,
        List.singleton_append] at hdrop ⊢
      rw [hdrop]
      split
      case h_6 =>
        rw [hcolon, if_neg Bool.false_ne_true, hwhole]
        simp [Except.map, hminus]
      all_goals simp_all

/-! ## Writing -/

/-- All of a numeral can be seen. -/
lemma visible (h : Numeral s negative d ds) : ∀ c ∈ s.toList, Visible c := by
  intro c hc
  rcases h.mem_toList hc with rfl | hc
  · decide
  · exact visible_of_isDecimal hc

/-- A numeral has no indicator. -/
lemma hasIndicator (h : Numeral s negative d ds) : hasIndicator s.toList = false := by
  have hnone : ∀ cs : List Char, (∀ c ∈ cs, Visible c) → ':' ∉ cs →
      Style.hasIndicator cs = false := by
    intro cs hvisible hcolon
    induction cs with
    | nil => rfl
    | cons a cs ih =>
      have ha : (a == ':') = false :=
        by simpa using fun heq : a = ':' => hcolon (heq ▸ List.mem_cons_self)
      cases cs with
      | nil => exact ha
      | cons b cs =>
        rw [Style.hasIndicator, ha, isGap_of_visible (hvisible a List.mem_cons_self),
          ih (fun c hc => hvisible c (List.mem_cons_of_mem a hc)) fun hc =>
            hcolon (List.mem_cons_of_mem a hc)]
        rfl
  refine hnone _ h.visible fun hmem => ?_
  rcases h.mem_toList hmem with hc | hc <;> revert hc <;> decide

/-- A numeral starts like a plain text. -/
lemma startsOtherwise (h : Numeral s negative d ds) : startsOtherwise s.toList = false := by
  have hd := h.decimal d List.mem_cons_self
  have hminus := ne_of_isDecimal hd (show isDecimal '-' = false by decide)
  rw [h.toList]
  cases negative
  · have hquestion := ne_of_isDecimal hd (show isDecimal '?' = false by decide)
    have hcolon := ne_of_isDecimal hd (show isDecimal ':' = false by decide)
    have hpoint := ne_of_isDecimal hd (show isDecimal '.' = false by decide)
    have hother : isOneOf "#,[]\x7b\x7d&*!|>'\"%@\x60" d = false := by
      refine Bool.eq_false_iff.mpr fun hmem => ?_
      have hnone : ("#,[]\x7b\x7d&*!|>'\"%@\x60".toList.all fun c => !isDecimal c) = true :=
        by decide
      exact absurd (List.all_eq_true.mp hnone d (List.contains_iff_mem.mp hmem)) (by simp [hd])
    simp [Style.startsOtherwise, hother, hminus, hquestion, hcolon, hpoint]
  · have hgap := isGap_of_visible (visible_of_isDecimal hd)
    simp [Style.startsOtherwise, hgap, hminus]
    decide

/-- A numeral is written plain. -/
lemma written (h : Numeral s negative d ds) (indent : Nat) : Written indent s true s.toList := by
  have hne : s.toList ≠ [] := by simp [h.toList]
  have hgap (c : Char) (hc : isGap c = true) : c ∉ s.toList :=
    fun hmem => absurd hc (by simp [isGap_of_visible (h.visible c hmem)])
  refine written_word ?_ hne fun c hc => isGap_of_visible (h.visible c hc)
  rw [allowsPlain, allowsSingle_of_visible h.visible, h.hasIndicator, h.startsOtherwise]
  have hhead : s.toList.head? ≠ some ' ' := fun hhead => hgap ' ' rfl (List.mem_of_mem_head? hhead)
  have hlast : s.toList.getLast? ≠ some ' ' :=
    fun hlast => hgap ' ' rfl (List.mem_of_mem_getLast? hlast)
  simp [hhead, hlast, hgap '\n' rfl]

end Numeral

end

end Stencil.Yaml
