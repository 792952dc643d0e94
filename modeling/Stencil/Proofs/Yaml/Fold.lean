import Mathlib.Data.List.SplitBy
import Stencil.Yaml.Printer

/-!
# Folded texts

`Laid` describes the ways to lay a text out in lines: words and blanks stand as they are, a blank
between words may become a line break, and line breaks become one more of them. What is written for
a text is laid out so (`laid_foldRuns`).
-/

namespace Stencil.Yaml

open Style

variable {cs ds w : List Char} {runs : List (List Char)}

/-! ## Characters that show -/

/-- A character that shows: it is ASCII, and neither a blank nor a control character. -/
def Visible (c : Char) : Prop :=
  0x21 ≤ c.toNat ∧ c.toNat ≤ 0x7E

/-- Whether a character can be seen can be decided. -/
instance (c : Char) : Decidable (Visible c) :=
  inferInstanceAs (Decidable (_ ∧ _))

/-- A visible character is no blank and not the end. -/
lemma isBlankOrEnd_of_visible {c : Char} (h : Visible c) : isBlankOrEnd c = false := by
  obtain ⟨hlow, hhigh⟩ := h
  have hne (d : Char) (hd : d.toNat < 0x21) : (c == d) = false := by
    rw [beq_eq_false_iff_ne]
    rintro rfl
    omega
  have hnum (n : Nat) (hn : 0x7E < n) : (c.toNat == n) = false := by
    rw [beq_eq_false_iff_ne]
    omega
  simp only [isBlankOrEnd, isBreakOrEnd, isBreak, endMark, hne ' ' (by decide),
    hne '\t' (by decide), hne '\x00' (by decide), hne '\n' (by decide), hne '\r' (by decide),
    hnum 0x85 (by decide), hnum 0x2028 (by decide), hnum 0x2029 (by decide), Bool.or_false]

/-- What is no blank and not the end breaks no line. -/
lemma isBreak_of_isBlankOrEnd {c : Char} (h : isBlankOrEnd c = false) : isBreak c = false := by
  simp only [isBlankOrEnd, isBreakOrEnd, Bool.or_eq_false_iff] at h
  exact h.2.2

/-- A character that can be shown and is no gap can be seen. -/
lemma visible_of_needsEscape {c : Char} (h : needsEscape c = false) (hgap : isGap c = false) :
    Visible c := by
  simp only [needsEscape, isGap, Bool.not_eq_false', Bool.or_eq_true, Bool.or_eq_false_iff,
    beq_eq_false_iff_ne, beq_iff_eq, Bool.and_eq_true, decide_eq_true_eq] at h hgap
  obtain ⟨hlow, hhigh⟩ := h.resolve_left hgap.2
  have hlow' : 0x20 ≤ c.toNat := hlow
  have hhigh' : c.toNat ≤ 0x7E := hhigh
  have hne : c.toNat ≠ 0x20 := fun h => hgap.1 (Char.toNat_inj.mp h)
  exact ⟨by omega, hhigh'⟩

/-- A visible character is no gap. -/
lemma isGap_of_visible {c : Char} (h : Visible c) : isGap c = false := by
  have hblank := isBlankOrEnd_of_visible h
  simp only [isBlankOrEnd, isBreakOrEnd, isBreak, Bool.or_eq_false_iff] at hblank
  simp [isGap, hblank]

/-- A visible character can be shown. -/
lemma needsEscape_of_visible {c : Char} (h : Visible c) : needsEscape c = false := by
  have hlow : ' ' ≤ c := Nat.le_of_succ_le h.1
  have hhigh : c ≤ '~' := h.2
  simp [needsEscape, hlow, hhigh]

/-! ## Runs -/

/-- Runs of a text: words, and between them blanks or line breaks. -/
inductive Rows : List (List Char) → Prop where
  | nil : Rows []
  | word {w : List Char} {runs : List (List Char)} : w ≠ [] → (∀ c ∈ w, isGap c = false) →
    (∀ c ∈ runs.flatten.head?, isGap c = true) → Rows runs → Rows (w :: runs)
  | gap {g : Char} {k : Nat} {runs : List (List Char)} : isGap g = true →
    (∀ c ∈ runs.flatten.head?, isGap c = false) → Rows runs →
      Rows (List.replicate (k + 1) g :: runs)

/-- Do two characters belong to one run? -/
def sameRun (a b : Char) : Bool :=
  if isGap a || isGap b then a == b else true

/-- The end of a text without blanks at line breaks has none. -/
lemma hasBrokenBlank_append_right (h : hasBrokenBlank (cs ++ ds) = false) :
    hasBrokenBlank ds = false := by
  induction cs with
  | nil => exact h
  | cons c cs ih =>
    refine ih ?_
    rw [List.cons_append] at h
    cases hcs : cs ++ ds with
    | nil => rfl
    | cons d rest =>
      rw [hcs, hasBrokenBlank, Bool.or_eq_false_iff] at h
      exact h.2

/-- Two gaps side by side are the same character. -/
lemma not_broken_of_append {a b : Char} (h : hasBrokenBlank (cs ++ a :: b :: ds) = false)
    (ha : isGap a = true) (hb : isGap b = true) : a = b := by
  have h' := hasBrokenBlank_append_right h
  rw [hasBrokenBlank, Bool.or_eq_false_iff, ha, hb] at h'
  simpa using h'.1

/-- A run that begins with a gap holds nothing else. -/
lemma eq_of_mem_gap {g : Char} (hg : isGap g = true)
    (h : (g :: cs).IsChain fun a b => sameRun a b) :
    ∀ c ∈ cs, c = g := by
  induction cs with
  | nil => simp
  | cons c cs ih =>
    rw [List.isChain_cons_cons] at h
    have hc : g = c := by simpa [sameRun, hg] using h.1
    subst hc
    simpa using ih h.2

/-- A run that begins with another character holds no gap. -/
lemma isGap_of_mem_word {c : Char} (hc : isGap c = false)
    (h : (c :: cs).IsChain fun a b => sameRun a b) :
    ∀ d ∈ cs, isGap d = false := by
  induction cs generalizing c with
  | nil => simp
  | cons d cs ih =>
    rw [List.isChain_cons_cons] at h
    have hd : isGap d = false := by
      by_contra hd
      rw [Bool.not_eq_false] at hd
      have hcd : c = d := by simpa [sameRun, hd] using h.1
      rw [hcd, hd] at hc
      cases hc
    intro e he
    rcases List.mem_cons.mp he with rfl | he
    · exact hd
    · exact ih hd h.2 e he

/-- The runs of a text without blanks at line breaks are rows. -/
lemma rows_of_chain (hne : [] ∉ runs) (hin : ∀ r ∈ runs, r.IsChain fun a b => sameRun a b)
    (hbetween : runs.IsChain fun a b => ∃ ha hb, sameRun (a.getLast ha) (b.head hb) = false)
    (hbroken : hasBrokenBlank runs.flatten = false) : Rows runs := by
  induction runs with
  | nil => exact .nil
  | cons r runs ih =>
    have hrows := ih (fun h => hne (by simp [h])) (fun r' hr' => hin r' (by simp [hr']))
      (List.isChain_cons.mp hbetween).2 (hasBrokenBlank_append_right hbroken)
    cases r with
    | nil => exact absurd List.mem_cons_self hne
    | cons c cs =>
      have hchain := hin _ List.mem_cons_self
      -- The last character of this run and the first of the next one do not belong together.
      have hnext : ∀ d ∈ runs.flatten.head?, sameRun ((c :: cs).getLast (by simp)) d = false := by
        intro d hd
        cases runs with
        | nil => cases hd
        | cons r' runs =>
          obtain ⟨_, hr', hcut⟩ := (List.isChain_cons_cons.mp hbetween).1
          rw [List.flatten_cons, List.head?_append_of_ne_nil _ hr',
            List.head?_eq_some_head hr'] at hd
          exact Option.some.inj hd ▸ hcut
      cases hc : isGap c with
      | true =>
        have hall := eq_of_mem_gap hc hchain
        have hreplicate : c :: cs = List.replicate (cs.length + 1) c := by
          rw [List.replicate_succ, List.eq_replicate_iff.mpr ⟨rfl, hall⟩, List.length_replicate]
        have hlast : (c :: cs).getLast (by simp) = c := by
          rcases List.mem_cons.mp (List.getLast_mem (l := c :: cs) (by simp)) with h | h
          · exact h
          · exact hall _ h
        rw [hreplicate]
        refine .gap hc (fun d hd => ?_) hrows
        have hcut := hnext d hd
        rw [hlast, sameRun, hc, Bool.true_or, if_pos rfl] at hcut
        by_contra hd'
        rw [Bool.not_eq_false] at hd'
        obtain ⟨tail, htail⟩ : ∃ tail, runs.flatten = d :: tail := by
          cases hflat : runs.flatten with
          | nil =>
            rw [hflat] at hd
            cases hd
          | cons e tail =>
            rw [hflat] at hd
            cases hd
            exact ⟨tail, rfl⟩
        rw [List.flatten_cons, htail, ← List.dropLast_append_getLast (l := c :: cs) (by simp),
          hlast, List.append_assoc] at hbroken
        have := not_broken_of_append hbroken hc hd'
        simp [this] at hcut
      | false =>
        have hall : ∀ d ∈ c :: cs, isGap d = false := by
          intro d hd
          rcases List.mem_cons.mp hd with rfl | hd
          · exact hc
          · exact isGap_of_mem_word hc hchain d hd
        refine .word (by simp) hall (fun d hd => ?_) hrows
        have hcut := hnext d hd
        by_contra hd'
        rw [Bool.not_eq_true] at hd'
        simp [sameRun, hall _ (List.getLast_mem _), hd'] at hcut

/-- Where no blank meets a line break, a text is cut into words and gaps. -/
lemma rows_runsOf (h : hasBrokenBlank cs = false) : Rows (runsOf cs) :=
  rows_of_chain (List.nil_notMem_splitBy _ _) (fun _ hr => List.isChain_of_mem_splitBy hr)
    (List.isChain_getLast_head_splitBy ..) (by rwa [runsOf, List.flatten_splitBy])

/-! ## Layouts -/

/-- The ways to lay out a text at an indentation, in which words are written by `write`. -/
inductive Laid (indent : Nat) (write : List Char → List Char) : List Char → List Char → Prop where
  | nil : Laid indent write [] []
  | word {w cs out : List Char} : w ≠ [] → (∀ c ∈ w, isGap c = false) →
    (∀ c ∈ cs.head?, isGap c = true) →
    Laid indent write cs out → Laid indent write (w ++ cs) (write w ++ out)
  | blanks {k : Nat} {cs out : List Char} : (∀ c ∈ cs.head?, isGap c = false) →
    Laid indent write cs out →
    Laid indent write (List.replicate (k + 1) ' ' ++ cs) (List.replicate (k + 1) ' ' ++ out)
  | fold {cs out : List Char} : (∀ c ∈ cs.head?, isGap c = false) →
    Laid indent write cs out →
      Laid indent write (' ' :: cs) ('\n' :: (List.replicate indent ' ' ++ out))
  | breaks {k : Nat} {cs out : List Char} : (∀ c ∈ cs.head?, isGap c = false) →
    Laid indent write cs out →
    Laid indent write (List.replicate (k + 1) '\n' ++ cs)
      (List.replicate (k + 2) '\n' ++ (List.replicate indent ' ' ++ out))

/-- What is written for the runs of a text lays it out. -/
lemma laid_foldRuns {write : List Char → List Char}
    (hwrite : ∀ k, write (List.replicate k ' ') = List.replicate k ' ') (h : Rows runs)
    (guarded first : Bool) (indent column : Nat) :
    Laid indent write runs.flatten (foldRuns write guarded first indent column runs) := by
  induction h generalizing first column with
  | nil => exact .nil
  | @word w runs hne hw hnext _ ih =>
    have hfold : foldRuns write guarded first indent column (w :: runs) =
        write w ++ foldRuns write guarded false indent (column + (write w).length) runs := by
      rw [foldRuns]
      · intro rest h
        have := hw '\n' (by simp [h])
        cases this
      · rintro rfl
        have := hw ' ' (by simp)
        cases this
    rw [hfold, List.flatten_cons]
    exact .word hne hw hnext (ih ..)
  | @gap g k runs hg hnext _ ih =>
    rw [List.flatten_cons]
    have hcases : g = ' ' ∨ g = '\n' := by simpa [isGap] using hg
    rcases hcases with rfl | rfl
    · cases k with
      | zero =>
        have hfold : foldRuns write guarded first indent column ([' '] :: runs) =
            if margin < column && !(guarded && (first || runs.isEmpty)) then
              newLine indent ++ foldRuns write guarded false indent indent runs
            else ' ' :: foldRuns write guarded false indent (column + 1) runs := rfl
        rw [List.replicate_succ, List.replicate_zero, hfold]
        split
        · exact .fold hnext (ih ..)
        · exact .blanks (k := 0) hnext (ih ..)
      | succ k =>
        have hfold :
            foldRuns write guarded first indent column (List.replicate (k + 2) ' ' :: runs) =
            List.replicate (k + 2) ' ' ++
              foldRuns write guarded false indent (column + (k + 2)) runs := by
          rw [foldRuns, hwrite, List.length_replicate]
          · intro rest h
            cases h
          · intro h
            cases h
        rw [hfold]
        exact .blanks hnext (ih ..)
    · have hfold :
          foldRuns write guarded first indent column (List.replicate (k + 1) '\n' :: runs) =
          List.replicate (k + 2) '\n' ++
            (List.replicate indent ' ' ++ foldRuns write guarded false indent indent runs) := by
        rw [List.replicate_succ, foldRuns, List.length_cons, List.length_replicate,
          List.append_assoc]
      rw [hfold]
      exact .breaks hnext (ih ..)

/-- Laying out a text brings in blanks and line breaks and no other characters. -/
lemma Laid.forall_mem {write : List Char → List Char} {indent : Nat} {out : List Char}
    {P : Char → Prop} (hblank : P ' ') (hbreak : P '\n')
    (hwrite : ∀ w : List Char, (∀ c ∈ w, P c) → ∀ c ∈ write w, P c) (h : Laid indent write cs out)
    (hcs : ∀ c ∈ cs, P c) : ∀ c ∈ out, P c := by
  have hreplicate (k : Nat) {g : Char} (hg : P g) : ∀ c ∈ List.replicate k g, P c :=
    fun c hc => List.eq_of_mem_replicate hc ▸ hg
  induction h with
  | nil => exact hcs
  | word _ _ _ _ ih =>
    rw [List.forall_mem_append] at hcs ⊢
    exact ⟨hwrite _ hcs.1, ih hcs.2⟩
  | blanks _ _ ih =>
    rw [List.forall_mem_append] at hcs ⊢
    exact ⟨hcs.1, ih hcs.2⟩
  | fold _ _ ih =>
    rw [List.forall_mem_cons] at hcs ⊢
    exact ⟨hbreak, List.forall_mem_append.mpr ⟨hreplicate _ hblank, ih hcs.2⟩⟩
  | breaks _ _ ih =>
    rw [List.forall_mem_append] at hcs ⊢
    exact ⟨hreplicate _ hbreak, List.forall_mem_append.mpr ⟨hreplicate _ hblank, ih hcs.2⟩⟩

end Stencil.Yaml
