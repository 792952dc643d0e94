import Stencil.Proofs.Yaml.Fold
import Stencil.Proofs.Yaml.Scanner

/-!
# Quoted texts

What the reader does with the parts of a quoted text, and that it reads back a text between single
quotes however it is laid out (`run_quotedFrom_laid`): quotes are doubled there, and lines are
folded at blanks.
-/

namespace Stencil.Yaml

open Style

section

variable {s s' : Scanner} {r cs : List Char} {double : Bool} {fuel : Nat}

/-! ## What stands between quotes -/

/-- A quote is no blank and not the end. -/
lemma isBlankOrEnd_quoteOf (double : Bool) : isBlankOrEnd (quoteOf double) = false := by
  cases double <;> decide

/-- One step of reading a quoted text looks at two characters. -/
lemma quotedFrom_succ (double : Bool) (fuel : Nat) : quotedFrom double (fuel + 1) = (do
    let c ← peek
    let next ← peek 1
    if !double && c == '\x27' && next == '\x27' then
      forward 2
      return '\x27' :: (← quotedFrom double fuel)
    else if c == quoteOf double then
      forward
      return []
    else if isBlankOrEnd c then
      let cs ← quotedSpace
      return cs ++ (← quotedFrom double fuel)
    else if double && c == '\\' then
      let cs ← quotedEscape
      return cs ++ (← quotedFrom double fuel)
    else
      forward
      return c :: (← quotedFrom double fuel)) :=
  rfl

/-- The closing quote. -/
lemma run_quotedFrom_close (h : s.rest = quoteOf double :: r) (hr : r.head? ≠ some '\x27')
    (fuel : Nat) :
    (quotedFrom double (fuel + 1)).run s = .ok ([], s.advanceBy 1) := by
  have hdoubled : (!double && s.peekAt 0 == '\x27' && s.peekAt 1 == '\x27') = false := by
    cases double with
    | true => rfl
    | false =>
      have hnext : s.peekAt 1 ≠ '\x27' := by
        rw [peekAt_one h]
        cases r with
        | nil => decide
        | cons c r => exact fun hc => hr (congrArg some hc)
      simp [hnext]
  rw [quotedFrom_succ, run_then (run_peek 0), run_then (run_peek 1), hdoubled, peekAt_zero h]
  simp only [Bool.false_eq_true, if_false, beq_self_eq_true, if_true]
  rfl

/-- A character that means nothing else. -/
lemma run_quotedFrom_char {c : Char} (h : s.rest = c :: r) (hc : isBlankOrEnd c = false)
    (hquote : c ≠ quoteOf double) (hslash : double = true → c ≠ '\\')
    (hrest : (quotedFrom double fuel).run (s.advanceBy 1) = .ok (cs, s')) :
    (quotedFrom double (fuel + 1)).run s = .ok (c :: cs, s') := by
  have hdoubled : (!double && c == '\x27' && s.peekAt 1 == '\x27') = false := by
    cases double with
    | true => rfl
    | false => simp [show c ≠ '\x27' from hquote]
  have hescape : (double && c == '\\') = false := by
    cases double with
    | true => simp [hslash rfl]
    | false => rfl
  rw [quotedFrom_succ, run_then (run_peek 0), run_then (run_peek 1), peekAt_zero h, hdoubled]
  simp only [beq_eq_false_iff_ne.mpr hquote, hc, hescape, Bool.false_eq_true, if_false]
  rw [run_then (run_forward 1), run_then hrest]
  rfl

/-- A doubled quote between single quotes. -/
lemma run_quotedFrom_doubled (h : s.rest = '\x27' :: '\x27' :: r)
    (hrest : (quotedFrom false fuel).run (s.advanceBy 2) = .ok (cs, s')) :
    (quotedFrom false (fuel + 1)).run s = .ok ('\x27' :: cs, s') := by
  have hnext : s.peekAt 1 = '\x27' := peekAt_one h
  rw [quotedFrom_succ, run_then (run_peek 0), run_then (run_peek 1), peekAt_zero h, hnext]
  simp only [Bool.not_false, beq_self_eq_true, Bool.and_self, if_true]
  rw [run_then (run_forward 2), run_then hrest]
  rfl

/-- Blanks and line breaks. -/
lemma run_quotedFrom_space {s₁ : Scanner} {space : List Char}
    (hblank : isBlankOrEnd (s.peekAt 0) = true) (hspace : quotedSpace.run s = .ok (space, s₁))
    (hrest : (quotedFrom double fuel).run s₁ = .ok (cs, s')) :
    (quotedFrom double (fuel + 1)).run s = .ok (space ++ cs, s') := by
  have hne (d : Bool) : (s.peekAt 0 == quoteOf d) = false := by
    rw [beq_eq_false_iff_ne]
    intro h
    rw [h, isBlankOrEnd_quoteOf] at hblank
    cases hblank
  have hquote : (s.peekAt 0 == '\x27') = false := hne false
  rw [quotedFrom_succ, run_then (run_peek 0), run_then (run_peek 1)]
  simp only [hne, hquote, hblank, Bool.and_false, Bool.false_and, Bool.false_eq_true, if_false,
    if_true]
  rw [run_then hspace, run_then hrest]
  rfl

/-- The blanks before another character are all that stand there. -/
lemma takeWhile_blanks {c : Char} (hc : isBlankOrEnd c = false) (m : Nat) :
    (List.replicate m ' ' ++ c :: r).takeWhile (fun c => c == ' ' || c == '\t') =
      List.replicate m ' ' := by
  simp only [isBlankOrEnd, Bool.or_eq_false_iff] at hc
  rw [List.takeWhile_append_of_pos (by simp +contextual [List.mem_replicate]),
    List.takeWhile_cons_of_neg (by simp [hc.1]), List.append_nil]

/-- The blanks of a line are read as they are. -/
lemma run_quotedSpace_blanks {c : Char} {k : Nat} (h : s.rest = List.replicate k ' ' ++ c :: r)
    (hc : isBlankOrEnd c = false) :
    quotedSpace.run s = .ok (List.replicate k ' ', s.advanceBy k) := by
  have hhere : (s.advanceBy k).peekAt 0 = c := peekAt_zero (r := r) (by simp [h])
  have hend : (c != endMark) = true := by
    simp only [isBlankOrEnd, isBreakOrEnd, Bool.or_eq_false_iff] at hc
    simpa using hc.2.1
  have hrun := run_takeRun (s := s) fun c => c == ' ' || c == '\t'
  rw [h, takeWhile_blanks hc, List.length_replicate] at hrun
  rw [quotedSpace, run_then hrun, run_then (run_peek 0), hhere, hend, run_then run_need_true,
    isBreak_of_isBlankOrEnd hc]
  rfl

/-- Line breaks between quotes are read up to the blanks of the last line. -/
lemma run_quotedBreaks {c : Char} {indent k : Nat}
    (h : s.rest = List.replicate k '\n' ++ (List.replicate indent ' ' ++ c :: r))
    (hindent : 0 < indent) (hc : isBlankOrEnd c = false) {fuel : Nat} (hfuel : k < fuel) :
    (quotedBreaks fuel).run s = .ok (List.replicate k '\n', s.advanceBy (k + indent)) := by
  obtain ⟨indent, rfl⟩ := Nat.exists_eq_succ_of_ne_zero hindent.ne'
  induction k generalizing s fuel with
  | zero =>
    obtain ⟨fuel, rfl⟩ := Nat.exists_eq_succ_of_ne_zero hfuel.ne'
    rw [List.replicate_zero, List.nil_append] at h
    have hfirst : s.peekAt 0 = ' ' := peekAt_zero h
    have hmark : atAnyMark.run s = .ok (false, s) :=
      run_atAnyMark (by rw [hfirst]; decide) (by rw [hfirst]; decide)
    have hhere : (s.advanceBy (indent + 1)).peekAt 0 = c := peekAt_zero (r := r) (by simp [h])
    have hskip := run_skipRun (s := s) fun c => c == ' ' || c == '\t'
    rw [h, takeWhile_blanks hc, List.length_replicate] at hskip
    rw [quotedBreaks, run_then hmark, Bool.not_false, run_then run_need_true, run_then hskip,
      run_then (run_peek 0), hhere, isBreak_of_isBlankOrEnd hc, Nat.zero_add]
    rfl
  | succ k ih =>
    obtain ⟨fuel, rfl⟩ := Nat.exists_eq_succ_of_ne_zero (Nat.ne_zero_of_lt hfuel)
    rw [List.replicate_succ, List.cons_append] at h
    have hfirst := peekAt_zero h
    have hmark : atAnyMark.run s = .ok (false, s) :=
      run_atAnyMark (by rw [hfirst]; decide) (by rw [hfirst]; decide)
    have hskip : (skipRun fun c => c == ' ' || c == '\t').run s = .ok ((), s) := by
      rw [run_skipRun, h]
      rfl
    have hrest : (quotedBreaks fuel).run (s.advanceBy 1) =
        .ok (List.replicate k '\n', (s.advanceBy 1).advanceBy (k + (indent + 1))) :=
          ih (by omega) (by simp [h])
    rw [quotedBreaks, run_then hmark, Bool.not_false, run_then run_need_true, run_then hskip,
      run_then (run_peek 0), hfirst, if_pos (by decide), run_then (run_lineBreak_newline h),
      run_then hrest, ← Scanner.advanceBy_add, ← Nat.add_assoc, Nat.add_comm 1]
    rfl

/-- A line break between quotes is a blank, and several are one less. -/
lemma run_quotedSpace_breaks {c : Char} {indent k : Nat}
    (h : s.rest = List.replicate (k + 1) '\n' ++ (List.replicate indent ' ' ++ c :: r))
    (hindent : 0 < indent) (hc : isBlankOrEnd c = false) :
    quotedSpace.run s =
      .ok (if k = 0 then [' '] else List.replicate k '\n', s.advanceBy (k + 1 + indent)) := by
  rw [List.replicate_succ, List.cons_append] at h
  have hfirst := peekAt_zero h
  have hrun : (takeRun fun c => c == ' ' || c == '\t').run s = .ok ([], s) := by
    rw [run_takeRun, h]
    rfl
  have hrest : (s.advanceBy 1).rest =
      List.replicate k '\n' ++ (List.replicate indent ' ' ++ c :: r) := by simp [h]
  have hfuel : k < (s.advanceBy 1).rest.length + 1 := by
    rw [hrest, List.length_append, List.length_replicate]
    omega
  have hbreaks : (quotedBreaks ((s.advanceBy 1).rest.length + 1)).run (s.advanceBy 1) =
      .ok (List.replicate k '\n', (s.advanceBy 1).advanceBy (k + indent)) :=
        run_quotedBreaks hrest hindent hc hfuel
  rw [quotedSpace, run_then hrun, run_then (run_peek 0), hfirst,
    show ('\n' != endMark) = true from rfl, run_then run_need_true, if_pos (by decide),
    run_then (run_lineBreak_newline h), run_get_then, run_then hbreaks, ← Scanner.advanceBy_add,
    ← Nat.add_assoc, Nat.add_comm 1]
  cases k <;> rfl

/-! ## Single quotes -/

/-- Blanks have no quotes to double. -/
lemma doubleQuotes_blanks (k : Nat) :
    doubleQuotes (List.replicate k ' ') = List.replicate k ' ' := by
  induction k with
  | zero => rfl
  | succ k ih =>
    rw [List.replicate_succ, doubleQuotes, List.flatMap_cons]
    exact congrArg (' ' :: ·) ih

/-- Doubling the quotes takes no character away. -/
lemma length_le_length_doubleQuotes (w : List Char) : w.length ≤ (doubleQuotes w).length := by
  induction w with
  | nil => exact Nat.le_refl _
  | cons c w ih =>
    rw [doubleQuotes, List.flatMap_cons, List.length_append, List.length_cons, Nat.add_comm]
    refine Nat.add_le_add ?_ ih
    split <;> simp

/-- Doubling the quotes adds nothing but quotes. -/
lemma mem_doubleQuotes {w : List Char} {c : Char} (h : c ∈ doubleQuotes w) :
    c = '\x27' ∨ c ∈ w := by
  obtain ⟨d, hd, hcd⟩ := List.mem_flatMap.mp h
  split_ifs at hcd
  · exact .inl (by simpa using hcd)
  · exact .inr (List.mem_singleton.mp hcd ▸ hd)

/-- A word with its quotes doubled. -/
lemma run_quotedFrom_word {w : List Char} (hw : ∀ c ∈ w, Visible c)
    (h : s.rest = doubleQuotes w ++ r)
    (hrest : (quotedFrom false fuel).run (s.advanceBy (doubleQuotes w).length) = .ok (cs, s')) :
    (quotedFrom false (fuel + w.length)).run s = .ok (w ++ cs, s') := by
  induction w generalizing s with
  | nil => exact hrest
  | cons c w ih =>
    have hvisible := isBlankOrEnd_of_visible (hw c (by simp))
    rw [List.length_cons, ← Nat.add_assoc, List.cons_append]
    rw [doubleQuotes, List.flatMap_cons] at h hrest
    by_cases hc : c = '\x27'
    · subst hc
      refine run_quotedFrom_doubled h (ih (fun d hd => hw d (by simp [hd])) ?_ ?_)
      · simp [h, doubleQuotes]
      · rw [← Scanner.advanceBy_add, Nat.add_comm]
        exact hrest
    · rw [if_neg (by simpa using hc)] at h hrest
      refine run_quotedFrom_char h hvisible hc (by simp)
        (ih (fun d hd => hw d (by simp [hd])) ?_ ?_)
      · simp [h, doubleQuotes]
      · rw [← Scanner.advanceBy_add, Nat.add_comm]
        exact hrest

/-- Behind a gap stands a character or the closing quote. -/
lemma Laid.exists_head {indent : Nat} {out : List Char} (h : Laid indent doubleQuotes cs out)
    (hcs : ∀ c ∈ cs, needsEscape c = false) (hhead : ∀ c ∈ cs.head?, isGap c = false)
    (r : List Char) :
    ∃ c tail, out ++ '\x27' :: r = c :: tail ∧ isBlankOrEnd c = false := by
  cases h with
  | nil => exact ⟨_, _, rfl, by decide⟩
  | @word w _ _ hne hw _ _ =>
    obtain ⟨c, w, rfl⟩ := List.exists_cons_of_ne_nil hne
    have hvisible := visible_of_needsEscape (hcs c (by simp)) (hw c (by simp))
    rw [doubleQuotes, List.flatMap_cons]
    split
    · exact ⟨_, _, rfl, by decide⟩
    · exact ⟨_, _, rfl, isBlankOrEnd_of_visible hvisible⟩
  | blanks _ _ => exact absurd (hhead ' ' rfl) (by decide)
  | fold _ _ => exact absurd (hhead ' ' rfl) (by decide)
  | breaks _ _ => exact absurd (hhead '\n' rfl) (by decide)

/-- A gap, if what stands behind it is read. -/
lemma run_quotedFrom_gap {g : Char} {p space out : List Char}
    (h : s.rest = g :: p ++ (out ++ '\x27' :: r))
    (hg : isBlankOrEnd g = true)
    (hspace : quotedSpace.run s = .ok (space, s.advanceBy (g :: p).length))
    (hrest : ∀ {s : Scanner} {fuel : Nat}, s.rest = out ++ '\x27' :: r → out.length < fuel →
      (quotedFrom false fuel).run s = .ok (cs, s.advanceBy (out.length + 1)))
    (hfuel : (g :: p ++ out).length < fuel) :
    (quotedFrom false fuel).run s =
      .ok (space ++ cs, s.advanceBy ((g :: p ++ out).length + 1)) := by
  obtain ⟨fuel, rfl⟩ := Nat.exists_eq_succ_of_ne_zero (Nat.ne_zero_of_lt hfuel)
  rw [List.length_append] at hfuel ⊢
  refine run_quotedFrom_space ?_ hspace ?_
  · rw [peekAt_zero h]
    exact hg
  · rw [Nat.add_assoc, Scanner.advanceBy_add (g :: p).length (out.length + 1)]
    rw [List.length_cons] at hfuel
    exact hrest (Scanner.rest_after h) (by omega)

/-- Between single quotes a text is read back, however it is laid out. -/
lemma run_quotedFrom_laid {indent : Nat} {out : List Char} (hindent : 0 < indent)
    (hlaid : Laid indent doubleQuotes cs out) (hcs : ∀ c ∈ cs, needsEscape c = false)
    (h : s.rest = out ++ '\x27' :: r) (hr : r.head? ≠ some '\x27') (hfuel : out.length < fuel) :
    (quotedFrom false fuel).run s = .ok (cs, s.advanceBy (out.length + 1)) := by
  induction hlaid generalizing s fuel with
  | nil =>
    obtain ⟨fuel, rfl⟩ := Nat.exists_eq_succ_of_ne_zero (Nat.ne_zero_of_lt hfuel)
    exact run_quotedFrom_close h hr fuel
  | @word w cs out _ hw _ _ ih =>
    have hvisible : ∀ c ∈ w, Visible c :=
      fun c hc => visible_of_needsEscape (hcs c (by simp [hc])) (hw c hc)
    have hlength := length_le_length_doubleQuotes w
    rw [List.length_append] at hfuel ⊢
    obtain ⟨fuel, rfl⟩ : ∃ n, fuel = n + w.length := ⟨fuel - w.length, by omega⟩
    refine run_quotedFrom_word (r := out ++ '\x27' :: r) hvisible (by simp [h]) ?_
    rw [Nat.add_assoc, Scanner.advanceBy_add]
    exact ih (fun c hc => hcs c (by simp [hc])) (by simp [h]) (by omega)
  | @blanks k cs out hnext hlaid ih =>
    have hcs' : ∀ c ∈ cs, needsEscape c = false := fun c hc => hcs c (by simp [hc])
    obtain ⟨c, tail, htail, hc⟩ := hlaid.exists_head hcs' hnext r
    rw [List.append_assoc] at h
    have hspace := run_quotedSpace_blanks (htail ▸ h) hc
    exact run_quotedFrom_gap (p := List.replicate k ' ') h rfl (by simpa using hspace) (ih hcs')
      hfuel
  | @fold cs out hnext hlaid ih =>
    have hcs' : ∀ c ∈ cs, needsEscape c = false := fun c hc => hcs c (by simp [hc])
    obtain ⟨c, tail, htail, hc⟩ := hlaid.exists_head hcs' hnext r
    rw [List.cons_append, List.append_assoc] at h
    have hspace := run_quotedSpace_breaks (k := 0) (htail ▸ h) hindent hc
    rw [Nat.zero_add, Nat.add_comm 1, if_pos rfl] at hspace
    exact run_quotedFrom_gap (p := List.replicate indent ' ') h rfl (by simpa using hspace)
      (ih hcs') hfuel
  | @breaks k cs out hnext hlaid ih =>
    have hcs' : ∀ c ∈ cs, needsEscape c = false := fun c hc => hcs c (by simp [hc])
    obtain ⟨c, tail, htail, hc⟩ := hlaid.exists_head hcs' hnext r
    rw [List.append_assoc, List.append_assoc] at h
    have hspace := run_quotedSpace_breaks (k := k + 1) (htail ▸ h) hindent hc
    rw [← List.append_assoc] at h hfuel ⊢
    refine run_quotedFrom_gap (p := List.replicate (k + 1) '\n' ++ List.replicate indent ' ') h
      rfl ?_ (ih hcs') hfuel
    rwa [List.length_cons, List.length_append, List.length_replicate, List.length_replicate,
      Nat.add_right_comm]

end

end Stencil.Yaml
