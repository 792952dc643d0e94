import Stencil.Proofs.Yaml.Escapes
import Stencil.Proofs.Yaml.Plain

/-!
# Written texts

`Written` relates a text to the ways in which it may stand in a file. What `writeText` writes is one
of them (`written_writeText`), and whichever it is, one token is read from it that holds the text:
before a line break (`fetch_written`) or, for a key, before a colon (`fetch_key`).
-/

namespace Stencil.Yaml

open Style

/-- `out` is a way to write `s` whose further lines have the given indentation. The truth value says
whether it is plain. -/
inductive Written (indent : Nat) : String → Bool → List Char → Prop where
  | plain {s : String} {out : List Char} : allowsPlain s.toList = true → s.toList ≠ [] →
    Laid indent id s.toList out → Written indent s true out
  | single {s : String} {out : List Char} : (∀ c ∈ s.toList, needsEscape c = false) →
    Laid indent doubleQuotes s.toList out → Written indent s false ('\x27' :: (out ++ ['\x27']))
  | double {s : String} {out : List Char} : Escapes indent s.toList out →
    Written indent s false ('\x22' :: (out ++ ['\x22']))

/-- The token of a text as it is written. -/
def textToken (s : String) : Token :=
  .scalar s (Style.of s == .plain)

section

variable {s s' : Scanner} {text : String} {isPlain : Bool} {r out : List Char} {c : Char}
  {indent m : Nat}

/-! ## Writing -/

/-- A plain text without gaps is written as it is. -/
lemma written_word (hplain : allowsPlain text.toList = true) (hne : text.toList ≠ [])
    (hgap : ∀ c ∈ text.toList, isGap c = false) : Written indent text true text.toList := by
  have hlaid : Laid indent id (text.toList ++ []) (text.toList ++ []) :=
    .word hne hgap (by simp) .nil
  rw [List.append_nil] at hlaid
  exact .plain hplain hne hlaid

/-- A text is written plain if it would be read as a text and has nothing that forbids it. -/
lemma of_style_plain (h : Style.of text = .plain) :
    tagOf text = coreTag "str" ∧ allowsPlain text.toList = true ∧ text.toList ≠ [] := by
  unfold Style.of at h
  split_ifs at h with hplain
  simp only [Bool.and_eq_true, beq_iff_eq] at hplain
  refine ⟨hplain.1, hplain.2, fun hempty => ?_⟩
  obtain rfl : text = "" := String.toList_injective hempty
  exact absurd hplain.1 (by decide +kernel)

/-- A text that may stand in single quotes has no character to escape and no blank at a line
break. -/
lemma of_allowsSingle {cs : List Char} (h : allowsSingle cs = true) :
    (∀ c ∈ cs, needsEscape c = false) ∧ hasBrokenBlank cs = false := by
  simpa [allowsSingle] using h

/-- A text that is not written in double quotes may stand in single ones. -/
lemma allowsSingle_of_style (h : Style.of text ≠ .double) : allowsSingle text.toList = true := by
  unfold Style.of at h
  split_ifs at h with hplain hsingle
  · simp only [Bool.and_eq_true, allowsPlain] at hplain
    exact hplain.2.1.1.1.1.1
  · exact hsingle
  · exact absurd rfl h

/-- The runs of a text are laid out, wherever a line is broken. -/
lemma laid_runsOf {write : List Char → List Char}
    (hwrite : ∀ k, write (List.replicate k ' ') = List.replicate k ' ') {cs : List Char}
    (h : hasBrokenBlank cs = false) (guarded first : Bool) (indent column : Nat) :
    Laid indent write cs (foldRuns write guarded first indent column (runsOf cs)) := by
  have hlaid := laid_foldRuns hwrite (rows_runsOf h) guarded first indent column
  rwa [runsOf, List.flatten_splitBy] at hlaid

/-- A text is written in a way that can be read. -/
lemma written_writeText (hindent : indent < margin) (column : Nat) (text : String) :
    Written indent text (Style.of text == .plain) (writeText true indent column text) := by
  unfold writeText
  cases hstyle : Style.of text with
  | plain =>
    obtain ⟨-, hplain, hne⟩ := of_style_plain hstyle
    have hbroken := (of_allowsSingle (allowsSingle_of_style (by rw [hstyle]; decide))).2
    exact .plain hplain hne (laid_runsOf (fun _ => rfl) hbroken ..)
  | single =>
    obtain ⟨hprinted, hbroken⟩ := of_allowsSingle (allowsSingle_of_style (by rw [hstyle]; decide))
    exact .single hprinted (laid_runsOf doubleQuotes_blanks hbroken ..)
  | double =>
    obtain ⟨out, hout, hescapes⟩ := escapes_escapeFold hindent true true (column + 1) [] text.toList
    dsimp only
    rw [hout]
    exact .double hescapes

/-! ## A scalar before a line break -/

/-- The place where a key may have begun. -/
def Scanner.mark (s : Scanner) : KeyMark :=
  { tokens := s.tokens.length
    required := s.depth == 0 && s.indent == (s.column : Int)
    index := s.index
    line := s.line
    column := s.column }

/-- The keys that may begin here, if one may. -/
def Scanner.marks (s : Scanner) : List (Nat × KeyMark) :=
  if s.keyAllowed then [(s.depth, s.mark)] else []

/-- Marking notes a key that may begin here. -/
lemma run_markKey (h : s.keys = []) : markKey.run s = .ok ((), { s with keys := s.marks }) := by
  rw [markKey, run_get_then, Scanner.marks]
  split_ifs with hallowed
  · rw [run_then (run_dropKey h)]
    show Except.ok ((), { s with keys := s.keys ++ [(s.depth, s.mark)] }) = _
    rw [h]
    rfl
  · rw [← h]
    rfl

/-- The scanner where a scalar begins. -/
def Scanner.begun (s : Scanner) : Scanner :=
  { s with keyAllowed := false, keys := s.marks }

/-- The scanner after a scalar of `n` characters. -/
def Scanner.taken (s : Scanner) (n : Nat) (t : Token) : Scanner :=
  { s.advanceBy n with tokens := s.tokens ++ [t], keyAllowed := false, keys := s.marks }

/-- Moving on within a token keeps what was noted at its start. -/
lemma advanceBy_begun (s : Scanner) (n : Nat) :
    s.begun.advanceBy n = { s.advanceBy n with keyAllowed := false, keys := s.marks } := by
  rw [Scanner.begun, Scanner.advanceBy_mk]
  simp

/-- What is read between quotes makes a token. -/
lemma fetch_of_quotedFrom (double : Bool) {cs : List Char} (hkeys : s.keys = [])
    (hs : s.rest = quoteOf double :: (out ++ quoteOf double :: r))
    (hread : ∀ s : Scanner, s.rest = out ++ quoteOf double :: r → ∀ fuel, out.length < fuel →
      (quotedFrom double fuel).run s = .ok (cs, s.advanceBy (out.length + 1))) :
    fetch.run s = .ok (true, s.taken (out.length + 2) (.scalar (String.ofList cs) false)) := by
  have hrest : (s.begun.advanceBy 1).rest = out ++ quoteOf double :: r :=
    Scanner.rest_after (p := [_]) hs
  have hinside := hread (s.begun.advanceBy 1) hrest ((s.begun.advanceBy 1).rest.length + 1)
    (by rw [hrest, List.length_append]; omega)
  have hbegun :
      (do allowKey false; quotedScalar double; pure true : ScanM Bool).run
        { s with keys := s.marks } =
      (do quotedScalar double; pure true : ScanM Bool).run s.begun := rfl
  rw [fetch_quoted double (peekAt_zero hs), run_then (run_markKey hkeys), hbegun, quotedScalar,
    bind_assoc, run_then (run_forward 1), bind_assoc, run_get_then, bind_assoc, run_then hinside,
    run_then (run_emit _), ← Scanner.advanceBy_add, Nat.add_comm 1, advanceBy_begun]
  simp [Scanner.taken]

/-- What is read plain makes a token. -/
lemma fetch_of_plainFrom {cs : List Char} (hkeys : s.keys = []) (hdepth : s.depth = 0)
    (hmark : s.Unmarked) (hstart : startsPlain false (s.peekAt 0) (s.peekAt 1) = true)
    (hread : (plainFrom [] (s.begun.rest.length + 1)).run s.begun = .ok (cs, s')) :
    fetch.run s =
      .ok (true, { s' with tokens := s'.tokens ++ [.scalar (String.ofList cs) true] }) := by
  have hbegun :
      (do allowKey false; plainScalar; pure true : ScanM Bool).run { s with keys := s.marks } =
      (do plainScalar; pure true : ScanM Bool).run s.begun := rfl
  rw [fetch_plain hstart hdepth hmark, run_then (run_markKey hkeys), hbegun, plainScalar,
    bind_assoc, run_get_then, bind_assoc, run_then hread, run_then (run_emit _)]
  rfl

/-- A plain text begins like nothing else. -/
lemma startsPlain_of_sentence {cs tail : List Char} (hplain : allowsPlain cs = true)
    (h : Sentence indent cs out) (hs : s.rest = out ++ tail) :
    startsPlain false (s.peekAt 0) (s.peekAt 1) = true := by
  obtain ⟨w, more, more', hw, rfl, rfl, hmore⟩ := h.exists_word
  obtain ⟨c, v, rfl⟩ := List.exists_cons_of_ne_nil hw.ne_nil
  have hvisible := hw.visible c (by simp)
  rw [List.append_assoc, List.cons_append] at hs
  obtain ⟨hstart, -⟩ := startsOtherwise_of_allowsPlain hplain
  simp only [List.cons_append, startsOtherwise, Bool.or_eq_false_iff] at hstart
  obtain ⟨⟨⟨hindicator, hgap⟩, -⟩, -⟩ := hstart
  rw [peekAt_zero hs, peekAt_one hs, startsPlain, isBlankOrEnd_of_visible hvisible]
  by_cases hspecial : c = '-' ∨ c = '?' ∨ c = ':'
  · -- A visible character must follow within the word.
    cases v with
    | nil =>
      have hend : isGap (more.head?.getD ' ') = true := by
        cases more with
        | nil => rfl
        | cons d more => exact hmore d rfl
      rw [List.nil_append, hend] at hgap
      rcases hspecial with rfl | rfl | rfl <;> cases hgap
    | cons d v =>
      have hnext := isBlankOrEnd_of_visible (hw.visible d (by simp))
      rcases hspecial with rfl | rfl | rfl <;> simp [hnext]
  · simp only [not_or] at hspecial
    have hother : isOneOf "-?:,[]\x7b\x7d#&*!|>'\"%@\x60" c = false := by
      simp [isOneOf] at hindicator ⊢
      simp [hindicator, hspecial]
    rw [hother]
    rfl

/-- Moving on behind a token keeps it. -/
lemma advanceBy_taken (s : Scanner) (n k : Nat) (t : Token) :
    (s.taken n t).advanceBy k = s.taken (n + k) t := by
  rw [Scanner.taken, Scanner.advanceBy_mk, Scanner.taken, Scanner.advanceBy_add]
  simp

/-- Nothing is written as nothing. -/
lemma Written.length_pos (h : Written indent text isPlain out) : 0 < out.length := by
  cases h with
  | plain hplain hne hlaid =>
    obtain ⟨w, -, more, hw, -, rfl, -⟩ := (sentence_of_laid hlaid hplain hne).exists_word
    rw [List.length_append]
    exact Nat.lt_of_lt_of_le (List.length_pos_iff.mpr hw.ne_nil) (Nat.le_add_right ..)
  | single _ _ => exact Nat.succ_pos _
  | double _ => exact Nat.succ_pos _

/-- What is written starts like a token. -/
lemma Written.starts (h : Written indent text isPlain out) (tail : List Char) :
    Starts (out ++ tail) := by
  cases h with
  | plain hplain hne hlaid => exact (sentence_of_laid hlaid hplain hne).starts tail
  | single _ _ => rintro _ ⟨⟩; decide
  | double _ => rintro _ ⟨⟩; decide

/-- Only characters that can be shown are written. -/
lemma Written.printed (h : Written indent text isPlain out) : ∀ c ∈ out, needsEscape c = false := by
  cases h with
  | plain hplain _ hlaid =>
    exact hlaid.forall_mem rfl rfl (fun _ hw => hw) fun c hc =>
      ((bland_of_allowsPlain hplain).printed c hc).1
  | single hprinted hlaid =>
    refine List.forall_mem_cons.mpr ⟨rfl, List.forall_mem_append.mpr ⟨?_, by simp [needsEscape]⟩⟩
    refine hlaid.forall_mem rfl rfl (fun w hw c hc => ?_) hprinted
    rcases mem_doubleQuotes hc with rfl | hc
    · rfl
    · exact hw c hc
  | double hescapes =>
    exact List.forall_mem_cons.mpr
      ⟨rfl, List.forall_mem_append.mpr ⟨hescapes.printed, by simp [needsEscape]⟩⟩

/-- A quoted text is one token. -/
lemma fetch_quotedText (h : Written indent text false out) (hs : s.rest = out ++ c :: r)
    (hc : c ≠ '\x27') (hkeys : s.keys = []) (hpos : 0 < indent) :
    fetch.run s = .ok (true, s.taken out.length (.scalar text false)) := by
  have hr : (c :: r).head? ≠ some '\x27' := by simpa using hc
  cases h with
  | @single out hprinted hlaid =>
    have hread :=
      fetch_of_quotedFrom false hkeys (by simpa [quoteOf] using hs) fun s hs fuel hfuel =>
        run_quotedFrom_laid hpos hlaid hprinted hs hr hfuel
    rwa [String.ofList_toList,
      ← show ('\x27' :: (out ++ ['\x27'])).length = out.length + 2 by simp] at hread
  | @double out hescapes =>
    have hread :=
      fetch_of_quotedFrom true hkeys (by simpa [quoteOf] using hs) fun s hs fuel hfuel =>
        run_quotedFrom_escapes (k := 0) hpos hescapes hs hr hfuel
    have hlength : ('\x22' :: (out ++ ['\x22'])).length = out.length + 2 := by simp
    rwa [List.replicate_zero, List.nil_append, String.ofList_toList, ← hlength] at hread

/-- A text at the end of a line is one token. Up to the next line's first token nothing else is
read. -/
lemma fetch_written (h : Written indent text isPlain out)
    (hs : s.rest = out ++ '\n' :: (List.replicate m ' ' ++ r)) (hr : Line m r)
    (hdepth : s.depth = 0) (hkeys : s.keys = []) (hpos : 0 < indent) (hindent : s.indent < indent)
    (hcolumn : s.indent < s.column) (hm : m ≤ s.indent) :
    ∃ s', fetch.run s = .ok (true, s') ∧ s'.rest.length < s.rest.length ∧
      r.length ≤ s'.rest.length ∧
      (toNextToken (s'.rest.length + 1)).run s' =
        .ok ((), { s.taken (out.length + (1 + m)) (.scalar text isPlain) with
          keyAllowed := true }) := by
  cases isPlain with
  | true =>
    obtain ⟨hplain, hne, hlaid⟩ : allowsPlain text.toList = true ∧ text.toList ≠ [] ∧
        Laid indent id text.toList out := by
      cases h with
      | plain hplain hne hlaid => exact ⟨hplain, hne, hlaid⟩
    have hsentence := sentence_of_laid hlaid hplain hne
    have hread : (plainFrom [] (s.begun.rest.length + 1)).run s.begun =
        .ok (text.toList, { (s.begun.behind out.length).advanceBy (1 + m) with
          keyAllowed := true }) :=
      run_plainFrom hsentence hpos hindent rfl hr hm hs hdepth rfl hcolumn
        (by rw [show s.begun.rest = _ from hs, List.length_append]; omega)
    have hmark : s.Unmarked := fun hzero => by omega
    have hfetch : fetch.run s =
        .ok (true, { s.taken (out.length + (1 + m)) (.scalar text true) with
          keyAllowed := true }) := by
      rw [fetch_of_plainFrom hkeys hdepth hmark (startsPlain_of_sentence hplain hsentence hs) hread,
        Scanner.advanceBy_behind, Scanner.behind, advanceBy_begun]
      simp [Scanner.taken]
    have hrest : (s.taken (out.length + (1 + m)) (.scalar text true)).rest = r :=
      Scanner.rest_after_newline hs
    refine ⟨_, hfetch, ?_, ?_, ?_⟩
    · rw [hrest, hs, List.length_append, List.length_cons, List.length_append]
      omega
    · rw [hrest]
    · refine run_toNextToken_blanks (m := 0) hr.starts ?_ _
      exact hrest
  | false =>
    have hrest : (s.taken out.length (.scalar text false)).rest =
        '\n' :: (List.replicate m ' ' ++ r) := Scanner.rest_after hs
    refine ⟨_, fetch_quotedText h hs (by decide) hkeys hpos, ?_, ?_, ?_⟩
    · rw [hrest, hs, List.length_append]
      exact Nat.lt_add_of_pos_left h.length_pos
    · rw [hrest, List.length_cons, List.length_append]
      omega
    · have hnext :=
        run_toNextToken_newline hr.starts hrest (by simpa [Scanner.taken] using hdepth)
          (m + r.length)
      rw [advanceBy_taken] at hnext
      rwa [hrest, List.length_cons, List.length_append, List.length_replicate]

end

/-! ## Keys -/

/-- A word that may stand as a key at the start of a line. -/
structure KeyWord (key : String) : Prop where
  ne_nil : key.toList ≠ []
  visible : ∀ c ∈ key.toList, Visible c
  unmarked : ∀ c ∈ key.toList.head?, c ≠ '-' ∧ c ≠ '.'

section

variable {s : Scanner} {key : String} {r : List Char} {c : Char}

/-- Visible characters have no blank at a line break. -/
lemma not_broken_of_visible {cs : List Char} (h : ∀ c ∈ cs, Visible c) :
    hasBrokenBlank cs = false := by
  induction cs with
  | nil => rfl
  | cons c cs ih =>
    cases cs with
    | nil => rfl
    | cons d cs =>
      rw [hasBrokenBlank, isGap_of_visible (h c (by simp)), ih fun d hd => h d (by simp [hd])]
      rfl

/-- Visible characters may stand in single quotes. -/
lemma allowsSingle_of_visible {cs : List Char} (h : ∀ c ∈ cs, Visible c) :
    allowsSingle cs = true := by
  rw [allowsSingle, not_broken_of_visible h, List.any_eq_false.mpr fun c hc => by
    simp [needsEscape_of_visible (h c hc)]]
  rfl

/-- A key is not written in double quotes. -/
lemma KeyWord.style (h : KeyWord key) : Style.of key ≠ .double := by
  have hsingle := allowsSingle_of_visible h.visible
  unfold Style.of
  split_ifs
  all_goals simp

/-- What is written for a key that stands on one line with its value. -/
lemma KeyWord.writeText_eq (h : KeyWord key) (indent column : Nat) :
    (Style.of key = .plain ∧ writeText false indent column key = key.toList) ∨
      Style.of key = .single ∧
      writeText false indent column key = '\x27' :: (doubleQuotes key.toList ++ ['\x27']) := by
  unfold writeText
  cases hstyle : Style.of key with
  | plain => exact .inl ⟨rfl, rfl⟩
  | single => exact .inr ⟨rfl, rfl⟩
  | double => exact absurd hstyle h.style

/-- A key that is written plain is a word. -/
lemma KeyWord.word (h : KeyWord key) (hplain : allowsPlain key.toList = true) :
    Word key.toList where
  ne_nil := h.ne_nil
  visible := h.visible
  head := head?_ne_sign_of_allowsPlain hplain
  last :=
    getLast?_ne_colon (by rw [List.append_nil]; exact (bland_of_allowsPlain hplain).indicator)
      (by simp)

/-- A key is one token. -/
lemma fetch_key (h : KeyWord key) {indent column : Nat}
    (hs : s.rest = writeText false indent column key ++ ':' :: c :: r) (hc : isBlankOrEnd c = true)
    (hdepth : s.depth = 0) (hkeys : s.keys = []) :
    fetch.run s =
      .ok (true, s.taken (writeText false indent column key).length (textToken key)) := by
  rw [textToken]
  rcases h.writeText_eq indent column with ⟨hstyle, hout⟩ | ⟨hstyle, hout⟩
  all_goals rw [hout] at hs ⊢; rw [hstyle]
  · obtain ⟨-, hplain, -⟩ := of_style_plain hstyle
    have hword := h.word hplain
    have hread : (plainFrom [] (s.begun.rest.length + 1)).run s.begun =
        .ok (key.toList, s.begun.behind key.toList.length) := run_plainFrom_colon hword hs hc hdepth
    have hmark : s.Unmarked := fun _ => by
      obtain ⟨d, cs, hcons⟩ := List.exists_cons_of_ne_nil h.ne_nil
      rw [peekAt_zero (hs.trans (by rw [hcons, List.cons_append]))]
      exact h.unmarked d (by rw [hcons]; rfl)
    have hsentence : Sentence 0 key.toList key.toList := .word hword
    rw [fetch_of_plainFrom hkeys hdepth hmark (startsPlain_of_sentence hplain hsentence hs) hread,
      String.ofList_toList, Scanner.behind, advanceBy_begun]
    simp [Scanner.taken]
  · have hlaid : Laid 1 doubleQuotes (key.toList ++ []) (doubleQuotes key.toList ++ []) :=
      .word h.ne_nil (fun c hc => isGap_of_visible (h.visible c hc)) (by simp) .nil
    rw [List.append_nil, List.append_nil] at hlaid
    exact fetch_quotedText (.single (fun c hc => needsEscape_of_visible (h.visible c hc)) hlaid) hs
      (by decide) hkeys
      Nat.one_pos

/-- Doubling the quotes makes a text at most twice as long. -/
lemma length_doubleQuotes_le (cs : List Char) : (doubleQuotes cs).length ≤ 2 * cs.length := by
  induction cs with
  | nil => exact Nat.le_refl _
  | cons c cs ih =>
    have hcons : doubleQuotes (c :: cs) =
        (if c == '\x27' then ['\x27', '\x27'] else [c]) ++ doubleQuotes cs := rfl
    rw [hcons, List.length_append, List.length_cons]
    have hpiece : (if c == '\x27' then ['\x27', '\x27'] else [c]).length ≤ 2 :=
      by split_ifs <;> simp
    omega

/-- Only visible characters are written for a key. -/
lemma KeyWord.visible_of_mem (h : KeyWord key) {indent column : Nat}
    (hc : c ∈ writeText false indent column key) :
    Visible c := by
  rcases h.writeText_eq indent column with ⟨-, hout⟩ | ⟨-, hout⟩
  all_goals rw [hout] at hc
  · exact h.visible c hc
  · have hcases : c = '\x27' ∨ c ∈ doubleQuotes key.toList := by
      simp at hc
      tauto
    rcases hcases with rfl | hc
    · decide
    · rcases mem_doubleQuotes hc with rfl | hc
      · decide
      · exact h.visible c hc

/-- A key is written with at most twice its characters and two quotes. -/
lemma KeyWord.length_le (h : KeyWord key) (indent column : Nat) :
    (writeText false indent column key).length ≤ 2 * key.length + 2 := by
  have hlength : key.toList.length = key.length := String.length_toList
  rcases h.writeText_eq indent column with ⟨-, hout⟩ | ⟨-, hout⟩
  all_goals rw [hout]
  · omega
  · have hdouble := length_doubleQuotes_le key.toList
    simp
    omega

/-- A key is written with at least one character. -/
lemma KeyWord.length_pos (h : KeyWord key) (indent column : Nat) :
    0 < (writeText false indent column key).length := by
  rcases h.writeText_eq indent column with ⟨-, hout⟩ | ⟨-, hout⟩
  all_goals rw [hout]
  · exact List.length_pos_iff.mpr h.ne_nil
  · exact Nat.succ_pos _

/-- A line may begin with a key. -/
lemma KeyWord.line (h : KeyWord key) (indent column n : Nat) (r : List Char) :
    Line n (writeText false indent column key ++ r) := by
  rcases h.writeText_eq indent column with ⟨hstyle, hout⟩ | ⟨-, hout⟩
  all_goals rw [hout]
  · have hword := h.word (of_style_plain hstyle).2.1
    have hsentence : Sentence 0 key.toList key.toList := .word hword
    refine ⟨hsentence.starts r, fun _ c hc => h.unmarked c ?_⟩
    obtain ⟨d, cs, hcons⟩ := List.exists_cons_of_ne_nil h.ne_nil
    rwa [hcons] at hc ⊢
  · refine ⟨?_, fun _ => ?_⟩
    all_goals rintro _ ⟨⟩; decide

end

end Stencil.Yaml
