import Mathlib.Tactic.Common
import Stencil.Yaml.Token

/-!
# Steps of a scanner

What the steps of a scanner do, one law for each.
-/

namespace Stencil.Yaml

namespace Scanner

/-- Going on changes the place and nothing else. -/
lemma advance_eq (s : Scanner) : s.advance =
    { s with
      rest := s.rest.tail, index := s.advance.index, line := s.advance.line, column :=
        s.advance.column } := by
  unfold advance
  split
  · rename_i h
    rw [h]
    cases s
    cases h
    rfl
  · rename_i h
    rw [h]
    dsimp only
    split
    · rfl
    · split <;> rfl

/-- Moving on changes the place in the text and nothing else. -/
lemma advanceBy_eq (n : Nat) (s : Scanner) : s.advanceBy n =
    { s with
      rest := s.rest.drop n
      index := (s.advanceBy n).index, line := (s.advanceBy n).line, column :=
        (s.advanceBy n).column } := by
  induction n generalizing s with
  | zero => rfl
  | succ n ih =>
    rw [advanceBy, ih s.advance, advance_eq s]
    simp

/-- Moving on in two steps is moving on in one. -/
lemma advanceBy_add (m n : Nat) (s : Scanner) :
    s.advanceBy (m + n) = (s.advanceBy m).advanceBy n := by
  induction m generalizing s with
  | zero => rw [Nat.zero_add, advanceBy]
  | succ m ih => rw [Nat.succ_add, advanceBy, advanceBy, ih]

/-- Only the text and the place matter to going on. -/
lemma advanceBy_mk (n : Nat) (s : Scanner) (tokens : List Token) (indent : Int) (indents : List Int)
    (depth : Nat) (keyAllowed : Bool) (keys : List (Nat × KeyMark)) :
    ({ s with tokens, indent, indents, depth, keyAllowed, keys } : Scanner).advanceBy n =
      { s.advanceBy n with tokens, indent, indents, depth, keyAllowed, keys } := by
  induction n generalizing s with
  | zero => rfl
  | succ n ih =>
    rw [advanceBy, advanceBy, ← ih]
    congr 1
    unfold advance
    dsimp only
    split
    · rfl
    · split
      · rfl
      · split <;> rfl

variable (n : Nat) (s : Scanner)

/-- What is left after moving on is the text less its first characters. -/
@[simp]
lemma rest_advanceBy : (s.advanceBy n).rest = s.rest.drop n := by
  rw [advanceBy_eq]

/-- Moving on adds no token. -/
@[simp]
lemma tokens_advanceBy : (s.advanceBy n).tokens = s.tokens := by
  rw [advanceBy_eq]

/-- Moving on does not change the indentation. -/
@[simp]
lemma indent_advanceBy : (s.advanceBy n).indent = s.indent := by
  rw [advanceBy_eq]

/-- Moving on does not change the indentations around the current one. -/
@[simp]
lemma indents_advanceBy : (s.advanceBy n).indents = s.indents := by
  rw [advanceBy_eq]

/-- Moving on does not change how deep the brackets are nested. -/
@[simp]
lemma depth_advanceBy : (s.advanceBy n).depth = s.depth := by
  rw [advanceBy_eq]

/-- Moving on does not change where keys may begin. -/
@[simp]
lemma keys_advanceBy : (s.advanceBy n).keys = s.keys := by
  rw [advanceBy_eq]

variable {n s} {p r : List Char}

/-- Behind the first part of the text stands the second. -/
lemma rest_after (h : s.rest = p ++ r) : (s.advanceBy p.length).rest = r := by
  rw [rest_advanceBy, h, List.drop_left]

/-- Behind a run of one character stands the rest. -/
lemma rest_after_replicate {c : Char} {k : Nat} (h : s.rest = List.replicate k c ++ r) :
    (s.advanceBy k).rest = r := by
  rw [rest_advanceBy, h, List.drop_left' List.length_replicate]

/-- After the end of a line and the blanks of the next one. -/
lemma rest_after_newline {m : Nat} (h : s.rest = p ++ '\n' :: (List.replicate m ' ' ++ r)) :
    (s.advanceBy (p.length + (1 + m))).rest = r := by
  rw [advanceBy_add, advanceBy_add]
  exact rest_after_replicate (rest_after (p := ['\n']) (rest_after h))

/-! ### The place -/

/-- One step never goes back to an earlier line. -/
lemma line_le_advance : s.line ≤ s.advance.line := by
  unfold advance
  split
  · exact Nat.le_refl _
  · dsimp only
    split
    · exact Nat.le_succ _
    · split <;> exact Nat.le_refl _

/-- Moving on never goes back to an earlier line. -/
lemma line_le_advanceBy (n : Nat) : s.line ≤ (s.advanceBy n).line := by
  induction n generalizing s with
  | zero => exact Nat.le_refl _
  | succ n ih => exact Nat.le_trans line_le_advance ih

/-- A newline starts the next line. -/
lemma advance_newline (h : s.rest = '\n' :: r) :
    s.advance = { s with rest := r, index := s.index + 1, line := s.line + 1, column := 0 } := by
  unfold advance
  rw [h]
  rfl

/-- A line break ends a line. -/
lemma line_lt_advanceBy (h : s.rest = p ++ '\n' :: r) (k : Nat) :
    s.line < (s.advanceBy (p.length + (1 + k))).line := by
  have hrest : (s.advanceBy p.length).rest = '\n' :: r := by simp [h]
  calc s.line ≤ (s.advanceBy p.length).line := line_le_advanceBy _
    _ < (s.advanceBy p.length).advance.line := by
      rw [advance_newline hrest]
      exact Nat.lt_succ_self _
    _ ≤ ((s.advanceBy p.length).advance.advanceBy k).line := line_le_advanceBy _
    _ = (s.advanceBy (p.length + (1 + k))).line := by rw [advanceBy_add, Nat.add_comm 1, advanceBy]

/-- A character that takes one place in its line. -/
def Inline (c : Char) : Prop :=
  isBreak c = false ∧ c.toNat ≠ 0xFEFF

/-- Any other character is one column. -/
lemma advance_inline {c : Char} (h : s.rest = c :: r) (hc : Inline c) :
    s.advance = { s with rest := r, index := s.index + 1, column := s.column + 1 } := by
  unfold advance
  rw [h]
  simp [hc.1, hc.2]

/-- Characters within a line move the place on by their number. -/
lemma advanceBy_inline (h : s.rest = p ++ r) (hp : ∀ c ∈ p, Inline c) :
    s.advanceBy p.length =
      { s with rest := r, index := s.index + p.length, column := s.column + p.length } := by
  induction p generalizing s with
  | nil =>
    cases s
    cases h
    rfl
  | cons c p ih =>
    rw [List.length_cons, advanceBy, advance_inline h (hp c (by simp)),
      ih rfl fun d hd => hp d (by simp [hd])]
    simp only [Nat.add_assoc, Nat.add_comm 1]

/-- After a line break and blanks, the blanks tell the column. -/
lemma column_advanceBy_newline {m : Nat} (h : s.rest = p ++ '\n' :: (List.replicate m ' ' ++ r)) :
    (s.advanceBy (p.length + (1 + m))).column = m := by
  have hrest : (s.advanceBy p.length).rest = '\n' :: (List.replicate m ' ' ++ r) := by simp [h]
  have hnext : (s.advanceBy p.length).advance.rest = List.replicate m ' ' ++ r :=
    by rw [advance_newline hrest]
  have hblanks := advanceBy_inline hnext fun c hc => by
    rw [List.eq_of_mem_replicate hc]
    exact ⟨by decide, by decide⟩
  rw [List.length_replicate] at hblanks
  rw [advanceBy_add, Nat.add_comm 1, advanceBy, hblanks, advance_newline hrest]
  exact Nat.zero_add m

end Scanner

/-! ## Small steps -/

section

variable {α β : Type} {s s' : Scanner}

/-- Returning a value is a success. -/
@[simp]
lemma pure_eq_ok {ε : Type} (a : α) : (pure a : Except ε α) = .ok a :=
  rfl

/-- A success goes on with its value. -/
@[simp]
lemma ok_bind {ε : Type} (a : α) (f : α → Except ε β) : (Except.ok a >>= f) = f a :=
  rfl

/-- A function is applied to the value of a success. -/
@[simp]
lemma map_ok {ε : Type} (f : α → β) (a : α) : f <$> (Except.ok a : Except ε α) = .ok (f a) :=
  rfl

/-- A step that succeeds hands its result on. -/
lemma run_then {x : ScanM α} {f : α → ScanM β} {a : α} (h : x.run s = .ok (a, s')) :
    (x >>= f).run s = (f a).run s' := by
  rw [StateT.run_bind, h]
  rfl

/-- Looking at the scanner hands it to the next step. -/
lemma run_get_then {f : Scanner → ScanM β} : ((get : ScanM Scanner) >>= f).run s = (f s).run s :=
  rfl

/-- Peeking moves nothing. -/
@[simp]
lemma run_peek (n : Nat) : (peek n).run s = .ok (s.peekAt n, s) :=
  rfl

/-- Going forward moves the scanner. -/
@[simp]
lemma run_forward (n : Nat) : (forward n).run s = .ok ((), s.advanceBy n) :=
  rfl

/-- Taking a run of characters gives the longest one and moves behind it. -/
@[simp]
lemma run_takeRun (p : Char → Bool) :
    (takeRun p).run s = .ok (s.rest.takeWhile p, s.advanceBy (s.rest.takeWhile p).length) :=
  rfl

/-- Skipping a run of characters moves behind the longest one. -/
@[simp]
lemma run_skipRun (p : Char → Bool) :
    (skipRun p).run s = .ok ((), s.advanceBy (s.rest.takeWhile p).length) :=
  rfl

/-- A demand that is met changes nothing. -/
@[simp]
lemma run_need_true : (need true).run s = .ok ((), s) :=
  rfl

/-- Emitting puts a token behind the others. -/
@[simp]
lemma run_emit (t : Token) : (emit t).run s = .ok ((), { s with tokens := s.tokens ++ [t] }) :=
  rfl

/-- Allowing a key is noted, and nothing else. -/
@[simp]
lemma run_allowKey (b : Bool) : (allowKey b).run s = .ok ((), { s with keyAllowed := b }) :=
  rfl

/-- A change of the scanner gives no value. -/
lemma run_modify (f : Scanner → Scanner) : (modify f : ScanM Unit).run s = .ok ((), f s) :=
  rfl

/-- Setting the scanner gives no value. -/
lemma run_set (t : Scanner) : (set t : ScanM Unit).run s = .ok ((), t) :=
  rfl

/-- Tokens can be put among those that are there. -/
lemma run_emitAt (place : Nat) (ts : List Token) :
    (emitAt place ts).run s =
      .ok ((), { s with tokens := s.tokens.take place ++ ts ++ s.tokens.drop place }) :=
  rfl

/-- Where no key may have begun, none is dropped. -/
lemma run_dropKey (h : s.keys = []) : dropKey.run s = .ok ((), s) := by
  rw [dropKey, run_get_then, h]
  rfl

/-- The next character is the first of what is left. -/
lemma peekAt_zero {c : Char} {r : List Char} (h : s.rest = c :: r) : s.peekAt 0 = c := by
  simp [Scanner.peekAt, h]

/-- The character after the next is the second of what is left, or the mark of the end. -/
lemma peekAt_one {c : Char} {r : List Char} (h : s.rest = c :: r) :
    s.peekAt 1 = r.head?.getD endMark := by
  simp [Scanner.peekAt, h, List.head?_eq_getElem?]

/-- A newline is read as one line break. -/
lemma run_lineBreak_newline {r : List Char} (h : s.rest = '\n' :: r) :
    lineBreak.run s = .ok (['\n'], s.advanceBy 1) := by
  simp [lineBreak, peekAt_zero h]

/-- Where no line break stands none is read. -/
lemma run_lineBreak_none (h : isBreak (s.peekAt 0) = false) : lineBreak.run s = .ok ([], s) := by
  have h' := h
  simp only [isBreak, Bool.or_eq_false_iff, beq_eq_false_iff_ne] at h'
  simp [lineBreak, h, h']

/-- Neither a hyphen nor a point begins a document mark. -/
lemma run_atAnyMark (hhyphen : s.peekAt 0 ≠ '-') (hpoint : s.peekAt 0 ≠ '.') :
    atAnyMark.run s = .ok (false, s) := by
  simp [atAnyMark, atMark, hhyphen, hpoint]

/-! ## Up to the next token -/

/-- Something that is neither passed over nor the start of a comment, or the end. -/
def Starts (cs : List Char) : Prop :=
  ∀ c ∈ cs.head?, c ≠ ' ' ∧ c ≠ '#' ∧ isBreak c = false

/-- Where a token starts stands no blank, no comment and no line break. -/
lemma Starts.peekAt {r : List Char} (h : Starts r) (hs : s.rest = r) :
    s.peekAt 0 ≠ ' ' ∧ s.peekAt 0 ≠ '#' ∧ isBreak (s.peekAt 0) = false := by
  cases r with
  | nil => simp [Scanner.peekAt, hs, endMark, isBreak]
  | cons c r =>
    rw [peekAt_zero hs]
    exact h c rfl

/-- The blanks before a token are all that stand before it. -/
lemma Starts.takeWhile_blanks {r : List Char} (h : Starts r) (m : Nat) :
    (List.replicate m ' ' ++ r).takeWhile (· == ' ') = List.replicate m ' ' := by
  rw [List.takeWhile_append_of_pos (by simp +contextual [List.mem_replicate])]
  cases r with
  | nil => simp
  | cons c r => simp [h c rfl]

/-- Blanks before a token are passed over. -/
lemma run_toNextToken_blanks {m : Nat} {r : List Char} (hr : Starts r)
    (h : s.rest = List.replicate m ' ' ++ r) (fuel : Nat) :
    (toNextToken (fuel + 1)).run s = .ok ((), s.advanceBy m) := by
  have hrest : (s.advanceBy m).rest = r := by simp [h]
  obtain ⟨-, hcomment, hbreak⟩ := hr.peekAt hrest
  have hskip : skipBlanks.run s = .ok ((), s.advanceBy m) := by
    rw [skipBlanks, run_skipRun, h, hr.takeWhile_blanks, List.length_replicate]
  have hno : comment.run (s.advanceBy m) = .ok ((), s.advanceBy m) := by simp [comment, hcomment]
  rw [toNextToken, run_then hskip, run_then hno, run_then (run_lineBreak_none hbreak)]
  rfl

/-- A line break before a token is passed over, and the blanks after it. A key may follow. -/
lemma run_toNextToken_newline {m : Nat} {r : List Char} (hr : Starts r)
    (h : s.rest = '\n' :: (List.replicate m ' ' ++ r)) (hdepth : s.depth = 0) (fuel : Nat) :
    (toNextToken (fuel + 2)).run s = .ok ((), { s.advanceBy (1 + m) with keyAllowed := true }) := by
  have hskip : skipBlanks.run s = .ok ((), s.advanceBy 0) := by
    rw [skipBlanks, run_skipRun, h]
    rfl
  have hnext : ({ s.advanceBy 1 with keyAllowed := true } : Scanner).rest =
      List.replicate m ' ' ++ r := by simp [h]
  have hno : comment.run s = .ok ((), s) := by simp [comment, peekAt_zero h]
  rw [toNextToken, run_then hskip, Scanner.advanceBy, run_then hno,
    run_then (run_lineBreak_newline h)]
  simp only [List.isEmpty_cons, Bool.false_eq_true, if_false]
  rw [run_get_then, if_pos (by simp [hdepth]), run_then (run_allowKey true),
    run_toNextToken_blanks hr hnext, Scanner.advanceBy_mk, Scanner.advanceBy_add]
  simp

/-- The keys that stay are those on this line that are not far back, if none of the others is
required. -/
lemma run_dropStaleKeys_filter
    (h : ∀ k ∈ s.keys, k.2.line ≠ s.line ∨ k.2.index + 1024 < s.index → k.2.required = false) :
    dropStaleKeys.run s = .ok ((), { s with
      keys := s.keys.filter fun k => k.2.line = s.line ∧ s.index ≤ k.2.index + 1024 }) := by
  have hrequired :
      (s.keys.any fun k => (k.2.line != s.line || decide (s.index > k.2.index + 1024)) &&
        k.2.required) =
      false := by
    rw [List.any_eq_false]
    intro k hk hstale
    simp only [Bool.and_eq_true, Bool.or_eq_true, bne_iff_ne, decide_eq_true_eq] at hstale
    rw [h k hk hstale.1] at hstale
    cases hstale.2
  have hkeys :
      (s.keys.filter fun k => !(k.2.line != s.line || decide (s.index > k.2.index + 1024))) =
      s.keys.filter fun k => k.2.line = s.line ∧ s.index ≤ k.2.index + 1024 := by
    refine List.filter_congr fun k _ => ?_
    rw [Bool.eq_iff_iff]
    simp
  rw [dropStaleKeys, run_get_then]
  simp only [Scanner.isStale, hrequired, hkeys, Bool.not_false]
  rfl

/-- Keys on other lines are forgotten. -/
lemma run_dropStaleKeys (h : ∀ k ∈ s.keys, k.2.required = false ∧ k.2.line ≠ s.line) :
    dropStaleKeys.run s = .ok ((), { s with keys := [] }) := by
  rw [run_dropStaleKeys_filter fun k hk _ => (h k hk).1, List.filter_eq_nil_iff.mpr fun k hk => ?_]
  simp [(h k hk).2]

/-- A key on this line that is not far back is kept. -/
lemma run_dropStaleKeys_kept (h : ∀ k ∈ s.keys, k.2.line = s.line ∧ s.index ≤ k.2.index + 1024) :
    dropStaleKeys.run s = .ok ((), s) := by
  rw [run_dropStaleKeys_filter fun k hk hstale => ?_,
    List.filter_eq_self.mpr fun k hk => by simpa using h k hk]
  rcases hstale with hline | hfar
  · exact absurd (h k hk).1 hline
  · exact absurd (h k hk).2 (Nat.not_le.mpr hfar)

/-- The blocks that are indented more than the column are closed. -/
lemma run_closeBlocks {column below : Int} {opened outer : List Int} (hdepth : s.depth = 0)
    (hs : s.indent :: s.indents = opened ++ below :: outer) (hopened : ∀ i ∈ opened, column < i)
    (hbelow : below ≤ column) {fuel : Nat} (hfuel : opened.length < fuel) :
    (closeBlocks column fuel).run s = .ok ((), { s with
      indent := below
      indents := outer
      tokens := s.tokens ++ List.replicate opened.length .blockEnd }) := by
  induction opened generalizing s fuel with
  | nil =>
    obtain ⟨hindent, hindents⟩ := List.cons.inj hs
    cases fuel with
    | zero => cases hfuel
    | succ fuel =>
      rw [closeBlocks, run_get_then]
      have hstop : (s.depth == 0 && decide (s.indent > column)) = false := by
        simp [hindent, hbelow]
      simp only [hstop, Bool.false_eq_true, if_false, ← hindent, ← hindents, List.length_nil,
        List.replicate_zero, List.append_nil]
      rfl
  | cons i opened ih =>
    obtain ⟨hindent, hindents⟩ := List.cons.inj hs
    cases fuel with
    | zero => cases hfuel
    | succ fuel =>
      have hgo : (s.depth == 0 && decide (s.indent > column)) = true := by
        simp [hdepth, hindent, hopened i (by simp)]
      rw [closeBlocks, run_get_then, if_pos hgo]
      refine (ih (s := { s with
        indent := s.indents.head?.getD (-1)
        indents := s.indents.tail
        tokens := s.tokens ++ [Token.blockEnd] }) hdepth ?_ (fun j hj => hopened j (by simp [hj]))
        (by simpa using hfuel)).trans ?_
      · rw [hindents]
        cases opened <;> rfl
      · rw [List.append_assoc, List.length_cons, List.replicate_succ]
        rfl

/-- Nothing is unwound if the indentation is not more than the column. -/
lemma run_unwind_of_le {column : Int} (h : s.indent ≤ column) :
    (unwind column).run s = .ok ((), s) := by
  rw [unwind, run_get_then, closeBlocks, run_get_then]
  have hstop : (s.depth == 0 && decide (s.indent > column)) = false := by
    simp [h]
  rw [hstop]
  rfl

/-! ## One token -/

/-- No document mark stands here. -/
def Scanner.Unmarked (s : Scanner) : Prop :=
  s.column = 0 → s.peekAt 0 ≠ '-' ∧ s.peekAt 0 ≠ '.'

/-- Looking for a mark of a document moves nothing, and where there is none none is found. -/
lemma Scanner.Unmarked.run_atMark (h : s.Unmarked) {mark : Char} (hmark : mark = '-' ∨ mark = '.') :
    ∃ b, (atMark mark).run s = .ok (b, s) ∧ (s.column == 0 && b) = false := by
  refine ⟨_, rfl, ?_⟩
  by_cases hcolumn : s.column = 0
  · obtain ⟨hhyphen, hpoint⟩ := h hcolumn
    rcases hmark with rfl | rfl
    · simp [hhyphen]
    · simp [hpoint]
  · simp [hcolumn]

/-- Characters that begin no plain scalar, whatever follows them. -/
lemma startsPlain_indicator {d : Char} (hd : d ∈ "\x00%[]\x7b\x7d,*&!|>'\"".toList) (next : Char) :
    startsPlain false d next = false := by
  have hword : ("\x00%[]\x7b\x7d,*&!|>'\"".toList.all fun d =>
      (isBlankOrEnd d || isOneOf "-?:,[]\x7b\x7d#&*!|>'\"%@\x60" d) &&
        !(d == '-' || (!false && (d == '?' || d == ':')))) = true := by decide
  have hd' := List.all_eq_true.mp hword d hd
  rw [Bool.and_eq_true, Bool.not_eq_true'] at hd'
  rw [startsPlain, hd'.1, hd'.2, Bool.and_false]
  rfl

/-- A token within a document. -/
lemma fetch_inside (hend : s.peekAt 0 ≠ endMark) (hdirective : s.peekAt 0 ≠ '%')
    (hmark : s.Unmarked) :
    fetch.run s = (do fetchInside; pure true : ScanM Bool).run s := by
  obtain ⟨b, hb, hhyphen⟩ := hmark.run_atMark (.inl rfl)
  obtain ⟨b', hb', hpoint⟩ := hmark.run_atMark (.inr rfl)
  rw [fetch, run_get_then, if_neg (by simp [hend]), if_neg (by simp [hdirective]), run_then hb,
    if_neg (by simp [hhyphen]), run_then hb', if_neg (by simp [hpoint])]

/-- Where a plain text may start, one is fetched. -/
lemma fetch_plain (hstart : startsPlain false (s.peekAt 0) (s.peekAt 1) = true)
    (hdepth : s.depth = 0) (hmark : s.Unmarked) :
    fetch.run s = (do markKey; allowKey false; plainScalar; pure true : ScanM Bool).run s := by
  have hne {d : Char} (hd : startsPlain false d (s.peekAt 1) = false) : s.peekAt 0 ≠ d := by
    intro h
    rw [h, hd] at hstart
    cases hstart
  have hno (d : Char) (hd : d ∈ "\x00%[]\x7b\x7d,*&!|>'\"".toList) : (s.peekAt 0 == d) = false :=
    beq_eq_false_iff_ne.mpr (hne (startsPlain_indicator hd _))
  -- A hyphen, a question mark or a colon begins a plain scalar only if no blank follows.
  have hblank (d : Char) (hd : d ∈ "-?:".toList) :
      (s.peekAt 0 == d && isBlankOrEnd (s.peekAt 1)) = false := by
    cases hnext : isBlankOrEnd (s.peekAt 1) with
    | false => exact Bool.and_false _
    | true =>
      have hset : "-?:".toList.all (isOneOf "-?:,[]\x7b\x7d#&*!|>'\"%@\x60") = true := by decide
      have hd' := List.all_eq_true.mp hset d hd
      rw [beq_eq_false_iff_ne.mpr (hne (by rw [startsPlain, hd', hnext]; simp)), Bool.false_and]
  have hflow : (s.depth != 0) = false := by simp [hdepth]
  rw [fetch_inside (hne (startsPlain_indicator (by decide) _)) (hne
    (startsPlain_indicator (by decide) _)) hmark,
    fetchInside, bind_assoc, run_get_then]
  simp only [hflow, hno '[' (by decide), hno '\x7b' (by decide), hno ']' (by decide),
    hno '\x7d' (by decide), hno ',' (by decide), hblank '-' (by decide), hblank '?' (by decide),
    hblank ':' (by decide), hno '*' (by decide), hno '&' (by decide), hno '!' (by decide),
    hno '|' (by decide), hno '>' (by decide), hno '\x27' (by decide), hno '\x22' (by decide),
    hstart, Bool.false_or, Bool.false_and, Bool.false_eq_true, if_false, if_true, bind_assoc]

/-- The quote of a quoted scalar. -/
def quoteOf (double : Bool) : Char :=
  if double then '\x22' else '\x27'

/-- Where a quote stands, the text in it is fetched. -/
lemma fetch_quoted (double : Bool) (h : s.peekAt 0 = quoteOf double) :
    fetch.run s =
      (do markKey; allowKey false; quotedScalar double; pure true : ScanM Bool).run s := by
  have hquote : quoteOf double ≠ endMark ∧ quoteOf double ≠ '%' ∧ quoteOf double ≠ '-' ∧
      quoteOf double ≠ '.' := by
    cases double <;> decide
  rw [← h] at hquote
  have hinside :
      fetchInside.run s = (do markKey; allowKey false; quotedScalar double : ScanM Unit).run s := by
    rw [fetchInside, run_get_then, h]
    cases double <;> rfl
  rw [fetch_inside hquote.1 hquote.2.1 fun _ => hquote.2.2, StateT.run_bind, hinside]
  simp only [StateT.run_bind, bind_assoc]

/-- A question mark before a blank is fetched as the mark of a key. -/
lemma fetch_keyMark {r : List Char} (h : s.rest = '?' :: ' ' :: r) :
    fetch.run s = (do keyMark; pure true : ScanM Bool).run s := by
  have hhere := peekAt_zero h
  have hnext : s.peekAt 1 = ' ' := peekAt_one h
  rw [fetch_inside (by rw [hhere]; decide) (by rw [hhere]; decide) (fun _ => by rw [hhere]; decide),
    fetchInside, bind_assoc, run_get_then, hhere, hnext]
  simp only [show isBlankOrEnd ' ' = true from rfl, Bool.or_true]
  rfl

/-- A colon before a blank or a line break marks a value. -/
lemma fetch_valueMark {c : Char} {r : List Char} (h : s.rest = ':' :: c :: r)
    (hc : isBlankOrEnd c = true) :
    fetch.run s = (do valueMark; pure true : ScanM Bool).run s := by
  have hhere := peekAt_zero h
  have hnext : s.peekAt 1 = c := peekAt_one h
  rw [fetch_inside (by rw [hhere]; decide) (by rw [hhere]; decide) (fun _ => by rw [hhere]; decide),
    fetchInside, bind_assoc, run_get_then, hhere, hnext]
  simp only [hc, Bool.or_true]
  rfl

/-! ## Rows of tokens -/

/-- The next token is the one that is fetched where the scanner arrives, unless there is a fault. -/
lemma run_nextToken {t : Scanner} {b : Bool} (h : approach.run s = .ok ((), t))
    (hfetch : fetch.run t = .ok (b, s')) : nextToken.run s = .ok (b, s') := by
  have hboth : (do approach; fetch : ScanM Bool).run s = .ok (b, s') := by rw [run_then h, hfetch]
  rw [nextToken, run_get_then]
  change tryCatch ((do approach; fetch : ScanM Bool).run s) _ = _
  rw [hboth]
  rfl

/-- From one place to another tokens are read one after the other. -/
inductive Reads : Scanner → Scanner → Prop where
  | refl (s : Scanner) : Reads s s
  | step {s s' s'' : Scanner} : nextToken.run s = .ok (true, s') → s'.rest.length < s.rest.length →
    Reads s' s'' →
    Reads s s''

/-- Steps of the scanner can be joined. -/
lemma Reads.trans {s'' : Scanner} (h : Reads s s') (h' : Reads s' s'') : Reads s s'' := by
  induction h with
  | refl => exact h'
  | step hnext hlt _ ih => exact .step hnext hlt (ih h')

/-- Each token takes some of the text, so that the text bounds their number. -/
lemma Reads.allTokens {s'' : Scanner} (h : Reads s s') (hend : nextToken.run s' = .ok (false, s''))
    {fuel : Nat} (hfuel : s.rest.length < fuel) : (allTokens fuel).run s = .ok ((), s'') := by
  induction h generalizing fuel with
  | refl s =>
    cases fuel with
    | zero => cases hfuel
    | succ fuel =>
      rw [Yaml.allTokens, run_then hend]
      rfl
  | step hnext hlt _ ih =>
    cases fuel with
    | zero => cases hfuel
    | succ fuel =>
      rw [Yaml.allTokens, run_then hnext]
      exact ih hend (by omega)

end

end Stencil.Yaml
