import Stencil.Proofs.Yaml.Written

/-!
# Lines of a block mapping

`Lines` says that some lines of a text are read as a row of tokens, whatever was read before them
and whatever follows. It holds of an entry with a text (`lines_scalar`), of one with an empty
mapping (`lines_empty`), of one with a mapping below it (`lines_block`), and of lines one after the
other (`Lines.append`). A text made of such lines has their tokens (`Lines.scan`).
-/

namespace Stencil.Yaml

open Style

/-! ## Places -/

/-- The scanner stands before `rest` at a column. `blocks` are the columns of the open blocks, and
no key has begun. -/
structure Ready (s : Scanner) (column : Nat) (rest : List Char) (tokens : List Token)
    (blocks : List Int) (allowed : Bool) : Prop where
  rest : s.rest = rest
  column : s.column = column
  tokens : s.tokens = tokens
  blocks : s.indent :: s.indents = blocks
  depth : s.depth = 0
  allowed : s.keyAllowed = allowed
  keys : s.keys = []

/-- Before the next token the scanner passes over what comes first and closes blocks. -/
def Arrives (s : Scanner) (column : Nat) (rest : List Char) (tokens : List Token)
    (blocks : List Int) : Prop :=
  ∃ t, approach.run s = .ok ((), t) ∧ Ready t column rest tokens blocks true ∧
    rest.length ≤ s.rest.length

/-- A line has ended and the next one begins at a column, so that blocks that are indented more will
be closed. -/
def Ended (s : Scanner) (column : Nat) (rest : List Char) (tokens : List Token)
    (blocks : List Int) : Prop :=
  ∀ (opened : List Int) (below : Int) (outer : List Int), blocks = opened ++ below :: outer →
    (∀ i ∈ opened, (column : Int) < i) →
    below ≤ column →
      Arrives s column rest (tokens ++ List.replicate opened.length .blockEnd) (below :: outer)

/-- At column `n` a mapping is entered, by opening a block or within an open one. -/
inductive Enters (n : Nat) : List Int → List Token → List Int → Prop where
  | opens {i : Int} {outer : List Int} : i < n →
    Enters n (i :: outer) [.blockMappingStart] (n :: i :: outer)
  | stays {outer : List Int} : Enters n (n :: outer) [] (n :: outer)

section

variable {s t s' : Scanner} {r rest : List Char} {tokens start : List Token}
  {blocks blocks' : List Int} {c : Char}
  {n m column : Nat} {allowed : Bool}

/-- A line has ended where the scanner has come to the next token. -/
lemma ended_of_toNextToken (h : (toNextToken (s.rest.length + 1)).run s = .ok ((), t))
    (hrest : t.rest = rest) (hcolumn : t.column = column) (htokens : t.tokens = tokens)
    (hblocks : t.indent :: t.indents = blocks) (hdepth : t.depth = 0)
    (hallowed : t.keyAllowed = true)
    (hkeys : ∀ k ∈ t.keys, k.2.required = false ∧ k.2.line ≠ t.line)
    (hle : rest.length ≤ s.rest.length) :
    Ended s column rest tokens blocks := by
  subst hcolumn
  intro opened below outer hsplit hopened hbelow
  have happroach : approach.run s = .ok ((), { t with
      keys := []
      indent := below
      indents := outer
      tokens := t.tokens ++ List.replicate opened.length .blockEnd }) := by
    rw [approach, run_get_then, run_then h, run_then (run_dropStaleKeys hkeys), run_get_then,
      unwind, run_get_then]
    refine run_closeBlocks (s := { t with keys := [] }) hdepth (hblocks.trans hsplit) hopened
      hbelow ?_
    have hlength := congrArg List.length (hblocks.trans hsplit)
    simp at hlength ⊢
    omega
  exact ⟨_, happroach, ⟨hrest, rfl, by rw [htokens], rfl, hdepth, hallowed, rfl⟩, hle⟩

/-- A line break ends a line. -/
lemma Ready.ended (h : Ready s column ('\n' :: (List.replicate m ' ' ++ r)) tokens blocks allowed)
    (hr : Starts r) :
    Ended s m r tokens blocks := by
  have hnext := run_toNextToken_newline hr h.rest h.depth (m + r.length)
  refine ended_of_toNextToken
    (t := { s.advanceBy (1 + m) with keyAllowed := true }) ?_ ?_ ?_ ?_ ?_ ?_ rfl ?_ ?_
  · rw [h.rest, List.length_cons, List.length_append, List.length_replicate]
    exact hnext
  · have hrest := Scanner.rest_after_newline (s := s) (p := []) h.rest
    rwa [List.length_nil, Nat.zero_add] at hrest
  · have hcolumn := Scanner.column_advanceBy_newline (s := s) (p := []) h.rest
    rwa [List.length_nil, Nat.zero_add] at hcolumn
  · simpa using h.tokens
  · simpa using h.blocks
  · simpa using h.depth
  · simp [h.keys]
  · rw [h.rest, List.length_cons, List.length_append]
    omega

/-- At the end of a line the scanner arrives at the next one. -/
lemma Ended.arrives (h : Ended s n rest tokens (n :: blocks)) :
    Arrives s n rest tokens (n :: blocks) := by
  have harrives := h [] n blocks rfl (by simp) (Int.le_refl _)
  rwa [List.length_nil, List.replicate_zero, List.append_nil] at harrives

/-- The block of a mapping is closed once the lines are indented less. -/
lemma Ended.close (h : Ended s m rest tokens (n :: blocks)) (hm : m < n) :
    Ended s m rest (tokens ++ [.blockEnd]) blocks := by
  intro opened below outer hsplit hopened hbelow
  have harrives := h (n :: opened) below outer (by rw [hsplit, List.cons_append])
    (by simpa using ⟨hm, hopened⟩) hbelow
  rwa [List.length_cons, List.replicate_succ, List.append_cons] at harrives

/-- The token that is read where the scanner arrives. -/
lemma Reads.of_approach (h : approach.run s = .ok ((), t)) (hle : t.rest.length ≤ s.rest.length)
    (hfetch : fetch.run t = .ok (true, s')) (hlt : s'.rest.length < t.rest.length) : Reads s s' :=
  .step (run_nextToken h hfetch) (Nat.lt_of_lt_of_le hlt hle) (.refl _)

/-- Blanks within a line are passed over. -/
lemma run_approach_blanks {k : Nat} (h : s.rest = List.replicate k ' ' ++ r) (hr : Starts r)
    (hkeys : ∀ e ∈ s.keys, e.2.line = (s.advanceBy k).line ∧
      (s.advanceBy k).index ≤ e.2.index + 1024)
    (hindent : s.indent ≤ (s.advanceBy k).column) : approach.run s = .ok ((), s.advanceBy k) := by
  rw [approach, run_get_then, run_then (run_toNextToken_blanks hr h _),
    run_then (run_dropStaleKeys_kept (by simpa using hkeys)), run_get_then]
  exact run_unwind_of_le (by simpa using hindent)

/-- Entering a block opens it, if it is new. -/
lemma Enters.run_openBlock (h : Enters n (s.indent :: s.indents) start blocks') :
    ∃ b i outer, (openBlock n).run s = .ok (b, { s with indent := i, indents := outer }) ∧
      blocks' = i :: outer ∧
      start = if b then [.blockMappingStart] else [] := by
  generalize hblocks : s.indent :: s.indents = blocks at h
  cases h with
  | opens hlt =>
    obtain ⟨rfl, rfl⟩ := List.cons.inj hblocks
    refine ⟨true, n, s.indent :: s.indents, ?_, rfl, rfl⟩
    rw [openBlock, run_get_then, if_pos hlt]
    rfl
  | stays =>
    obtain ⟨hindent, rfl⟩ := List.cons.inj hblocks
    refine ⟨false, s.indent, s.indents, ?_, by rw [hindent], rfl⟩
    rw [openBlock, run_get_then, if_neg (by rw [hindent]; exact Int.lt_irrefl _)]
    rfl

/-! ## Values -/

/-- A blank is skipped. -/
lemma Ready.advance_blank (h : Ready s column (' ' :: r) tokens blocks allowed) :
    Ready (s.advanceBy 1) (column + 1) r tokens blocks allowed := by
  have hinline :=
    Scanner.advanceBy_inline (s := s) (p := [' ']) h.rest (by simp [Scanner.Inline, isBreak])
  rw [List.length_singleton] at hinline
  rw [hinline]
  exact ⟨rfl, congrArg (· + 1) h.column, h.tokens, h.blocks, h.depth, h.allowed, h.keys⟩

/-- A text after a blank is read as one token. -/
lemma Ready.reads_text {indent : Nat} {text : String} {isPlain : Bool} {out : List Char}
    (h : Ready s column (' ' :: (out ++ '\n' :: (List.replicate m ' ' ++ r))) tokens (n :: blocks)
      allowed)
    (hw : Written indent text isPlain out) (hr : Line m r) (hindent : n < indent)
    (hcolumn : n ≤ column) (hm : m ≤ n) :
    ∃ s', Reads s s' ∧ Ended s' m r (tokens ++ [.scalar text isPlain]) (n :: blocks) := by
  have hready := h.advance_blank
  obtain ⟨hn, -⟩ := List.cons.inj hready.blocks
  have happroach : approach.run s = .ok ((), s.advanceBy 1) :=
    run_approach_blanks (k := 1) h.rest (hw.starts _) (by simp [h.keys]) (by
      rw [hready.column, ← s.indent_advanceBy 1, hn]
      omega)
  obtain ⟨s', hfetch, hlt, hle, hnext⟩ :=
    fetch_written hw hready.rest hr hready.depth hready.keys (by omega) (by omega)
    (by rw [hn, hready.column]; omega) (by omega)
  refine ⟨s', .of_approach happroach (by simp) hfetch hlt,
    ended_of_toNextToken hnext ?_ ?_ ?_ ?_ ?_ rfl ?_ hle⟩
  · exact Scanner.rest_after_newline hready.rest
  · exact Scanner.column_advanceBy_newline hready.rest
  · simp [Scanner.taken, h.tokens]
  · simpa [Scanner.taken] using h.blocks
  · simpa [Scanner.taken] using h.depth
  · -- a key that may have begun with the text is on its first line, and indented more than the
    -- block
    have hline : (s.advanceBy 1).line < ((s.advanceBy 1).advanceBy (out.length + (1 + m))).line :=
      Scanner.line_lt_advanceBy hready.rest m
    intro k hk
    have hmark : k = ((s.advanceBy 1).depth, (s.advanceBy 1).mark) := by
      have hmarks : k ∈ (s.advanceBy 1).marks := hk
      unfold Scanner.marks at hmarks
      split_ifs at hmarks
      · exact List.mem_singleton.mp hmarks
      · cases hmarks
    subst hmark
    refine ⟨?_, Nat.ne_of_lt hline⟩
    have hne : (s.advanceBy 1).indent ≠ ((s.advanceBy 1).column : Int) := by
      rw [hn, hready.column]
      omega
    show ((s.advanceBy 1).depth == 0 && (s.advanceBy 1).indent == ((s.advanceBy 1).column : Int)) =
      false
    rw [beq_eq_false_iff_ne.mpr hne, Bool.and_false]

/-! ## Marks -/

/-- A mark is passed and makes a token. -/
lemma Ready.mark (h : Ready s column (c :: r) tokens blocks allowed) (hc : Scanner.Inline c)
    (t : Token) :
    ∃ s', (do forward; emit t : ScanM Unit).run s = .ok ((), s') ∧
      Ready s' (column + 1) r (tokens ++ [t]) blocks allowed := by
  have hinline := Scanner.advanceBy_inline (s := s) (p := [c]) h.rest (by simpa using hc)
  rw [List.length_singleton] at hinline
  rw [run_then (run_forward 1), run_emit, hinline]
  exact ⟨_, rfl, rfl, congrArg (· + 1) h.column, by rw [h.tokens], h.blocks, h.depth, h.allowed,
    h.keys⟩

/-- At a colon the key that began before it gets its marks. -/
lemma run_valueMark_keyed {k : KeyMark} {after : List Token} (hs : s.rest = ':' :: r)
    (htokens : s.tokens = tokens ++ after) (hk : k.tokens = tokens.length)
    (hkeys : s.keys = [(0, k)]) (hdepth : s.depth = 0)
    (h : Enters k.column (s.indent :: s.indents) start blocks') :
    ∃ s', valueMark.run s = .ok ((), s') ∧
      Ready s' (s.column + 1) r (tokens ++ start ++ [.key] ++ after ++ [.value]) blocks' false := by
  have hlookup : s.keys.lookup s.depth = some k := by rw [hkeys, hdepth]; rfl
  have hfilter : s.keys.filter (·.1 != s.depth) = [] := by rw [hkeys, hdepth]; rfl
  obtain ⟨b, i, outer, hopen, rfl, hstart⟩ := Enters.run_openBlock (s := { s with keys := [] }) h
  have hstart' : (if b then [.blockMappingStart, .key] else [.key]) = start ++ [.key] := by
    rw [hstart]
    cases b <;> rfl
  rw [valueMark, run_get_then]
  simp only [hlookup, hfilter]
  rw [run_then (run_set _), if_pos (by simp [hdepth]), run_then hopen, run_then (run_emitAt ..),
    run_then (run_allowKey false)]
  refine Ready.mark (c := ':') ?_ ⟨by decide, by decide⟩ _
  refine ⟨hs, rfl, ?_, rfl, hdepth, rfl, rfl⟩
  simp [hstart', htokens, hk]

/-- A mark before which no key began. -/
lemma Ready.mark_unkeyed {a : Bool} (h : Ready s column (c :: r) tokens blocks a)
    (hc : Scanner.Inline c) (b : Bool) (t : Token) :
    ∃ s', (do allowKey b; dropKey; forward; emit t : ScanM Unit).run s = .ok ((), s') ∧
      Ready s' (column + 1) r (tokens ++ [t]) blocks b := by
  have hdrop : dropKey.run { s with keyAllowed := b } = .ok ((), { s with keyAllowed := b }) :=
    run_dropKey h.keys
  rw [run_then (run_allowKey b), run_then hdrop]
  refine Ready.mark (c := c) ?_ hc _
  exact ⟨h.rest, h.column, h.tokens, h.blocks, h.depth, rfl, h.keys⟩

/-- A question mark begins a key. -/
lemma Ready.run_keyMark (h : Ready s n ('?' :: r) tokens blocks true)
    (henters : Enters n blocks start blocks') :
    ∃ s', keyMark.run s = .ok ((), s') ∧
      Ready s' (n + 1) r (tokens ++ start ++ [.key]) blocks' true := by
  obtain ⟨b, i, outer, hopen, rfl, rfl⟩ := Enters.run_openBlock (s := s) (h.blocks.symm ▸ henters)
  rw [keyMark, run_get_then]
  simp only [h.depth, h.allowed, h.column, beq_self_eq_true, if_true]
  rw [run_then run_need_true, run_then hopen]
  cases b with
  | true =>
    rw [if_pos rfl, run_then (run_emit _)]
    refine Ready.mark_unkeyed (c := '?') (a := true) ?_ ⟨by decide, by decide⟩ _ _
    exact ⟨h.rest, h.column, by simp [h.tokens], rfl, h.depth, h.allowed, h.keys⟩
  | false =>
    rw [if_neg (by decide)]
    refine Ready.mark_unkeyed (c := '?') (a := true) ?_ ⟨by decide, by decide⟩ _ _
    exact ⟨h.rest, h.column, by simp [h.tokens], rfl, h.depth, h.allowed, h.keys⟩

/-- A colon at the start of a line follows a key that has its own mark. -/
lemma Ready.run_valueMark (h : Ready s n (':' :: r) tokens (n :: blocks) true) :
    ∃ s', valueMark.run s = .ok ((), s') ∧
      Ready s' (n + 1) r (tokens ++ [.value]) (n :: blocks) true := by
  obtain ⟨hindent, -⟩ := List.cons.inj h.blocks
  have hopen : (openBlock n).run s = .ok (false, s) := by
    rw [openBlock, run_get_then, if_neg (by rw [hindent]; exact Int.lt_irrefl _)]
    rfl
  rw [valueMark, run_get_then]
  simp only [h.keys, h.depth, h.allowed, h.column, List.lookup_nil, beq_self_eq_true, if_true]
  rw [run_then run_need_true, run_then hopen, if_neg (by decide)]
  exact h.mark_unkeyed ⟨by decide, by decide⟩ _ _

/-! ## Braces -/

/-- An opening brace is fetched. -/
lemma fetch_brace (h : s.rest = '\x7b' :: r) :
    fetch.run s = (do openFlow .flowMappingStart; pure true : ScanM Bool).run s := by
  have hhere := peekAt_zero h
  rw [fetch_inside (by rw [hhere]; decide) (by rw [hhere]; decide) (fun _ => by rw [hhere]; decide),
    fetchInside, bind_assoc, run_get_then, hhere]
  rfl

/-- A closing brace is fetched. -/
lemma fetch_closingBrace (h : s.rest = '\x7d' :: r) :
    fetch.run s = (do closeFlow .flowMappingEnd; pure true : ScanM Bool).run s := by
  have hhere := peekAt_zero h
  rw [fetch_inside (by rw [hhere]; decide) (by rw [hhere]; decide) (fun _ => by rw [hhere]; decide),
    fetchInside, bind_assoc, run_get_then, hhere]
  rfl

/-- The scanner within braces that were opened here. -/
def Scanner.braced (s : Scanner) (r : List Char) : Scanner :=
  { s with
    rest := r
    index := s.index + 1
    column := s.column + 1
    depth := 1
    keyAllowed := true
    tokens := s.tokens ++ [.flowMappingStart] }

/-- An opening brace is a token. -/
lemma Ready.run_openFlow (h : Ready s column ('\x7b' :: r) tokens blocks false) :
    (openFlow .flowMappingStart).run s = .ok ((), s.braced r) := by
  have hmarks : s.marks = [] := by rw [Scanner.marks, h.allowed]; rfl
  have hinside :
      ({ s with keys := s.marks, depth := s.depth + 1, keyAllowed := true } : Scanner).advanceBy 1 =
      { s with rest := r, index := s.index + 1, column := s.column + 1, depth := 1,
               keyAllowed := true } := by
    rw [hmarks, h.depth, ← h.keys]
    exact Scanner.advance_inline h.rest ⟨by decide, by decide⟩
  rw [openFlow, run_then (run_markKey h.keys), run_then (run_modify _),
    run_then (run_allowKey true), run_then (run_forward 1), hinside]
  rfl

/-- A closing brace behind an opening one is a token. -/
lemma Ready.run_closeFlow (h : Ready s column ('\x7b' :: '\x7d' :: r) tokens blocks false) :
    ∃ s', (closeFlow .flowMappingEnd).run (s.braced ('\x7d' :: r)) = .ok ((), s') ∧
      Ready s' (column + 2) r (tokens ++ [.flowMappingStart, .flowMappingEnd]) blocks false := by
  have hdrop : dropKey.run (s.braced ('\x7d' :: r)) = .ok ((), s.braced ('\x7d' :: r)) :=
    run_dropKey h.keys
  have hdepth : ((s.braced ('\x7d' :: r)).depth != 0) = true := rfl
  rw [closeFlow, run_then hdrop, run_get_then, hdepth, run_then run_need_true, run_then (run_set _),
    run_then (run_allowKey false), List.append_cons]
  refine Ready.mark (c := '\x7d') ?_ ⟨by decide, by decide⟩ _
  exact ⟨rfl, congrArg (· + 1) h.column, congrArg (· ++ [Token.flowMappingStart]) h.tokens,
    h.blocks, rfl, rfl, h.keys⟩

/-- Empty braces after a blank. -/
lemma Ready.reads_braces
    (h : Ready s column (' ' :: '\x7b' :: '\x7d' :: r) tokens (n :: blocks) false)
    (hcolumn : n ≤ column) :
    ∃ s', Reads s s' ∧
      Ready s' (column + 3) r (tokens ++ [.flowMappingStart, .flowMappingEnd]) (n :: blocks)
        false := by
  have hready := h.advance_blank
  obtain ⟨hindent, -⟩ := List.cons.inj hready.blocks
  have happroach : approach.run s = .ok ((), s.advanceBy 1) :=
    run_approach_blanks (k := 1) h.rest (by rintro _ ⟨⟩; decide) (by simp [h.keys]) (by
      rw [hready.column, (List.cons.inj h.blocks).1]
      omega)
  have hopen : fetch.run (s.advanceBy 1) = .ok (true, (s.advanceBy 1).braced ('\x7d' :: r)) := by
    rw [fetch_brace hready.rest, run_then hready.run_openFlow]
    rfl
  have happroach' : approach.run ((s.advanceBy 1).braced ('\x7d' :: r)) =
      .ok ((), (s.advanceBy 1).braced ('\x7d' :: r)) := by
    refine run_approach_blanks (k := 0) (r := '\x7d' :: r) rfl (by rintro _ ⟨⟩; decide) ?_ ?_
    · rw [show ((s.advanceBy 1).braced ('\x7d' :: r)).keys = [] from hready.keys]
      simp
    · show (s.advanceBy 1).indent ≤ (((s.advanceBy 1).column + 1 : Nat) : Int)
      rw [hindent, hready.column]
      omega
  obtain ⟨s', hrun, hready'⟩ := hready.run_closeFlow
  have hclose : fetch.run ((s.advanceBy 1).braced ('\x7d' :: r)) = .ok (true, s') := by
    rw [fetch_closingBrace rfl, run_then hrun]
    rfl
  refine ⟨s',
    (Reads.of_approach happroach (by simp) hopen ?_).trans
      (.of_approach happroach' (Nat.le_refl _) hclose ?_), hready'⟩
  · rw [hready.rest]
    exact Nat.lt_succ_self _
  · rw [hready'.rest]
    exact Nat.lt_succ_self _

/-! ## Keys -/

variable {key : String}

/-- Blocks are entered at their indentation or further in. -/
lemma Enters.head_le (h : Enters n (s.indent :: s.indents) start blocks') : s.indent ≤ n := by
  generalize hblocks : s.indent :: s.indents = blocks at h
  cases h with
  | opens hlt =>
    obtain ⟨rfl, -⟩ := List.cons.inj hblocks
    omega
  | stays => exact Int.le_of_eq (List.cons.inj hblocks).1

/-- The colon after a key on one line. -/
lemma Ready.nextToken_colon {out : List Char}
    (h : Ready s n (out ++ ':' :: c :: r) tokens blocks true) (name : Token)
    (hout : ∀ c ∈ out, Scanner.Inline c) (hlength : out.length ≤ 1024) (hc : isBlankOrEnd c = true)
    (henters : Enters n blocks start blocks') :
    ∃ s', nextToken.run (s.taken out.length name) = .ok (true, s') ∧
      Ready s' (n + out.length + 1) (c :: r) (tokens ++ start ++ [.key, name, .value]) blocks'
        false := by
  have htaken : s.taken out.length name = { s with
      rest := ':' :: c :: r
      index := s.index + out.length
      column := s.column + out.length
      tokens := s.tokens ++ [name]
      keyAllowed := false
      keys := [(0, s.mark)] } := by
    rw [Scanner.taken, Scanner.advanceBy_inline h.rest hout, Scanner.marks, h.allowed, h.depth]
    rfl
  have hrest : (s.taken out.length name).rest = ':' :: c :: r := Scanner.rest_after h.rest
  have henters' : Enters n (s.indent :: s.indents) start blocks' := h.blocks.symm ▸ henters
  have hcolumn : (s.taken out.length name).column = n + out.length := by rw [htaken, h.column]
  have happroach :
      approach.run (s.taken out.length name) = .ok ((), (s.taken out.length name).advanceBy 0) := by
    refine run_approach_blanks (k := 0) hrest (by rintro _ ⟨⟩; decide) ?_ ?_
    · rw [htaken]
      simpa [Scanner.advanceBy, Scanner.mark] using hlength
    · have hindent := henters'.head_le
      rw [Scanner.advanceBy, hcolumn, htaken]
      dsimp only
      omega
  have hmark : ∃ s', valueMark.run (s.taken out.length name) = .ok ((), s') ∧
      Ready s' ((s.taken out.length name).column + 1) (c :: r)
        (tokens ++ start ++ [.key] ++ [name] ++ [.value]) blocks' false := by
    refine run_valueMark_keyed (k := s.mark) hrest ?_ ?_ ?_ ?_ ?_
    · rw [htaken, h.tokens]
    · rw [← h.tokens]
      rfl
    · rw [htaken]
    · rw [htaken]
      exact h.depth
    · rw [htaken, Scanner.mark, h.column]
      exact henters'
  obtain ⟨s', hrun, hready⟩ := hmark
  refine ⟨s', ?_, ?_⟩
  · refine run_nextToken happroach ?_
    rw [Scanner.advanceBy, fetch_valueMark hrest hc, run_then hrun]
    rfl
  · simpa [hcolumn] using hready

/-- A key that stands on one line with the colon after it. -/
lemma Arrives.reads_key {i k : Nat}
    (h : Arrives s n (writeText false i k key ++ ':' :: c :: r) tokens blocks) (hkey : KeyWord key)
    (hshort : key.length ≤ longestKey) (hc : isBlankOrEnd c = true)
    (henters : Enters n blocks start blocks') :
    ∃ s', Reads s s' ∧ Ready s' (n + (writeText false i k key).length + 1) (c :: r)
      (tokens ++ start ++ [.key, textToken key, .value]) blocks' false := by
  obtain ⟨t, happroach, hready, hle⟩ := h
  have hfetch := fetch_key hkey hready.rest hc hready.depth hready.keys
  have hlength : (writeText false i k key).length ≤ 1024 :=
    calc (writeText false i k key).length ≤ 2 * key.length + 2 := hkey.length_le i k
      _ ≤ 2 * 122 + 2 := Nat.add_le_add_right (Nat.mul_le_mul_left 2 hshort) 2
      _ ≤ 1024 := by decide
  obtain ⟨s', hcolon, hready'⟩ := hready.nextToken_colon (textToken key)
    (fun c hc => inline_of_visible (hkey.visible_of_mem hc)) hlength hc henters
  have hrest : (t.taken (writeText false i k key).length (textToken key)).rest = ':' :: c :: r :=
    Scanner.rest_after hready.rest
  refine ⟨s',
    (Reads.of_approach happroach (by rwa [hready.rest]) hfetch ?_).trans
      (.step hcolon ?_ (.refl _)), hready'⟩
  · rw [hrest, hready.rest, List.length_append]
    exact Nat.lt_add_of_pos_left (hkey.length_pos i k)
  · rw [hrest, hready'.rest]
    exact Nat.lt_succ_self _

/-- The block that is entered is the current one. -/
lemma Enters.exists_cons (h : Enters n blocks start blocks') :
    ∃ outer : List Int, blocks' = (n : Int) :: outer := by
  cases h with
  | opens _ => exact ⟨_, rfl⟩
  | stays => exact ⟨_, rfl⟩

/-- A key with a mark of its own, and the colon on the next line. -/
lemma Arrives.reads_longKey {isPlain : Bool} {out : List Char}
    (h : Arrives s n ('?' :: ' ' :: (out ++ '\n' :: (List.replicate n ' ' ++ ':' :: c :: r))) tokens
      blocks)
    (hw : Written (n + 2) key isPlain out) (hc : isBlankOrEnd c = true)
    (henters : Enters n blocks start blocks') :
    ∃ s', Reads s s' ∧
      Ready s' (n + 1) (c :: r) (tokens ++ start ++ [.key, .scalar key isPlain, .value]) blocks'
        true := by
  obtain ⟨t, happroach, hready, hle⟩ := h
  obtain ⟨outer, rfl⟩ := henters.exists_cons
  obtain ⟨s₁, hmark, hready₁⟩ := hready.run_keyMark henters
  have hfetch : fetch.run t = .ok (true, s₁) := by
    rw [fetch_keyMark hready.rest, run_then hmark]
    rfl
  have hline : Line n (':' :: c :: r) := ⟨by rintro _ ⟨⟩; decide, fun _ => by rintro _ ⟨⟩; decide⟩
  obtain ⟨s₂, hreads, hended⟩ := hready₁.reads_text hw hline (by omega) (by omega) (Nat.le_refl _)
  obtain ⟨t₂, happroach₂, hready₂, hle₂⟩ := hended.arrives
  obtain ⟨s₃, hmark₃, hready₃⟩ := hready₂.run_valueMark
  have hfetch₃ : fetch.run t₂ = .ok (true, s₃) := by
    rw [fetch_valueMark hready₂.rest hc, run_then hmark₃]
    rfl
  refine ⟨s₃, ?_, by simpa using hready₃⟩
  refine (Reads.of_approach happroach (by rwa [hready.rest]) hfetch ?_).trans
    (hreads.trans (Reads.of_approach happroach₂ (by rwa [hready₂.rest]) hfetch₃ ?_))
  · rw [hready.rest, hready₁.rest]
    exact Nat.lt_succ_self _
  · rw [hready₂.rest, hready₃.rest]
    exact Nat.lt_succ_self _

/-- What is written for a key after the blanks before it. -/
def keyText (n : Nat) (key : String) : List Char :=
  if key.length ≤ longestKey then writeText false 0 n key ++ [':']
  else '?' :: ' ' :: (writeText true (n + 2) (n + 2) key ++ '\n' :: (List.replicate n ' ' ++ [':']))

/-- A key is written behind its indentation. -/
lemma writeKey_eq (n : Nat) (key : String) :
    writeKey n key = List.replicate n ' ' ++ keyText n key := by
  unfold writeKey keyText
  split_ifs
  · simp
  · simp [newLine]

/-- A key and the colon after it. -/
lemma Arrives.reads_keyText (h : Arrives s n (keyText n key ++ ' ' :: r) tokens blocks)
    (hkey : KeyWord key) (hn : n + 2 < margin) (henters : Enters n blocks start blocks') :
    ∃ s' column allowed, Reads s s' ∧ n ≤ column ∧
      Ready s' column (' ' :: r) (tokens ++ start ++ [.key, textToken key, .value]) blocks'
        allowed := by
  unfold keyText at h
  split_ifs at h with hshort
  · rw [List.append_assoc, List.singleton_append] at h
    obtain ⟨s', hreads, hready⟩ := h.reads_key hkey hshort rfl henters
    exact ⟨s', _, _, hreads, by omega, hready⟩
  · simp only [List.cons_append, List.append_assoc] at h
    obtain ⟨s', hreads, hready⟩ := h.reads_longKey (written_writeText hn (n + 2) key) rfl henters
    exact ⟨s', _, _, hreads, by omega, hready⟩

end

/-! ## Lines -/

/-- Lines at column `n` that are read as the tokens `ts` of a mapping, whatever comes before and
after them. -/
structure Lines (n : Nat) (chars : List Char) (ts : List Token) : Prop where
  printed : ∀ c ∈ chars, needsEscape c = false
  line : ∀ r, Line n (chars ++ r)
  reads {s : Scanner} {m : Nat} {r : List Char} {tokens start : List Token}
    {blocks blocks' : List Int} :
    Enters n blocks start blocks' → m ≤ n → Line m r →
    Arrives s n (chars ++ (List.replicate m ' ' ++ r)) tokens blocks →
    ∃ s', Reads s s' ∧ Ended s' m r (tokens ++ start ++ ts) blocks'

section

variable {n k : Nat} {a b : List Char} {ts us : List Token} {key text : String} {isPlain : Bool}
  {out : List Char}

/-- Lines can be followed by lines. -/
lemma Lines.append (h : Lines n a ts) (h' : Lines n b us) :
    Lines n (a ++ (List.replicate n ' ' ++ b)) (ts ++ us) where
  printed c hc := by
    simp only [List.mem_append, List.mem_replicate] at hc
    rcases hc with hc | ⟨-, rfl⟩ | hc
    · exact h.printed c hc
    · rfl
    · exact h'.printed c hc
  line r := by
    rw [List.append_assoc]
    exact h.line _
  reads henters hm hr harrives := by
    obtain ⟨outer, rfl⟩ := henters.exists_cons
    rw [List.append_assoc, List.append_assoc] at harrives
    obtain ⟨s₁, hreads₁, hended₁⟩ := h.reads henters (Nat.le_refl n) (h'.line _) harrives
    obtain ⟨s₂, hreads₂, hended₂⟩ := h'.reads .stays hm hr hended₁.arrives
    exact ⟨s₂, hreads₁.trans hreads₂, by simpa using hended₂⟩

/-- A line may begin with what is written for a key. -/
lemma KeyWord.line_keyText (h : KeyWord key) (n : Nat) (r : List Char) :
    Line n (keyText n key ++ r) := by
  unfold keyText
  split_ifs
  · rw [List.append_assoc]
    exact h.line ..
  · exact ⟨by rintro _ ⟨⟩; decide, fun _ => by rintro _ ⟨⟩; decide⟩

/-- The text of a key has only characters that can be shown. -/
lemma KeyWord.printed_keyText (h : KeyWord key) (hn : n + 2 < margin) {c : Char}
    (hc : c ∈ keyText n key) :
    needsEscape c = false := by
  unfold keyText at hc
  split_ifs at hc
  · simp only [List.mem_append, List.mem_singleton] at hc
    rcases hc with hc | rfl
    · exact needsEscape_of_visible (h.visible_of_mem hc)
    · rfl
  · have hwritten := written_writeText hn (n + 2) key
    simp only [List.mem_cons, List.mem_append, List.mem_replicate, List.not_mem_nil, or_false] at hc
    rcases hc with rfl | rfl | hc | rfl | ⟨-, rfl⟩ | rfl
    case inr.inr.inl => exact hwritten.printed c hc
    all_goals rfl

/-- An entry whose value is a scalar. -/
lemma lines_scalar (hkey : KeyWord key) (hn : n + 2 < margin)
    (hw : Written (n + 2) text isPlain out) :
    Lines n (keyText n key ++ ' ' :: (out ++ ['\n']))
      [.key, textToken key, .value, .scalar text isPlain] where
  printed c hc := by
    simp only [List.mem_cons, List.mem_append, List.not_mem_nil, or_false] at hc
    rcases hc with hc | rfl | hc | rfl
    · exact hkey.printed_keyText hn hc
    · rfl
    · exact hw.printed c hc
    · rfl
  line r := by
    rw [List.append_assoc]
    exact hkey.line_keyText ..
  reads henters hm hr harrives := by
    obtain ⟨outer, rfl⟩ := henters.exists_cons
    simp only [List.append_assoc, List.cons_append, List.nil_append] at harrives
    obtain ⟨s₁, column, allowed, hreads₁, hcolumn, hready⟩ := harrives.reads_keyText hkey hn henters
    obtain ⟨s₂, hreads₂, hended⟩ := hready.reads_text hw hr (by omega) hcolumn hm
    exact ⟨s₂, hreads₁.trans hreads₂, by simpa using hended⟩

/-- An entry whose value is a mapping below it. -/
lemma lines_block (hkey : KeyWord key) (hshort : key.length ≤ longestKey) (hk : n < k)
    (h : Lines k b us) :
    Lines n (writeText false 0 n key ++ ':' :: '\n' :: (List.replicate k ' ' ++ b))
      ([.key, textToken key, .value, .blockMappingStart] ++ us ++ [.blockEnd]) where
  printed c hc := by
    simp only [List.mem_cons, List.mem_append, List.mem_replicate] at hc
    rcases hc with hc | rfl | rfl | ⟨-, rfl⟩ | hc
    case inl => exact needsEscape_of_visible (hkey.visible_of_mem hc)
    case inr.inr.inr.inr => exact h.printed c hc
    all_goals rfl
  line r := by
    rw [List.append_assoc]
    exact hkey.line ..
  reads henters hm hr harrives := by
    obtain ⟨outer, rfl⟩ := henters.exists_cons
    simp only [List.append_assoc, List.cons_append] at harrives
    obtain ⟨s₁, hreads₁, hready⟩ := harrives.reads_key hkey hshort rfl henters
    have harrives' := hready.ended (h.line _).starts [] n outer rfl (by simp) (by omega)
    obtain ⟨s₂, hreads₂, hended⟩ := h.reads (.opens (by omega)) (by omega) hr harrives'
    exact ⟨s₂, hreads₁.trans hreads₂, by simpa using hended.close (by omega)⟩

/-- An entry whose value is an empty mapping. -/
lemma lines_empty (hkey : KeyWord key) (hshort : key.length ≤ longestKey) :
    Lines n (writeText false 0 n key ++ [':', ' ', '\x7b', '\x7d', '\n'])
      [.key, textToken key, .value, .flowMappingStart, .flowMappingEnd] where
  printed c hc := by
    simp only [List.mem_append, List.mem_cons, List.not_mem_nil, or_false] at hc
    rcases hc with hc | rfl | rfl | rfl | rfl | rfl
    case inl => exact needsEscape_of_visible (hkey.visible_of_mem hc)
    all_goals rfl
  line r := by
    rw [List.append_assoc]
    exact hkey.line ..
  reads henters hm hr harrives := by
    obtain ⟨outer, rfl⟩ := henters.exists_cons
    simp only [List.append_assoc, List.cons_append, List.nil_append] at harrives
    obtain ⟨s₁, hreads₁, hready⟩ := harrives.reads_key hkey hshort rfl henters
    obtain ⟨s₂, hreads₂, hready₂⟩ := hready.reads_braces (by omega)
    exact ⟨s₂, hreads₁.trans hreads₂, by simpa using hready₂.ended hr.starts⟩

/-! ## Whole texts -/

/-- The scanner of a text before its first line. -/
lemma arrives_start {chars : List Char} (h : Line 0 chars) :
    Arrives { rest := chars } 0 chars [] [-1] := by
  have happroach :=
    run_approach_blanks (s := { rest := chars }) (k := 0) (r := chars) rfl h.starts (by simp)
    (show (-1 : Int) ≤ ((0 : Nat) : Int) by decide)
  exact ⟨_, happroach, ⟨rfl, rfl, rfl, rfl, rfl, rfl, rfl⟩, Nat.le_refl _⟩

/-- At the end the last block is closed. -/
lemma Arrives.nextToken_end {s : Scanner} {tokens : List Token}
    (h : Arrives s 0 [] tokens [0, -1]) :
    ∃ s', nextToken.run s = .ok (false, s') ∧ s'.tokens = tokens ++ [.blockEnd] := by
  obtain ⟨t, happroach, hready, -⟩ := h
  have hend : t.peekAt 0 = endMark := by rw [Scanner.peekAt, hready.rest]; rfl
  have hclose : (unwind (-1)).run t = .ok ((), { t with
      indent := -1
      indents := []
      tokens := t.tokens ++ [.blockEnd] }) := by
    have hblocks : t.indent :: t.indents = [0] ++ -1 :: [] := hready.blocks
    rw [unwind, run_get_then]
    refine run_closeBlocks hready.depth hblocks (by decide) (by decide) ?_
    rw [(List.cons.inj hblocks).2]
    decide
  refine ⟨{ t with indent := -1, indents := [], tokens := t.tokens ++ [.blockEnd] }, ?_,
    by rw [hready.tokens]⟩
  have hdrop :
      dropKey.run { t with indent := -1, indents := [], tokens := t.tokens ++ [.blockEnd] } =
      .ok ((), { t with indent := -1, indents := [], tokens := t.tokens ++ [.blockEnd] }) :=
        run_dropKey hready.keys
  refine run_nextToken happroach ?_
  rw [fetch, run_get_then, if_pos (by simp [hend]), run_then hclose, run_then hdrop]
  rfl

/-- What can be shown may stand in a file. -/
lemma isAllowed_of_printed {c : Char} (h : needsEscape c = false) : isAllowed c = true := by
  by_cases hgap : isGap c = true
  · simp only [isGap, Bool.or_eq_true, beq_iff_eq] at hgap
    rcases hgap with rfl | rfl <;> decide
  · obtain ⟨hlow, hhigh⟩ := visible_of_needsEscape h (by simpa using hgap)
    simp [isAllowed, hhigh, Nat.le_of_succ_le hlow]

/-- A text made of lines has their tokens. -/
lemma Lines.scan {chars : List Char} (h : Lines 0 chars ts) :
    Token.scan (String.ofList chars) = some ([.blockMappingStart] ++ ts ++ [.blockEnd]) := by
  have hallowed : chars.all isAllowed = true :=
    List.all_eq_true.mpr fun c hc => isAllowed_of_printed (h.printed c hc)
  have hmark : dropMark { rest := chars } = { rest := chars } := by
    refine if_neg fun hhead => ?_
    have hmem := List.mem_of_mem_head? (beq_iff_eq.mp hhead)
    exact absurd (h.printed _ hmem) (by decide)
  have hstart : Line 0 chars := by simpa using h.line []
  have hend : Line 0 [] := ⟨by rintro _ ⟨⟩, fun _ => by rintro _ ⟨⟩⟩
  have henters : Enters 0 [-1] [.blockMappingStart] [0, -1] := .opens (by decide)
  obtain ⟨s, hreads, hended⟩ :=
    h.reads (m := 0) henters (Nat.le_refl 0) hend (by simpa using arrives_start hstart)
  obtain ⟨s', hnext, htokens⟩ := hended.arrives.nextToken_end
  have hall : (allTokens (2 * chars.length + 2)).run { rest := chars } = .ok ((), s') :=
    hreads.allTokens hnext (by dsimp only; omega)
  rw [Token.scan, String.toList_ofList]
  simp only [hallowed, if_true, hmark, hall, htokens, List.nil_append]

end

end Stencil.Yaml
