import Stencil.Proofs.Shell.Word

/-!
# Reading tokens

What the reader makes of a script as a row of tokens. A `Lexeme` is a token together with what is
known of its word; `Lexes` says that a text falls into lexemes up to a rest. A reader either faces
the lexemes of its text or holds the first one in reserve, and `next` gives it in both cases.
-/

namespace Stencil.Shell

/-- A token of a script, with what is known of its word. -/
inductive Lexeme where
  /-- An operator or a line end. -/
  | mark (t : Token)
  | word (W : Word → Prop)
  | redirect (fd : Nat) (kind : RedirectKind)

namespace Lexeme

/-- The reader has just read the lexeme, and has not asked whether it is a reserved word. -/
def Raw : Lexeme → Reader → Prop
  | mark t, s => s.last = t ∧ t ≠ .word
  | word W, s => s.last = .word ∧ W s.word
  | redirect fd kind, s => s.last = .redirect ∧ s.fd = fd ∧ s.kind = kind

/-- The token that a word counts as where reserved words count. -/
def tokenOf (w : Word) : Token :=
  match plainText? w with
  | some cs =>
    if reservedWords.contains (String.ofList cs) then .reserved (String.ofList cs) else .word
  | none => .word

/-- The reader has just read the lexeme and knows whether it is a reserved word. -/
def Resolved : Lexeme → Reader → Prop
  | word W, s => s.last = tokenOf s.word ∧ W s.word
  | l, s => l.Raw s

/-- The lexeme is no line end. -/
def Visible : Lexeme → Prop
  | mark t => t ≠ .newline
  | _ => True

/-- A word is no newline. -/
lemma tokenOf_ne_newline (w : Word) : tokenOf w ≠ .newline := by
  unfold tokenOf
  split
  · split <;> simp
  · simp

/-- A lexeme that can be seen was not read as a newline. -/
lemma Raw.ne_newline {l : Lexeme} {s : Reader} (h : l.Raw s) (hl : l.Visible) :
    s.last ≠ .newline := by
  cases l with
  | mark t => exact h.1 ▸ hl
  | word W => simp [h.1]
  | redirect fd kind => simp [h.1]

/-- A lexeme that can be seen is not resolved to a newline. -/
lemma Resolved.ne_newline {l : Lexeme} {s : Reader} (h : l.Resolved s) (hl : l.Visible) :
    s.last ≠ .newline := by
  cases l with
  | mark t => exact h.1 ▸ hl
  | word W => exact h.1 ▸ tokenOf_ne_newline s.word
  | redirect fd kind =>
    have := h.1
    simp [this]

end Lexeme

/-! ## Single lexemes -/

/-- The reading succeeds with a lexeme, and the rest of the text is unread. -/
def Gives (r : Except SyntaxError (Token × Reader)) (l : Lexeme) (rest : List Char) : Prop :=
  ∃ s, r = .ok (s.last, s) ∧ l.Raw s ∧ s.rest = rest ∧ s.Calm

namespace Gives

variable {s : Reader} {rest : List Char}

/-- Behind a step that leaves some text, a lexeme is read from it. -/
lemma bind {α : Type} {P : α → Prop} {x : ReadM α} {f : α → ReadM Token} {l : Lexeme}
    {mid : List Char} (hx : Leaves (x.run s) P mid)
    (hf : ∀ a s', P a → s'.rest = mid → s'.Calm → Gives ((f a).run s') l rest) :
    Gives ((x >>= f).run s) l rest := by
  obtain ⟨a, s', e, ha, hs, hc⟩ := hx
  rw [run_bind_of e]
  exact hf a s' ha hs hc

/-- A mark gives itself. -/
lemma mark {t : Token} (ht : t ≠ .word) (hs : s.rest = rest) (hc : s.Calm) :
    Gives ((setLast t).run s) (.mark t) rest :=
  ⟨{ s with last := t }, rfl, ⟨rfl, ht⟩, hs, ⟨hc.pushed, hc.pending⟩⟩

end Gives

/-- The text starts with the lexeme, and the rest follows it. -/
def Lex (text : List Char) (l : Lexeme) (rest : List Char) : Prop :=
  rest.length < text.length ∧ ∀ (s : Reader) (fuel : Nat), s.rest = text → s.Calm →
    20 * text.length + 2 ≤ fuel → Gives ((scan false fuel).run s) l rest

namespace Lex

variable {text rest : List Char} {l : Lexeme}

/-- The reader looks at the first character to tell what kind of token follows. -/
lemma run_scan {s : Reader} {c : Char} {fuel : Nat} {g : Option Char → ReadM Token}
    (hg : scan false (fuel + 1) = peek? >>= g) (hs : s.rest = c :: text) (hj : c ≠ '\\') :
    (scan false (fuel + 1)).run s = (g (some c)).run s := by
  rw [hg, StateT.run_bind, run_peek (hs ▸ NoJoin.cons hj text), hs]
  rfl

/-- Blanks before a lexeme do not count. -/
lemma blank (h : Lex text l rest) : Lex (' ' :: text) l rest := by
  refine ⟨Nat.lt_succ_of_lt h.1, fun s fuel hs hc hf => ?_⟩
  rw [List.length_cons] at hf
  obtain ⟨fuel, rfl⟩ := Nat.exists_eq_add_one_of_ne_zero (show fuel ≠ 0 by omega)
  rw [run_scan (scan.eq_def false (fuel + 1)) hs (by decide)]
  refine Gives.bind (skip_leaves hs hc) fun _ s' _ hs' hc' => ?_
  exact h.2 s' fuel hs' hc' (by omega)

/-- A comment before a line break does not count. -/
lemma comment {cs : List Char} (hcs : '\n' ∉ cs) (h : Lex ('\n' :: text) l rest) :
    Lex ('#' :: (cs ++ '\n' :: text)) l rest := by
  have hline : ('#' :: (cs ++ '\n' :: text)).takeWhile (· != '\n') = '#' :: cs := by
    rw [List.takeWhile_cons_of_pos (by decide), List.takeWhile_append_of_pos (by
      intro c hc
      simpa using fun e : c = '\n' => hcs (e ▸ hc)), List.takeWhile_cons_of_neg (by simp),
        List.append_nil]
  have hlen := h.1
  simp only [List.length_cons] at hlen
  refine ⟨by simp; omega, fun s fuel hs hc hf => ?_⟩
  simp only [List.length_cons, List.length_append] at hf
  obtain ⟨fuel, rfl⟩ := Nat.exists_eq_add_one_of_ne_zero (show fuel ≠ 0 by omega)
  rw [run_scan (scan.eq_def false (fuel + 1)) hs (by decide)]
  refine Gives.bind (get_leaves hs hc) fun r s₁ hr hs₁ hc₁ => ?_
  subst hr
  rw [hs, hline]
  have hsplit : s₁.rest = ('#' :: cs) ++ '\n' :: text := hs₁
  refine Gives.bind (skipBy_leaves hsplit hc₁) fun _ s₂ _ hs₂ hc₂ => ?_
  exact h.2 s₂ fuel hs₂ hc₂ (by simp; omega)

/-- A mark of one character. -/
lemma single {c : Char} {t : Token} (ht : t ≠ .word)
    (h : ∀ (s : Reader) (fuel : Nat), s.rest = c :: text →
      (scan false (fuel + 1)).run s = (skip >>= fun _ => setLast t : ReadM Token).run s) :
    Lex (c :: text) (.mark t) text := by
  refine ⟨by simp, fun s fuel hs hc hf => ?_⟩
  obtain ⟨fuel, rfl⟩ := Nat.exists_eq_add_one_of_ne_zero (show fuel ≠ 0 by omega)
  rw [h s fuel hs]
  refine Gives.bind (skip_leaves hs hc) fun _ s' _ hs' hc' => ?_
  exact Gives.mark ht hs' hc'

/-- A newline is a token. -/
lemma newline (text : List Char) : Lex ('\n' :: text) (.mark .newline) text :=
  single (by decide) fun _ fuel hs => run_scan (scan.eq_def false (fuel + 1)) hs (by decide)

/-- An opening parenthesis is a token. -/
lemma openParen (text : List Char) : Lex ('(' :: text) (.mark .openParen) text :=
  single (by decide) fun _ fuel hs => run_scan (scan.eq_def false (fuel + 1)) hs (by decide)

/-- A closing parenthesis is a token. -/
lemma closeParen (text : List Char) : Lex (')' :: text) (.mark .closeParen) text :=
  single (by decide) fun _ fuel hs => run_scan (scan.eq_def false (fuel + 1)) hs (by decide)

/-- A mark that could be doubled and is not. -/
lemma undoubled {c d e : Char} {double t : Token} (ht : t ≠ .word) (hj : e ≠ '\\') (he : e ≠ d)
    (h : ∀ (s : Reader) (fuel : Nat), s.rest = c :: e :: text →
      (scan false (fuel + 1)).run s = (operator d double t).run s) :
    Lex (c :: e :: text) (.mark t) (e :: text) := by
  refine ⟨by simp, fun s fuel hs hc hf => ?_⟩
  obtain ⟨fuel, rfl⟩ := Nat.exists_eq_add_one_of_ne_zero (show fuel ≠ 0 by omega)
  rw [h s fuel hs]
  refine Gives.bind (skip_leaves hs hc) fun _ s₁ _ hs₁ hc₁ => ?_
  refine Gives.bind (peek_leaves hs₁ hc₁ hj) fun o s₂ ho hs₂ hc₂ => ?_
  subst ho
  rw [if_neg (by simpa using he)]
  exact Gives.mark ht hs₂ hc₂

/-- A mark that is doubled. -/
lemma doubled {c : Char} {t single : Token} (ht : t ≠ .word) (hj : c ≠ '\\')
    (h : ∀ (s : Reader) (fuel : Nat), s.rest = c :: c :: text →
      (scan false (fuel + 1)).run s = (operator c t single).run s) :
    Lex (c :: c :: text) (.mark t) text := by
  refine ⟨by simp only [List.length_cons]; omega, fun s fuel hs hc hf => ?_⟩
  obtain ⟨fuel, rfl⟩ := Nat.exists_eq_add_one_of_ne_zero (show fuel ≠ 0 by omega)
  rw [h s fuel hs]
  refine Gives.bind (skip_leaves hs hc) fun _ s₁ _ hs₁ hc₁ => ?_
  refine Gives.bind (peek_leaves hs₁ hc₁ hj) fun o s₂ ho hs₂ hc₂ => ?_
  subst ho
  rw [if_pos (by simp)]
  refine Gives.bind (skip_leaves hs₂ hc₂) fun _ s₃ _ hs₃ hc₃ => ?_
  exact Gives.mark ht hs₃ hc₃

/-- Two ampersands are one token. -/
lemma and (text : List Char) : Lex ('&' :: '&' :: text) (.mark .and) text :=
  doubled (by decide) (by decide) fun _ fuel hs =>
    run_scan (scan.eq_def false (fuel + 1)) hs (by decide)

/-- Two semicolons are one token. -/
lemma endCase (text : List Char) : Lex (';' :: ';' :: text) (.mark .endCase) text :=
  doubled (by decide) (by decide) fun _ fuel hs =>
    run_scan (scan.eq_def false (fuel + 1)) hs (by decide)

/-- A semicolon before another character is a token. -/
lemma semicolon {c : Char} (hj : c ≠ '\\') (hc : c ≠ ';') (text : List Char) :
    Lex (';' :: c :: text) (.mark .semicolon) (c :: text) :=
  undoubled (by decide) hj hc fun _ fuel hs =>
    run_scan (scan.eq_def false (fuel + 1)) hs (by decide)

/-- A bar before another character is a token. -/
lemma pipe {c : Char} (hj : c ≠ '\\') (hc : c ≠ '|') (text : List Char) :
    Lex ('|' :: c :: text) (.mark .pipe) (c :: text) :=
  undoubled (by decide) hj hc fun _ fuel hs =>
    run_scan (scan.eq_def false (fuel + 1)) hs (by decide)

/-- May a word start with the character? -/
def startsWord (c : Char) : Bool :=
  !"\\ \t#\n&|;()<>".toList.contains c

/-- The scanner has a case of its own for none of the characters that a word starts with. -/
lemma ne_of_startsWord {c : Char} (hc : startsWord c = true) :
    c ≠ '\\' ∧ c ≠ ' ' ∧ c ≠ '\t' ∧ c ≠ '#' ∧ c ≠ '\n' ∧ c ≠ '&' ∧ c ≠ '|' ∧ c ≠ ';' ∧ c ≠ '(' ∧
    c ≠ ')' := by
  refine ⟨?_, ?_, ?_, ?_, ?_, ?_, ?_, ?_, ?_, ?_⟩ <;> rintro rfl <;> revert hc <;> decide

/-- A word is kept for the grammar. -/
lemma word_gives {w : Word} {W : Word → Prop} {s : Reader} (hw : W w) (hs : s.rest = rest)
    (hc : s.Calm) :
    Gives ((modify (fun s => { s with word := w }) >>= fun _ => setLast .word : ReadM Token).run s)
      (.word W)
      rest :=
  ⟨{ s with word := w, last := .word }, rfl, ⟨rfl, hw⟩, hs, ⟨hc.pushed, hc.pending⟩⟩

set_option linter.unusedSimpArgs false in
/-- A word ends where a break follows. -/
lemma word {c : Char} {cs : List Char} {W : Word → Prop} (hc : startsWord c = true)
    (hw : Ending (c :: cs) W) (hb : Breaks rest) : Lex (c :: cs ++ rest) (.word W) rest := by
  refine ⟨by simp only [List.cons_append, List.length_cons, List.length_append]; omega,
    fun s fuel hs hcalm hf => ?_⟩
  obtain ⟨fuel, rfl⟩ := Nat.exists_eq_add_one_of_ne_zero (show fuel ≠ 0 by omega)
  obtain ⟨h₀, h₁, h₂, h₃, h₄, h₅, h₆, h₇, h₈, h₉⟩ := ne_of_startsWord hc
  rw [run_scan (scan.eq_def false (fuel + 1)) hs h₀]
  simp only [h₁, h₂, h₃, h₄, h₅, h₆, h₇, h₈, h₉, Bool.false_eq_true, if_false]
  refine Gives.bind (hw hb s fuel hs hcalm (by omega)) fun w s₁ hw₁ hs₁ hc₁ => ?_
  refine Gives.bind (get_leaves hs₁ hc₁) fun r s₂ hr hs₂ hc₂ => ?_
  subst hr
  have hout : (rest.head? == some '>' || rest.head? == some '<') = false := by
    cases rest with
    | nil => rfl
    | cons d rest =>
      have hd : isBreak d = true := hb
      have h₁ : d ≠ '>' := by rintro rfl; revert hd; decide
      have h₂ : d ≠ '<' := by rintro rfl; revert hd; decide
      simp [h₁, h₂]
  simp only [hs₁, hout, Bool.false_eq_true, if_false]
  split <;> exact word_gives hw₁ hs₂ hc₂

/-- A mark that sends the output of a command to a file. -/
lemma output (text : List Char) : Lex ('>' :: ' ' :: text) (.redirect 1 .write) (' ' :: text) := by
  refine ⟨by simp, fun s fuel hs hcalm hf => ?_⟩
  obtain ⟨fuel, rfl⟩ := Nat.exists_eq_add_one_of_ne_zero (show fuel ≠ 0 by omega)
  obtain ⟨fuel, rfl⟩ := Nat.exists_eq_add_one_of_ne_zero (show fuel ≠ 0 by simp at hf; omega)
  have hempty : Leaves ((parts .bare (fuel + 1)).run s) (· = []) ('>' :: ' ' :: text) := by
    rw [Yields.run_parts (parts.eq_def _ (fuel + 1)) hs (NoJoin.cons (by decide) _)]
    exact Leaves.pure rfl hs hcalm
  rw [run_scan (scan.eq_def false (fuel + 1 + 1)) hs (by decide)]
  refine Gives.bind hempty fun w s₁ hw hs₁ hc₁ => ?_
  subst hw
  refine Gives.bind (get_leaves hs₁ hc₁) fun r s₂ hr hs₂ hc₂ => ?_
  subst hr
  simp only [hs₁, descriptor?]
  refine Gives.bind (get_leaves hs₂ hc₂) fun r s₃ hr hs₃ hc₃ => ?_
  subst hr
  refine Gives.bind (skip_leaves hs₃ hc₃) fun _ s₄ _ hs₄ hc₄ => ?_
  refine Gives.bind (peek_leaves hs₄ hc₄ (by decide)) fun o s₅ ho hs₅ hc₅ => ?_
  subst ho
  refine Gives.bind (get_leaves hs₅ hc₅) fun r s₆ hr hs₆ hc₆ => ?_
  rw [hs₂]
  exact ⟨{ s₆ with fd := 1, kind := .write, dropTabs := false, last := .redirect }, rfl,
    ⟨rfl, rfl, rfl⟩, hs₆,
    hc₆.pushed, hc₆.pending⟩

end Lex

/-! ## Rows of lexemes -/

/-- The text falls into the lexemes, and the rest follows them. -/
inductive Lexes : List Char → List Lexeme → List Char → Prop where
  | nil (text : List Char) : Lexes text [] text
  | cons {text mid rest : List Char} {l : Lexeme} {ls : List Lexeme} (h : Lex text l mid)
      (hs : Lexes mid ls rest) : Lexes text (l :: ls) rest

/-- A text without lexemes is the rest. -/
lemma Lexes.eq_of_nil {text rest : List Char} (h : Lexes text [] rest) : text = rest := by
  cases h
  rfl

namespace Reader

/-- What reading from here on may cost. A token in reserve counts for less than a character. -/
def cost (s : Reader) : Nat :=
  20 * s.rest.length + if s.pushed then 12 else 0

/-- The lexemes come next in the text. -/
structure Faces (s : Reader) (ls : List Lexeme) (rest : List Char) : Prop where
  calm : s.Calm
  lexes : Lexes s.rest ls rest

/-- The first lexeme is in reserve, and the others come next in the text. -/
structure Holds (s : Reader) (l : Lexeme) (ls : List Lexeme) (rest : List Char) : Prop where
  pushed : s.pushed = true
  pending : s.pending = []
  resolved : l.Resolved s
  lexes : Lexes s.rest ls rest

/-- Without a token at hand, the cost is that of the text. -/
lemma Faces.cost_eq {s : Reader} {ls : List Lexeme} {rest : List Char} (h : s.Faces ls rest) :
    s.cost = 20 * s.rest.length := by
  simp [cost, h.calm.pushed]

/-- A token at hand adds to the cost. -/
lemma Holds.cost_eq {s : Reader} {l : Lexeme} {ls : List Lexeme} {rest : List Char}
    (h : s.Holds l ls rest) :
    s.cost = 20 * s.rest.length + 12 := by
  simp [cost, h.pushed]

end Reader

open Reader

/-- The step gives the first lexeme, resolved or not, and leaves the others. -/
def Fetches (r : Except SyntaxError (Token × Reader)) (P : Reader → Prop) (ls : List Lexeme)
    (rest : List Char) (cost : Nat) : Prop :=
  ∃ s, r = .ok (s.last, s) ∧ P s ∧ s.Faces ls rest ∧ s.cost + 12 ≤ cost

section

variable {s : Reader} {l : Lexeme} {ls : List Lexeme} {rest : List Char} {fuel : Nat}
  {look : Looking}

/-- The text gives its first lexeme. -/
lemma Reader.Faces.scan (h : s.Faces (l :: ls) rest) (hf : s.cost + 2 ≤ fuel) :
    Fetches ((scan false fuel).run s) l.Raw ls rest s.cost := by
  have hcost := h.cost_eq
  obtain ⟨hcalm, hlex⟩ := h
  cases hlex with
  | cons hl hls =>
    obtain ⟨s', e, hraw, hs', hc'⟩ := hl.2 s fuel rfl hcalm (by omega)
    have hlen := hl.1
    rw [← hs'] at hlen hls
    have hfaces : s'.Faces ls rest := ⟨hc', hls⟩
    exact ⟨s', e, hraw, hfaces, by rw [hfaces.cost_eq, hcost]; omega⟩

/-- What is done with a token that was taken from the reserve or from the text. -/
def settle (look : Looking) (fuel : Nat) (t : Token) : ReadM Token := do
  if t == .newline && look.pastNewlines then
    readDocuments fuel
    next look fuel
  else if t == .word && look.forReserved then
    match plainText? (← get).word with
    | some cs =>
      if reservedWords.contains (String.ofList cs) then setLast (.reserved (String.ofList cs))
      else return t
    | none => return t
  else return t

/-- A token that was pushed back is the next. -/
lemma run_next_held (hp : s.pushed = true) :
    (next look (fuel + 1)).run s = (settle look fuel s.last).run { s with pushed := false } := by
  rw [next]
  show StateT.run (if s.pushed = true then _ else _) s = _
  rw [if_pos hp]
  rfl

/-- Without a token at hand, the next one is scanned. -/
lemma run_next_scanned {s' : Reader} (hlook : look.forDelimiter = false) (hp : s.pushed = false)
    (h : (scan false fuel).run s = .ok (s'.last, s')) :
    (next look (fuel + 1)).run s = (settle look fuel s'.last).run s' := by
  rw [next]
  show StateT.run (if s.pushed = true then _ else _) s = _
  rw [hp, if_neg (by decide), hlook, StateT.run_bind, h]
  rfl

/-- Where no document is pending none is read. -/
lemma run_readDocuments_none (h : s.pending = []) (hf : 1 ≤ fuel) :
    (readDocuments fuel).run s = .ok ((), s) := by
  obtain ⟨fuel, rfl⟩ := Nat.exists_eq_add_one_of_ne_zero (show fuel ≠ 0 by omega)
  rw [readDocuments, run_bind_of (run_get s), h]
  rfl

/-- A line end is passed over where line ends do not count. -/
lemma settle_newline (hpast : look.pastNewlines = true) (hp : s.pending = []) :
    (settle look (fuel + 1) .newline).run s = (next look (fuel + 1)).run s := by
  unfold settle
  rw [if_pos (by simp [hpast]), run_bind_of (run_readDocuments_none hp (by omega))]

/-- A token that is not passed over stays, but for a word where reserved words count. -/
lemma settle_stays (hn : (s.last == .newline && look.pastNewlines) = false) :
    let t := if s.last == .word && look.forReserved then Lexeme.tokenOf s.word else s.last
    (settle look fuel s.last).run s = .ok (t, { s with last := t }) := by
  intro t
  unfold settle
  rw [hn, if_neg (by decide)]
  by_cases hw : (s.last == .word && look.forReserved) = true
  · have ht : t = Lexeme.tokenOf s.word := if_pos hw
    have hlast : s.last = .word := by
      rw [Bool.and_eq_true, beq_iff_eq] at hw
      exact hw.1
    rw [if_pos hw, ht]
    show StateT.run (match plainText? s.word with | some cs => _ | none => _) s = _
    unfold Lexeme.tokenOf
    split
    · split
      · rfl
      · rw [← hlast]
        rfl
    · rw [← hlast]
      rfl
  · have ht : t = s.last := if_neg hw
    rw [if_neg hw, ht]
    rfl

/-- A lexeme that may be a reserved word is resolved where that counts. -/
lemma settle_resolved (fuel : Nat) (hl : look.pastNewlines = true → l.Visible)
    (h : l.Resolved s ∨ l.Raw s ∧ look.forReserved = true) :
    ∃ s', (settle look fuel s.last).run s = .ok (s'.last, s') ∧ l.Resolved s' ∧ s'.rest = s.rest ∧
      s'.pushed = s.pushed ∧ s'.pending = s.pending := by
  have hn : (s.last == .newline && look.pastNewlines) = false := by
    rw [Bool.and_eq_false_iff, beq_eq_false_iff_ne]
    cases hp : look.pastNewlines with
    | false => exact .inr rfl
    | true => exact .inl (h.elim (·.ne_newline (hl hp)) (·.1.ne_newline (hl hp)))
  refine ⟨{
    s with last := if s.last == .word && look.forReserved then Lexeme.tokenOf s.word else s.last },
    settle_stays hn, ?_, rfl, rfl, rfl⟩
  cases l with
  | mark t =>
    -- Nothing but a word is resolved, so it does not matter in which state the token is found.
    have hraw : s.last = t ∧ t ≠ .word := h.elim id And.left
    have ht : (s.last == .word && look.forReserved) = false := by simp [hraw]
    rw [ht]
    exact hraw
  | redirect fd kind =>
    have hraw : s.last = .redirect ∧ s.fd = fd ∧ s.kind = kind := h.elim id And.left
    have ht : (s.last == .word && look.forReserved) = false := by simp [hraw]
    rw [ht]
    exact hraw
  | word W =>
    rcases h with ⟨hlast, hw⟩ | ⟨⟨hlast, hw⟩, hres⟩
    · refine ⟨?_, hw⟩
      show (if _ then _ else s.last) = _
      rw [hlast]
      split <;> rfl
    · exact ⟨if_pos (by simp [hlast, hres]), hw⟩

/-- The next token, where reserved words do not count, is the first lexeme as it stands. -/
lemma Reader.Faces.next (h : s.Faces (l :: ls) rest) (hf : s.cost + 3 ≤ fuel) :
    Fetches ((Shell.next {} fuel).run s) l.Raw ls rest s.cost := by
  obtain ⟨fuel, rfl⟩ := Nat.exists_eq_add_one_of_ne_zero (show fuel ≠ 0 by omega)
  obtain ⟨s', e, hraw, hfaces, hcost⟩ := h.scan (show s.cost + 2 ≤ fuel by omega)
  refine ⟨s', ?_, hraw, hfaces, hcost⟩
  rw [run_next_scanned rfl h.calm.pushed e]
  simp [settle]
  rfl

/-- The next token is the one in reserve, unless line ends are passed over. -/
lemma Reader.Holds.next (h : s.Holds l ls rest) (hl : look.pastNewlines = true → l.Visible)
    (hf : 1 ≤ fuel) :
    Fetches ((Shell.next look fuel).run s) l.Resolved ls rest s.cost := by
  obtain ⟨fuel, rfl⟩ := Nat.exists_eq_add_one_of_ne_zero (show fuel ≠ 0 by omega)
  have hres : l.Resolved { s with pushed := false } := by
    have := h.resolved
    cases l <;> exact this
  obtain ⟨s', e, hres', hrest, hpushed, hpending⟩ := settle_resolved fuel hl (.inl hres)
  have hfaces : s'.Faces ls rest := ⟨⟨hpushed, hpending.trans h.pending⟩, hrest ▸ h.lexes⟩
  refine ⟨s', (run_next_held h.pushed).trans e, hres', hfaces, ?_⟩
  rw [hfaces.cost_eq, h.cost_eq, hrest]

/-- The next token, where reserved words count, is the first lexeme, resolved. -/
lemma Reader.Faces.next_resolved (h : s.Faces (l :: ls) rest) (look : Looking)
    (hlook : look.forDelimiter = false) (hres : look.forReserved = true)
    (hl : look.pastNewlines = true → l.Visible) (hf : s.cost + 3 ≤ fuel) :
    Fetches ((Shell.next look fuel).run s) l.Resolved ls rest s.cost := by
  obtain ⟨fuel, rfl⟩ := Nat.exists_eq_add_one_of_ne_zero (show fuel ≠ 0 by omega)
  obtain ⟨s₁, e₁, hraw, hfaces₁, hcost⟩ := h.scan (show s.cost + 2 ≤ fuel by omega)
  obtain ⟨s', e, hres', hrest, hpushed, hpending⟩ := settle_resolved fuel hl (.inr ⟨hraw, hres⟩)
  have hfaces : s'.Faces ls rest :=
    ⟨⟨hpushed.trans hfaces₁.calm.pushed, hpending.trans hfaces₁.calm.pending⟩,
      hrest ▸ hfaces₁.lexes⟩
  refine ⟨s', (run_next_scanned hlook h.calm.pushed e₁).trans e, hres', hfaces, ?_⟩
  rw [hfaces.cost_eq, hrest, ← hfaces₁.cost_eq]
  exact hcost

/-- The first of the lexemes is in reserve. -/
def Reader.Stands (s : Reader) (ls : List Lexeme) (rest : List Char) : Prop :=
  ∃ l ls', ls = l :: ls' ∧ s.Holds l ls' rest

/-- The lexemes come next, the first of them maybe from the reserve. -/
def Reader.Feeds (s : Reader) (ls : List Lexeme) (rest : List Char) : Prop :=
  s.Faces ls rest ∨ s.Stands ls rest

/-- The look for the start of a command, past line ends. -/
abbrev atCommand : Looking :=
  { pastNewlines := true, forReserved := true }

/-- A line end is taken from the text or from the reserve, and the reading goes on behind it. -/
lemma Reader.Feeds.pass (h : s.Feeds (.mark .newline :: ls) rest) (hf : s.cost + 2 ≤ fuel + 1) :
    ∃ s' : Reader, s'.Faces ls rest ∧ s'.cost + 12 ≤ s.cost ∧
      (Shell.next atCommand (fuel + 2)).run s = (Shell.next atCommand (fuel + 1)).run s' := by
  rcases h with h | ⟨_, _, e, h⟩
  · obtain ⟨s', e, hraw, hfaces, hcost⟩ := h.scan hf
    refine ⟨s', hfaces, hcost, ?_⟩
    rw [run_next_scanned rfl h.calm.pushed e, hraw.1, settle_newline rfl hfaces.calm.pending]
  · cases e
    have hfaces : Reader.Faces { s with pushed := false } ls rest := ⟨⟨rfl, h.pending⟩, h.lexes⟩
    have hlast : s.last = .newline := h.resolved.1
    refine ⟨{ s with pushed := false }, hfaces, ?_, ?_⟩
    · rw [hfaces.cost_eq, h.cost_eq]
    · rw [run_next_held h.pushed, hlast]
      exact settle_newline rfl h.pending

/-- The next token, past line ends and where reserved words count, is the first lexeme that is no
line end. -/
lemma Reader.Feeds.next_past {n : Nat}
    (h : s.Feeds (List.replicate n (.mark .newline) ++ l :: ls) rest) (hl : l.Visible)
    (hf : s.cost + 3 ≤ fuel) :
    Fetches ((Shell.next atCommand fuel).run s) l.Resolved ls rest s.cost := by
  induction n generalizing s fuel with
  | zero =>
    rcases h with h | ⟨_, _, e, h⟩
    · exact h.next_resolved atCommand rfl rfl (fun _ => hl) hf
    · cases e
      exact h.next (fun _ => hl) (by omega)
  | succ n ih =>
    obtain ⟨fuel, rfl⟩ := Nat.exists_eq_add_of_le' (show 2 ≤ fuel by omega)
    obtain ⟨s', hfaces, hcost, e⟩ := h.pass (show s.cost + 2 ≤ fuel + 1 by omega)
    rw [e]
    obtain ⟨s'', e', hres, hfaces', hcost'⟩ :=
      ih (.inl hfaces) (show s'.cost + 3 ≤ fuel + 1 by omega)
    exact ⟨s'', e', hres, hfaces', by omega⟩

/-- A token that was taken can be put back. -/
lemma Reader.Faces.pushBack (h : s.Faces ls rest) (hres : l.Resolved s) :
    ∃ s', Shell.pushBack.run s = .ok ((), s') ∧ s'.Stands (l :: ls) rest ∧
      s'.cost = s.cost + 12 := by
  refine ⟨{ s with pushed := true }, rfl, ⟨l, ls, rfl, rfl, h.calm.pending, ?_, h.lexes⟩, ?_⟩
  · cases l <;> exact hres
  · simp [Reader.cost, h.calm.pushed]

end

end Stencil.Shell
