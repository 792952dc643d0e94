import Stencil.Proofs.Sections

/-!
# Texts that are refused

What the reader does with a reserved word where a command should be called or a function should get
its name. The word begins or ends a compound command there, and what follows it does not go on that
command (`Unfit`). A call is then no word (`Sticks`), a line with it is no token (`Jams`), and lines
that come to it are no commands (`Refused`).
-/

namespace Stencil.Shell

open Reader

/-- The reading stops with an error. -/
def Fails {α : Type} (r : Except SyntaxError α) : Prop :=
  ∃ e, r = .error e

namespace Fails

variable {α β : Type} {x : ReadM α} {f : α → ReadM β} {s s' : Reader}

/-- A token that is not expected ends the reading. -/
lemma unexpected (wanted : Option Token) (s : Reader) :
    Fails ((Shell.unexpected wanted : ReadM α).run s) :=
  ⟨_, rfl⟩

/-- A failure of the first step is one of both. -/
lemma bind (h : Fails (x.run s)) : Fails ((x >>= f).run s) := by
  obtain ⟨e, he⟩ := h
  rw [StateT.run_bind, he]
  exact ⟨e, rfl⟩

/-- A failure of the second step is one of both. -/
lemma bind_of {a : α} (e : x.run s = .ok (a, s')) (h : Fails ((f a).run s')) :
    Fails ((x >>= f).run s) := by
  rw [run_bind_of e]
  exact h

/-- Behind a step that leaves some text, the next one may fail on it. -/
lemma leaves {P : α → Prop} {mid : List Char} (hx : Leaves (x.run s) P mid)
    (hf : ∀ a s', P a → s'.rest = mid → s'.Calm → Fails ((f a).run s')) :
    Fails ((x >>= f).run s) := by
  obtain ⟨a, s', e, ha, hs, hc⟩ := hx
  exact bind_of e (hf a s' ha hs hc)

/-- A result that is only changed was there before. -/
lemma of_map {g : α → β} (h : Fails ((x >>= fun a => pure (g a) : ReadM β).run s)) :
    Fails (x.run s) := by
  cases hx : x.run s with
  | error e => exact ⟨e, rfl⟩
  | ok r =>
    obtain ⟨e, he⟩ := h
    rw [StateT.run_bind, hx] at he
    cases he

end Fails

/-! ## Words and tokens -/

/-- The text does not start with a word outside of quotes, nor with nothing. -/
def Sticks (text : List Char) : Prop :=
  ∀ ⦃s : Reader⦄ ⦃fuel : Nat⦄, s.rest = text → s.Calm → 20 * text.length + 1 ≤ fuel →
    Fails ((parts .bare fuel).run s)

/-- An ordinary character before a text that sticks does not help. -/
lemma Sticks.char {c : Char} {text : List Char} (hc : Mode.bare.isOrdinary c = true)
    (h : Sticks text) :
    Sticks (c :: text) := by
  intro s fuel hs hcalm hf
  rw [List.length_cons] at hf
  obtain ⟨fuel, rfl⟩ := Nat.exists_eq_add_one_of_ne_zero (show fuel ≠ 0 by omega)
  rw [Yields.run_parts_ordinary hs hc]
  refine Fails.bind ?_
  cases text with
  | nil => exact h rfl ⟨hcalm.pushed, hcalm.pending⟩ (by omega)
  | cons d ds =>
    cases hd : Mode.bare.isOrdinary d with
    | true =>
      -- The reader takes both characters in one step, and would fail behind them.
      have hstep :=
        @h { s with rest := d :: ds } (fuel + 1) rfl ⟨hcalm.pushed, hcalm.pending⟩ (by omega)
      rw [Yields.run_parts_ordinary rfl hd] at hstep
      rw [List.dropWhile_cons_of_pos hd]
      exact Fails.of_map hstep
    | false =>
      rw [List.dropWhile_cons_of_neg (by simp [hd])]
      exact h rfl ⟨hcalm.pushed, hcalm.pending⟩ (by omega)

/-- Ordinary characters before a text that sticks do not help. -/
lemma Sticks.chars {cs text : List Char} (hcs : ∀ c ∈ cs, Mode.bare.isOrdinary c = true)
    (h : Sticks text) :
    Sticks (cs ++ text) := by
  induction cs with
  | nil => exact h
  | cons c cs ih =>
    exact (ih fun d hd => hcs d (List.mem_cons_of_mem c hd)).char (hcs c List.mem_cons_self)

/-- The text does not start with a token. -/
def Jams (text : List Char) : Prop :=
  ∀ ⦃s : Reader⦄ ⦃fuel : Nat⦄, s.rest = text → s.Calm → 20 * text.length + 2 ≤ fuel →
    Fails ((scan false fuel).run s)

set_option linter.unusedSimpArgs false in
/-- No token begins with a word that sticks. -/
lemma Sticks.jams {c : Char} {text : List Char} (hc : Lex.startsWord c = true)
    (h : Sticks (c :: text)) :
    Jams (c :: text) := by
  intro s fuel hs hcalm hf
  obtain ⟨fuel, rfl⟩ := Nat.exists_eq_add_one_of_ne_zero (show fuel ≠ 0 by omega)
  obtain ⟨h₀, h₁, h₂, h₃, h₄, h₅, h₆, h₇, h₈, h₉⟩ := Lex.ne_of_startsWord hc
  rw [Lex.run_scan (scan.eq_def false (fuel + 1)) hs h₀]
  simp only [h₁, h₂, h₃, h₄, h₅, h₆, h₇, h₈, h₉, Bool.false_eq_true, if_false]
  exact (h hs hcalm (by omega)).bind

namespace Jams

variable {text : List Char} {s : Reader} {fuel : Nat}

/-- A blank before a text that jams does not help. -/
lemma blank (h : Jams text) : Jams (' ' :: text) := by
  intro s fuel hs hcalm hf
  rw [List.length_cons] at hf
  obtain ⟨fuel, rfl⟩ := Nat.exists_eq_add_one_of_ne_zero (show fuel ≠ 0 by omega)
  rw [Lex.run_scan (scan.eq_def false (fuel + 1)) hs (by decide)]
  refine Fails.leaves (skip_leaves hs hcalm) fun _ s' _ hs' hc' => ?_
  exact h hs' hc' (by omega)

/-- Before a text that jams no token is read. -/
lemma next {look : Looking} (h : Jams text) (hlook : look.forDelimiter = false)
    (hs : s.Faces [] text) (hf : s.cost + 3 ≤ fuel) : Fails ((Shell.next look fuel).run s) := by
  obtain ⟨fuel, rfl⟩ := Nat.exists_eq_add_one_of_ne_zero (show fuel ≠ 0 by omega)
  have hrest : s.rest = text := hs.lexes.eq_of_nil
  have hcost : s.cost = 20 * text.length := hrest ▸ hs.cost_eq
  rw [Shell.next]
  show Fails (StateT.run (if s.pushed = true then _ else _) s)
  rw [hs.calm.pushed, if_neg (by decide), hlook]
  exact (h hrest hs.calm (by omega)).bind

/-- Newlines before a text that jams do not help. -/
lemma next_past {n : Nat} (h : Jams text) (hs : s.Feeds (List.replicate n (.mark .newline)) text)
    (hf : s.cost + 3 ≤ fuel) : Fails ((Shell.next atCommand fuel).run s) := by
  induction n generalizing s fuel with
  | zero =>
    rcases hs with hs | ⟨_, _, e, -⟩
    · exact h.next rfl hs hf
    · cases e
  | succ n ih =>
    obtain ⟨fuel, rfl⟩ := Nat.exists_eq_add_of_le' (show 2 ≤ fuel by omega)
    obtain ⟨s', hfaces, hcost, e⟩ := hs.pass (show s.cost + 2 ≤ fuel + 1 by omega)
    rw [e]
    exact ih (.inl hfaces) (by omega)

end Jams

/-! ## Behind a reserved word -/

/-- A row of commands is refused if its first command is, and the row cannot end there. -/
lemma fails_commands {canEnd : Bool} {l : Lexeme} {ls : List Lexeme} {rest : List Char} {s : Reader}
    {n fuel : Nat}
    (before : List Command)
    (hl : ∀ s : Reader, l.Resolved s → s.last ≠ .newline ∧ s.last ≠ .endOfFile ∧
      s.last ≠ .reserved "!" ∧
      (canEnd && s.last.endsList) = false)
    (hs : s.Feeds (List.replicate n (.mark .newline) ++ l :: ls) rest) (hvisible : l.Visible)
    (hf : s.cost + 9 ≤ fuel)
    (hcommand : ∀ ⦃s' : Reader⦄ ⦃fuel : Nat⦄, s'.Stands (l :: ls) rest → s'.cost + 6 ≤ fuel →
      Fails ((command fuel).run s')) :
    Fails ((commands false canEnd before fuel).run s) := by
  obtain ⟨fuel, rfl⟩ := Nat.exists_eq_add_of_le' (show 3 ≤ fuel by omega)
  obtain ⟨s₁, e₁, hres, hfaces, hcost₁⟩ :=
    hs.next_past hvisible (show s.cost + 3 ≤ fuel + 2 by omega)
  obtain ⟨s₂, e₂, hstands₂, hcost₂⟩ := hfaces.pushBack hres
  obtain ⟨s₃, s₄, e₃, hres₃, e₄, hstands₄, hcost₄⟩ := hstands₂.look (show 1 ≤ fuel by omega)
  obtain ⟨hnewline, hend, -, hends⟩ := hl s₁ hres
  obtain ⟨-, -, hbang, -⟩ := hl s₃ hres₃
  have e₁' : (Shell.next { pastNewlines := !false, forReserved := true } (fuel + 2)).run s =
      .ok (s₁.last, s₁) := e₁
  rw [commands, run_bind_of e₁', if_neg (by simpa using hnewline), if_neg (by simpa using hend),
    run_bind_of e₂, if_neg (by simp [hends])]
  refine Fails.bind ?_
  rw [andOr]
  refine Fails.bind ?_
  rw [pipeline, run_bind_of e₃, if_neg (by simpa using hbang), run_bind_of e₄, pure_bind]
  exact (hcommand hstands₄ (by omega)).bind

/-- A word that is not reserved begins a command. -/
lemma fails_commands_word {canEnd : Bool} {f : String} {rest : List Char} {s : Reader}
    {n fuel : Nat}
    (before : List Command) (hf : reservedWords.contains f = false)
    (hs : s.Feeds (List.replicate n (.mark .newline) ++ [.plain f]) rest)
    (hcost : s.cost + 9 ≤ fuel)
    (hcommand : ∀ ⦃s' : Reader⦄ ⦃fuel : Nat⦄, s'.Stands [.plain f] rest → s'.cost + 6 ≤ fuel →
      Fails ((command fuel).run s')) :
    Fails ((commands false canEnd before fuel).run s) := by
  refine fails_commands before ?_ hs trivial hcost hcommand
  intro s' hs'
  rw [hs'.1, free_plain hf _ hs'.2]
  exact ⟨by decide, by decide, by decide, Bool.and_false canEnd⟩

/-- A pair of parentheses is two tokens. -/
lemma Reader.Faces.parens {s : Reader} {tail : List Char} (hs : s.Faces [] ('(' :: ')' :: tail)) :
    s.Faces [.mark .openParen, .mark .closeParen] tail :=
  ⟨hs.calm, hs.lexes.eq_of_nil ▸ .cons (.openParen _) (.cons (.closeParen _) (.nil tail))⟩

/-- What is read of a selection behind its first word. -/
def selection (line fuel : Nat) : ReadM Command := do
  if (← next {} fuel) != .word then unexpected (some .word)
  let w := (← get).word
  if (← next { pastNewlines := true, forReserved := true } fuel) != .reserved "in" then
    unexpected (some (.reserved "in"))
  let cs ← cases fuel
  return .select line w cs (← redirects fuel)

/-- The text does not go on a compound command behind the word that begins it. -/
structure Unfit (rest : List Char) : Prop where
  body : ∀ ⦃s : Reader⦄ ⦃fuel : Nat⦄ (w : String), s.Faces [] rest → s.cost + 10 ≤ fuel →
    Fails ((Shell.body (.reserved w) fuel).run s)
  loop : ∀ ⦃s : Reader⦄ ⦃fuel : Nat⦄ (line : Nat), s.Faces [] rest → s.cost + 10 ≤ fuel →
    Fails ((forLoop line fuel).run s)
  select : ∀ ⦃s : Reader⦄ ⦃fuel : Nat⦄ (line : Nat), s.Faces [] rest → s.cost + 10 ≤ fuel →
    Fails ((selection line fuel).run s)

namespace Unfit

variable {rest : List Char}

/-- No reserved word makes a command of the text behind it. -/
lemma command (h : Unfit rest) {w : String} {s : Reader} {fuel : Nat} (hw : w ∈ reservedWords)
    (hs : s.Stands [.plain w] rest) (hf : s.cost + 6 ≤ fuel) :
    Fails ((Shell.command fuel).run s) := by
  obtain ⟨fuel, rfl⟩ := Nat.exists_eq_add_one_of_ne_zero (show fuel ≠ 0 by omega)
  obtain ⟨s₁, e₁, hfaces, hcost⟩ := hs.next_reserved (by simpa using hw) (show 1 ≤ fuel by omega)
  have hfuel : s₁.cost + 10 ≤ fuel := by omega
  rw [Shell.command, run_bind_of (run_get s), run_bind_of e₁]
  simp only [reservedWords, List.mem_cons, List.not_mem_nil, or_false] at hw
  rcases hw with rfl | rfl | rfl | rfl | rfl | rfl | rfl | rfl | rfl | rfl | rfl | rfl | rfl |
    rfl | rfl | rfl
  any_goals exact Fails.unexpected none s₁
  -- What is left are the words that begin a command.
  · exact h.select s.line hfaces hfuel
  · exact h.loop s.line hfaces hfuel
  · exact (h.body "then" hfaces hfuel).bind
  · exact (h.body "do" hfaces hfuel).bind
  · exact (h.body "do" hfaces hfuel).bind
  · exact (h.body "\x7d" hfaces hfuel).bind

/-- A text that jams goes on no compound command. -/
lemma of_jams (h : Jams rest) : Unfit rest := by
  constructor
  · intro s fuel w hs hf
    obtain ⟨fuel, rfl⟩ := Nat.exists_eq_add_of_le' (show 2 ≤ fuel by omega)
    rw [Shell.body]
    refine Fails.bind ?_
    rw [commands]
    exact (h.next_past (n := 0) (.inl hs) (by omega)).bind
  · intro s fuel line hs hf
    obtain ⟨fuel, rfl⟩ := Nat.exists_eq_add_one_of_ne_zero (show fuel ≠ 0 by omega)
    rw [forLoop]
    exact (h.next rfl hs (by omega)).bind
  · intro s fuel line hs hf
    exact (h.next rfl hs (by omega)).bind

/-- A pair of parentheses goes on no compound command. -/
lemma parens (tail : List Char) : Unfit ('(' :: ')' :: tail) := by
  constructor
  · intro s fuel w hs hf
    obtain ⟨fuel, rfl⟩ := Nat.exists_eq_add_one_of_ne_zero (show fuel ≠ 0 by omega)
    rw [Shell.body]
    refine Fails.bind ?_
    -- The first parenthesis begins a command, which the second one would have to begin as well.
    refine fails_commands [] (n := 0) ?_ (.inl hs.parens) (by simp [Lexeme.Visible]) (by omega) ?_
    · intro s hs
      rw [hs.1]
      decide
    · intro s₁ fuel hs₁ hf₁
      obtain ⟨fuel, rfl⟩ := Nat.exists_eq_add_of_le' (show 2 ≤ fuel by omega)
      obtain ⟨s₂, e₂, hres₂, hfaces₂, hcost₂⟩ := hs₁.next (show 1 ≤ fuel + 1 by omega)
      rw [Shell.command, run_bind_of (run_get s₁), run_bind_of e₂, hres₂.1]
      show Fails ((Shell.body .closeParen (fuel + 1) >>= _ : ReadM _).run s₂)
      rw [Shell.body]
      refine Fails.bind (Fails.bind ?_)
      refine fails_commands [] (n := 0) ?_ (.inl hfaces₂) (by simp [Lexeme.Visible]) (by omega) ?_
      · intro s hs
        rw [hs.1]
        decide
      · intro s₃ fuel hs₃ hf₃
        obtain ⟨fuel, rfl⟩ := Nat.exists_eq_add_one_of_ne_zero (show fuel ≠ 0 by omega)
        obtain ⟨s₄, e₄, hres₄, -, -⟩ := hs₃.next (show 1 ≤ fuel by omega)
        rw [Shell.command, run_bind_of (run_get s₃), run_bind_of e₄, hres₄.1]
        exact Fails.unexpected none s₄
  · intro s fuel line hs hf
    obtain ⟨fuel, rfl⟩ := Nat.exists_eq_add_one_of_ne_zero (show fuel ≠ 0 by omega)
    obtain ⟨s₁, e₁, hraw, -, -⟩ := hs.parens.next (show s.cost + 3 ≤ fuel by omega)
    rw [forLoop, run_bind_of e₁, hraw.1]
    exact ⟨_, rfl⟩
  · intro s fuel line hs hf
    obtain ⟨s₁, e₁, hraw, -, -⟩ := hs.parens.next (show s.cost + 3 ≤ fuel by omega)
    rw [selection, run_bind_of e₁, hraw.1, if_pos (by rfl)]
    exact (Fails.unexpected _ s₁).bind

/-- A word with a closing parenthesis behind it goes on no command, if it is no plain name. -/
lemma phrase (p : Phrase) (hp : ∀ w, p.means w → plainText? w = none) (tail : List Char) :
    Unfit (' ' :: (p.text ++ ')' :: tail)) := by
  have hfree : Free p.means := fun w hw => by rw [Lexeme.tokenOf, hp w hw]
  have hfaces {s : Reader} (hs : s.Faces [] (' ' :: (p.text ++ ')' :: tail))) :
      s.Faces [p.lexeme, .mark .closeParen] tail :=
    ⟨hs.calm,
      hs.lexes.eq_of_nil ▸ (Lexes.cons (p.lex (by rfl)) (.cons (.closeParen _) (.nil tail))).blank⟩
  constructor
  · intro s fuel w hs hf
    obtain ⟨fuel, rfl⟩ := Nat.exists_eq_add_one_of_ne_zero (show fuel ≠ 0 by omega)
    have hlist : IsList [p.lexeme] _ :=
      (IsCommand.simple hfree (gathers_words {} [p])).pipeline.list
    obtain ⟨c, s₁, e₁, -, hstands, hcost₁⟩ :=
      run_commands_closed false hlist (hfaces hs) (show s.cost + 9 ≤ fuel by omega)
    obtain ⟨s₂, e₂, hres₂, -, -⟩ := hstands.next (show 1 ≤ fuel by omega)
    rw [Shell.body, run_bind_of e₁]
    dsimp only
    rw [run_bind_of e₂, hres₂.1, if_pos (by rfl)]
    exact (Fails.unexpected _ s₂).bind
  · intro s fuel line hs hf
    obtain ⟨fuel, rfl⟩ := Nat.exists_eq_add_one_of_ne_zero (show fuel ≠ 0 by omega)
    obtain ⟨s₁, e₁, hraw, -, -⟩ := (hfaces hs).next (show s.cost + 3 ≤ fuel by omega)
    rw [forLoop, run_bind_of e₁, run_bind_of (run_get s₁), hraw.1, hp _ hraw.2]
    exact ⟨_, rfl⟩
  · intro s fuel line hs hf
    obtain ⟨s₁, e₁, hraw, hfaces₁, hcost₁⟩ := (hfaces hs).next (show s.cost + 3 ≤ fuel by omega)
    obtain ⟨s₂, e₂, hres₂, -, -⟩ :=
      hfaces₁.next_resolved atCommand rfl rfl (fun _ => by simp [Lexeme.Visible])
        (show s₁.cost + 3 ≤ fuel by omega)
    rw [selection, run_bind_of e₁, hraw.1, if_neg (by decide), run_bind_of (run_get s₁),
      run_bind_of e₂, hres₂.1, if_pos (by rfl)]
    exact (Fails.unexpected _ s₂).bind

end Unfit

/-- The reading of a row of commands fails, or stops before a reserved word with a text behind it
that satisfies `K`. -/
def Derails (K : List Char → Prop) (cost : Nat)
    (r : Except SyntaxError ((List Command × Bool) × Reader)) : Prop :=
  Fails r ∨
    ∃ cs w s rest, r = .ok ((cs, false), s) ∧ w ∈ reservedWords ∧ s.Stands [.plain w] rest ∧
      s.cost ≤ cost ∧ K rest

/-- A reserved word either ends the row or begins a command that is refused. -/
lemma Unfit.derails {K : List Char → Prop} {canEnd : Bool} {rest : List Char} {w : String}
    {s : Reader} {n fuel : Nat} (before : List Command) (h : Unfit rest) (hK : K rest)
    (hw : w ∈ reservedWords) (hname : isName w.toList = true)
    (hs : s.Feeds (List.replicate n (.mark .newline) ++ [.plain w]) rest) (hf : s.cost + 9 ≤ fuel) :
    Derails K s.cost ((commands false canEnd before fuel).run s) := by
  have hlast {s : Reader} (hs : (Lexeme.plain w).Resolved s) : s.last = .reserved w :=
    Lexeme.last_of_reserved (by simpa using hw) hs
  cases hends : canEnd && (Token.reserved w).endsList with
  | true =>
    obtain ⟨fuel, rfl⟩ := Nat.exists_eq_add_one_of_ne_zero (show fuel ≠ 0 by omega)
    obtain ⟨s₁, e₁, hres, hfaces, hcost₁⟩ := hs.next_past trivial (show s.cost + 3 ≤ fuel by omega)
    obtain ⟨s₂, e₂, hstands, hcost₂⟩ := hfaces.pushBack hres
    have e₁' : (Shell.next { pastNewlines := !false, forReserved := true } fuel).run s =
        .ok (s₁.last, s₁) := e₁
    refine .inr ⟨before, w, s₂, rest, ?_, hw, hstands, by omega, hK⟩
    rw [commands, run_bind_of e₁', hlast hres, if_neg (by simp), if_neg (by simp), run_bind_of e₂,
      if_pos hends]
    rfl
  | false =>
    refine .inl
      (fails_commands before ?_ hs trivial hf fun s' fuel' hs' hf' => h.command hw hs' hf')
    intro s' hs'
    rw [hlast hs']
    refine ⟨by simp, by simp, ?_, hends⟩
    rintro ⟨⟩
    revert hname
    decide

/-! ## Calls -/

/-- Commands between parentheses behind a dollar are no word if the parentheses are not closed
behind them. -/
lemma Sticks.substitution {K : List Char → Prop} {c : Char} {text : List Char} (hj : c ≠ '\\')
    (hc : c ≠ '(')
    (h : ∀ ⦃s : Reader⦄ ⦃fuel : Nat⦄, s.Faces [] (c :: text) → s.cost + 9 ≤ fuel →
      Derails K s.cost ((commands false true [] fuel).run s)) : Sticks
        ('$' :: '(' :: c :: text) := by
  intro s fuel hs hcalm hf
  simp only [List.length_cons] at hf
  obtain ⟨fuel, rfl⟩ := Nat.exists_eq_add_of_le' (show 2 ≤ fuel by omega)
  rw [Yields.run_parts (parts.eq_def _ (fuel + 1 + 1)) hs (NoJoin.cons (by decide) _)]
  dsimp only
  rw [Yields.isOrdinary_dollar, if_neg (by decide), if_neg (by decide), if_pos (by decide)]
  refine Fails.bind ?_
  obtain ⟨s₁, hs₁, hc₁, e₁⟩ := run_dollar_commands .bare fuel hs hcalm hj hc
  have hfaces : s₁.Faces [] (c :: text) := ⟨hc₁, hs₁ ▸ .nil _⟩
  have hcost : s₁.cost + 9 ≤ fuel := by
    rw [hfaces.cost_eq, hs₁, List.length_cons]
    omega
  rw [e₁]
  rcases h hfaces hcost with hfails | ⟨cs, w, s₂, rest, e₂, hw, hstands, -, -⟩
  · exact hfails.bind
  · obtain ⟨s₃, e₃, -, -⟩ := hstands.next_reserved (by simpa using hw) (show 1 ≤ fuel by omega)
    rw [run_bind_of e₂]
    dsimp only
    rw [run_bind_of e₃, if_pos (by rfl)]
    exact (Fails.unexpected _ s₃).bind

/-- The text is a call that is no word, whatever follows it. -/
structure Blocked (text : List Char) : Prop where
  starts : text.head? = some '$'
  sticks : ∀ tail, Sticks (text ++ tail)

/-- A text that is blocked jams, whatever follows it. -/
lemma Blocked.jams {text : List Char} (h : Blocked text) (tail : List Char) :
    Jams (text ++ tail) := by
  obtain ⟨starts, sticks⟩ := h
  cases text with
  | nil => cases starts
  | cons c text =>
    obtain rfl : c = '$' := Option.some.inj starts
    exact (sticks tail).jams (by decide)

/-- A name is read as a word up to where it breaks off. -/
lemma lexes_name {f : String} (hf : isName f.toList = true) (rest : List Char) (hb : Breaks rest) :
    Lexes (f.toList ++ rest) [.plain f] rest :=
  .keyword (Phrase.isPlain_of_isName hf) hb (.nil rest)

/-- A call in parentheses behind a dollar is no word if the commands in it are refused. -/
lemma blocked_call {K : List Char → Prop} {f : String} {argument : List Char}
    (hf : isName f.toList = true)
    (h : ∀ ⦃s : Reader⦄ ⦃fuel : Nat⦄ (tail : List Char), s.Faces [.plain f]
    (' ' :: (argument ++ ')' :: tail)) →
      s.cost + 9 ≤ fuel → Derails K s.cost ((commands false true [] fuel).run s)) :
    Blocked ('$' :: '(' :: (f.toList ++ ' ' :: (argument ++ [')']))) := by
  refine ⟨rfl, fun tail => ?_⟩
  obtain ⟨c, cs, hcs, -, hall⟩ := exists_of_isName hf
  have hlex := lexes_name hf (' ' :: (argument ++ ')' :: tail)) rfl
  have htext : '$' :: '(' :: (f.toList ++ ' ' :: (argument ++ [')'])) ++ tail =
      '$' :: '(' :: c :: (cs ++ ' ' :: (argument ++ ')' :: tail)) := by simp [hcs]
  rw [htext]
  refine Sticks.substitution (ne_of_isNameChar (hall c (by simp)) (by decide))
    (ne_of_isNameChar (hall c (by simp)) (by decide)) fun s fuel hs hcost =>
      h tail ⟨hs.calm, ?_⟩ hcost
  rw [hcs] at hlex
  exact hs.lexes.eq_of_nil ▸ hlex

/-- A reserved word cannot be called. -/
lemma blocked_of_reserved {f : String} {argument : List Char} (hf : isName f.toList = true)
    (hres : f ∈ reservedWords) (h : ∀ tail, Unfit (' ' :: (argument ++ ')' :: tail))) :
    Blocked ('$' :: '(' :: (f.toList ++ ' ' :: (argument ++ [')']))) :=
  blocked_call (K := fun _ => True) hf fun _ _ tail hs hcost =>
    (h tail).derails (n := 0) [] trivial hres hf (.inl hs) hcost

/-- Nothing can be called with an argument that is no word. -/
lemma Blocked.call {f : String} {argument : List Char} (h : Blocked argument)
    (hf : isName f.toList = true) :
    Blocked ('$' :: '(' :: (f.toList ++ ' ' :: (argument ++ [')']))) := by
  have hjams (tail : List Char) : Jams (' ' :: (argument ++ ')' :: tail)) := (h.jams _).blank
  cases hres : reservedWords.contains f with
  | true => exact blocked_of_reserved hf (by simpa using hres) fun tail => .of_jams (hjams tail)
  | false =>
    refine blocked_call (K := fun _ => True) hf fun s fuel tail hs hcost => .inl ?_
    refine fails_commands_word [] (n := 0) hres (.inl hs) hcost fun s₁ fuel₁ hs₁ hf₁ => ?_
    obtain ⟨fuel₁, rfl⟩ := Nat.exists_eq_add_of_le' (show 4 ≤ fuel₁ by omega)
    obtain ⟨line, w, s₂, -, hfaces, hcost₂, e⟩ :=
      run_command_word (free_plain hres) hs₁ (show 1 ≤ fuel₁ + 1 by omega)
    rw [e, simpleFrom.eq_def]
    exact ((hjams tail).next rfl hfaces (by omega)).bind

/-! ## Lines -/

/-- What is fed can be followed by further tokens. -/
lemma Reader.Feeds.append {s : Reader} {ls ls' : List Lexeme} {mid rest : List Char}
    (h : s.Feeds ls mid) (h' : Lexes mid ls' rest) : s.Feeds (ls ++ ls') rest := by
  rcases h with h | ⟨l, ls, rfl, h⟩
  · exact .inl ⟨h.calm, h.lexes.append h'⟩
  · exact .inr ⟨l, ls ++ ls', rfl, h.pushed, h.pending, h.resolved, h.lexes.append h'⟩

/-- Rows of commands do not get past the lines: the reading fails, or stops before a reserved word
with parentheses behind it. -/
def Refused (canEnd : Bool) (text : List Char) : Prop :=
  ∀ ⦃s : Reader⦄ ⦃n fuel : Nat⦄ (before : List Command),
    s.Feeds (List.replicate n (.mark .newline)) text →
    s.cost + 9 ≤ fuel →
      Derails (fun rest => ∃ tail, rest = '(' :: ')' :: tail) s.cost
        ((commands false canEnd before fuel).run s)

namespace Refused

variable {canEnd : Bool} {text : List Char}

/-- A newline before lines that are refused does not help. -/
lemma newline {t : List Char} (hlex : Lexes t [.mark .newline] text) (h : Refused canEnd text) :
    Refused canEnd t := by
  intro s n fuel before hs hf
  refine h (n := n + 1) before ?_ hf
  rw [List.replicate_succ']
  exact hs.append hlex

/-- A row of commands before lines that are refused does not help. -/
lemma list {ls tail : List Lexeme} {t : List Char} {P : Command → Prop} {sep : Token} {k : Nat}
    (hls : IsList ls P) (hsep : sep = .newline ∨ sep = .semicolon)
    (htail : tail = List.replicate k (.mark .newline))
    (hlex : Lexes t (ls ++ .mark sep :: tail) text) (h : Refused true text) : Refused canEnd t := by
  intro s n fuel before hs hf
  obtain ⟨fuel, rfl⟩ := Nat.exists_eq_add_one_of_ne_zero (show fuel ≠ 0 by omega)
  obtain ⟨c, m, s₁, -, e₁, hfeeds, hcost⟩ :=
    run_commands_cons canEnd before hls hsep (hs.append hlex) hf
  rw [htail, List.replicate_append_replicate] at hfeeds
  rw [e₁]
  rcases h (before ++ [c]) hfeeds (show s₁.cost + 9 ≤ fuel by omega) with
    hfails | ⟨cs, w, s₂, rest, e₂, hw, hs₂, hcost₂, hK⟩
  · exact .inl hfails
  · exact .inr ⟨cs, w, s₂, rest, e₂, hw, hs₂, by omega, hK⟩

/-- A text that jams is refused. -/
lemma of_jams (h : Jams text) : Refused canEnd text := by
  intro s n fuel before hs hf
  obtain ⟨fuel, rfl⟩ := Nat.exists_eq_add_one_of_ne_zero (show fuel ≠ 0 by omega)
  rw [commands]
  exact .inl (h.next_past hs (by omega)).bind

end Refused

/-- Lines before a text that is refused do not help. -/
lemma lays_refused : Lays Refused where
  empty h := h.newline (.cons (.newline _) (.nil _))
  comment k _ hcs h := h.newline (Lexes.indent k (.cons (.comment hcs (.newline _)) (.nil _)))
  line ht h := by
    obtain ⟨ls, hls, hs⟩ := ht
    exact h.list (k := 0) hls (.inl rfl) rfl ((hs (by rfl)).append (.cons (.newline _) (.nil _)))
  semicolon ht h := by
    obtain ⟨ls, hls, hs⟩ := ht
    exact h.list (k := 1) hls (.inr rfl) rfl
      ((hs (by rfl)).append
        (.cons (.semicolon (by decide) (by decide) _) (.cons (.newline _) (.nil _))))

/-- A special builtin with parentheses behind it is no command. -/
lemma fails_command_special {f : String} {tail : List Char} {s : Reader} {fuel : Nat}
    (hf : isName f.toList = true) (hres : reservedWords.contains f = false)
    (hspecial : specialBuiltins.contains f = true) (hs : s.Stands [.plain f] ('(' :: ')' :: tail))
    (hcost : s.cost + 6 ≤ fuel) : Fails ((command fuel).run s) := by
  obtain ⟨fuel, rfl⟩ := Nat.exists_eq_add_of_le' (show 4 ≤ fuel by omega)
  obtain ⟨line, w, s₁, rfl, hfaces₁, hcost₁, e₁⟩ :=
    run_command_word (free_plain hres) hs (show 1 ≤ fuel + 1 by omega)
  obtain ⟨s₂, e₂, hraw₂, hfaces₂, hcost₂⟩ := hfaces₁.parens.next (show s₁.cost + 3 ≤ fuel by omega)
  obtain ⟨s₃, e₃, hraw₃, -, -⟩ := hfaces₂.next (show s₂.cost + 3 ≤ fuel by omega)
  have hadd : Simple.add {} (plainWord f.toList) = { words := [plainWord f.toList] } := by
    obtain ⟨_, _, hc, _, hall⟩ := exists_of_isName hf
    simp [Simple.add, assignment?_plainWord (n := f.toList) (by rw [hc]; exact hall)]
  rw [e₁, hadd, simpleFrom.eq_def]
  dsimp only
  rw [run_bind_of e₂, hraw₂.1]
  dsimp only
  rw [run_bind_of e₃, hraw₃.1, if_neg (by decide), plainText?_plainWord]
  dsimp only
  rw [hf, String.ofList_toList, hspecial, if_pos (by decide)]
  exact ⟨_, rfl⟩

/-- No function can be named after a reserved word or a special builtin. -/
lemma refused_define {canEnd : Bool} {f : String} (hf : isName f.toList = true)
    (h : f ∈ reservedWords ∨ f ∈ specialBuiltins) (tail : List Char) :
    Refused canEnd (f.toList ++ '(' :: ')' :: tail) := by
  intro s n fuel before hs hcost
  have hfeeds := hs.append (lexes_name hf ('(' :: ')' :: tail) rfl)
  cases hres : reservedWords.contains f with
  | true =>
    exact (Unfit.parens tail).derails before ⟨tail, rfl⟩ (by simpa using hres) hf hfeeds hcost
  | false =>
    have hspecial : specialBuiltins.contains f = true := by
      have hno : f ∉ reservedWords := by simpa using hres
      simpa using h.resolve_left hno
    refine .inl (fails_commands_word before hres hfeeds hcost fun s₁ fuel₁ hs₁ hcost₁ => ?_)
    exact fails_command_special hf hres hspecial hs₁ hcost₁

/-! ## A conditional around the lines -/

section

variable {text : List Char} {s : Reader} {fuel : Nat}

/-- Lines that are refused do not get to the end of a conditional, unless a word in them ends it
before a parenthesis. -/
lemma Refused.branches (h : Refused false text) (test : List Command)
    (hs : s.Faces [.mark .newline] text) (hf : s.cost + 10 ≤ fuel) :
    Fails ((Shell.branches test fuel).run s) ∨
    ∃ r s' tail, (Shell.branches test fuel).run s = .ok (r, s') ∧
      s'.Faces [.mark .openParen] tail ∧ s'.cost ≤ s.cost := by
  obtain ⟨fuel, rfl⟩ := Nat.exists_eq_add_one_of_ne_zero (show fuel ≠ 0 by omega)
  rw [Shell.branches]
  rcases h (n := 1) [] (.inl hs) (show s.cost + 9 ≤ fuel by omega) with
    hfails | ⟨cs, w, s₁, _, e₁, hw, hs₁, hcost₁, tail, rfl⟩
  · exact .inl hfails.bind
  · obtain ⟨s₂, e₂, hfaces, hcost₂⟩ :=
      hs₁.next_reserved (by simpa using hw) (show 1 ≤ fuel by omega)
    have hunfit := Unfit.parens tail
    have hfuel : s₂.cost + 10 ≤ fuel := by omega
    rw [run_bind_of e₁]
    dsimp only
    rw [run_bind_of e₂]
    simp only [reservedWords, List.mem_cons, List.not_mem_nil, or_false] at hw
    rcases hw with rfl | rfl | rfl | rfl | rfl | rfl | rfl | rfl | rfl | rfl | rfl | rfl | rfl |
      rfl | rfl | rfl
    any_goals
      left
      exact Fails.unexpected _ s₂
    -- What is left are the words that go on the conditional and the one that ends it.
    · exact .inl (hunfit.body "then" hfaces hfuel).bind
    · exact .inl (hunfit.body "fi" hfaces hfuel).bind
    · refine .inr ⟨_, s₂, ')' :: tail, rfl, ⟨hfaces.calm, ?_⟩, by omega⟩
      exact hfaces.lexes.eq_of_nil ▸ .cons (.openParen _) (.nil _)

/-- A conditional with lines that are refused is refused, or ends before a parenthesis. -/
lemma Refused.conditional {test : List Lexeme} {Q : List Command → Prop} (h : Refused false text)
    (htest : IsRows false test Q)
    (hs : s.Stands (.plain "if" :: (test ++ [.plain "then", .mark .newline])) text)
    (hf : s.cost + 6 ≤ fuel) :
    Fails ((command fuel).run s) ∨ ∃ c s' tail, (command fuel).run s = .ok (c, s') ∧
      s'.Stands [.mark .openParen] tail ∧ s'.cost ≤ s.cost := by
  obtain ⟨fuel, rfl⟩ := Nat.exists_eq_add_one_of_ne_zero (show fuel ≠ 0 by omega)
  obtain ⟨s₁, e₁, hfaces₁, hcost₁⟩ := hs.next_reserved (by decide) (show 1 ≤ fuel by omega)
  obtain ⟨ts, s₂, e₂, -, hfaces₂, hcost₂⟩ :=
    htest.body_reserved (by decide) (by decide) hfaces₁ (show s₁.cost + 10 ≤ fuel by omega)
  rw [command, run_bind_of (run_get s), run_bind_of e₁]
  show Fails ((body (.reserved "then") fuel >>= _ : ReadM _).run s₁) ∨
    ∃ c s' tail, (body (.reserved "then") fuel >>= _ : ReadM _).run s₁ = .ok (c, s') ∧ _
  rw [run_bind_of e₂]
  rcases h.branches ts hfaces₂ (show s₂.cost + 10 ≤ fuel by omega) with hfails | ⟨r, s₃, tail, e₃,
    hfaces₃, hcost₃⟩
  · exact .inl hfails.bind
  · obtain ⟨s₄, e₄, hstands₄, hcost₄⟩ :=
      run_redirects_mark (by decide) hfaces₃ (show s₃.cost + 4 ≤ fuel by omega)
    refine .inr ⟨.conditional r.1 r.2 [], s₄, tail, ?_, hstands₄, by omega⟩
    rw [run_bind_of e₃]
    dsimp only
    rw [run_bind_of e₄]
    rfl

/-- The list that such a conditional begins is refused, or ends before a parenthesis as well. -/
lemma Refused.andOr {test : List Lexeme} {Q : List Command → Prop} (h : Refused false text)
    (htest : IsRows false test Q)
    (hs : s.Stands (.plain "if" :: (test ++ [.plain "then", .mark .newline])) text)
    (hf : s.cost + 8 ≤ fuel) :
    Fails ((Shell.andOr fuel).run s) ∨ ∃ c s' tail, (Shell.andOr fuel).run s = .ok (c, s') ∧
      s'.Stands [.mark .openParen] tail := by
  obtain ⟨fuel, rfl⟩ := Nat.exists_eq_add_of_le' (show 2 ≤ fuel by omega)
  obtain ⟨s₁, s₂, e₁, hres, e₂, hstands₂, hcost₂⟩ := hs.look (show 1 ≤ fuel by omega)
  have hpipeline : (pipeline (fuel + 1)).run s = ((do
      let c ← command fuel
      let cs ← pipelineFrom fuel
      return if cs.isEmpty && !false then c
        else .pipeline false (c :: cs)) : ReadM Command).run s₂ := by
    rw [pipeline, run_bind_of e₁, Lexeme.last_of_reserved (w := "if") (by decide) hres,
      if_neg (by decide), run_bind_of e₂, pure_bind]
  rcases h.conditional htest hstands₂ (show s₂.cost + 6 ≤ fuel by omega) with
    hfails | ⟨c, s₃, tail, e₃, hs₃, hcost₃⟩
  · left
    rw [Shell.andOr]
    refine Fails.bind ?_
    rw [hpipeline]
    exact hfails.bind
  · right
    obtain ⟨s₄, e₄, hs₄, hcost₄⟩ := run_pipelineFrom_mark (by decide) hs₃ (show 2 ≤ fuel by omega)
    obtain ⟨s₅, e₅, hs₅, -⟩ :=
      run_andOrFrom_mark (c := c) (by decide) hs₄ (show 2 ≤ fuel + 1 by omega)
    have hrun : (pipeline (fuel + 1)).run s = .ok (c, s₄) := by
      rw [hpipeline, run_bind_of e₃, run_bind_of e₄]
      rfl
    refine ⟨c, s₅, tail, ?_, hs₅⟩
    rw [Shell.andOr, run_bind_of hrun, e₅]

end

/-! ## Scripts -/

section

variable {r : Reader}

/-- A failure to read a row of commands is one of the whole reader. -/
lemma Fails.reader_next
    (h : Fails ((commands true false [] r.fuel).run { r with pushed := false, pending := [] })) :
    ∃ e, r.next = .error e := by
  obtain ⟨e, he⟩ := h
  refine ⟨e, ?_⟩
  rw [Reader.next, he]

/-- A script cannot be read past a text that does not start with a token. -/
lemma Jams.reader_next (h : Jams r.rest) : ∃ e, r.next = .error e := by
  have hfaces := faces_of_lexes (.nil r.rest)
  obtain ⟨fuel, hfuel, hcost⟩ := exists_fuel hfaces 1 (by decide)
  apply Fails.reader_next
  rw [hfuel, commands]
  exact (h.next rfl hfaces (by omega)).bind

/-- A script cannot be read past a conditional with lines that are refused. -/
lemma Refused.reader_next {t text : List Char} {P : Command → Prop} (ht : ListText t P)
    (h : Refused false text)
    (hr : r.rest = "if".toList ++ ' ' :: (t ++ ';' :: ' ' :: ("then".toList ++ '\n' :: text))) :
    ∃ e, r.next = .error e := by
  obtain ⟨ls, hls, hspells⟩ := ht
  obtain ⟨l, ls, rfl, -⟩ := hls.begins
  have htest : IsRows false (l :: ls ++ [.mark .semicolon]) _ := .cons hls (.inr rfl) .nil
  have hlex :
      Lexes r.rest
        (.plain "if" :: (l :: ls ++ [.mark .semicolon] ++ [.plain "then", .mark .newline]))
          text := by
    rw [hr, List.append_assoc]
    refine .keyword (by decide) (by rfl) (Lexes.blank (.semicolon 0 hspells ?_))
    exact .keyword (by decide) (by rfl) (.cons (.newline _) (.nil text))
  have hfaces := faces_of_lexes hlex
  obtain ⟨fuel, hfuel, hcost⟩ := exists_fuel hfaces 1 (by decide)
  obtain ⟨s₁, e₁, hres₁, hfaces₁, hcost₁⟩ :=
    hfaces.next_resolved { pastNewlines := !true, forReserved := true } rfl rfl (by simp)
      (show _ ≤ fuel by omega)
  obtain ⟨s₂, e₂, hstands₂, hcost₂⟩ := hfaces₁.pushBack hres₁
  apply Fails.reader_next
  rw [hfuel, commands, run_bind_of e₁, Lexeme.last_of_reserved (w := "if") (by decide) hres₁,
    if_neg (by decide), if_neg (by decide), run_bind_of e₂, if_neg (by decide)]
  -- If the list ends, it does so before a parenthesis, where a line should end.
  rcases h.andOr htest hstands₂ (show s₂.cost + 8 ≤ fuel by omega) with hfails | ⟨c, s₃, tail, e₃,
    hs₃⟩
  · exact hfails.bind
  · obtain ⟨s₄, e₄, hres₄, -, -⟩ := hs₃.next (show 1 ≤ fuel by omega)
    rw [run_bind_of e₃, run_bind_of e₄, hres₄.1]
    exact (Fails.unexpected _ s₄).bind

end

/-! ## Sections that are refused -/

/-- Whatever follows it, the text is refused. -/
def Obstacle (s : String) : Prop :=
  ∀ (text : List Char) (e : Bool), Refused e (scanned s ++ text)

namespace Obstacle

variable {s t : String}

/-- An obstacle stays one whatever follows it. -/
lemma append (hs : Obstacle s) (t : String) : Obstacle (s ++ t) := by
  intro text e
  rw [scanned_append, List.append_assoc]
  exact hs _ e

/-- An obstacle behind a section is reached. -/
lemma after (hs : Section s) (ht : Obstacle t) : Obstacle (s ++ t) := by
  intro text e
  rw [scanned_append, List.append_assoc]
  exact hs lays_refused (ht text) e

/-- The first obstacle in a row of sections is reached. -/
lemma join {ss : List String} (h : ∀ s ∈ ss, Section s ∨ Obstacle s) (hex : ∃ s ∈ ss, Obstacle s) :
    Obstacle (String.join ss) := by
  induction ss with
  | nil =>
    obtain ⟨_, hmem, -⟩ := hex
    cases hmem
  | cons s ss ih =>
    rw [String.join_cons]
    rcases h s List.mem_cons_self with hs | hs
    · obtain ⟨t, ht, hobstacle⟩ := hex
      rcases List.mem_cons.mp ht with rfl | ht
      · exact hobstacle.append _
      · exact after hs (ih (fun u hu => h u (List.mem_cons_of_mem s hu)) ⟨t, ht, hobstacle⟩)
    · exact hs.append _

end Obstacle

end Stencil.Shell
