import Stencil.Proofs.Shell.Lexeme

/-!
# Reading commands

What the reader makes of rows of lexemes as commands. Each statement says that some lexemes read as
a command, or as a row of commands, with a given property, whatever follows them, and the statements
for compound commands are put together from those for their parts.
-/

namespace Stencil.Shell

open Reader

/-- Tokens with which a command can begin. -/
def Token.begins : Token → Bool
  | .word | .redirect | .openParen => true
  | .reserved w => ["if", "while", "until", "for", "case", "\x7b"].contains w
  | _ => false

/-- Tokens that end a command. -/
def Token.stopsCommand : Token → Bool
  | .newline | .semicolon | .and | .or | .pipe | .closeParen | .endCase => true
  | _ => false

/-- Tokens that end commands joined by bars. -/
def Token.stopsPipeline : Token → Bool
  | .newline | .semicolon | .and | .or | .closeParen | .endCase => true
  | _ => false

/-- Tokens that end commands joined by `&&` and `||`. -/
def Token.stopsList : Token → Bool
  | .newline | .semicolon | .closeParen | .endCase => true
  | _ => false

/-- A command can begin with the lexeme. -/
def Lexeme.Begins (l : Lexeme) : Prop :=
  ∀ s : Reader, l.Resolved s → s.last.begins = true

/-- What begins a command can be seen. -/
lemma Lexeme.Begins.visible {l : Lexeme} (h : l.Begins) : l.Visible := by
  cases l with
  | mark t =>
    rintro rfl
    exact absurd (h { rest := [], last := .newline } ⟨rfl, by decide⟩) (by decide)
  | word W => trivial
  | redirect fd kind => trivial

/-- What begins a command is not a token that begins none. -/
lemma Lexeme.Begins.ne {l : Lexeme} {s : Reader} {t : Token} (h : l.Begins) (hl : l.Resolved s)
    (ht : t.begins = false) : s.last ≠ t := by
  rintro rfl
  rw [h s hl] at ht
  cases ht

/-- A token that begins a command does not end a row of them. -/
lemma endsList_of_begins {t : Token} (h : t.begins = true) : t.endsList = false := by
  cases t with
  | reserved w =>
    simp only [Token.begins, List.contains_eq_mem, decide_eq_true_eq, List.mem_cons,
      List.not_mem_nil, or_false] at h
    rcases h with rfl | rfl | rfl | rfl | rfl | rfl <;> decide
  | _ => first | rfl | cases h

/-- A mark of the given kind comes first. -/
def Follows (stops : Token → Bool) (ls : List Lexeme) : Prop :=
  ∃ d ls', ls = .mark d :: ls' ∧ stops d = true

/-- What follows may be described by less. -/
lemma Follows.mono {p q : Token → Bool} {ls : List Lexeme} (h : Follows p ls)
    (hpq : ∀ t, p t = true → q t = true) : Follows q ls := by
  obtain ⟨d, ls', rfl, hd⟩ := h
  exact ⟨d, ls', rfl, hpq d hd⟩

/-- What stops a pipeline stops a command. -/
lemma stopsCommand_of_stopsPipeline (t : Token) (h : t.stopsPipeline = true) :
    t.stopsCommand = true := by
  cases t <;> first | rfl | cases h

/-- What stops a list stops a pipeline. -/
lemma stopsPipeline_of_stopsList (t : Token) (h : t.stopsList = true) : t.stopsPipeline = true := by
  cases t <;> first | rfl | cases h

/-- The lexemes read as a command that satisfies `Q`, if a token follows that ends it. The bound `k`
is the fuel that is needed beyond the cost of the text. -/
structure Reads (f : Nat → ReadM Command) (k : Nat) (stops : Token → Bool) (ls : List Lexeme)
    (Q : Command → Prop) : Prop where
  begins : ∃ l ls', ls = l :: ls' ∧ l.Begins
  reads : ∀ ⦃s : Reader⦄ ⦃tail : List Lexeme⦄ ⦃rest : List Char⦄ ⦃fuel : Nat⦄, Follows stops tail →
    s.Stands (ls ++ tail) rest → s.cost + k ≤ fuel →
      ∃ c s', (f fuel).run s = .ok (c, s') ∧ Q c ∧ s'.Stands tail rest ∧ s'.cost < s.cost

/-- The lexemes are a command. -/
abbrev IsCommand := Reads command 6 Token.stopsCommand

/-- The lexemes are commands joined by bars. -/
abbrev IsPipeline := Reads pipeline 7 Token.stopsPipeline

/-- The lexemes are commands joined by `&&` and `||`. -/
abbrev IsList := Reads andOr 8 Token.stopsList

/-- What is read may be described by less. -/
lemma Reads.mono {f : Nat → ReadM Command} {k : Nat} {stops : Token → Bool} {ls : List Lexeme}
    {P Q : Command → Prop} (h : Reads f k stops ls P) (hPQ : ∀ c, P c → Q c) :
    Reads f k stops ls Q := by
  refine ⟨h.begins, fun s tail rest fuel ht hs hf => ?_⟩
  obtain ⟨c, s', e, hc, hs', hcost⟩ := h.reads ht hs hf
  exact ⟨c, s', e, hPQ c hc, hs', hcost⟩

/-! ## Tokens in reserve -/

section

variable {s : Reader} {l : Lexeme} {ls : List Lexeme} {rest : List Char} {fuel : Nat}

/-- The token in reserve can be taken. -/
lemma Reader.Stands.next (h : s.Stands (l :: ls) rest) (hf : 1 ≤ fuel) :
    Fetches ((Shell.next {} fuel).run s) l.Resolved ls rest s.cost := by
  obtain ⟨_, _, e, h⟩ := h
  cases e
  exact h.next (by simp) hf

/-- The token in reserve can be looked at: it is taken and put back. -/
lemma Reader.Stands.look (h : s.Stands (l :: ls) rest) (hf : 1 ≤ fuel) :
    ∃ s₁ s₂, (Shell.next {} fuel).run s = .ok (s₁.last, s₁) ∧ l.Resolved s₁ ∧
      pushBack.run s₁ = .ok ((), s₂) ∧ s₂.Stands (l :: ls) rest ∧ s₂.cost ≤ s.cost := by
  obtain ⟨s₁, e₁, hres, hfaces, hcost₁⟩ := h.next hf
  obtain ⟨s₂, e₂, hstands, hcost₂⟩ := hfaces.pushBack hres
  exact ⟨s₁, s₂, e₁, hres, e₂, hstands, by omega⟩

/-- Where the grammar goes on with a command, its first token is resolved and put back. -/
lemma Reader.Faces.resume (h : s.Faces (l :: ls) rest) (hl : l.Begins) (hf : s.cost + 3 ≤ fuel) :
    ∃ s₁ s₂, (Shell.next atCommand fuel).run s = .ok (s₁.last, s₁) ∧ l.Resolved s₁ ∧
      Shell.pushBack.run s₁ = .ok ((), s₂) ∧ s₂.Stands (l :: ls) rest ∧ s₂.cost ≤ s.cost := by
  obtain ⟨s₁, e₁, hres, hfaces, hcost₁⟩ :=
    h.next_resolved atCommand rfl rfl (fun _ => hl.visible) hf
  obtain ⟨s₂, e₂, hstands, hcost₂⟩ := hfaces.pushBack hres
  exact ⟨s₁, s₂, e₁, hres, e₂, hstands, by omega⟩

/-- Naming the last token again changes nothing. -/
lemma run_setLast_self (s : Reader) : (discard (setLast s.last) : ReadM Unit).run s = .ok ((), s) :=
  rfl

end

/-! ## Commands joined by bars and by `&&` -/

/-- The lexemes read as the commands behind a first one, each behind a bar. -/
structure IsBars (ls : List Lexeme) (Q : List Command → Prop) : Prop where
  follows : ∀ tail, Follows Token.stopsPipeline tail → Follows Token.stopsCommand (ls ++ tail)
  reads : ∀ ⦃s : Reader⦄ ⦃tail : List Lexeme⦄ ⦃rest : List Char⦄ ⦃fuel : Nat⦄,
    Follows Token.stopsPipeline tail → s.Stands (ls ++ tail) rest → s.cost + 7 ≤ fuel →
      ∃ cs s', (pipelineFrom fuel).run s = .ok (cs, s') ∧ Q cs ∧ s'.Stands tail rest ∧
        s'.cost ≤ s.cost

/-- Without a bar behind it, a command stands alone. -/
lemma run_pipelineFrom_mark {s : Reader} {d : Token} {ls : List Lexeme} {rest : List Char}
    {fuel : Nat} (hd : d ≠ .pipe) (hs : s.Stands (.mark d :: ls) rest) (hf : 2 ≤ fuel) :
    ∃ s', (pipelineFrom fuel).run s = .ok ([], s') ∧ s'.Stands (.mark d :: ls) rest ∧
      s'.cost ≤ s.cost := by
  obtain ⟨fuel, rfl⟩ := Nat.exists_eq_add_one_of_ne_zero (show fuel ≠ 0 by omega)
  obtain ⟨s₁, s₂, e₁, hres, e₂, hstands, hcost⟩ := hs.look (show 1 ≤ fuel by omega)
  have hne : s₁.last ≠ .pipe := by
    rw [hres.1]
    exact hd
  refine ⟨s₂, ?_, hstands, hcost⟩
  rw [pipelineFrom, run_bind_of e₁, if_neg (by simpa using hne), run_bind_of e₂]
  rfl

/-- After the last command no bar follows. -/
lemma IsBars.nil : IsBars [] (· = []) := by
  refine ⟨fun tail ht => ht.mono stopsCommand_of_stopsPipeline, fun s tail rest fuel ht hs hf => ?_⟩
  obtain ⟨d, tail, rfl, hd⟩ := ht
  have hne : d ≠ .pipe := by
    rintro rfl
    cases hd
  obtain ⟨s', e, hstands, hcost⟩ := run_pipelineFrom_mark hne hs (show 2 ≤ fuel by omega)
  exact ⟨[], s', e, rfl, hstands, hcost⟩

/-- A bar is followed by a command and by further bars. -/
lemma IsBars.cons {ls bs : List Lexeme} {P : Command → Prop} {Q : List Command → Prop}
    (h : IsCommand ls P) (hbs : IsBars bs Q) :
    IsBars (.mark .pipe :: (ls ++ bs)) fun cs => ∃ c cs', P c ∧ Q cs' ∧ cs = c :: cs' := by
  refine ⟨fun tail _ => ⟨.pipe, _, rfl, rfl⟩, fun s tail rest fuel ht hs hf => ?_⟩
  obtain ⟨l, ls', hls, hl⟩ := h.begins
  obtain ⟨fuel, rfl⟩ := Nat.exists_eq_add_one_of_ne_zero (show fuel ≠ 0 by omega)
  obtain ⟨s₁, e₁, hres, hfaces, hcost₁⟩ := hs.next (show 1 ≤ fuel by omega)
  have hfaces' : s₁.Faces (l :: (ls' ++ (bs ++ tail))) rest := by simpa [hls] using hfaces
  obtain ⟨s₂, s₃, e₂, -, e₃, hstands₃, hcost₃⟩ :=
    hfaces'.resume hl (show s₁.cost + 3 ≤ fuel by omega)
  rw [← List.cons_append, ← hls] at hstands₃
  obtain ⟨c, s₄, e₄, hc, hstands₄, hcost₄⟩ :=
    h.reads (hbs.follows tail ht) hstands₃ (show s₃.cost + 6 ≤ fuel by omega)
  obtain ⟨cs, s₅, e₅, hcs, hstands₅, hcost₅⟩ :=
    hbs.reads ht hstands₄ (show s₄.cost + 7 ≤ fuel by omega)
  refine ⟨c :: cs, s₅, ?_, ⟨c, cs, hc, hcs, rfl⟩, hstands₅, by omega⟩
  rw [pipelineFrom, run_bind_of e₁, if_pos (by rw [hres.1]; rfl), run_bind_of e₂,
    run_bind_of (run_setLast_self s₂), run_bind_of e₃, run_bind_of e₄, run_bind_of e₅]
  rfl

/-- Commands joined by bars are a pipeline. -/
lemma IsCommand.bars {ls bs : List Lexeme} {P : Command → Prop} {Q : List Command → Prop}
    (h : IsCommand ls P) (hbs : IsBars bs Q) :
    IsPipeline (ls ++ bs) fun p => ∃ c cs, P c ∧ Q cs ∧
      p = if cs.isEmpty then c else .pipeline false (c :: cs) := by
  obtain ⟨l, ls', rfl, hl⟩ := h.begins
  refine ⟨⟨l, ls' ++ bs, rfl, hl⟩, fun s tail rest fuel ht hs hf => ?_⟩
  rw [List.append_assoc] at hs
  obtain ⟨fuel, rfl⟩ := Nat.exists_eq_add_one_of_ne_zero (show fuel ≠ 0 by omega)
  obtain ⟨s₁, s₂, e₁, hres, e₂, hstands₂, hcost₂⟩ := hs.look (show 1 ≤ fuel by omega)
  obtain ⟨c, s₃, e₃, hc, hstands₃, hcost₃⟩ :=
    h.reads (hbs.follows tail ht) hstands₂ (show s₂.cost + 6 ≤ fuel by omega)
  obtain ⟨cs, s₄, e₄, hcs, hstands₄, hcost₄⟩ :=
    hbs.reads ht hstands₃ (show s₃.cost + 7 ≤ fuel by omega)
  refine ⟨_, s₄, ?_, ⟨c, cs, hc, hcs, rfl⟩, hstands₄, by omega⟩
  rw [Shell.pipeline, run_bind_of e₁, if_neg (by simpa using hl.ne hres (by decide)),
    run_bind_of e₂, pure_bind, run_bind_of e₃, run_bind_of e₄, Bool.not_false, Bool.and_true]
  rfl

/-- A command alone is a pipeline. -/
lemma IsCommand.pipeline {ls : List Lexeme} {Q : Command → Prop} (h : IsCommand ls Q) :
    IsPipeline ls Q := by
  have hp := h.bars IsBars.nil
  rw [List.append_nil] at hp
  refine hp.mono ?_
  rintro _ ⟨c, _, hc, rfl, rfl⟩
  exact hc

/-- Without `&&` or `||` behind it, a pipeline stands alone. -/
lemma run_andOrFrom_mark {s : Reader} {c : Command} {d : Token} {ls : List Lexeme}
    {rest : List Char} {fuel : Nat} (hd : d ≠ .and ∧ d ≠ .or) (hs : s.Stands (.mark d :: ls) rest)
    (hf : 2 ≤ fuel) :
    ∃ s', (andOrFrom c fuel).run s = .ok (c, s') ∧ s'.Stands (.mark d :: ls) rest ∧
      s'.cost ≤ s.cost := by
  obtain ⟨fuel, rfl⟩ := Nat.exists_eq_add_one_of_ne_zero (show fuel ≠ 0 by omega)
  obtain ⟨s₁, s₂, e₁, hres, e₂, hstands, hcost⟩ := hs.look (show 1 ≤ fuel by omega)
  have hne : ¬(s₁.last == .and || s₁.last == .or) = true := by
    rw [hres.1]
    simpa using hd
  refine ⟨s₂, ?_, hstands, hcost⟩
  rw [andOrFrom, run_bind_of e₁, if_neg hne, run_bind_of e₂]
  rfl

/-- A list stops where no operator follows. -/
lemma run_andOrFrom_stop {s : Reader} {c : Command} {tail : List Lexeme} {rest : List Char}
    {fuel : Nat} (ht : Follows Token.stopsList tail) (hs : s.Stands tail rest) (hf : 2 ≤ fuel) :
    ∃ s', (andOrFrom c fuel).run s = .ok (c, s') ∧ s'.Stands tail rest ∧ s'.cost ≤ s.cost := by
  obtain ⟨d, tail, rfl, hd⟩ := ht
  refine run_andOrFrom_mark ⟨?_, ?_⟩ hs hf <;> rintro rfl <;> cases hd

/-- A pipeline alone is a list. -/
lemma IsPipeline.list {ls : List Lexeme} {Q : Command → Prop} (h : IsPipeline ls Q) :
    IsList ls Q := by
  refine ⟨h.begins, fun s tail rest fuel ht hs hf => ?_⟩
  obtain ⟨fuel, rfl⟩ := Nat.exists_eq_add_one_of_ne_zero (show fuel ≠ 0 by omega)
  obtain ⟨c, s₁, e₁, hc, hstands₁, hcost₁⟩ :=
    h.reads (ht.mono stopsPipeline_of_stopsList) hs (show s.cost + 7 ≤ fuel by omega)
  obtain ⟨s₂, e₂, hstands₂, hcost₂⟩ :=
    run_andOrFrom_stop (c := c) ht hstands₁ (show 2 ≤ fuel by omega)
  refine ⟨c, s₂, ?_, hc, hstands₂, by omega⟩
  rw [andOr, run_bind_of e₁, e₂]

/-- Two pipelines joined by `&&`. -/
lemma IsPipeline.and {ls₁ ls₂ : List Lexeme} {P Q : Command → Prop} (h₁ : IsPipeline ls₁ P)
    (h₂ : IsPipeline ls₂ Q) :
    IsList (ls₁ ++ .mark .and :: ls₂) fun c => ∃ a b, P a ∧ Q b ∧ c = .andThen a b := by
  obtain ⟨l, ls, rfl, hl⟩ := h₁.begins
  refine ⟨⟨l, ls ++ .mark .and :: ls₂, rfl, hl⟩, fun s tail rest fuel ht hs hf => ?_⟩
  obtain ⟨l₂, ls', hls, hl₂⟩ := h₂.begins
  rw [List.append_assoc, List.cons_append] at hs
  obtain ⟨fuel, rfl⟩ := Nat.exists_eq_add_one_of_ne_zero (show fuel ≠ 0 by omega)
  obtain ⟨fuel, rfl⟩ := Nat.exists_eq_add_one_of_ne_zero (show fuel ≠ 0 by omega)
  obtain ⟨a, s₁, e₁, ha, hstands₁, hcost₁⟩ :=
    h₁.reads ⟨.and, _, rfl, rfl⟩ hs (show s.cost + 7 ≤ fuel + 1 by omega)
  obtain ⟨s₂, e₂, hres₂, hfaces, hcost₂⟩ := hstands₁.next (show 1 ≤ fuel by omega)
  have hfaces' : s₂.Faces (l₂ :: (ls' ++ tail)) rest := by simpa [hls] using hfaces
  obtain ⟨s₃, s₄, e₃, -, e₄, hstands₄, hcost₄⟩ :=
    hfaces'.resume hl₂ (show s₂.cost + 3 ≤ fuel by omega)
  rw [← List.cons_append, ← hls] at hstands₄
  obtain ⟨b, s₅, e₅, hb, hstands₅, hcost₅⟩ :=
    h₂.reads (ht.mono stopsPipeline_of_stopsList) hstands₄ (show s₄.cost + 7 ≤ fuel by omega)
  obtain ⟨s₆, e₆, hstands₆, hcost₆⟩ :=
    run_andOrFrom_stop (c := .andThen a b) ht hstands₅ (show 2 ≤ fuel by omega)
  refine ⟨.andThen a b, s₆, ?_, ⟨a, b, ha, hb, rfl⟩, hstands₆, by omega⟩
  rw [andOr, run_bind_of e₁, andOrFrom, run_bind_of e₂, hres₂.1, if_pos (by rfl), run_bind_of e₃,
    run_bind_of (run_setLast_self s₃), run_bind_of e₄, run_bind_of e₅, if_pos (by rfl), e₆]

/-! ## Rows of commands -/

/-- A list and the mark behind it are read, and the reading of the row goes on. -/
lemma run_commands_cons (canEnd : Bool) {ls tail : List Lexeme} {P : Command → Prop} {sep : Token}
    {s : Reader} {n : Nat} {rest : List Char} {fuel : Nat} (before : List Command) (h : IsList ls P)
    (hsep : sep = .newline ∨ sep = .semicolon)
    (hs : s.Feeds (List.replicate n (.mark .newline) ++ (ls ++ .mark sep :: tail)) rest)
    (hf : s.cost + 9 ≤ fuel + 1) :
    ∃ c k s', P c ∧
      (commands false canEnd before (fuel + 1)).run s =
        (commands false true (before ++ [c]) fuel).run s' ∧
      s'.Feeds (List.replicate k (.mark .newline) ++ tail) rest ∧ s'.cost < s.cost := by
  obtain ⟨b, bs, rfl, hb⟩ := h.begins
  obtain ⟨s₁, e₁, hres, hfaces, hcost₁⟩ := hs.next_past hb.visible (show s.cost + 3 ≤ fuel by omega)
  obtain ⟨s₂, e₂, hstands, hcost₂⟩ := hfaces.pushBack hres
  have hstop : Follows Token.stopsList (.mark sep :: tail) := by
    refine ⟨sep, _, rfl, ?_⟩
    rcases hsep with rfl | rfl <;> rfl
  obtain ⟨c, s₃, e₃, hc, hstands₃, hcost₃⟩ :=
    h.reads hstop hstands (show s₂.cost + 8 ≤ fuel by omega)
  obtain ⟨s₄, e₄, hres₄, hfaces₄, hcost₄⟩ := hstands₃.next (show 1 ≤ fuel by omega)
  -- The look ahead is written the way `commands` has it.
  have e₁' : (Shell.next { pastNewlines := !false, forReserved := true } fuel).run s =
      .ok (s₁.last, s₁) := e₁
  have hcanEnd : ¬(canEnd && s₁.last.endsList) = true := by
    simp [endsList_of_begins (hb s₁ hres)]
  rw [commands, run_bind_of e₁', if_neg (by simpa using hb.ne hres (by decide)),
    if_neg (by simpa using hb.ne hres (by decide)), run_bind_of e₂, if_neg hcanEnd, run_bind_of e₃,
    run_bind_of e₄, hres₄.1]
  -- A line end is given back before the next row, a semicolon is not.
  rcases hsep with rfl | rfl
  · obtain ⟨s₅, e₅, hstands₅, hcost₅⟩ := hfaces₄.pushBack hres₄
    exact ⟨c, 1, s₅, hc, run_bind_of e₅, .inr hstands₅, by omega⟩
  · exact ⟨c, 0, s₄, hc, rfl, .inl hfaces₄, by omega⟩

/-- The lexeme ends a row of commands. -/
def Lexeme.Ends (l : Lexeme) : Prop :=
  l.Visible ∧ ∀ s : Reader, l.Resolved s → s.last.endsList = true ∧ s.last ≠ .endOfFile

/-- The lexemes read as a row of commands that satisfies `Q`, if a lexeme follows that ends it.
Unless the row can end at once, it holds a command. -/
def IsRows (canEnd : Bool) (ls : List Lexeme) (Q : List Command → Prop) : Prop :=
  ∀ ⦃s : Reader⦄ ⦃n : Nat⦄ ⦃l : Lexeme⦄ ⦃tail : List Lexeme⦄ ⦃rest : List Char⦄ ⦃fuel : Nat⦄
    (before : List Command), l.Ends →
    s.Feeds (List.replicate n (.mark .newline) ++ (ls ++ l :: tail)) rest → s.cost + 9 ≤ fuel →
      ∃ cs s', (commands false canEnd before fuel).run s = .ok ((before ++ cs, false), s') ∧ Q cs ∧
        s'.Stands (l :: tail) rest ∧ s'.cost ≤ s.cost

namespace IsRows

variable {canEnd : Bool} {ls ls' : List Lexeme} {P : Command → Prop} {Q : List Command → Prop}

/-- The rows may be described by less. -/
lemma mono {Q' : List Command → Prop} (h : IsRows canEnd ls Q) (hQ : ∀ cs, Q cs → Q' cs) :
    IsRows canEnd ls Q' := by
  intro s n l tail rest fuel before hl hs hf
  obtain ⟨cs, s', e, hcs, hstands, hcost⟩ := h before hl hs hf
  exact ⟨cs, s', e, hQ cs hcs, hstands, hcost⟩

/-- Line ends between commands do not count. -/
lemma newline (h : IsRows canEnd ls Q) : IsRows canEnd (.mark .newline :: ls) Q := by
  intro s n l tail rest fuel before hl hs hf
  have hs' : s.Feeds (List.replicate (n + 1) (.mark .newline) ++ (ls ++ l :: tail)) rest := by
    rw [List.replicate_succ', List.append_assoc]
    exact hs
  exact h before hl hs' hf

/-- A row can be empty. -/
lemma nil : IsRows true [] (· = []) := by
  intro s n l tail rest fuel before hl hs hf
  obtain ⟨fuel, rfl⟩ := Nat.exists_eq_add_one_of_ne_zero (show fuel ≠ 0 by omega)
  obtain ⟨s₁, e₁, hres, hfaces, hcost₁⟩ := hs.next_past hl.1 (show s.cost + 3 ≤ fuel by omega)
  obtain ⟨s₂, e₂, hstands, hcost₂⟩ := hfaces.pushBack hres
  obtain ⟨hends, heof⟩ := hl.2 s₁ hres
  have e₁' : (Shell.next { pastNewlines := !false, forReserved := true } fuel).run s =
      .ok (s₁.last, s₁) := e₁
  refine ⟨[], s₂, ?_, rfl, hstands, by omega⟩
  rw [commands, run_bind_of e₁', if_neg (by simpa using hres.ne_newline hl.1),
    if_neg (by simpa using heof), run_bind_of e₂, hends, if_pos (by rfl), List.append_nil]
  rfl

/-- A list with a mark behind it goes before a row that can be empty. -/
lemma cons {sep : Token} (h : IsList ls P) (hsep : sep = .newline ∨ sep = .semicolon)
    (hrows : IsRows true ls' Q) :
    IsRows canEnd (ls ++ .mark sep :: ls') fun cs => ∃ c cs', P c ∧ Q cs' ∧ cs = c :: cs' := by
  intro s n l tail rest fuel before hl hs hf
  obtain ⟨fuel, rfl⟩ := Nat.exists_eq_add_one_of_ne_zero (show fuel ≠ 0 by omega)
  rw [List.append_assoc, List.cons_append] at hs
  obtain ⟨c, k, s₁, hc, e₁, hfeeds, hcost₁⟩ := run_commands_cons canEnd before h hsep hs hf
  obtain ⟨cs, s₂, e₂, hcs, hstands, hcost₂⟩ :=
    hrows (before ++ [c]) hl hfeeds (show s₁.cost + 9 ≤ fuel by omega)
  refine ⟨c :: cs, s₂, ?_, ⟨c, cs, hc, hcs, rfl⟩, hstands, by omega⟩
  rw [e₁, e₂]
  simp

end IsRows

/-- A row of commands with the token behind it. -/
lemma IsRows.body {ls : List Lexeme} {Q : List Command → Prop} (h : IsRows false ls Q) {s : Reader}
    {l : Lexeme} {tail : List Lexeme} {rest : List Char} {fuel : Nat} {t : Token} (hl : l.Ends)
    (ht : ∀ s : Reader, l.Resolved s → s.last = t) (hs : s.Faces (ls ++ l :: tail) rest)
    (hf : s.cost + 10 ≤ fuel) :
    ∃ cs s', (body t fuel).run s = .ok (cs, s') ∧ Q cs ∧ s'.Faces tail rest ∧
      s'.cost + 12 ≤ s.cost := by
  obtain ⟨fuel, rfl⟩ := Nat.exists_eq_add_one_of_ne_zero (show fuel ≠ 0 by omega)
  obtain ⟨cs, s₁, e₁, hcs, hstands, hcost₁⟩ :=
    h (n := 0) [] hl (.inl hs) (show s.cost + 9 ≤ fuel by omega)
  obtain ⟨s₂, e₂, hres, hfaces, hcost₂⟩ := hstands.next (show 1 ≤ fuel by omega)
  refine ⟨cs, s₂, ?_, hcs, hfaces, by omega⟩
  rw [Shell.body, run_bind_of e₁]
  dsimp only
  rw [run_bind_of e₂, if_neg (by simp [ht s₂ hres]), List.nil_append]
  rfl

/-! ## Compound commands -/

/-- Plain characters as a word. -/
def plainWord (cs : List Char) : Word :=
  cs.map (.char · false)

/-- A word of plain characters. -/
abbrev Lexeme.plain (w : String) : Lexeme :=
  .word (· = plainWord w.toList)

/-- The plain text of a plain word is its characters. -/
lemma plainText?_plainWord (cs : List Char) : plainText? (plainWord cs) = some cs := by
  induction cs with
  | nil => rfl
  | cons c cs ih =>
    simp only [plainText?, plainWord, List.map_cons, List.mapM_cons] at ih ⊢
    rw [ih]
    rfl

/-- A word of plain characters that is reserved counts as that. -/
lemma Lexeme.last_of_reserved {w : String} {s : Reader} (hw : reservedWords.contains w = true)
    (h : (Lexeme.plain w).Resolved s) : s.last = .reserved w := by
  rw [h.1, h.2, tokenOf, plainText?_plainWord]
  simp only [String.ofList_toList, hw, if_true]

/-- A reserved word that begins a command does so. -/
lemma Lexeme.begins_of_reserved {w : String} (hw : reservedWords.contains w = true)
    (hb : (Token.reserved w).begins = true) : (Lexeme.plain w).Begins := by
  intro s hs
  rw [Lexeme.last_of_reserved hw hs, hb]

/-- A reserved word that ends a list does so. -/
lemma Lexeme.ends_of_reserved {w : String} (hw : reservedWords.contains w = true)
    (hb : (Token.reserved w).endsList = true) : (Lexeme.plain w).Ends := by
  refine ⟨trivial, fun s hs => ?_⟩
  rw [Lexeme.last_of_reserved hw hs]
  exact ⟨hb, by simp⟩

/-- A mark is no redirection. -/
lemma run_redirects_mark {s : Reader} {d : Token} {ls : List Lexeme} {rest : List Char} {fuel : Nat}
    (hd : d ≠ .redirect) (hs : s.Faces (.mark d :: ls) rest) (hf : s.cost + 4 ≤ fuel) :
    ∃ s', (redirects fuel).run s = .ok ([], s') ∧ s'.Stands (.mark d :: ls) rest ∧
      s'.cost ≤ s.cost := by
  obtain ⟨fuel, rfl⟩ := Nat.exists_eq_add_one_of_ne_zero (show fuel ≠ 0 by omega)
  obtain ⟨s₁, e₁, hres, hfaces, hcost₁⟩ :=
    hs.next_resolved { forReserved := true } rfl rfl (by simp) (show s.cost + 3 ≤ fuel by omega)
  obtain ⟨s₂, e₂, hstands, hcost₂⟩ := hfaces.pushBack hres
  refine ⟨s₂, ?_, hstands, by omega⟩
  have hne : s₁.last ≠ .redirect := by
    rw [hres.1]
    exact hd
  rw [redirects, run_bind_of e₁, if_neg (by simpa using hne), run_bind_of e₂]
  rfl

/-- No redirection follows a mark that ends a command. -/
lemma run_redirects_none {s : Reader} {tail : List Lexeme} {rest : List Char} {fuel : Nat}
    (ht : Follows Token.stopsCommand tail) (hs : s.Faces tail rest) (hf : s.cost + 4 ≤ fuel) :
    ∃ s', (redirects fuel).run s = .ok ([], s') ∧ s'.Stands tail rest ∧ s'.cost ≤ s.cost := by
  obtain ⟨d, tail, rfl, hd⟩ := ht
  refine run_redirects_mark ?_ hs hf
  rintro rfl
  cases hd

/-- A reserved word that begins a command is taken from the reserve. -/
lemma Reader.Stands.next_reserved {s : Reader} {w : String} {ls : List Lexeme} {rest : List Char}
    {fuel : Nat} (hw : reservedWords.contains w = true) (h : s.Stands (.plain w :: ls) rest)
    (hf : 1 ≤ fuel) :
    ∃ s', (Shell.next {} fuel).run s = .ok (.reserved w, s') ∧ s'.Faces ls rest ∧
      s'.cost + 12 ≤ s.cost := by
  obtain ⟨s', e, hres, hfaces, hcost⟩ := h.next hf
  rw [Lexeme.last_of_reserved hw hres] at e
  exact ⟨s', e, hfaces, hcost⟩

/-- A row of commands with a reserved word behind it. -/
lemma IsRows.body_reserved {ls : List Lexeme} {Q : List Command → Prop} (h : IsRows false ls Q)
    {w : String} (hw : reservedWords.contains w = true) (hends : (Token.reserved w).endsList = true)
    {s : Reader} {tail : List Lexeme} {rest : List Char} {fuel : Nat}
    (hs : s.Faces (ls ++ .plain w :: tail) rest) (hf : s.cost + 10 ≤ fuel) :
    ∃ cs s', (Shell.body (.reserved w) fuel).run s = .ok (cs, s') ∧ Q cs ∧ s'.Faces tail rest ∧
      s'.cost + 12 ≤ s.cost :=
  h.body (Lexeme.ends_of_reserved hw hends) (fun _ => Lexeme.last_of_reserved hw) hs hf

/-- What stands between `then` and `fi`. -/
lemma run_branches_fi {inside : List Lexeme} {Q : List Command → Prop} (h : IsRows false inside Q)
    (ts : List Command) {s : Reader} {tail : List Lexeme} {rest : List Char} {fuel : Nat}
    (hs : s.Faces (inside ++ .plain "fi" :: tail) rest) (hf : s.cost + 10 ≤ fuel) :
    ∃ cs s', (branches ts fuel).run s = .ok (([(ts, cs)], []), s') ∧ Q cs ∧ s'.Faces tail rest ∧
      s'.cost + 12 ≤ s.cost := by
  obtain ⟨fuel, rfl⟩ := Nat.exists_eq_add_one_of_ne_zero (show fuel ≠ 0 by omega)
  obtain ⟨cs, s₁, e₁, hcs, hstands, hcost₁⟩ :=
    h (n := 0) [] (Lexeme.ends_of_reserved (by decide) (by decide))
    (.inl hs) (show s.cost + 9 ≤ fuel by omega)
  obtain ⟨s₂, e₂, hfaces, hcost₂⟩ := hstands.next_reserved (by decide) (show 1 ≤ fuel by omega)
  refine ⟨cs, s₂, ?_, hcs, hfaces, by omega⟩
  rw [branches, run_bind_of e₁]
  dsimp only
  rw [run_bind_of e₂]
  rfl

/-- What stands between `then` and `fi` with an `else` in it. -/
lemma run_branches_else {inside other : List Lexeme} {P Q : List Command → Prop}
    (h₁ : IsRows false inside P) (h₂ : IsRows false other Q) (ts : List Command) {s : Reader}
    {tail : List Lexeme} {rest : List Char} {fuel : Nat}
    (hs : s.Faces (inside ++ .plain "else" :: (other ++ .plain "fi" :: tail)) rest)
    (hf : s.cost + 10 ≤ fuel) :
    ∃ cs os s', (branches ts fuel).run s = .ok (([(ts, cs)], os), s') ∧ P cs ∧ Q os ∧
      s'.Faces tail rest ∧
      s'.cost + 12 ≤ s.cost := by
  obtain ⟨fuel, rfl⟩ := Nat.exists_eq_add_one_of_ne_zero (show fuel ≠ 0 by omega)
  obtain ⟨cs, s₁, e₁, hcs, hstands, hcost₁⟩ :=
    h₁ (n := 0) [] (Lexeme.ends_of_reserved (by decide) (by decide))
    (.inl hs) (show s.cost + 9 ≤ fuel by omega)
  obtain ⟨s₂, e₂, hfaces, hcost₂⟩ := hstands.next_reserved (by decide) (show 1 ≤ fuel by omega)
  obtain ⟨os, s₃, e₃, hos, hfaces₃, hcost₃⟩ :=
    h₂.body_reserved (by decide) (by decide) hfaces (show s₂.cost + 10 ≤ fuel by omega)
  refine ⟨cs, os, s₃, ?_, hcs, hos, hfaces₃, by omega⟩
  rw [branches, run_bind_of e₁]
  dsimp only
  rw [run_bind_of e₂]
  show StateT.run (Shell.body (.reserved "fi") fuel >>= _) s₂ = _
  rw [run_bind_of e₃]
  rfl

/-- A compound command begins with a reserved word, and no redirection follows what is read behind
it. -/
lemma IsCommand.compound {w : String} {ls : List Lexeme} {P : Command → Prop}
    (hw : reservedWords.contains w = true)
    (hb : (Token.reserved w).begins = true)
    (h : ∀ ⦃s s₁ : Reader⦄ ⦃tail : List Lexeme⦄ ⦃rest : List Char⦄ ⦃fuel : Nat⦄,
      (next {} fuel).run s = .ok (.reserved w, s₁) → s₁.Faces (ls ++ tail) rest →
        s₁.cost + 10 ≤ fuel →
        ∃ (c : List Redirect → Command) (s₂ : Reader),
          (command (fuel + 1)).run s =
            (redirects fuel >>= fun rs => pure (c rs) : ReadM Command).run s₂ ∧ P (c []) ∧
            s₂.Faces tail rest ∧ s₂.cost ≤ s₁.cost) :
    IsCommand (.plain w :: ls) P := by
  refine ⟨⟨_, _, rfl, Lexeme.begins_of_reserved hw hb⟩, fun s tail rest fuel ht hs hf => ?_⟩
  obtain ⟨fuel, rfl⟩ := Nat.exists_eq_add_one_of_ne_zero (show fuel ≠ 0 by omega)
  obtain ⟨s₁, e₁, hfaces₁, hcost₁⟩ := hs.next_reserved hw (show 1 ≤ fuel by omega)
  obtain ⟨c, s₂, e₂, hc, hfaces₂, hcost₂⟩ := h e₁ hfaces₁ (by omega)
  obtain ⟨s₃, e₃, hstands₃, hcost₃⟩ :=
    run_redirects_none ht hfaces₂ (show s₂.cost + 4 ≤ fuel by omega)
  exact ⟨c [], s₃, e₂.trans (run_bind_of e₃), hc, hstands₃, by omega⟩

section

variable {test inside other : List Lexeme} {P Q R : List Command → Prop}

/-- A conditional without an `else`. -/
lemma IsCommand.ifThen (h₁ : IsRows false test P) (h₂ : IsRows false inside Q) :
    IsCommand (.plain "if" :: (test ++ .plain "then" :: (inside ++ [.plain "fi"])))
      fun c => ∃ ts cs, P ts ∧ Q cs ∧ c = .conditional [(ts, cs)] [] [] := by
  refine compound (by decide) (by decide) fun s s₁ tail rest fuel e₁ hs hf => ?_
  simp only [List.cons_append, List.append_assoc, List.nil_append] at hs
  obtain ⟨ts, s₂, e₂, hts, hfaces₂, hcost₂⟩ := h₁.body_reserved (by decide) (by decide) hs hf
  obtain ⟨cs, s₃, e₃, hcs, hfaces₃, hcost₃⟩ :=
    run_branches_fi h₂ ts hfaces₂ (show s₂.cost + 10 ≤ fuel by omega)
  refine ⟨_, s₃, ?_, ⟨ts, cs, hts, hcs, rfl⟩, hfaces₃, by omega⟩
  rw [command, run_bind_of (run_get s), run_bind_of e₁]
  show StateT.run (body (.reserved "then") fuel >>= _) s₁ = _
  rw [run_bind_of e₂, run_bind_of e₃]

/-- A conditional with an `else`. -/
lemma IsCommand.ifThenElse (h₁ : IsRows false test P) (h₂ : IsRows false inside Q)
    (h₃ : IsRows false other R) :
    IsCommand
      (.plain "if" ::
        (test ++ .plain "then" :: (inside ++ .plain "else" :: (other ++ [.plain "fi"]))))
      fun c => ∃ ts cs os, P ts ∧ Q cs ∧ R os ∧ c = .conditional [(ts, cs)] os [] := by
  refine compound (by decide) (by decide) fun s s₁ tail rest fuel e₁ hs hf => ?_
  simp only [List.cons_append, List.append_assoc, List.nil_append] at hs
  obtain ⟨ts, s₂, e₂, hts, hfaces₂, hcost₂⟩ := h₁.body_reserved (by decide) (by decide) hs hf
  obtain ⟨cs, os, s₃, e₃, hcs, hos, hfaces₃, hcost₃⟩ :=
    run_branches_else h₂ h₃ ts hfaces₂ (show s₂.cost + 10 ≤ fuel by omega)
  refine ⟨_, s₃, ?_, ⟨ts, cs, os, hts, hcs, hos, rfl⟩, hfaces₃, by omega⟩
  rw [command, run_bind_of (run_get s), run_bind_of e₁]
  show StateT.run (body (.reserved "then") fuel >>= _) s₁ = _
  rw [run_bind_of e₂, run_bind_of e₃]

/-- A loop. -/
lemma IsCommand.whileDo (h₁ : IsRows false test P) (h₂ : IsRows false inside Q) :
    IsCommand (.plain "while" :: (test ++ .plain "do" :: (inside ++ [.plain "done"])))
      fun c => ∃ ts cs, P ts ∧ Q cs ∧ c = .loop false ts cs [] := by
  refine compound (by decide) (by decide) fun s s₁ tail rest fuel e₁ hs hf => ?_
  simp only [List.cons_append, List.append_assoc, List.nil_append] at hs
  obtain ⟨ts, s₂, e₂, hts, hfaces₂, hcost₂⟩ := h₁.body_reserved (by decide) (by decide) hs hf
  obtain ⟨cs, s₃, e₃, hcs, hfaces₃, hcost₃⟩ :=
    h₂.body_reserved (by decide) (by decide) hfaces₂ (show s₂.cost + 10 ≤ fuel by omega)
  refine ⟨_, s₃, ?_, ⟨ts, cs, hts, hcs, rfl⟩, hfaces₃, by omega⟩
  rw [command, run_bind_of (run_get s), run_bind_of e₁]
  show StateT.run (body (.reserved "do") fuel >>= _) s₁ = _
  rw [run_bind_of e₂, run_bind_of e₃]

/-- Commands between braces. -/
lemma IsCommand.group (h : IsRows false inside P) :
    IsCommand (.plain "\x7b" :: (inside ++ [.plain "\x7d"])) fun c => ∃ cs, P cs ∧
      c = .group cs [] := by
  refine compound (by decide) (by decide) fun s s₁ tail rest fuel e₁ hs hf => ?_
  simp only [List.append_assoc, List.singleton_append] at hs
  obtain ⟨cs, s₂, e₂, hcs, hfaces₂, hcost₂⟩ := h.body_reserved (by decide) (by decide) hs hf
  refine ⟨_, s₂, ?_, ⟨cs, hcs, rfl⟩, hfaces₂, by omega⟩
  rw [command, run_bind_of (run_get s), run_bind_of e₁]
  show StateT.run (body (.reserved "\x7d") fuel >>= _) s₁ = _
  rw [run_bind_of e₂]

end

/-! ## Lines of a script -/

/-- A line end at the top of a script ends the line. -/
lemma run_commands_newline {s : Reader} {ls : List Lexeme} {rest : List Char} {fuel : Nat}
    (before : List Command) (hs : s.Feeds (.mark .newline :: ls) rest) (hf : s.cost + 4 ≤ fuel) :
    ∃ s', (commands true false before fuel).run s = .ok ((before, false), s') ∧
      s'.Faces ls rest := by
  obtain ⟨fuel, rfl⟩ := Nat.exists_eq_add_one_of_ne_zero (show fuel ≠ 0 by omega)
  have hnext : Fetches ((Shell.next { pastNewlines := !true, forReserved := true } fuel).run s)
      (Lexeme.mark .newline).Resolved ls rest s.cost := by
    rcases hs with hs | ⟨_, _, e, hs⟩
    · exact hs.next_resolved _ rfl rfl (by simp) (by omega)
    · cases e
      exact hs.next (by simp) (by omega)
  obtain ⟨s₁, e₁, hres, hfaces, -⟩ := hnext
  refine ⟨s₁, ?_, hfaces⟩
  rw [commands, run_bind_of e₁, hres.1, if_pos (by rfl),
    run_bind_of (run_readDocuments_none hfaces.calm.pending (show 1 ≤ fuel by omega))]
  rfl

namespace Reader

variable {r : Reader} {rest : List Char}

/-- A fresh reader faces the lexemes of its text. -/
lemma faces_of_lexes {ls : List Lexeme} (h : Lexes r.rest ls rest) :
    Faces { r with pushed := false, pending := [] } ls rest :=
  ⟨⟨rfl, rfl⟩, h⟩

/-- The fuel of a reader is reckoned from the text that it has left, and covers what reading it
costs. -/
lemma exists_fuel {ls : List Lexeme} (h : Faces { r with pushed := false, pending := [] } ls rest)
    (k : Nat) (hk : k ≤ 80) :
    ∃ fuel, r.fuel = fuel + k ∧ cost { r with pushed := false, pending := [] } + 20 ≤ fuel := by
  refine ⟨20 * r.rest.length + (100 - k), ?_, ?_⟩
  · rw [Reader.fuel]
    omega
  · rw [h.cost_eq]
    show 20 * r.rest.length + 20 ≤ _
    omega

/-- A line without a command. -/
lemma next_newline (h : Lex r.rest (.mark .newline) rest) :
    ∃ r', r.next = .ok (some [], r') ∧ r'.rest = rest := by
  have hfaces := faces_of_lexes (.cons h (.nil rest))
  obtain ⟨s, e, hs⟩ := run_commands_newline [] (.inl hfaces) (show _ ≤ r.fuel by
    rw [hfaces.cost_eq]
    simp [fuel])
  refine ⟨s, ?_, hs.lexes.eq_of_nil⟩
  rw [next, e]
  rfl

/-- A line with a list. -/
lemma next_list {ls : List Lexeme} {P : Command → Prop} (hlist : IsList ls P)
    (h : Lexes r.rest (ls ++ [.mark .newline]) rest) :
    ∃ c r', r.next = .ok (some [c], r') ∧ P c ∧ r'.rest = rest := by
  have hfaces := faces_of_lexes h
  obtain ⟨l, ls, rfl, hl⟩ := hlist.begins
  obtain ⟨fuel, hfuel, hcost⟩ := exists_fuel hfaces 1 (by decide)
  obtain ⟨s₁, e₁, hres₁, hfaces₁, hcost₁⟩ :=
    hfaces.next_resolved { pastNewlines := !true, forReserved := true } rfl rfl (by simp)
      (show _ ≤ fuel by omega)
  obtain ⟨s₂, e₂, hstands₂, hcost₂⟩ := hfaces₁.pushBack hres₁
  obtain ⟨c, s₃, e₃, hc, hstands₃, hcost₃⟩ :=
    hlist.reads ⟨.newline, [], rfl, rfl⟩ hstands₂ (show s₂.cost + 8 ≤ fuel by omega)
  obtain ⟨s₄, s₅, e₄, hres₄, e₅, hstands₅, hcost₅⟩ := hstands₃.look (show 1 ≤ fuel by omega)
  obtain ⟨s₆, e₆, hfaces₆⟩ :=
    run_commands_newline [c] (.inr hstands₅) (show s₅.cost + 4 ≤ fuel by omega)
  refine ⟨c, s₆, ?_, hc, hfaces₆.lexes.eq_of_nil⟩
  have hrun : (commands true false [] r.fuel).run { r with pushed := false, pending := [] } =
      .ok (([c], false), s₆) := by
    rw [hfuel, commands, run_bind_of e₁, if_neg (by simpa using hl.ne hres₁ (by decide)),
      if_neg (by simpa using hl.ne hres₁ (by decide)), run_bind_of e₂, if_neg (by simp),
      run_bind_of e₃, run_bind_of e₄, hres₄.1]
    exact (run_bind_of e₅).trans e₆
  rw [next, hrun]
  rfl

/-- The end of a script. -/
lemma next_end (h : r.rest = []) : ∃ r', r.next = .ok (none, r') := by
  have hrest : Reader.rest { r with pushed := false, pending := [] } = [] := h
  obtain ⟨s, hs⟩ : ∃ s,
      s = { r with rest := [], pushed := false, pending := [], last := .endOfFile } := ⟨_, rfl⟩
  have hscan : (scan false 98).run { r with pushed := false, pending := [] } = .ok (s.last, s) := by
    rw [scan, run_bind_of (run_peek (by rw [hrest]; simp [NoJoin])), hrest, hs]
    rfl
  have hnext : (Shell.next { pastNewlines := !true, forReserved := true } 99).run
      { r with pushed := false, pending := [] } = (settle _ 98 s.last).run s :=
    run_next_scanned rfl rfl hscan
  have hfuel : r.fuel = 100 := by simp [Reader.fuel, h]
  have hrun : (commands true false [] r.fuel).run { r with pushed := false, pending := [] } =
      .ok (([], true), { s with pushed := true }) := by
    rw [hfuel, commands, StateT.run_bind, hnext, hs]
    rfl
  refine ⟨{ s with pushed := true }, ?_⟩
  rw [next, hrun]
  rfl

end Reader

end Stencil.Shell
