import Stencil.Proofs.Shell.Command

/-!
# Reading words as commands

What the reader makes of rows of words: simple commands, definitions of functions and selections.
With commands at hand, the words that hold a substitution can be read as well.
-/

namespace Stencil.Shell

open Reader

/-- A word that satisfies `W` is never taken for a reserved word. -/
def Free (W : Word → Prop) : Prop :=
  ∀ w, W w → Lexeme.tokenOf w = .word

/-- A plain word that is not reserved is free. -/
lemma free_plain {w : String} (hw : reservedWords.contains w = false) :
    Free (· = plainWord w.toList) := by
  rintro _ rfl
  rw [Lexeme.tokenOf, plainText?_plainWord]
  simp only [String.ofList_toList, hw, Bool.false_eq_true, if_false]

/-- A free word begins a command. -/
lemma Free.begins {W : Word → Prop} (h : Free W) : (Lexeme.word W).Begins := by
  intro s hs
  rw [hs.1, h _ hs.2]
  rfl

/-! ## Simple commands -/

/-- What was read of a simple command. -/
structure Simple where
  assignments : List (List Char × Word) := []
  words : List Word := []
  redirects : List Redirect := []

namespace Simple

/-- Takes a word: an assignment, unless there are words already. -/
def add (p : Simple) (w : Word) : Simple :=
  match (if p.words.isEmpty then assignment? w else none) with
  | some a => { p with assignments := p.assignments ++ [a] }
  | none => { p with words := p.words ++ [w] }

/-- The lexemes can be taken one after the other, and what is read then satisfies `Q`. -/
def Gathers (p : Simple) (Q : Simple → Prop) : List Lexeme → Prop
  | [] => Q p
  | .word W :: ls => ∀ w, W w → Gathers (p.add w) Q ls
  | .redirect 1 .write :: .word W :: ls =>
    ∀ w, W w → Gathers { p with redirects := p.redirects ++ [.mk 1 .write w] } Q ls
  | _ => False

end Simple

section

variable {s : Reader} {l : Lexeme} {ls tail : List Lexeme} {rest : List Char} {fuel : Nat}

/-- The target of a redirection is the word behind it. -/
lemma run_target {W : Word → Prop} (hs : s.Faces (.word W :: ls) rest) (hkind : s.kind = .write)
    (hf : s.cost + 4 ≤ fuel) :
    ∃ w s', (target fuel).run s = .ok (.mk s.fd .write w, s') ∧ W w ∧ s'.Faces ls rest ∧
      s'.cost + 12 ≤ s.cost := by
  obtain ⟨fuel, rfl⟩ := Nat.exists_eq_add_one_of_ne_zero (show fuel ≠ 0 by omega)
  obtain ⟨s₁, e₁, hraw, hfaces, hcost⟩ := hs.next (show s.cost + 3 ≤ fuel by omega)
  refine ⟨s₁.word, s₁, ?_, hraw.2, hfaces, hcost⟩
  rw [hraw.1] at e₁
  rw [target, run_bind_of (run_get s)]
  simp only [hkind]
  rw [run_bind_of e₁, if_neg (by decide), run_bind_of (run_get s₁)]
  rfl

/-- A simple command goes on to the mark that ends it. -/
lemma run_simpleFrom {p : Simple} {Q : Simple → Prop} (line : Nat) (h : p.Gathers Q ls)
    (ht : Follows Token.stopsCommand tail) (hs : s.Faces (ls ++ tail) rest)
    (hf : s.cost + 4 ≤ fuel) :
    ∃ q s', (simpleFrom line p.assignments p.words p.redirects fuel).run s =
        .ok (.simple line q.assignments q.words q.redirects, s') ∧ Q q ∧ s'.Stands tail rest ∧
      s'.cost ≤ s.cost := by
  induction p, ls using Simple.Gathers.induct generalizing s fuel with
  | case1 p =>
    -- The token that ends the command is read and given back.
    obtain ⟨d, tail, rfl, hd⟩ := ht
    obtain ⟨fuel, rfl⟩ := Nat.exists_eq_add_one_of_ne_zero (show fuel ≠ 0 by omega)
    obtain ⟨s₁, e₁, hraw, hfaces, hcost₁⟩ := hs.next (show s.cost + 3 ≤ fuel by omega)
    obtain ⟨s₂, e₂, hstands, hcost₂⟩ := hfaces.pushBack (l := .mark d) hraw
    refine ⟨p, s₂, ?_, h, hstands, by omega⟩
    rw [simpleFrom.eq_def]
    dsimp only
    rw [run_bind_of e₁, hraw.1]
    cases d <;> first | exact run_bind_of e₂ | cases hd
  | case2 p W ls ih =>
    obtain ⟨fuel, rfl⟩ := Nat.exists_eq_add_one_of_ne_zero (show fuel ≠ 0 by omega)
    obtain ⟨s₁, e₁, hraw, hfaces, hcost₁⟩ := hs.next (show s.cost + 3 ≤ fuel by omega)
    obtain ⟨q, s₂, e₂, hq, hstands, hcost₂⟩ :=
      ih _ (h s₁.word hraw.2) hfaces (show s₁.cost + 4 ≤ fuel by omega)
    refine ⟨q, s₂, ?_, hq, hstands, by omega⟩
    rw [simpleFrom.eq_def]
    dsimp only
    rw [run_bind_of e₁, hraw.1]
    dsimp only
    rw [run_bind_of (run_get s₁), ← e₂]
    simp only [Simple.add]
    -- The reader and `Simple.add` ask the same question about the word.
    cases (if p.words.isEmpty = true then assignment? s₁.word else none) <;> rfl
  | case3 p W ls ih =>
    obtain ⟨fuel, rfl⟩ := Nat.exists_eq_add_one_of_ne_zero (show fuel ≠ 0 by omega)
    obtain ⟨s₁, e₁, hraw, hfaces, hcost₁⟩ := hs.next (show s.cost + 3 ≤ fuel by omega)
    obtain ⟨w, s₂, e₂, hw, hfaces₂, hcost₂⟩ :=
      run_target hfaces hraw.2.2 (show s₁.cost + 4 ≤ fuel by omega)
    rw [hraw.2.1] at e₂
    obtain ⟨q, s₃, e₃, hq, hstands, hcost₃⟩ :=
      ih w (h w hw) hfaces₂ (show s₂.cost + 4 ≤ fuel by omega)
    refine ⟨q, s₃, ?_, hq, hstands, by omega⟩
    rw [simpleFrom.eq_def]
    dsimp only
    rw [run_bind_of e₁, hraw.1]
    dsimp only
    rw [run_bind_of e₂, ← e₃]
  | case4 p ls h₁ h₂ h₃ =>
    rw [Simple.Gathers] at h
    · cases h
    · exact h₁
    · exact h₂
    · exact h₃

/-- A word in reserve that is not reserved starts a simple command. -/
lemma run_command_word {W : Word → Prop} (hW : Free W) (hs : s.Stands (.word W :: ls) rest)
    (hf : 1 ≤ fuel) :
    ∃ line w s', W w ∧ s'.Faces ls rest ∧ s'.cost + 12 ≤ s.cost ∧
      let p := Simple.add {} w
      (command (fuel + 3)).run s =
        (simpleFrom line p.assignments p.words p.redirects fuel).run s' := by
  obtain ⟨s₁, s₂, e₁, hres₁, e₂, hstands₂, hcost₂⟩ := hs.look (show 1 ≤ fuel + 2 by omega)
  obtain ⟨s₃, e₃, hres₃, hfaces, hcost₃⟩ := hstands₂.next hf
  have hlast₁ : s₁.last = .word := by rw [hres₁.1, hW _ hres₁.2]
  have hlast₃ : s₃.last = .word := by rw [hres₃.1, hW _ hres₃.2]
  refine ⟨s₂.line, s₃.word, s₃, hres₃.2, hfaces, by omega, ?_⟩
  rw [command, run_bind_of (run_get s), run_bind_of e₁, hlast₁]
  dsimp only
  rw [run_bind_of e₂, Shell.simple, run_bind_of (run_get s₂), simpleFrom.eq_def]
  dsimp only
  rw [run_bind_of e₃, hlast₃]
  dsimp only
  rw [run_bind_of (run_get s₃)]
  simp only [Simple.add]
  cases (if ([] : List Word).isEmpty = true then assignment? s₃.word else none) <;> rfl

/-- A row of words that does not start with a reserved one is a simple command. -/
lemma IsCommand.simple {W : Word → Prop} {Q : Simple → Prop} (hW : Free W)
    (h : Simple.Gathers {} Q (.word W :: ls)) :
    IsCommand (.word W :: ls) fun c => ∃ line q, Q q ∧
      c = .simple line q.assignments q.words q.redirects := by
  refine ⟨⟨_, _, rfl, hW.begins⟩, fun s tail rest fuel ht hs hf => ?_⟩
  obtain ⟨fuel, rfl⟩ := Nat.exists_eq_add_of_le' (show 3 ≤ fuel by omega)
  obtain ⟨line, w, s₁, hw, hfaces, hcost₁, e₁⟩ := run_command_word hW hs (show 1 ≤ fuel by omega)
  obtain ⟨q, s₂, e₂, hq, hstands, hcost₂⟩ :=
    run_simpleFrom line (h w hw) ht hfaces (show s₁.cost + 4 ≤ fuel by omega)
  exact ⟨_, s₂, e₁.trans e₂, ⟨line, q, hq, rfl⟩, hstands, by omega⟩

/-- What a word assigns is told by what stands behind the name at its start. -/
lemma assignment?_append {n : List Char} (hn : ∀ c ∈ n, isNameChar c = true) (w : Word) :
    (∀ c, w.head? = some (.char c false) → isNameChar c = false) →
    assignment? (plainWord n ++ w) =
      match w with
      | .char '=' false :: value => if isName n then some (n, value) else none
      | _ => none := by
  intro hw
  unfold assignment?
  extract_lets plain name
  -- The part that is taken for a name ends where `w` starts.
  have hrest : w.takeWhile (fun p => (plain p).any isNameChar) = [] := by
    cases w with
    | nil => rfl
    | cons p w =>
      refine List.takeWhile_cons_of_neg ?_
      match p with
      | .char c false => exact Bool.eq_false_iff.mp (hw c rfl)
      | .char _ true | .quote | .param .. | .command .. | .arithmetic .. => exact Bool.false_ne_true
  have htake : (plainWord n ++ w).takeWhile (fun p => (plain p).any isNameChar) = plainWord n := by
    rw [List.takeWhile_append_of_pos, hrest, List.append_nil]
    intro p hp
    obtain ⟨c, hc, rfl⟩ := List.mem_map.mp hp
    exact hn c hc
  have hname : name = n := by
    simp only [name, htake]
    rw [plainWord, List.filterMap_map]
    exact List.filterMap_some
  have hdrop : (plainWord n ++ w).drop name.length = w :=
    List.drop_left' (by simp [plainWord, hname])
  rw [hdrop, hname]
  rfl

/-- A name is no assignment. -/
lemma assignment?_plainWord {n : List Char} (hn : ∀ c ∈ n, isNameChar c = true) :
    assignment? (plainWord n) = none := by
  have h := assignment?_append hn [] nofun
  rwa [List.append_nil] at h

/-- A name with parentheses behind it gives its name to the command that follows. -/
lemma IsCommand.define {n : String} {P : Command → Prop} (hn : isName n.toList = true)
    (hspecial : specialBuiltins.contains n = false) (hres : reservedWords.contains n = false)
    (h : IsCommand ls P) :
    IsCommand (.plain n :: .mark .openParen :: .mark .closeParen :: ls)
      fun c => ∃ b, P b ∧ c = .define n.toList b := by
  refine ⟨⟨_, _, rfl, (free_plain hres).begins⟩, fun s tail rest fuel ht hs hf => ?_⟩
  obtain ⟨fuel, rfl⟩ := Nat.exists_eq_add_of_le' (show 3 ≤ fuel by omega)
  obtain ⟨line, w, s₁, rfl, hfaces₁, hcost₁, e₁⟩ :=
    run_command_word (free_plain hres) hs (show 1 ≤ fuel by omega)
  obtain ⟨fuel, rfl⟩ := Nat.exists_eq_add_one_of_ne_zero (show fuel ≠ 0 by omega)
  obtain ⟨s₂, e₂, hraw₂, hfaces₂, hcost₂⟩ := hfaces₁.next (show s₁.cost + 3 ≤ fuel by omega)
  obtain ⟨s₃, e₃, hraw₃, hfaces₃, hcost₃⟩ := hfaces₂.next (show s₂.cost + 3 ≤ fuel by omega)
  obtain ⟨l, ls', rfl, hl⟩ := h.begins
  obtain ⟨s₄, s₅, e₄, -, e₅, hstands₅, hcost₅⟩ :=
    hfaces₃.resume hl (show s₃.cost + 3 ≤ fuel by omega)
  obtain ⟨b, s₆, e₆, hb, hstands₆, hcost₆⟩ := h.reads ht hstands₅ (show s₅.cost + 6 ≤ fuel by omega)
  refine ⟨.define n.toList b, s₆, ?_, ⟨b, hb, rfl⟩, hstands₆, by omega⟩
  have hadd : Simple.add {} (plainWord n.toList) = { words := [plainWord n.toList] } := by
    obtain ⟨_, _, hc, _, hall⟩ := exists_of_isName hn
    simp [Simple.add, assignment?_plainWord (n := n.toList) (by rw [hc]; exact hall)]
  rw [e₁, hadd, simpleFrom.eq_def]
  dsimp only
  rw [run_bind_of e₂, hraw₂.1]
  dsimp only
  rw [run_bind_of e₃, hraw₃.1, if_neg (by decide), plainText?_plainWord]
  dsimp only
  rw [hn, String.ofList_toList, hspecial, if_neg (by decide), run_bind_of e₄,
    run_bind_of (run_setLast_self s₄), run_bind_of e₅, run_bind_of e₆]
  rfl

/-! ## Selections -/

/-- Patterns with bars between them. -/
def patternLexemes (W : Word → Prop) (Ws : List (Word → Prop)) : List Lexeme :=
  .word W :: Ws.flatMap fun W => [.mark .pipe, .word W]

/-- The first pattern is the last word; the others follow up to a closing parenthesis. -/
lemma run_patterns {W : Word → Prop} {Ws : List (Word → Prop)} (hW : W s.word)
    (hs : s.Faces ((Ws.flatMap fun W => [.mark .pipe, .word W]) ++ .mark .closeParen :: ls) rest)
    (hf : s.cost + 4 ≤ fuel) :
    ∃ ws s', (patterns fuel).run s = .ok (ws, s') ∧ List.Forall₂ (fun W w => W w) (W :: Ws) ws ∧
      s'.last = .closeParen ∧ s'.Faces ls rest ∧ s'.cost + 12 ≤ s.cost := by
  induction Ws generalizing W s fuel with
  | nil =>
    obtain ⟨fuel, rfl⟩ := Nat.exists_eq_add_one_of_ne_zero (show fuel ≠ 0 by omega)
    obtain ⟨s₁, e₁, hraw, hfaces, hcost⟩ := hs.next (show s.cost + 3 ≤ fuel by omega)
    refine ⟨[s.word], s₁, ?_, .cons hW .nil, hraw.1, hfaces, hcost⟩
    rw [patterns, run_bind_of (run_get s), run_bind_of e₁, hraw.1]
    rfl
  | cons V Ws ih =>
    obtain ⟨fuel, rfl⟩ := Nat.exists_eq_add_one_of_ne_zero (show fuel ≠ 0 by omega)
    obtain ⟨s₁, e₁, hraw₁, hfaces₁, hcost₁⟩ := hs.next (show s.cost + 3 ≤ fuel by omega)
    obtain ⟨s₂, e₂, hraw₂, hfaces₂, hcost₂⟩ := hfaces₁.next (show s₁.cost + 3 ≤ fuel by omega)
    obtain ⟨ws, s₃, e₃, hws, hlast, hfaces₃, hcost₃⟩ :=
      ih hraw₂.2 hfaces₂ (show s₂.cost + 4 ≤ fuel by omega)
    refine ⟨s.word :: ws, s₃, ?_, .cons hW hws, hlast, hfaces₃, by omega⟩
    rw [patterns, run_bind_of (run_get s), run_bind_of e₁, hraw₁.1, if_pos (by rfl)]
    have e₂' : (discard (next {} fuel) : ReadM Unit).run s₁ = .ok ((), s₂) := by
      show (do let (_, s) ← (next {} fuel).run s₁; pure ((), s)) = _
      rw [e₂]
      rfl
    rw [run_bind_of e₂', run_bind_of e₃]
    rfl

/-- The lexemes read as cases that satisfy `Q`, with the word that ends a selection behind them. -/
def IsCases (ls : List Lexeme) (Q : List (List Word × List Command) → Prop) : Prop :=
  ∀ ⦃s : Reader⦄ ⦃n : Nat⦄ ⦃tail : List Lexeme⦄ ⦃rest : List Char⦄ ⦃fuel : Nat⦄,
    s.Feeds (List.replicate n (.mark .newline) ++ (ls ++ tail)) rest → s.cost + 10 ≤ fuel →
      ∃ r s', (cases fuel).run s = .ok (r, s') ∧ Q r ∧ s'.Faces tail rest ∧ s'.cost + 12 ≤ s.cost

namespace IsCases

/-- The cases may be described by less. -/
lemma mono {P Q : List (List Word × List Command) → Prop} (h : IsCases ls P)
    (hPQ : ∀ r, P r → Q r) :
    IsCases ls Q := by
  intro s n tail rest fuel hs hf
  obtain ⟨r, s', e, hr, hs', hcost⟩ := h hs hf
  exact ⟨r, s', e, hPQ r hr, hs', hcost⟩

/-- After the last case comes `esac`. -/
lemma esac : IsCases [.plain "esac"] (· = []) := by
  intro s n tail rest fuel hs hf
  obtain ⟨fuel, rfl⟩ := Nat.exists_eq_add_one_of_ne_zero (show fuel ≠ 0 by omega)
  obtain ⟨s₁, e₁, hres, hfaces, hcost⟩ := hs.next_past trivial (show s.cost + 3 ≤ fuel by omega)
  refine ⟨[], s₁, ?_, rfl, hfaces, hcost⟩
  rw [cases, run_bind_of e₁, Lexeme.last_of_reserved (by decide) hres]
  rfl

/-- Line ends between cases do not count. -/
lemma newline {Q : List (List Word × List Command) → Prop} (h : IsCases ls Q) :
    IsCases (.mark .newline :: ls) Q := by
  intro s n tail rest fuel hs hf
  have hs' : s.Feeds (List.replicate (n + 1) (.mark .newline) ++ (ls ++ tail)) rest := by
    rw [List.replicate_succ', List.append_assoc]
    exact hs
  exact h hs' hf

/-- A case before others. -/
lemma cons {W : Word → Prop} {Ws : List (Word → Prop)} {inside : List Lexeme}
    {P : List Command → Prop} {Q : List (List Word × List Command) → Prop} (hW : Free W)
    (hinside : IsRows true inside P) (h : IsCases ls Q) :
    IsCases (patternLexemes W Ws ++ .mark .closeParen :: (inside ++ .mark .endCase :: ls))
      fun r => ∃ ws cs r', List.Forall₂ (fun W w => W w) (W :: Ws) ws ∧ P cs ∧ Q r' ∧
        r = (ws, cs) :: r' := by
  intro s n tail rest fuel hs hf
  obtain ⟨fuel, rfl⟩ := Nat.exists_eq_add_one_of_ne_zero (show fuel ≠ 0 by omega)
  simp only [patternLexemes, List.cons_append, List.append_assoc] at hs
  obtain ⟨s₁, e₁, hres₁, hfaces₁, hcost₁⟩ := hs.next_past trivial (show s.cost + 3 ≤ fuel by omega)
  have hlast : s₁.last = .word := by rw [hres₁.1, hW _ hres₁.2]
  obtain ⟨ws, s₂, e₂, hws, hlast₂, hfaces₂, hcost₂⟩ :=
    run_patterns hres₁.2 hfaces₁ (show s₁.cost + 4 ≤ fuel by omega)
  have hends : Lexeme.Ends (.mark .endCase) :=
    ⟨by simp [Lexeme.Visible], fun s hs => by rw [hs.1]; exact ⟨rfl, by decide⟩⟩
  obtain ⟨cs, s₃, e₃, hcs, hstands₃, hcost₃⟩ :=
    hinside (n := 0) [] hends (.inl hfaces₂) (show s₂.cost + 9 ≤ fuel by omega)
  have hfeeds₃ :
      s₃.Feeds (List.replicate 0 (.mark .newline) ++ .mark .endCase :: (ls ++ tail)) rest :=
    .inr hstands₃
  obtain ⟨s₄, e₄, hres₄, hfaces₄, hcost₄⟩ :=
    hfeeds₃.next_past hends.1 (show s₃.cost + 3 ≤ fuel by omega)
  obtain ⟨r, s₅, e₅, hr, hfaces₅, hcost₅⟩ :=
    h (n := 0) (.inl hfaces₄) (show s₄.cost + 10 ≤ fuel by omega)
  refine ⟨(ws, cs) :: r, s₅, ?_, ⟨ws, cs, r, hws, hcs, hr, rfl⟩, hfaces₅, by omega⟩
  rw [cases, run_bind_of e₁, hlast, if_neg (by decide), if_neg (by decide), run_bind_of e₂,
    run_bind_of (run_get s₂), hlast₂, if_neg (by decide), run_bind_of e₃]
  dsimp only
  rw [run_bind_of e₄, hres₄.1, if_neg (by decide), if_pos (by rfl), run_bind_of e₅]
  rfl

end IsCases

/-- A selection. -/
lemma IsCommand.select {W : Word → Prop} {Q : List (List Word × List Command) → Prop}
    (h : IsCases ls Q) :
    IsCommand (.plain "case" :: .word W :: .plain "in" :: ls)
      fun c => ∃ line w r, W w ∧ Q r ∧ c = .select line w r [] := by
  refine compound (by decide) (by decide) fun s s₁ tail rest fuel e₁ hs hf => ?_
  obtain ⟨s₂, e₂, hraw₂, hfaces₂, hcost₂⟩ := hs.next (show s₁.cost + 3 ≤ fuel by omega)
  obtain ⟨s₃, e₃, hres₃, hfaces₃, hcost₃⟩ :=
    hfaces₂.next_resolved atCommand rfl rfl (fun _ => trivial) (show s₂.cost + 3 ≤ fuel by omega)
  obtain ⟨r, s₄, e₄, hr, hfaces₄, hcost₄⟩ :=
    h (n := 0) (.inl hfaces₃) (show s₃.cost + 10 ≤ fuel by omega)
  refine ⟨_, s₄, ?_, ⟨s.line, s₂.word, r, hraw₂.2, hr, rfl⟩, hfaces₄, by omega⟩
  rw [command, run_bind_of (run_get s), run_bind_of e₁]
  show StateT.run (next {} fuel >>= _) s₁ = _
  rw [run_bind_of e₂, hraw₂.1, if_neg (by decide), run_bind_of (run_get s₂), run_bind_of e₃,
    Lexeme.last_of_reserved (by decide) hres₃, if_neg (by decide), run_bind_of e₄]

/-! ## Substitutions -/

/-- Commands up to a closing parenthesis. -/
lemma run_commands_closed (canEnd : Bool) {P : Command → Prop} (h : IsList ls P)
    (hs : s.Faces (ls ++ .mark .closeParen :: tail) rest) (hf : s.cost + 9 ≤ fuel) :
    ∃ c s', (commands false canEnd [] fuel).run s = .ok (([c], false), s') ∧ P c ∧
      s'.Stands (.mark .closeParen :: tail) rest ∧ s'.cost ≤ s.cost := by
  obtain ⟨l, ls, rfl, hl⟩ := h.begins
  obtain ⟨fuel, rfl⟩ := Nat.exists_eq_add_one_of_ne_zero (show fuel ≠ 0 by omega)
  obtain ⟨s₁, s₂, e₁, hres₁, e₂, hstands₂, hcost₂⟩ := hs.resume hl (show s.cost + 3 ≤ fuel by omega)
  obtain ⟨c, s₃, e₃, hc, hstands₃, hcost₃⟩ :=
    h.reads ⟨_, _, rfl, by decide⟩ hstands₂ (show s₂.cost + 8 ≤ fuel by omega)
  obtain ⟨s₄, s₅, e₄, hres₄, e₅, hstands₅, hcost₅⟩ := hstands₃.look (show 1 ≤ fuel by omega)
  refine ⟨c, s₅, ?_, hc, hstands₅, by omega⟩
  have e₁' : (Shell.next { pastNewlines := !false, forReserved := true } fuel).run s =
      .ok (s₁.last, s₁) := e₁
  rw [commands, run_bind_of e₁', if_neg (by simpa using hl.ne hres₁ (by decide)),
    if_neg (by simpa using hl.ne hres₁ (by decide)), run_bind_of e₂,
    if_neg (by simp [endsList_of_begins (hl s₁ hres₁)]), run_bind_of e₃, run_bind_of e₄, hres₄.1]
  exact run_bind_of e₅

end

/-- A parenthesis behind a dollar opens commands, and no documents wait while they are read. -/
lemma run_dollar_commands (m : Mode) (fuel : Nat) {s : Reader} {c : Char} {text : List Char}
    (hs : s.rest = '$' :: '(' :: c :: text) (hcalm : s.Calm) (hj : c ≠ '\\') (hc : c ≠ '(') :
    ∃ s' : Reader, s'.rest = c :: text ∧ s'.Calm ∧
      (dollar m (fuel + 1)).run s = (do
        let (body, _) ← commands false true [] fuel
        if (← next {} fuel) != .closeParen then unexpected (some .closeParen)
        modify fun s => { s with pending := [] }
        return [.command body m.isQuoted] : ReadM Word).run s' := by
  obtain ⟨_, s₁, e₁, -, hs₁, hc₁⟩ := skip_leaves hs hcalm
  obtain ⟨_, s₂, e₂, rfl, hs₂, hc₂⟩ := peek_leaves hs₁ hc₁ (by decide)
  obtain ⟨_, s₃, e₃, -, hs₃, hc₃⟩ := skip_leaves hs₂ hc₂
  obtain ⟨_, s₄, e₄, rfl, hs₄, hc₄⟩ := peek_leaves hs₃ hc₃ hj
  refine ⟨{ s₄ with pending := [] }, hs₄, ⟨hc₄.pushed, rfl⟩, ?_⟩
  rw [dollar, run_bind_of e₁, run_bind_of e₂]
  show StateT.run (skip >>= _) s₂ = _
  rw [run_bind_of e₃, run_bind_of e₄, if_neg (by simpa using hc), run_bind_of (run_get s₄),
    hc₄.pending]
  rfl

/-- A list between parentheses behind a dollar is replaced by what it prints. -/
lemma Ending.substitution {inner text : List Char} {ls : List Lexeme} {P : Command → Prop}
    {Q : Word → Prop} {c : Char}
    (hlex : ∀ rest, Lexes (c :: (inner ++ ')' :: rest)) (ls ++ [.mark .closeParen]) rest)
    (hj : c ≠ '\\') (hc : c ≠ '(') (h : IsList ls P)
    (htext : ∀ d, P d → Ending text fun w => Q (.command [d] false :: w)) :
    Ending ('$' :: '(' :: c :: (inner ++ ')' :: text)) Q := by
  intro rest hb
  simp only [List.cons_append, List.append_assoc]
  refine Yields.dollar (P := fun v => ∃ d, P d ∧ v = [.command [d] false]) (text ++ rest)
    (by simp; omega)
    (fun s fuel hs hcalm hf => ?_) ?_
  · obtain ⟨fuel, rfl⟩ := Nat.exists_eq_add_one_of_ne_zero (show fuel ≠ 0 by omega)
    obtain ⟨s₁, hs₁, hc₁, e₁⟩ := run_dollar_commands .bare fuel hs hcalm hj hc
    have hfaces : s₁.Faces (ls ++ [.mark .closeParen]) (text ++ rest) :=
      ⟨hc₁, hs₁ ▸ hlex (text ++ rest)⟩
    have hcost : s₁.cost + 9 ≤ fuel := by
      rw [hfaces.cost_eq, hs₁]
      simp only [List.length_cons, List.length_append] at hf ⊢
      omega
    obtain ⟨d, s₂, e₂, hd, hstands₂, -⟩ := run_commands_closed true h hfaces hcost
    obtain ⟨s₃, e₃, hres₃, hfaces₃, -⟩ := hstands₂.next (show 1 ≤ fuel by omega)
    rw [e₁, run_bind_of e₂]
    dsimp only
    rw [run_bind_of e₃, if_neg (by simp [hres₃.1])]
    exact ⟨_, { s₃ with pending := [] }, rfl, ⟨d, hd, rfl⟩, hfaces₃.lexes.eq_of_nil,
      hfaces₃.calm.pushed, rfl⟩
  · rintro _ ⟨d, hd, rfl⟩
    exact htext d hd hb

end Stencil.Shell
