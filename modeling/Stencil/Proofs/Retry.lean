import Mathlib.Logic.Function.Iterate
import Stencil.Proofs.Shell.Run
import Stencil.Session

/-!
# Editing until a text is valid

A run of the editor depends on two rows: the results of the editor, and the replies of the user to
the question whether to go on (`Terminal.replies`). `Ends` says of these rows how the run ends.
There is always an end (`Ends.exists_ends`), and it is the one that the run comes to
(`run_editFrom`): the editor is opened with the seed and then with each broken text as it was, and
after each broken text the user is asked once (`editUntilValid_follows`).
-/

namespace Stencil

/-! ## Replies -/

namespace Terminal

/-- What the lines of the input reply to questions that want yes or no. A line that says neither is
asked again. -/
def replies (t : Terminal) : List Bool :=
  t.input.filterMap yesOrNo?

/-- A question takes the next reply. -/
lemma confirm_eq (question : String) (t : Terminal) :
    (t.confirm question).1 = t.replies.head? ∧ (t.confirm question).2.replies = t.replies.tail := by
  have hfrom (text output : String) (lines : List String) :
      (confirmFrom text output lines).1 = (lines.filterMap yesOrNo?).head? ∧
        (confirmFrom text output lines).2.replies = (lines.filterMap yesOrNo?).tail := by
    induction lines generalizing output with
    | nil => exact ⟨rfl, rfl⟩
    | cons line rest ih =>
      unfold confirmFrom
      cases hline : yesOrNo? line with
      | some b =>
        rw [List.filterMap_cons_some hline]
        exact ⟨rfl, rfl⟩
      | none =>
        rw [List.filterMap_cons_none hline]
        exact ih _
  exact hfrom _ _ _

/-- The terminal after the user was asked whether to go on. -/
def askAgain (t : Terminal) : Terminal :=
  (t.confirm Session.retryQuestion).2

/-- Asking once more takes one reply. -/
lemma replies_askAgain (t : Terminal) : t.askAgain.replies = t.replies.tail :=
  (confirm_eq _ t).2

/-- Asking some times takes as many replies. -/
lemma replies_iterate_askAgain (n : Nat) (t : Terminal) :
    (askAgain^[n] t).replies = t.replies.drop n := by
  induction n generalizing t with
  | zero => rfl
  | succ n ih => rw [Function.iterate_succ_apply, ih, replies_askAgain, List.drop_tail]

end Terminal

namespace Session

/-! ## How a run ends -/

/-- The text is no template. -/
def Broken (text : String) : Prop :=
  ∃ e, Template.parse text = .error e

/-- Whether a text is no template can be decided. -/
instance : DecidablePred Broken := fun text =>
  match h : Template.parse text with
  | .ok _ => .isFalse fun ⟨_, he⟩ => by simp [h] at he
  | .error e => .isTrue ⟨e, h⟩

/-- What is reported of a text. -/
def report (text : String) : String :=
  match Template.parse text with
  | .ok _ => ""
  | .error e => (Error.parse e).report

/-- The first results of the editor are broken texts, and after each of them the user wants to go
on. -/
structure Confirmed (edits : List (Option String)) (replies : List Bool) (texts : List String)
    (edits' : List (Option String)) (replies' : List Bool) : Prop where
  broken : ∀ text ∈ texts, Broken text
  edits : edits = texts.map some ++ edits'
  replies : replies = List.replicate texts.length true ++ replies'

/-- How a run ends behind texts that the user wants to repair. Beside the result, `asked` are the
texts after which the user is asked. -/
inductive Ends (edits : List (Option String)) (replies : List Bool) (texts : List String) :
    (asked : List String) → Except Failure Template → Prop
  | valid {text : String} {t : Template} {rest : List (Option String)} {more : List Bool} :
    Confirmed edits replies texts (some text :: rest) more → Template.parse text = .ok t →
    Ends edits replies texts texts (.ok t)
  | declined {text : String} {e : ParseError} {rest : List (Option String)} {more : List Bool} :
    Confirmed edits replies texts (some text :: rest) (false :: more) →
      Template.parse text = .error e →
    Ends edits replies texts (texts ++ [text]) (.error (.known (.parse e)))
  /-- The editor is closed without saving. -/
  | closed {rest : List (Option String)} {more : List Bool} :
    Confirmed edits replies texts rest more → rest.head?.join = none →
    Ends edits replies texts texts (.error (.known .editAborted))
  /-- The input ends where the user is asked. -/
  | cutOff {text : String} {e : ParseError} {rest : List (Option String)} :
    Confirmed edits replies texts (some text :: rest) [] → Template.parse text = .error e →
    Ends edits replies texts (texts ++ [text]) (.error .abort)

section

variable {edits edits' : List (Option String)} {replies replies' : List Bool} {text : String}
  {texts asked : List String} {r : Except Failure Template}

/-- No text was tried. -/
lemma Confirmed.nil (edits : List (Option String)) (replies : List Bool) :
    Confirmed edits replies [] edits replies :=
  ⟨by simp, rfl, rfl⟩

/-- A broken text is followed by a yes and by the next ones. -/
lemma Confirmed.cons (htext : Broken text) (h : Confirmed edits replies texts edits' replies') :
    Confirmed (some text :: edits) (true :: replies) (text :: texts) edits' replies' := by
  refine ⟨?_, congrArg _ h.edits, congrArg _ h.replies⟩
  rintro x (_ | ⟨_, hx⟩)
  · exact htext
  · exact h.broken x hx

/-- A first text that is confirmed is taken from both rows. -/
lemma Confirmed.uncons (h : Confirmed edits replies (text :: texts) edits' replies') :
    Broken text ∧ ∃ edits₁ replies₁, edits = some text :: edits₁ ∧ replies = true :: replies₁ ∧
      Confirmed edits₁ replies₁ texts edits' replies' :=
  ⟨h.broken text List.mem_cons_self, _, _, h.edits, h.replies,
    fun x hx => h.broken x (List.mem_cons_of_mem _ hx), rfl, rfl⟩

namespace Ends

/-- A broken text and a yes come before the end of what follows. -/
lemma cons (htext : Broken text) (h : Ends edits replies texts asked r) :
    Ends (some text :: edits) (true :: replies) (text :: texts) (text :: asked) r := by
  cases h with
  | valid hc hparse => exact valid (hc.cons htext) hparse
  | declined hc hparse => exact declined (hc.cons htext) hparse
  | closed hc hrest => exact closed (hc.cons htext) hrest
  | cutOff hc hparse => exact cutOff (hc.cons htext) hparse

/-- If a text was tried, it was broken and the reply was yes. -/
lemma uncons (h : Ends edits replies (text :: texts) asked r) :
    Broken text ∧
    ∃ edits₁ replies₁ asked₁, edits = some text :: edits₁ ∧ replies = true :: replies₁ ∧
      asked = text :: asked₁ ∧ Ends edits₁ replies₁ texts asked₁ r := by
  cases h with
  | valid hc hparse =>
    obtain ⟨htext, _, _, rfl, rfl, hc₁⟩ := hc.uncons
    exact ⟨htext, _, _, _, rfl, rfl, rfl, valid hc₁ hparse⟩
  | declined hc hparse =>
    obtain ⟨htext, _, _, rfl, rfl, hc₁⟩ := hc.uncons
    exact ⟨htext, _, _, _, rfl, rfl, rfl, declined hc₁ hparse⟩
  | closed hc hrest =>
    obtain ⟨htext, _, _, rfl, rfl, hc₁⟩ := hc.uncons
    exact ⟨htext, _, _, _, rfl, rfl, rfl, closed hc₁ hrest⟩
  | cutOff hc hparse =>
    obtain ⟨htext, _, _, rfl, rfl, hc₁⟩ := hc.uncons
    exact ⟨htext, _, _, _, rfl, rfl, rfl, cutOff hc₁ hparse⟩

/-- Whatever the editor and the user do, there is an end. -/
lemma exists_ends (edits : List (Option String)) (replies : List Bool) :
    ∃ texts asked r, Ends edits replies texts asked r := by
  induction edits generalizing replies with
  | nil => exact ⟨[], [], _, closed (.nil _ _) rfl⟩
  | cons edit edits ih =>
    cases edit with
    | none => exact ⟨[], [], _, closed (.nil _ _) rfl⟩
    | some text =>
      cases hparse : Template.parse text with
      | ok t => exact ⟨[], [], _, valid (.nil _ _) hparse⟩
      | error e =>
        match replies with
        | [] => exact ⟨[], [text], _, cutOff (.nil _ _) hparse⟩
        | false :: more => exact ⟨[], [text], _, declined (.nil _ _) hparse⟩
        | true :: more =>
          obtain ⟨texts, asked, r, h⟩ := ih more
          exact ⟨_, _, _, h.cons ⟨e, hparse⟩⟩

end Ends

end

/-! ## Runs -/

variable {s : Session} {command : Option String} {seed text : String} {texts asked : List String}
  {fuel : Nat}
  {retry : Bool} {r : Except Failure Template}

/-- The session after the editor was opened with each of the seeds, and after the user was told of
each of the texts that it is broken, and asked whether to go on. -/
def after (s : Session) (command : Option String) (seeds asked : List String) : Session :=
  { s with
    edits := s.edits.drop seeds.length
    openings := s.openings ++ seeds.map fun seed => { seed, command }
    terminal := Terminal.askAgain^[asked.length] s.terminal
    errors := asked.foldl (fun errors text => errors ++ report text) s.errors }

/-- The first round of a run comes before the others. -/
lemma after_cons (s : Session) (command : Option String) (seed text : String)
    (seeds asked : List String) :
    (s.after command [seed] [text]).after command seeds asked = s.after command (seed :: seeds)
    (text :: asked) := by
  simp [after]

/-- An opening takes one result of the editor and is noted. -/
lemma after_opening (s : Session) (command : Option String) (seed : String) :
    s.after command [seed] [] =
      { s with edits := s.edits.tail, openings := s.openings ++ [{ seed, command }] } := by
  simp [after]

/-- Opening the editor gives its next result, if there is one. -/
lemma run_edit (command : Option String) (seed : String) (s : Session) :
    (edit command seed).run s =
      (match s.edits.head?.join with
        | some text => .ok text
        | none => .error (.known .editAborted), s.after command [seed] []) := by
  rw [after_opening]
  show edit command seed s = _
  unfold edit
  cases s.edits.head?.join with
  | none => rfl
  | some text => rfl

/-- The answer to the question whether to go on is the next reply. -/
lemma run_confirm (s : Session) : (confirm retryQuestion).run s =
    (s.terminal.replies.head?.elim (.error .abort) .ok,
      { s with terminal := s.terminal.askAgain }) := by
  rw [← (Terminal.confirm_eq retryQuestion s.terminal).1]
  show confirm retryQuestion s = _
  unfold confirm Terminal.askAgain
  obtain ⟨answer, terminal⟩ := s.terminal.confirm retryQuestion
  cases answer with
  | none => rfl
  | some again => rfl

/-- An editor that is closed without saving ends the run. -/
lemma run_editFrom_closed (h : s.edits.head?.join = none) :
    (editFrom command retry (fuel + 1) seed).run s =
      (.error (.known .editAborted), s.after command [seed] []) := by
  have hedit := run_edit command seed s
  rw [h] at hedit
  exact run_bind_of_error hedit

/-- A text that is a template is taken, and nothing is asked. -/
lemma run_editFrom_valid {t : Template} (h : s.edits.head?.join = some text)
    (hparse : Template.parse text = .ok t) :
    (editFrom command retry (fuel + 1) seed).run s = (.ok t, s.after command [seed] []) := by
  have hedit := run_edit command seed s
  rw [h] at hedit
  rw [editFrom, run_bind_of_ok hedit, hparse]
  rfl

/-- Without retries a broken text ends the run, and nothing is asked. -/
lemma run_editFrom_once {e : ParseError} (h : s.edits.head?.join = some text)
    (hparse : Template.parse text = .error e) :
    (editFrom command false (fuel + 1) seed).run s =
      (.error (.known (.parse e)), s.after command [seed] []) := by
  have hedit := run_edit command seed s
  rw [h] at hedit
  rw [editFrom, run_bind_of_ok hedit, hparse]
  rfl

/-- After a broken text the user is asked once. -/
lemma run_editFrom_broken {e : ParseError} (h : s.edits.head?.join = some text)
    (hparse : Template.parse text = .error e) :
    (editFrom command true (fuel + 1) seed).run s =
      match s.terminal.replies.head? with
      | some true => (editFrom command true fuel text).run (s.after command [seed] [text])
      | some false => (.error (.known (.parse e)), s.after command [seed] [text])
      | none => (.error .abort, s.after command [seed] [text]) := by
  have hedit := run_edit command seed s
  rw [h] at hedit
  have hreport : (Error.parse e).report = report text := by
    rw [report, hparse]
  have hconfirm :
      (confirm retryQuestion).run
        { s.after command [seed] [] with errors := s.errors ++ report text } =
      (s.terminal.replies.head?.elim (.error .abort) .ok, s.after command [seed] [text]) :=
    run_confirm _
  have hrun : (editFrom command true (fuel + 1) seed).run s =
      (confirm retryQuestion >>= fun again =>
        if again then editFrom command true fuel text else throw (.known (.parse e))).run
        { s.after command [seed] [] with errors := s.errors ++ report text } := by
    rw [editFrom, run_bind_of_ok hedit, hparse, ← hreport]
    rfl
  rw [hrun]
  cases hreply : s.terminal.replies.head? with
  | none =>
    rw [hreply] at hconfirm
    exact run_bind_of_error hconfirm
  | some again =>
    rw [hreply] at hconfirm
    cases again with
    | true => exact run_bind_of_ok hconfirm
    | false => exact run_bind_of_ok hconfirm

/-- There is enough fuel for each result of the editor, and for one more opening. -/
lemma run_editUntilValid (command : Option String) (retry : Bool) (seed : String) (s : Session) :
    (editUntilValid command retry seed).run s =
      (editFrom command retry (s.edits.length + 1) seed).run s :=
  rfl

/-- A run comes to its end. Each opening uses up a result of the editor, so they bound the
openings. -/
lemma run_editFrom (h : Ends s.edits s.terminal.replies texts asked r)
    (hfuel : s.edits.length < fuel) :
    (editFrom command true fuel seed).run s = (r, s.after command (seed :: texts) asked) := by
  induction texts generalizing s seed asked fuel with
  | nil =>
    obtain ⟨fuel, rfl⟩ := Nat.exists_eq_add_one_of_ne_zero (Nat.ne_zero_of_lt hfuel)
    cases h with
    | valid hc hparse => exact run_editFrom_valid (by rw [hc.edits]; rfl) hparse
    | declined hc hparse =>
      rw [run_editFrom_broken (by rw [hc.edits]; rfl) hparse, hc.replies]
      rfl
    | closed hc hrest => exact run_editFrom_closed (by rw [hc.edits]; exact hrest)
    | cutOff hc hparse =>
      rw [run_editFrom_broken (by rw [hc.edits]; rfl) hparse, hc.replies]
      rfl
  | cons text texts ih =>
    obtain ⟨fuel, rfl⟩ := Nat.exists_eq_add_one_of_ne_zero (Nat.ne_zero_of_lt hfuel)
    obtain ⟨⟨e, hparse⟩, edits, replies, asked, hedits, hreplies, rfl, hends⟩ := h.uncons
    rw [run_editFrom_broken (by rw [hedits]; rfl) hparse, hreplies,
      ← after_cons s command seed text (text :: texts) asked]
    -- the rest of the run starts from the broken text, with one result and one reply less
    have hedits' : (s.after command [seed] [text]).edits = edits := by
      simp [after, hedits]
    have hreplies' : (s.after command [seed] [text]).terminal.replies = replies := by
      rw [after, Terminal.replies_iterate_askAgain, hreplies]
      rfl
    refine ih ?_ ?_
    · rwa [hedits', hreplies']
    · rw [hedits] at hfuel
      rw [hedits']
      exact Nat.lt_of_succ_lt_succ hfuel

/-- The editor is opened with the seed first and with the broken text from then on. Each broken text
is reported, and the user is asked once whether to go on. The run ends with the first text that is a
template, with the error of the first text that the user does not want to repair, or when the editor
is closed. Without retries the editor is opened once, and nothing is asked. -/
theorem editUntilValid_follows (command : Option String) (seed : String) (s : Session) :
    (∃ texts asked r, Ends s.edits s.terminal.replies texts asked r) ∧
    (∀ texts asked r, Ends s.edits s.terminal.replies texts asked r →
      (editUntilValid command true seed).run s = (r, s.after command (seed :: texts) asked) ∧
      (s.after command (seed :: texts) asked).terminal.replies =
        s.terminal.replies.drop asked.length) ∧
    (editUntilValid command false seed).run s =
      (match s.edits.head?.join with
        | none => .error (.known .editAborted)
        | some text =>
          (Template.parse text).mapError fun e => .known (.parse e),
            s.after command [seed] []) := by
  refine ⟨Ends.exists_ends _ _,
    fun texts asked r h => ⟨?_, Terminal.replies_iterate_askAgain _ _⟩, ?_⟩
  · rw [run_editUntilValid]
    exact run_editFrom h (Nat.lt_succ_self _)
  · rw [run_editUntilValid]
    cases hhead : s.edits.head?.join with
    | none => exact run_editFrom_closed hhead
    | some text =>
      cases hparse : Template.parse text with
      | ok t =>
        rw [run_editFrom_valid hhead hparse]
        simp only [hparse, Except.mapError]
      | error e =>
        rw [run_editFrom_once hhead hparse]
        simp only [hparse, Except.mapError]

/-- Two broken texts, a line that says neither yes nor no, and a template at last. What is left of
the input belongs to the next question. -/
theorem editUntilValid_follows_of_repairs :
    let s : Session :=
      { tree := {}
        terminal := { input := ["maybe", " Yes ", "", "n"] }
        edits := [some "\x7b\x7b 1a", some "\x7b\x7b 1a \x7d\x7d", some "ok", none] }
    let texts := ["\x7b\x7b 1a", "\x7b\x7b 1a \x7d\x7d"]
    ∃ t, Template.parse "ok" = .ok t ∧ Ends s.edits s.terminal.replies texts texts (.ok t) ∧
      ((editUntilValid none true "seed").run s).1 = .ok t ∧
      ((editUntilValid none true "seed").run s).2.openings.map Opening.seed = "seed" :: texts ∧
      ((editUntilValid none true "seed").run s).2.edits = [none] ∧
      ((editUntilValid none true "seed").run s).2.terminal.input = ["n"] := by
  intro s texts
  obtain ⟨t, ht⟩ : ∃ t, Template.parse "ok" = .ok t := by
    cases h : Template.parse "ok" with
    | ok t => exact ⟨t, rfl⟩
    | error e => exact absurd ⟨e, h⟩ (show ¬ Broken "ok" by decide +kernel)
  have hreplies : s.terminal.replies = [true, true] ++ [false] := by decide +kernel
  have hends : Ends s.edits s.terminal.replies texts texts (.ok t) :=
    .valid ⟨by decide +kernel, rfl, hreplies⟩ ht
  obtain ⟨hrun, -⟩ := (editUntilValid_follows none "seed" s).2.1 _ _ _ hends
  have hinput : (s.after none ("seed" :: texts) texts).terminal.input = ["n"] := by decide +kernel
  rw [hrun]
  exact ⟨t, ht, hends, rfl, rfl, rfl, hinput⟩

end Session

end Stencil
