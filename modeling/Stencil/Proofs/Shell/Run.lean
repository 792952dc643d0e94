import Mathlib.Data.List.Nodup
import Stencil.Proofs.Files
import Stencil.Proofs.Shell.Layout
import Stencil.Proofs.Utf8
import Stencil.Shell.Run

/-!
# Runs of scripts

What the commands do that a script performs when it is asked about itself: it compares its argument,
prints a text and leaves all else alone. `Idle` is the state of such a run. `run_simple`,
`run_andThen` and `run_ifThen` say what one command makes of it, `Finishes` follows a script line by
line, and `runScript_of_finishes` tells how the run ends.
-/

namespace Stencil

/-! ## Steps -/

section

variable {ε σ α β : Type} {x : ExceptT ε (StateM σ) α} {f : α → ExceptT ε (StateM σ) β} {s s' : σ}

/-- A step succeeds if both parts of it do, one after the other. -/
lemma run_bind_eq_ok {b : β} {s'' : σ} :
    (x >>= f).run s = (.ok b, s'') ↔
      ∃ a s', x.run s = (.ok a, s') ∧ (f a).run s' = (.ok b, s'') := by
  show ExceptT.bindCont f (ExceptT.run x s).1 (ExceptT.run x s).2 = _ ↔ _
  rcases ExceptT.run x s with ⟨r, s'⟩
  cases r with
  | ok a =>
    constructor
    · intro h
      exact ⟨a, s', rfl, h⟩
    · rintro ⟨_, _, e, h⟩
      cases e
      exact h
  | error e =>
    constructor
    · intro h
      cases h
    · rintro ⟨_, _, e, -⟩
      cases e

/-- A step that succeeds is followed by the next one. -/
lemma run_bind_of_ok {a : α} (h : x.run s = (.ok a, s')) : (x >>= f).run s = (f a).run s' := by
  show ExceptT.bindCont f (ExceptT.run x s).1 (ExceptT.run x s).2 = _
  rw [h]
  rfl

/-- A step that fails is not followed by another one. -/
lemma run_bind_of_error {e : ε} (h : x.run s = (.error e, s')) :
    (x >>= f).run s = (.error e, s') := by
  show ExceptT.bindCont f (ExceptT.run x s).1 (ExceptT.run x s).2 = _
  rw [h]
  rfl

/-- The step succeeds, and what it gives and leaves satisfies `Q`. -/
def Does (x : ExceptT ε (StateM σ) α) (s : σ) (Q : α → σ → Prop) : Prop :=
  ∃ a s', x.run s = (.ok a, s') ∧ Q a s'

namespace Does

/-- A step that gives a value does what holds of the value. -/
lemma pure {a : α} {Q : α → σ → Prop} (h : Q a s) :
    Does (Pure.pure a : ExceptT ε (StateM σ) α) s Q :=
  ⟨a, s, rfl, h⟩

/-- What two steps do one after the other is what the second does behind the first. -/
lemma bind {Q : β → σ → Prop} (h : Does x s fun a s' => Does (f a) s' Q) : Does (x >>= f) s Q := by
  obtain ⟨a, s', e, b, s'', e', hQ⟩ := h
  exact ⟨b, s'', run_bind_eq_ok.mpr ⟨a, s', e, e'⟩, hQ⟩

/-- A step that looks at the state gives it and leaves it. -/
lemma get {Q : σ → σ → Prop} (h : Q s s) : Does (MonadState.get : ExceptT ε (StateM σ) σ) s Q :=
  ⟨s, s, rfl, h⟩

/-- A step that changes the state does what holds afterwards. -/
lemma modify {g : σ → σ} {Q : Unit → σ → Prop} (h : Q () (g s)) :
    Does (modify g : ExceptT ε (StateM σ) Unit) s Q :=
  ⟨(), g s, rfl, h⟩

/-- A step that succeeds is not caught. -/
lemma tryCatch {g : ε → ExceptT ε (StateM σ) α} {Q : α → σ → Prop} (h : Does x s Q) :
    Does (tryCatch x g) s Q := by
  obtain ⟨a, s', e, hQ⟩ := h
  refine ⟨a, s', ?_, hQ⟩
  show (match (ExceptT.run x s).1 with
    | .ok a => (Pure.pure (Except.ok a) : StateM σ (Except ε α))
    | .error e => g e) (ExceptT.run x s).2 = _
  rw [e]
  rfl

/-- A step that does something does all that follows from it. -/
lemma mono {P Q : α → σ → Prop} (h : Does x s P) (hPQ : ∀ a s', P a s' → Q a s') : Does x s Q := by
  obtain ⟨a, s', e, hP⟩ := h
  exact ⟨a, s', e, hPQ a s' hP⟩

end Does

end

namespace Shell

/-! ## Conditions -/

namespace Condition

variable (facts : FileFacts)

/-- The equality sign compares two words. -/
lemma isBinary_equal : isBinary ['='] = true := by decide

/-- Between two words an equality sign compares them. -/
lemma primary_equal (fuel : Nat) (a b : List Char) :
    primary facts (fuel + 1) [a, ['='], b] = .ok (a == b, []) := by
  rw [primary]
  dsimp only
  rw [if_pos isBinary_equal]
  rfl

/-- Without an exclamation mark before it the comparison stays as it is. -/
lemma negation_equal (fuel : Nat) {a : List Char} (ha : a ≠ ['!']) (b : List Char) :
    negation facts (fuel + 2) [a, ['='], b] = .ok (a == b, []) := by
  rw [negation]
  · exact primary_equal facts fuel a b
  · rintro rest h
    exact ha (List.cons.inj h).1

/-- Behind an exclamation mark the comparison is turned around. -/
lemma negation_differ (fuel : Nat) {a : List Char} (ha : isBinary a = false) (ha' : a ≠ ['!'])
    (b : List Char) :
    negation facts (fuel + 3) [['!'], a, ['='], b] = .ok (a != b, []) := by
  rw [negation]
  dsimp only
  rw [if_neg (by rw [ha]; decide), negation_equal facts fuel ha']
  rfl

/-- A test that is not joined to another one is decided by itself. -/
lemma either_of_negation {fuel : Nat} {args : List (List Char)} {r : Bool}
    (h : negation facts fuel args = .ok (r, [])) :
    either facts (fuel + 2) args = .ok (r, []) := by
  rw [either, both, h]
  rfl

/-- A condition that does not start with a parenthesis is read as a whole. -/
lemma eval_of_either {a : List Char} {args : List (List Char)} {r : Bool} (ha : a ≠ ['('])
    (h : either facts (10 * (a :: args).length + 10) (a :: args) = .ok (r, [])) :
    eval facts (a :: args) = .ok r := by
  unfold eval
  split
  · rename_i h'
    cases h'
  · split
    · rename_i rest h'
      exact absurd (List.cons.inj h').1 ha
    · dsimp only
      rw [h]
      rfl

/-- A test of three words compares the outer two. -/
lemma eval_equal {a : List Char} (ha : a ≠ ['!']) (ha' : a ≠ ['(']) (b : List Char) :
    eval facts [a, ['='], b] = .ok (a == b) :=
  eval_of_either facts ha' (either_of_negation facts (negation_equal facts 36 ha b))

/-- A test of four words behind an exclamation mark finds the words different. -/
lemma eval_differ {a : List Char} (ha : isBinary a = false) (ha' : a ≠ ['!']) (b : List Char) :
    eval facts [['!'], a, ['='], b] = .ok (a != b) :=
  eval_of_either facts (by decide) (either_of_negation facts (negation_differ facts 45 ha ha' b))

end Condition

/-! ## Printed texts -/

/-- A backslash stands only before a quote or a `u`, with which it makes no escape. -/
def Inert : List Char → Prop
  | [] => True
  | c :: cs => (c = '\\' → cs.head?.any (fun d => d == '\x22' || d == 'u') = true) ∧ Inert cs

namespace Inert

variable {cs ds : List Char}

/-- A text without a backslash is inert. -/
lemma of_no_backslash (h : '\\' ∉ cs) : Inert cs := by
  induction cs with
  | nil => trivial
  | cons c cs ih =>
    rw [List.mem_cons, not_or] at h
    exact ⟨fun e => absurd e.symm h.1, ih h.2⟩

/-- Inert texts can stand one after the other. -/
lemma append (hcs : Inert cs) (hds : Inert ds) : Inert (cs ++ ds) := by
  induction cs with
  | nil => exact hds
  | cons c cs ih =>
    refine ⟨fun hc => ?_, ih hcs.2⟩
    have hhead := hcs.1 hc
    cases cs with
    | nil => cases hhead
    | cons d cs => exact hhead

/-- A row of inert texts is inert. -/
lemma flatMap {α : Type} {xs : List α} {f : α → List Char} (h : ∀ x ∈ xs, Inert (f x)) :
    Inert (xs.flatMap f) := by
  induction xs with
  | nil => trivial
  | cons x xs ih =>
    rw [List.flatMap_cons]
    exact (h x (by simp)).append (ih fun y hy => h y (by simp [hy]))

/-- Bytes of other characters change nothing. -/
lemma raw (h : Inert cs) : Inert (raw cs) := by
  induction cs with
  | nil => trivial
  | cons c cs ih =>
    by_cases hc : c.toNat < 0x80
    · rw [raw_cons_ascii hc]
      -- What makes a backslash harmless is one byte long, so it still stands right behind it.
      refine ⟨fun e => ?_, ih h.2⟩
      have hhead := h.1 e
      cases cs with
      | nil => cases hhead
      | cons d cs =>
        have hd : d = '\x22' ∨ d = 'u' := by simpa using hhead
        have hascii : d.toNat < 0x80 := by rcases hd with rfl | rfl <;> decide
        rw [raw_cons_ascii hascii]
        exact hhead
    · rw [← List.singleton_append, raw_append]
      refine append (of_no_backslash fun hmem => ?_) (ih h.2)
      rcases mem_raw hmem with hmem | hbig
      · rw [List.mem_singleton] at hmem
        exact hc (hmem ▸ by decide)
      · exact absurd hbig (by decide)

end Inert

/-- An inert text is printed as it is. -/
lemma expandEscapes_of_inert {fuel : Nat} {cs : List Char} (h : Inert cs)
    (hfuel : cs.length < fuel) :
    expandEscapes fuel cs = (cs, true) := by
  induction cs generalizing fuel with
  | nil =>
    obtain ⟨fuel, rfl⟩ := Nat.exists_eq_add_one_of_ne_zero (show fuel ≠ 0 by omega)
    rfl
  | cons c cs ih =>
    rw [List.length_cons] at hfuel
    obtain ⟨fuel, rfl⟩ := Nat.exists_eq_add_one_of_ne_zero (show fuel ≠ 0 by omega)
    have ih := ih h.2 (show cs.length < fuel by omega)
    by_cases hc : c = '\\'
    · subst hc
      obtain ⟨d, ds, rfl⟩ : ∃ d ds, cs = d :: ds := by
        cases cs with
        | nil => cases h.1 rfl
        | cons d ds => exact ⟨d, ds, rfl⟩
      have hd : d = '\x22' ∨ d = 'u' := by simpa using h.1 rfl
      have hsequence : escapeSequence (d :: ds) = ('\\', d :: ds) := by
        rcases hd with rfl | rfl <;> rfl
      rw [expandEscapes]
      · simp [hsequence, ih]
      · rintro tail e
        rcases hd with rfl | rfl <;> cases e
      · rintro c tail e
        rcases hd with rfl | rfl <;> cases e
    · rw [expandEscapes.eq_def]
      dsimp only
      rw [if_pos (bne_iff_ne.mpr hc), ih]

/-- A text without escapes is printed as it is. -/
lemma echo_of_inert {cs : List Char} (h : Inert cs) (hcs : cs ≠ ['-', 'n']) :
    echo [cs] = cs ++ ['\n'] := by
  have hexpanded : expanded cs = (cs, true) := expandEscapes_of_inert h (Nat.lt_succ_self _)
  rw [echo]
  · rw [echoFrom, hexpanded]
    rfl
  · rintro args e
    exact hcs (List.cons.inj e).1

/-! ## Words -/

/-- The parts expand to the atoms and leave the world as it is. -/
def Expands (w : World) (ps : Word) (as : List Atom) : Prop :=
  ∀ fuel, ps.length < fuel → (expandParts ps fuel).run w = (.ok as, w)

namespace Expands

variable {w : World} {p : Part} {ps : Word} {as bs : List Atom}

/-- No parts expand to nothing. -/
lemma nil : Expands w [] [] := by
  intro fuel hfuel
  obtain ⟨fuel, rfl⟩ := Nat.exists_eq_add_one_of_ne_zero (show fuel ≠ 0 by omega)
  rw [expandParts]
  rfl

/-- The parts of a word are expanded one after the other. -/
lemma cons (hp : ∀ fuel, (expandPart p (fuel + 1)).run w = (.ok as, w)) (hps : Expands w ps bs) :
    Expands w (p :: ps) (as ++ bs) := by
  intro fuel hfuel
  rw [List.length_cons] at hfuel
  obtain ⟨fuel, rfl⟩ := Nat.exists_eq_add_one_of_ne_zero (show fuel ≠ 0 by omega)
  have hps := hps fuel (by omega)
  obtain ⟨fuel, rfl⟩ := Nat.exists_eq_add_one_of_ne_zero (show fuel ≠ 0 by omega)
  rw [expandParts, run_bind_eq_ok]
  exact ⟨as, w, hp fuel, run_bind_eq_ok.mpr ⟨bs, w, hps, rfl⟩⟩

/-- A character expands to itself. -/
lemma char (c : Char) (q : Bool) (h : Expands w ps as) :
    Expands w (.char c q :: ps) ([.char c q] ++ as) :=
  cons (fun fuel => by rw [expandPart]; rfl) h

/-- Characters expand to themselves. -/
lemma chars (cs : List Char) (q : Bool) : Expands w (cs.map (.char · q)) (cs.map (.char · q)) := by
  induction cs with
  | nil => exact nil
  | cons c cs ih => exact ih.char c q

/-- A quote stays until the word is split. -/
lemma quote (h : Expands w ps as) : Expands w (.quote :: ps) ([.quote] ++ as) :=
  cons (fun fuel => by rw [expandPart]; rfl) h

/-- The first argument. -/
lemma argument {a : List Char} (hargs : w.args.head? = some a) :
    Expands w [.param ['1'] .value [] true] (a.map (.char · true)) := by
  have hvalue : paramValue w ['1'] = some a := by
    show w.args[0]? = some a
    rw [← List.head?_eq_getElem?, hargs]
  have hpart (fuel : Nat) :
      (expandPart (.param ['1'] .value [] true) (fuel + 1)).run w = (.ok (atomsOf true a), w) := by
    rw [expandPart, run_bind_eq_ok]
    refine ⟨w, w, rfl, ?_⟩
    rw [hvalue]
    rfl
  simpa [atomsOf] using cons hpart nil

/-- The first argument, or nothing if there is none. -/
lemma firstArgument (hunset : w.refusesUnset = false) :
    Expands w [.param ['1'] .value [] true] ((w.args.headD []).map (.char · true)) := by
  cases hargs : w.args with
  | cons a args => exact argument (by rw [hargs]; rfl)
  | nil =>
    have hvalue : paramValue w ['1'] = none := by
      show w.args[0]? = none
      rw [hargs]
      rfl
    have hpart (fuel : Nat) :
        (expandPart (.param ['1'] .value [] true) (fuel + 1)).run w = (.ok [], w) := by
      rw [expandPart, run_bind_eq_ok]
      refine ⟨w, w, rfl, ?_⟩
      rw [hvalue, hunset]
      rfl
    exact cons hpart nil

end Expands

/-- Written characters and quotes make one field. -/
lemma fieldsFrom_written (seps : List Char) (f : Field) {as : List Atom}
    (h : ∀ a ∈ as, a = .quote ∨ ∃ c q, a = .char c q) :
    fieldsFrom seps (some f) as = [f ++ patternText as] := by
  induction as generalizing f with
  | nil => simp [fieldsFrom, patternText]
  | cons a as ih =>
    have ih (f : Field) := ih f fun b hb => h b (List.mem_cons_of_mem a hb)
    rcases h a (by simp) with rfl | ⟨c, q, rfl⟩
    · rw [fieldsFrom, Option.getD_some, ih]
      rfl
    · rw [fieldsFrom, Option.getD_some, ih]
      simp [patternText]

/-- The pattern of written characters is these characters. -/
lemma patternText_chars (cs : List Char) (q : Bool) :
    patternText (cs.map (.char · q)) = cs.map (·, q) := by
  simp [patternText, List.filterMap_map]

/-- The text of written characters is these characters. -/
lemma text_written (cs : List Char) (q : Bool) : Field.text (cs.map (·, q)) = cs := by
  simp [Field.text, Function.comp_def]

/-- Characters that are written outside of quotes are not split. -/
lemma fieldsFrom_plain (seps : List Char) (c : Char) (cs : List Char) :
    fieldsFrom seps none ((c :: cs).map (.char · false)) = [(c :: cs).map (·, false)] := by
  rw [List.map_cons, fieldsFrom, fieldsFrom_written _ _ (by simp), patternText_chars]
  rfl

/-- What stands between quotes is one field, even if it is empty. -/
lemma fieldsFrom_quoted (seps cs : List Char) :
    fieldsFrom seps none (.quote :: cs.map (.char · true)) = [cs.map (·, true)] := by
  rw [fieldsFrom, fieldsFrom_written _ _ (by simp), patternText_chars]
  rfl

/-! ## Patterns of paths -/

/-- A quoted character stays as it is. -/
lemma settled_quoted (cs : List Char) : settled (cs.map (·, true)) = cs.map (·, true) := by
  induction cs with
  | nil => rfl
  | cons c cs ih =>
    rw [settled, withBackslashes, List.map_cons, List.flatMap_cons]
    exact congrArg ((c, true) :: ·) ih

/-- Backslashes make no character appear. -/
lemma mem_quotedBehind {cs : List Char} {x : Char × Bool} (h : x ∈ quotedBehind cs) : x.1 ∈ cs := by
  induction cs using quotedBehind.induct with
  | case1 => cases h
  | case2 c rest ih =>
    rw [quotedBehind] at h
    rcases List.mem_cons.mp h with rfl | h
    · simp
    · simp [ih h]
  | case3 c rest hc ih =>
    rw [quotedBehind.eq_3 _ _ hc] at h
    rcases List.mem_cons.mp h with rfl | h
    · simp
    · simp [ih h]

/-- Characters without quotes are settled by the backslashes among them. -/
lemma settled_plain (cs : List Char) : settled (cs.map (·, false)) = quotedBehind cs := by
  simp [settled, withBackslashes, List.flatMap_map]

/-- A mark of patterns. -/
def isMark (x : Char × Bool) : Bool :=
  !x.2 && ['*', '?', '['].contains x.1

/-- A component without marks is no pattern. -/
lemma Field.isPattern_of_marks {f : Field} (h : ∀ x ∈ f, isMark x = false) :
    f.isPattern = false := by
  induction f with
  | nil => rfl
  | cons x f ih =>
    obtain ⟨c, quoted⟩ := x
    have hx := h (c, quoted) (by simp)
    rw [Field.isPattern, ih fun y hy => h y (by simp [hy])]
    cases quoted with
    | true => rfl
    | false =>
      simp only [isMark, Bool.not_false, Bool.true_and, List.contains_cons, List.contains_nil,
        Bool.or_false, Bool.or_eq_false_iff] at hx
      simp [hx.1, hx.2.1, hx.2.2]

/-- The components of a field hold what the field holds. -/
lemma Field.mem_of_mem_components {f c : Field} {x : Char × Bool} (hc : c ∈ f.components)
    (hx : x ∈ c) : x ∈ f := by
  induction f generalizing c with
  | nil =>
    rw [List.mem_singleton.mp hc] at hx
    cases hx
  | cons y f ih =>
    rw [Field.components] at hc
    cases hf : Field.components f with
    | nil =>
      rw [hf] at hc
      rw [List.mem_singleton.mp hc, List.mem_singleton] at hx
      simp [hx]
    | cons d ds =>
      rw [hf] at hc ih
      dsimp only at hc
      split at hc
      · rcases List.mem_cons.mp hc with rfl | hc
        · cases hx
        · exact List.mem_cons_of_mem _ (ih hc hx)
      · rcases List.mem_cons.mp hc with rfl | hc
        · rcases List.mem_cons.mp hx with rfl | hx
          · simp
          · exact List.mem_cons_of_mem _ (ih (by simp) hx)
        · exact List.mem_cons_of_mem _ (ih (by simp [hc]) hx)

/-- Without a pattern among the components there are no paths. -/
lemma pathsFrom_eq_nil (p : Files.Place) (t : Files.Tree) {fs : List Field}
    (h : ∀ f ∈ fs, f.isPattern = false) (done : List Char) : pathsFrom p t done false fs = [] := by
  induction fs generalizing done with
  | nil => rfl
  | cons f fs ih =>
    rw [pathsFrom, h f (by simp), if_neg (by decide)]
    exact ih (fun g hg => h g (by simp [hg])) _

/-- A field whose components are no patterns stands for its text. -/
lemma pathsOf_of_components (p : Files.Place) (t : Files.Tree) {f : Field}
    (h : ∀ c ∈ Field.components (settled f), c.isPattern = false) : pathsOf p t f = [f.text] := by
  rw [pathsOf, pathsFrom_eq_nil p t h]

/-- A field without an unquoted mark of patterns stands for its text. -/
lemma pathsOf_of_marks (p : Files.Place) (t : Files.Tree) {f : Field}
    (h : ∀ x ∈ settled f, isMark x = false) :
    pathsOf p t f = [f.text] :=
  pathsOf_of_components p t fun _ hc =>
    Field.isPattern_of_marks fun x hx => h x (Field.mem_of_mem_components hc hx)

/-- Quoted characters are no marks. -/
lemma isMark_quoted (cs : List Char) : ∀ x ∈ settled (cs.map (·, true)), isMark x = false := by
  rw [settled_quoted]
  intro x hx
  obtain ⟨c, -, rfl⟩ := List.mem_map.mp hx
  rfl

/-- A text without marks has none as a field. -/
lemma isMark_plain {cs : List Char} (h : ∀ c ∈ cs, c ∉ ['*', '?', '[']) :
    ∀ x ∈ settled (cs.map (·, false)), isMark x = false := by
  rw [settled_plain]
  intro x hx
  have hfree := h x.1 (mem_quotedBehind hx)
  rw [isMark, List.contains_eq_mem, decide_eq_false hfree, Bool.and_false]

/-- An opening bracket alone stands for itself. -/
lemma pathsOf_bracket (p : Files.Place) (t : Files.Tree) : pathsOf p t [('[', false)] = [['[']] :=
  pathsOf_of_components p t (by decide)

/-- Does the part stand for all arguments, each a field of its own? -/
def Part.isArguments : Part → Bool
  | .param ['@'] .value _ true => true
  | _ => false

/-- The word stands for the text. -/
def Denotes (w : World) (word : Word) (text : List Char) : Prop :=
  ∀ fuel, word.length + 1 < fuel → (fields word fuel).run w = (.ok [text], w)

/-- A word that expands to one field stands for its characters, unless they are a pattern. -/
lemma Denotes.of_expands {w : World} {word : Word} {as : List Atom} {f : Field}
    (hword : Expands w word as) (hargs : (w.args.isEmpty && word.any Part.isArguments) = false)
    (hfield : fieldsFrom (separators w) none as = [f])
    (hpaths : w.options.contains 'f' = false → pathsOf w.place w.tree f = [f.text]) :
    Denotes w word f.text := by
  intro fuel hfuel
  obtain ⟨fuel, rfl⟩ := Nat.exists_eq_add_one_of_ne_zero (show fuel ≠ 0 by omega)
  rw [fields, run_bind_eq_ok]
  refine ⟨as, w, hword fuel (by omega),
    run_bind_eq_ok.mpr ⟨w, w, rfl, run_bind_eq_ok.mpr ⟨w, w, rfl, ?_⟩⟩⟩
  have hfound : fieldsFrom (separators w) none
      (if (w.args.isEmpty && word.any Part.isArguments) && as.all (· == .quote) then [] else as) =
        [f] := by
    rw [hargs, Bool.false_and, if_neg (by decide), hfield]
  have htexts :
      (if w.options.contains 'f' then [f].map Field.text
        else [f].flatMap (pathsOf w.place w.tree)) = [f.text] := by
    split
    · rfl
    · rename_i hglob
      simp [hpaths (by simpa using hglob)]
  rw [← htexts, ← hfound]
  rfl

/-- The word stands for the text in every world with the argument and the tree. -/
def Stands (request : List Char) (t : Files.Tree) (word : Word) (text : List Char) : Prop :=
  ∀ w : World, w.args = [request] → w.tree = t → w.options.contains 'f' = false →
    Denotes w word text

namespace Stands

variable {request : List Char} {t : Files.Tree}

/-- A word of written characters and quotes stands for its characters, unless they are a pattern. -/
lemma of_expands {word : Word} {as : List Atom} {f : Field}
    (hword : ∀ w : World, w.args = [request] → Expands w word as)
    (hfield : ∀ seps, fieldsFrom seps none as = [f]) (hpaths : ∀ p, pathsOf p t f = [f.text]) :
    Stands request t word f.text := by
  intro w hargs htree _
  exact .of_expands (hword w hargs) (by rw [hargs]; rfl) (hfield _) fun _ => htree ▸ hpaths _

/-- A word without wildcards stands for itself. -/
lemma plain {c : Char} {cs : List Char} (h : (c :: cs).all (· ∉ ['*', '?', '[']) = true) :
    Stands request t (plainWord (c :: cs)) (c :: cs) := by
  have hmarks := isMark_plain (List.all_iff_forall_prop.mp h)
  have hstands := of_expands (fun w (_ : w.args = [request]) => Expands.chars (c :: cs) false)
    (fun seps => fieldsFrom_plain seps c cs) fun p => pathsOf_of_marks p t hmarks
  rwa [text_written] at hstands

/-- A bracket that nothing closes stands for itself. -/
lemma bracket : Stands request t (plainWord ['[']) ['['] :=
  of_expands (f := [('[', false)]) (fun _ _ => Expands.chars ['['] false) (fun _ => rfl) fun p =>
    pathsOf_bracket p t

/-- A word between double quotes. -/
lemma quoted_of {v : Word} {cs : List Char}
    (h : ∀ w : World, w.args = [request] → Expands w v (cs.map (.char · true))) :
    Stands request t (.quote :: v) cs := by
  have hstands := of_expands (fun w hw => (h w hw).quote) (fun seps => fieldsFrom_quoted seps cs)
    fun p => pathsOf_of_marks p t (isMark_quoted cs)
  rwa [text_written] at hstands

/-- What stands in quotes stands for itself. -/
lemma quoted (cs : List Char) : Stands request t (.quote :: quotedChars cs) cs :=
  quoted_of fun _ _ => Expands.chars cs true

/-- The first argument in quotes stands for the request. -/
lemma argument : Stands request t [.quote, .param ['1'] .value [] true] request :=
  quoted_of fun _ hargs => Expands.argument (by rw [hargs]; rfl)

end Stands

/-- Words that stand for texts. -/
lemma run_allFields {w : World} {n : Nat} {ws : List Word} {texts : List (List Char)}
    (hws : List.Forall₂ (Denotes w) ws texts) (hlength : ∀ word ∈ ws, word.length ≤ n) {fuel : Nat}
    (hfuel : ws.length + n + 1 < fuel) : (allFields ws fuel).run w = (.ok texts, w) := by
  induction hws generalizing fuel with
  | nil =>
    obtain ⟨fuel, rfl⟩ := Nat.exists_eq_add_one_of_ne_zero (show fuel ≠ 0 by omega)
    rw [allFields]
    rfl
  | cons hword _ ih =>
    rw [List.length_cons] at hfuel
    have := hlength _ List.mem_cons_self
    obtain ⟨fuel, rfl⟩ := Nat.exists_eq_add_one_of_ne_zero (show fuel ≠ 0 by omega)
    have hrest := ih (fun v hv => hlength v (List.mem_cons_of_mem _ hv)) (show _ < fuel by omega)
    rw [allFields, run_bind_eq_ok]
    exact ⟨_, w, hword fuel (by omega), run_bind_eq_ok.mpr ⟨_, w, hrest, rfl⟩⟩

/-! ## Commands -/

/-- A simple command calls what its first field names. -/
lemma run_call {line fuel : Nat} {ws : List Word} {tested : Bool} {w : World} {Q : World → Prop}
    (h : Does (allFields ws (fuel + 1)) { w with line, substStatus := 0 } fun argv w' =>
      ∃ name args, argv = name :: args ∧ name ≠ "exec".toList ∧
        Does (call name args tested (fuel + 1)) w' fun _ w'' =>
          Does (checkFailure tested) w'' fun _ => Q) :
    Does (run (.simple line [] ws []) tested (fuel + 2)) w fun _ => Q := by
  rw [run]
  refine .bind (.modify (.bind (h.mono ?_)))
  rintro _ w' ⟨name, args, rfl, hexec, hcall⟩
  have hname : ¬ (name == "exec".toList && args.isEmpty) = true := by
    rw [beq_eq_false_iff_ne.mpr hexec]
    simp
  dsimp only
  rw [if_neg hname]
  -- There are no assignments and no redirections, so what is left is the call and the check of its
  -- status.
  refine .bind (.get (.bind ⟨(), w', by rw [assignAll]; rfl, .bind ?_⟩))
  rw [withRedirects, if_pos (by rfl)]
  refine hcall.mono fun _ w'' hcheck => ?_
  rw [if_neg (by simp)]
  exact hcheck

/-- A call of a builtin, where no function has its name. -/
lemma call_builtin {name : String} {args : List (List Char)} {tested : Bool} {fuel : Nat}
    {w : World} {Q : World → Prop} (hfree : w.functions.lookup name.toList = none)
    (hname : ["eval", "exec", "command", "."].contains name = false)
    (h : Does (builtin name args) w fun s w' => ∃ status, s = some status ∧ Q { w' with status }) :
    Does (call name.toList args tested (fuel + 1)) w fun _ => Q := by
  rw [call.eq_def]
  dsimp only
  refine .bind (.get ?_)
  simp only [hfree, String.ofList_toList]
  split
  · cases hname
  · cases hname
  · cases hname
  · cases hname
  · refine .bind (h.mono ?_)
    rintro _ w' ⟨status, rfl, hQ⟩
    exact .modify hQ

/-- A call of a function runs its body with the arguments, which then are again what they were. -/
lemma call_function {f : List Char} {body : Command} {args : List (List Char)} {tested : Bool}
    {fuel : Nat} {w : World}
    {Q : World → Prop} (hf : w.functions.lookup f = some body)
    (h : Does (run body tested fuel) { w with args, loops := 0, calls := w.calls + 1 } fun _ w' =>
      Q { w' with args := w.args, loops := w.loops, calls := w.calls }) :
    Does (call f args tested (fuel + 1)) w fun _ => Q := by
  rw [call.eq_def]
  dsimp only
  refine .bind (.get ?_)
  simp only [hf]
  refine .bind (.get (.bind (.modify (.tryCatch (.bind (h.mono ?_))))))
  intro _ w' hQ
  exact .modify hQ

/-- The state of a run that has done nothing but print. -/
structure Idle (request : List Char) (t : Files.Tree) (printed : List Char) (status : Nat)
    (w : World) : Prop where
  args : w.args = [request]
  tree : w.tree = t
  functions : w.functions = []
  last : w.last = []
  glob : w.options.contains 'f' = false
  output : w.sinks.lookup 1 = some .output
  reports : w.sinks.lookup 2 = some .errors
  out : w.out = printed
  err : w.err = []
  status : w.status = status

section

variable {request printed printed' : List Char} {t : Files.Tree} {status status' : Nat} {w : World}
  {fuel : Nat}

/-- A command fails the run only if nobody asks whether it succeeded. -/
lemma checkFailure_idle {tested : Bool} (hw : Idle request t printed status w)
    (h : tested = true ∨ status = 0) :
    Does (checkFailure tested) w fun _ w' => Idle request t printed status w' := by
  refine .bind (.get ?_)
  have hgoes : ¬ (w.stopsOnFailure && !tested && w.status != 0) = true := by
    rcases h with rfl | rfl
    · simp
    · simp [hw.status]
  rw [if_neg hgoes]
  exact .pure hw

/-- A simple command calls what its first word names. -/
lemma run_simple {line n : Nat} {ws : List Word} {name : List Char} {args : List (List Char)}
    {tested : Bool}
    (hw : Idle request t printed status w) (hws : List.Forall₂ (Stands request t) ws (name :: args))
    (hlength : ∀ word ∈ ws, word.length ≤ n) (hfuel : ws.length + n + 1 < fuel)
    (hexec : name ≠ "exec".toList)
    (hcall : ∀ w, Idle request t printed status w →
      Does (call name args tested fuel) w fun _ w' => Idle request t printed' status' w')
    (htested : tested = true ∨ status' = 0) :
    Does (run (.simple line [] ws []) tested (fuel + 1)) w fun _ w' =>
      Idle request t printed' status' w' := by
  obtain ⟨fuel, rfl⟩ := Nat.exists_eq_add_one_of_ne_zero (show fuel ≠ 0 by omega)
  obtain ⟨w₁, hw₁⟩ : ∃ w₁, w₁ = { w with line, substStatus := 0 } := ⟨_, rfl⟩
  have hidle : Idle request t printed status w₁ := by
    rw [hw₁]
    exact { hw with }
  refine run_call ?_
  rw [← hw₁]
  have hdenotes := hws.imp fun _ _ hword => hword w₁ hidle.args hidle.tree hidle.glob
  refine ⟨_, w₁, run_allFields hdenotes hlength hfuel, name, args, rfl, hexec, ?_⟩
  exact (hcall w₁ hidle).mono fun _ w₂ hw₂ => checkFailure_idle hw₂ htested

/-- A builtin that is called leaves the state of such a run. -/
lemma call_builtin_idle {name : String} {args : List (List Char)} {tested : Bool}
    (hw : Idle request t printed status w)
    (hname : ["eval", "exec", "command", "."].contains name = false)
    (h : Does (builtin name args) w fun s w' => s = some status' ∧
      Idle request t printed' status w') :
    Does (call name.toList args tested (fuel + 1)) w fun _ w' =>
      Idle request t printed' status' w' := by
  refine call_builtin (by rw [hw.functions]; rfl) hname (h.mono ?_)
  rintro _ w' ⟨rfl, hw'⟩
  exact ⟨status', rfl, { hw' with status := rfl }⟩

/-- Prints what `echo` makes of its argument. -/
lemma call_echo {args : List (List Char)} {tested : Bool} (hw : Idle request t printed status w) :
    Does (call "echo".toList args tested (fuel + 1)) w fun _ w' =>
      Idle request t (printed ++ echo args) 0 w' := by
  refine call_builtin_idle hw (by decide) ?_
  refine .bind (.bind (.get (.modify ?_)))
  rw [hw.output]
  refine .pure ⟨rfl, ?_⟩
  exact { hw with out := by rw [← hw.out]; rfl }

/-- Compares texts. -/
lemma call_test {args : List (List Char)} {tested b : Bool} (hw : Idle request t printed status w)
    (h : ∀ facts, Condition.eval facts args = .ok b) :
    Does (call "[".toList (args ++ [[']']]) tested (fuel + 1)) w
      fun _ w' => Idle request t printed (if b then 0 else 1) w' := by
  refine call_builtin_idle hw (by decide) ?_
  refine .bind ?_
  unfold test
  rw [if_pos (by rfl), if_pos (by simp), List.dropLast_concat]
  refine .bind (.pure (.bind (.get ?_)))
  rw [h]
  exact .pure (.pure ⟨rfl, hw⟩)

/-- Lets failures end the run. -/
lemma call_set {tested : Bool} (hw : Idle request t printed status w) :
    Does (call "set".toList ["-e".toList] tested (fuel + 1)) w fun _ w' =>
      Idle request t printed 0 w' := by
  refine call_builtin_idle hw (by decide) ?_
  refine .bind ⟨(), { w with options := 'e' :: w.options }, rfl, .pure ⟨rfl, ?_⟩⟩
  exact { hw with glob := by rw [List.contains_cons, hw.glob]; rfl }

/-- No commands change nothing. -/
lemma runAll_nil {tested : Bool} (hw : Idle request t printed status w) :
    Does (runAll [] tested (fuel + 1)) w fun _ w' => Idle request t printed status w' := by
  rw [runAll]
  exact .pure hw

/-- A row of one command does what the command does. -/
lemma runAll_singleton {c : Command} {tested : Bool}
    (h : Does (run c tested (fuel + 1)) w fun _ w' => Idle request t printed status w') :
    Does (runAll [c] tested (fuel + 2)) w fun _ w' => Idle request t printed status w' := by
  rw [runAll]
  exact .bind (h.mono fun _ _ hw' => runAll_nil hw')

/-- Two commands joined by `&&`. -/
lemma run_andThen {a b : Command} {tested : Bool}
    (ha : Does (run a true fuel) w fun _ w' => Idle request t printed status w')
    (hb : ∀ w, status = 0 → Idle request t printed 0 w →
      Does (run b tested fuel) w fun _ w' => Idle request t printed status' w')
    (hskip : status ≠ 0 → status' = status) :
    Does (run (.andThen a b) tested (fuel + 1)) w fun _ w' =>
      Idle request t printed status' w' := by
  rw [run]
  refine .bind (ha.mono fun _ w' hw' => .bind (.get ?_))
  rw [hw'.status]
  by_cases hstatus : status = 0
  · subst hstatus
    exact hb w' rfl hw'
  · rw [if_neg (by simpa using hstatus), hskip hstatus]
    exact .pure hw'

/-- A conditional runs its body if its test succeeds, and is a success in any case. -/
lemma run_ifThen {a : Command} {cs : List Command}
    (htest : Does (run a true (fuel + 1)) w fun _ w' => Idle request t printed status w')
    (hthen : ∀ w, status = 0 → Idle request t printed 0 w →
      Does (runAll cs false (fuel + 3)) w fun _ w' => Idle request t printed' 0 w')
    (helse : status ≠ 0 → printed' = printed) :
    Does (run (.conditional [([a], cs)] [] []) false (fuel + 5)) w fun _ w' =>
      Idle request t printed' 0 w' := by
  rw [run, withRedirects, if_pos (by rfl), runBranches, succeeds]
  refine .bind (.bind ((runAll_singleton htest).mono fun _ w' hw' => .bind (.get (.pure ?_))))
  rw [hw'.status]
  by_cases hstatus : status = 0
  · subst hstatus
    exact hthen w' rfl hw'
  · rw [if_neg (by simpa using hstatus), helse hstatus, runBranches]
    refine .bind (.modify (runAll_nil ?_))
    exact { hw' with status := rfl }

/-! ## Scripts -/

/-- The rest of a script is run to an end that satisfies `Q`. -/
def Runs (request : List Char) (t : Files.Tree) (text printed : List Char)
    (Q : Except Jump Unit → World → Prop) : Prop :=
  ∀ (r : Reader) (w : World) (fuel : Nat), r.rest = text → Idle request t printed 0 w →
    2 * text.length + 100 ≤ fuel →
    ∃ o w', (runText r fuel).run w = (o, w') ∧ Q o w'

namespace Runs

variable {text rest : List Char} {Q : Except Jump Unit → World → Prop}

/-- A line of a script. -/
lemma step {printed₁ : List Char}
    (hnext : ∀ r : Reader, r.rest = text → ∃ cs r', r.next = .ok (some cs, r') ∧ r'.rest = rest ∧
      ∀ (w : World) (fuel : Nat), Idle request t printed 0 w → 2 * text.length + 90 ≤ fuel →
        Does (runAll cs false fuel) w fun _ w' => Idle request t printed₁ 0 w')
    (hlength : rest.length < text.length)
    (h : Runs request t rest printed₁ Q) : Runs request t text printed Q := by
  intro r w fuel hr hw hfuel
  obtain ⟨fuel, rfl⟩ := Nat.exists_eq_add_one_of_ne_zero (show fuel ≠ 0 by omega)
  obtain ⟨cs, r', hnext, hr', hrun⟩ := hnext r hr
  obtain ⟨w₁, hw₁⟩ : ∃ w₁, w₁ = { w with documents := r'.documents, readTo := r'.line } := ⟨_, rfl⟩
  have hidle : Idle request t printed 0 w₁ := by
    rw [hw₁]
    exact { hw with }
  obtain ⟨_, w₂, e, hw₂⟩ := hrun w₁ fuel hidle (by omega)
  obtain ⟨o, w₃, e', hQ⟩ := h r' w₂ fuel hr' hw₂ (by omega)
  refine ⟨o, w₃, ?_, hQ⟩
  rw [runText, hnext]
  show ((runAll cs false fuel >>= fun _ => runText r' fuel : RunM Unit).run
    { w with documents := _, readTo := _ }) = _
  rw [← hw₁, run_bind_of_ok e, e']

/-- A line without a command. -/
lemma skip (hlex : Lex text (.mark .newline) rest) (h : Runs request t rest printed Q) :
    Runs request t text printed Q := by
  refine step (fun r hr => ?_) hlex.1 h
  obtain ⟨r', hnext, hr'⟩ := Reader.next_newline (hr ▸ hlex)
  refine ⟨[], r', hnext, hr', fun w fuel hw hfuel => ?_⟩
  obtain ⟨fuel, rfl⟩ := Nat.exists_eq_add_one_of_ne_zero (show fuel ≠ 0 by omega)
  exact runAll_nil hw

/-- An empty line is skipped. -/
lemma empty (h : Runs request t rest printed Q) : Runs request t ('\n' :: rest) printed Q :=
  skip (.newline rest) h

/-- A comment is skipped. -/
lemma comment (cs : List Char) (hcs : '\n' ∉ cs) (h : Runs request t rest printed Q) :
    Runs request t ('#' :: (cs ++ '\n' :: rest)) printed Q :=
  skip (.comment hcs (.newline rest)) h

/-- A line with a list. -/
lemma list {P : Command → Prop} {printed₁ : List Char} (ht : ListText text P)
    (hrun : ∀ (c : Command) (w : World)
    (fuel : Nat), P c → Idle request t printed 0 w → 2 * text.length + 50 ≤ fuel →
      Does (run c false fuel) w fun _ w' => Idle request t printed₁ 0 w')
    (h : Runs request t rest printed₁ Q) : Runs request t (text ++ '\n' :: rest) printed Q := by
  refine step (fun r hr => ?_) (by simp; omega) h
  obtain ⟨ls, hls, hs⟩ := ht
  have hlexes : Lexes r.rest (ls ++ [.mark .newline]) rest :=
    hr ▸ (hs (by rfl)).append (.cons (.newline rest) (.nil rest))
  obtain ⟨c, r', hnext, hc, hr'⟩ := Reader.next_list hls hlexes
  refine ⟨[c], r', hnext, hr', fun w fuel hw hfuel => ?_⟩
  obtain ⟨fuel, rfl⟩ : ∃ n, fuel = n + 2 := ⟨fuel - 2, by omega⟩
  rw [List.length_append] at hfuel
  exact runAll_singleton (hrun c w (fuel + 1) hc hw (by omega))

end Runs

/-- The rest of a script runs to its end and prints what is to be printed. -/
abbrev Finishes (request : List Char) (t : Files.Tree) (text printed printed' : List Char) : Prop :=
  Runs request t text printed fun o w => o = .ok () ∧ Idle request t printed' 0 w

/-- At the end of the script nothing more is printed. -/
lemma Finishes.nil : Finishes request t [] printed printed := by
  intro r w fuel hr hw hfuel
  obtain ⟨fuel, rfl⟩ := Nat.exists_eq_add_one_of_ne_zero (show fuel ≠ 0 by omega)
  obtain ⟨r', hnext⟩ := Reader.next_end hr
  refine ⟨.ok (), w, ?_, rfl, hw⟩
  rw [runText, hnext]
  rfl

/-- The rest of a script is refused, and the run ends with an error. -/
abbrev Stumbles (request : List Char) (t : Files.Tree) (text printed : List Char) : Prop :=
  Runs request t text printed fun o w => o = .error (.exit 2) ∧ w.last = [] ∧ w.out = printed ∧
    w.tree = t

/-- A text whose next command cannot be read is refused. -/
lemma Stumbles.of_next {text : List Char}
    (h : ∀ r : Reader, r.rest = text → ∃ e, r.next = .error e) :
    Stumbles request t text printed := by
  intro r w fuel hr hw hfuel
  obtain ⟨fuel, rfl⟩ := Nat.exists_eq_add_one_of_ne_zero (show fuel ≠ 0 by omega)
  obtain ⟨e, hnext⟩ := h r hr
  rw [runText, hnext]
  refine ⟨_, _, rfl, rfl, ?_⟩
  show (World.last (Prod.snd (ExceptT.run (writeTo ((w.sinks.lookup 2).getD .closed) _) _))) =
    [] ∧ _
  rw [hw.reports]
  exact ⟨hw.last, hw.out, hw.tree⟩

end

/-- A script is run from its start to an end with a status, with nothing left to be run then. -/
lemma Runs.runScript {t : Files.Tree} {request script : String}
    {Q : Except Jump Unit → World → Prop} {n : Nat} (scriptName : String)
    (h : Runs (raw request.toList) t (scanned script) [] Q)
    (hQ : ∀ o w, Q o w → endStatus o w = some n ∧ w.last = []) :
    ∃ o w, Q o w ∧ runScript t scriptName (Text.encode script) [request] =
      { status := some n, out := toBytes w.out, err := toBytes w.err, tree := w.tree } := by
  -- A script gets no longer when its zeros are dropped, so the bound on its steps is large enough.
  have hfuel : 2 * (scanned script).length + 100 ≤ mostSteps (Text.encode script) := by
    have hfilter : (scanned script).length ≤ (raw script.toList).length := List.length_filter_le _ _
    have hlength : (raw script.toList).length = (Text.encode script).length := List.length_map _
    rw [mostSteps]
    omega
  obtain ⟨start, hstart⟩ : ∃ start : World, start =
    { scriptName := String.ofList (bytesText (Text.encode scriptName)),
      args := [raw request.toList], tree := t } := ⟨_, rfl⟩
  have hidle : Idle (raw request.toList) t [] 0 start := by
    rw [hstart]
    constructor <;> rfl
  obtain ⟨o, w, hrun, hw⟩ := h (.ofScript (bytesText (Text.encode script))) start _ rfl hidle hfuel
  obtain ⟨hstatus, hlast⟩ := hQ o w hw
  have hend : (runLast (mostSteps (Text.encode script))).run { w with status := n } =
      (.ok (), { w with status := n }) := by
    rw [runLast, run_bind_eq_ok]
    refine ⟨_, _, rfl, ?_⟩
    rw [if_pos (by simp [hlast])]
    rfl
  refine ⟨o, w, hw, ?_⟩
  rw [hstart] at hrun
  unfold Shell.runScript
  dsimp only
  rw [show [request].map (fun a => bytesText (Text.encode a)) = [raw request.toList] from rfl, hrun]
  dsimp only
  rw [hstatus, Option.getD_some, hend]
  rfl

/-- What a script prints that runs to its end. -/
lemma runScript_eq_of_finishes {t : Files.Tree} {request script : String} {printed : List Char}
    (scriptName : String) (h : Finishes (raw request.toList) t (scanned script) [] printed) :
    runScript t scriptName (Text.encode script) [request] =
      { status := some 0, out := toBytes printed, err := [], tree := t } := by
  obtain ⟨_, w, ⟨-, hw⟩, e⟩ := h.runScript (n := 0) scriptName (by
    rintro _ w ⟨rfl, hw⟩
    exact ⟨congrArg some hw.status, hw.last⟩)
  rw [e, hw.out, hw.err, hw.tree]
  rfl

/-- A script that finishes is run to the end, prints its text and leaves the files as they were. -/
lemma runScript_of_finishes {t : Files.Tree} {request script text : String} (scriptName : String)
    (h : Finishes (raw request.toList) t (scanned script) [] (raw text.toList)) :
    runScript t scriptName (Text.encode script) [request] =
      { status := some 0, out := Text.encode text, err := [], tree := t } := by
  rw [runScript_eq_of_finishes scriptName h, toBytes_raw]
  rfl

/-- A script that is refused before it prints anything ends with the status of an error. -/
lemma runScript_of_stumbles {t : Files.Tree} {request script : String} (scriptName : String)
    (h : Stumbles (raw request.toList) t (scanned script) []) :
    ∃ err,
      runScript t scriptName (Text.encode script) [request] =
        { status := some 2, out := [], err, tree := t } := by
  obtain ⟨_, w, ⟨-, -, hout, htree⟩, e⟩ := h.runScript (n := 2) scriptName (by
    rintro _ w ⟨rfl, hlast, -, -⟩
    exact ⟨rfl, hlast⟩)
  refine ⟨toBytes w.err, ?_⟩
  rw [e, hout, htree]
  rfl

end Shell

end Stencil
