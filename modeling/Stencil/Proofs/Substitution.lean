import Stencil.Proofs.Assignment

/-!
# Substitutions

What the shell makes of a command that stands for its output. Such a command runs in a place of its
own, from which only the output comes back. `Returns` is the judgement on steps that leave all else
alone, `Interprets` says that a command prints a function of its first argument, and
`Printing.substitute` puts the two together.
-/

namespace Stencil.Shell

/-! ## Places -/

/-- The worlds differ only in where the current command stands: on which line, behind which
statuses, and where its output goes. -/
def Alike (w v : World) : Prop :=
  v = { w with
    line := v.line
    status := v.status
    substStatus := v.substStatus
    sinks := v.sinks
    captures := v.captures
    depth := v.depth }

/-- All is as it was, but for texts that are captured further inside. -/
structure Kept (v v' : World) : Prop where
  same : v' = { v with captures := v'.captures }
  captures : ∀ d < v.depth, v'.captures.lookup d = v.captures.lookup d

/-- A world keeps all of itself. -/
lemma Kept.refl (v : World) : Kept v v :=
  ⟨rfl, fun _ _ => rfl⟩

/-- What is kept includes how deep substitutions are nested. -/
lemma Kept.depth {v v' : World} (h : Kept v v') : v'.depth = v.depth := by
  rw [h.same]

/-- What is kept includes the status of the last substitution. -/
lemma Kept.substStatus {v v' : World} (h : Kept v v') : v'.substStatus = v.substStatus := by
  rw [h.same]

/-- What is kept twice is kept. -/
lemma Kept.trans {v v' v'' : World} (h : Kept v v') (h' : Kept v' v'') : Kept v v'' where
  same := h'.same.trans (congrArg (fun u : World => { u with captures := v''.captures }) h.same)
  captures d hd := (h'.captures d (h.depth ▸ hd)).trans (h.captures d hd)

section

variable {w v : World}

/-- Worlds that are alike have the same variables. -/
lemma Alike.vars (h : Alike w v) : v.vars = w.vars := by
  rw [show v = _ from h]

/-- Worlds that are alike have the same options. -/
lemma Alike.options (h : Alike w v) : v.options = w.options := by
  rw [show v = _ from h]

/-- Worlds that are alike have the same files. -/
lemma Alike.tree (h : Alike w v) : v.tree = w.tree := by
  rw [show v = _ from h]

/-- Worlds that are alike have the same working directory. -/
lemma Alike.place (h : Alike w v) : v.place = w.place := by
  rw [show v = _ from h]

/-- Worlds that are alike have the same functions. -/
lemma Alike.functions (h : Alike w v) : v.functions = w.functions := by
  rw [show v = _ from h]

end

/-- What is kept of a world that is alike is alike. -/
lemma Alike.kept {w v v' : World} (h : Alike w v) (hkept : Kept v v') : Alike w v' := by
  rw [hkept.same]
  exact congrArg (fun u : World => { u with captures := v'.captures }) h

/-! ## Steady steps -/

/-- With enough fuel, the step gives `a` wherever it stands in `w`, and keeps the world as it is. -/
def Returns {α : Type} (w : World) (x : Nat → RunM α) (a : α) : Prop :=
  ∃ cost, ∀ (v : World) (fuel : Nat), Alike w v → v.substStatus = 0 → cost ≤ fuel →
    Does (x fuel) v fun b v' => b = a ∧ Kept v v'

namespace Returns

variable {α β γ : Type} {w : World} {x : Nat → RunM α} {y : Nat → RunM β} {z : Nat → RunM γ} {a : α}
  {b : β}

/-- A step that applies a function to the value of another returns the image of it. -/
lemma map (g : α → β) (hx : Returns w x a)
    (hy : ∀ fuel, y (fuel + 1) = x fuel >>= fun a => pure (g a)) :
    Returns w y (g a) := by
  obtain ⟨cost, hx⟩ := hx
  refine ⟨cost + 1, fun v fuel hv hsubst hfuel => ?_⟩
  obtain ⟨fuel, rfl⟩ := Nat.exists_eq_add_one_of_ne_zero (show fuel ≠ 0 by omega)
  rw [hy]
  refine .bind ((hx v fuel hv hsubst (by omega)).mono ?_)
  rintro _ v' ⟨rfl, hkept⟩
  exact .pure ⟨rfl, hkept⟩

/-- A step that joins the values of two others returns what they are joined to. -/
lemma map₂ (g : α → β → γ) (hx : Returns w x a) (hy : Returns w y b)
    (hz : ∀ fuel, z (fuel + 1) = x fuel >>= fun a => y fuel >>= fun b => pure (g a b)) :
    Returns w z (g a b) := by
  obtain ⟨cost, hx⟩ := hx
  obtain ⟨cost', hy⟩ := hy
  refine ⟨cost + cost' + 1, fun v fuel hv hsubst hfuel => ?_⟩
  obtain ⟨fuel, rfl⟩ := Nat.exists_eq_add_one_of_ne_zero (show fuel ≠ 0 by omega)
  rw [hz]
  refine .bind ((hx v fuel hv hsubst (by omega)).mono ?_)
  rintro _ v' ⟨rfl, hkept⟩
  refine .bind ((hy v' fuel (hv.kept hkept) (hkept.substStatus.trans hsubst) (by omega)).mono ?_)
  rintro _ v'' ⟨rfl, hkept'⟩
  exact .pure ⟨rfl, hkept.trans hkept'⟩

/-! ## Words -/

/-- A word that expands in every world that is alike returns its atoms. -/
lemma of_expands {ps : Word} {as : List Atom} (h : ∀ v, Alike w v → Expands v ps as) :
    Returns w (expandParts ps) as :=
  ⟨ps.length + 1, fun v fuel hv _ hfuel => ⟨as, v, h v hv fuel (by omega), rfl, .refl v⟩⟩

/-- A word of one part returns what the part does. -/
lemma part {p : Part} {as : List Atom} (h : Returns w (expandPart p) as) :
    Returns w (expandParts [p]) as := by
  have hnil : Returns w (expandParts []) [] := of_expands fun _ _ => .nil
  have hparts := map₂ (z := expandParts [p]) (· ++ ·) h hnil fun fuel => by rw [expandParts]
  rwa [List.append_nil] at hparts

/-- The text of a word is that of its atoms. -/
lemma textOf {ps : Word} {as : List Atom} (h : Returns w (expandParts ps) as) :
    Returns w (Shell.textOf ps) (joinedText as) :=
  map joinedText h fun fuel => by rw [Shell.textOf]

end Returns

/-- The texts that atoms stand for where they are split. -/
def World.split (w : World) (as : List Atom) : List (List Char) :=
  let found := fieldsFrom (separators w) none as
  if w.options.contains 'f' then found.map Field.text else found.flatMap (pathsOf w.place w.tree)

/-- A single field without marks of patterns stands for its text. -/
lemma World.split_of_fieldsFrom {w : World} {as : List Atom} {f : Field}
    (h : fieldsFrom (separators w) none as = [f]) (hf : ∀ x ∈ settled f, isMark x = false) :
    w.split as = [f.text] := by
  unfold World.split
  dsimp only
  rw [h]
  split
  · rfl
  · simp [pathsOf_of_marks w.place w.tree hf]

/-- What stands between quotes is one text. -/
lemma World.split_quoted (w : World) (cs : List Char) :
    w.split (.quote :: cs.map (.char · true)) = [cs] := by
  rw [World.split_of_fieldsFrom (fieldsFrom_quoted _ cs) (isMark_quoted cs), text_written]

namespace Returns

variable {w : World} {word : Word} {as : List Atom}

/-- The fields of a word are its atoms, split by the separators of the world. -/
lemma fields (h : Returns w (expandParts word) as) (hword : word.any Part.isArguments = false) :
    Returns w (Shell.fields word) (w.split as) := by
  obtain ⟨cost, h⟩ := h
  refine ⟨cost + 1, fun v fuel hv hsubst hfuel => ?_⟩
  obtain ⟨fuel, rfl⟩ := Nat.exists_eq_add_one_of_ne_zero (show fuel ≠ 0 by omega)
  rw [Shell.fields]
  refine .bind ((h v fuel hv hsubst (by omega)).mono ?_)
  rintro as v' ⟨rfl, hkept⟩
  refine .bind (.get (.bind (.get (.pure ⟨?_, hkept⟩))))
  have hv' := hv.kept hkept
  have hfound : fieldsFrom (separators v') none
      (if (v'.args.isEmpty && word.any Part.isArguments) && as.all (· == .quote) then [] else as) =
      fieldsFrom (separators w) none as := by
    rw [hword, Bool.and_false, Bool.false_and, if_neg (by decide), separators, hv'.vars]
    rfl
  rw [World.split, ← hv'.options, ← hv'.tree, ← hv'.place, ← hfound]
  rfl

/-- A name stands for itself. -/
lemma name {n : List Char} (hn : isName n = true) : Returns w (Shell.fields (plainWord n)) [n] := by
  obtain ⟨c, cs, rfl, -, hall⟩ := exists_of_isName hn
  have hmarks : ∀ x ∈ settled ((c :: cs).map (·, false)), isMark x = false := by
    refine isMark_plain fun d hd hmem => ?_
    have hnone : isNameChar d = false := by
      simp only [List.mem_cons, List.not_mem_nil, or_false] at hmem
      rcases hmem with rfl | rfl | rfl <;> rfl
    exact ne_of_isNameChar (hall d hd) hnone rfl
  have hfields :=
    fields (of_expands (w := w) fun _ _ => .chars (c :: cs) false) (by simp [Part.isArguments])
  rwa [World.split_of_fieldsFrom (fieldsFrom_plain _ c cs) hmarks, text_written] at hfields

/-- No words give no fields. -/
lemma allFields_nil : Returns w (allFields []) [] :=
  ⟨1, fun v fuel _ _ hfuel => by
    obtain ⟨fuel, rfl⟩ := Nat.exists_eq_add_one_of_ne_zero (show fuel ≠ 0 by omega)
    rw [allFields]
    exact .pure ⟨rfl, .refl v⟩⟩

/-- The fields of the first word come first. -/
lemma allFields_cons {ws : List Word} {texts texts' : List (List Char)}
    (h : Returns w (Shell.fields word) texts) (h' : Returns w (allFields ws) texts') :
    Returns w (allFields (word :: ws)) (texts ++ texts') :=
  map₂ (· ++ ·) h h' fun fuel => by rw [allFields]

end Returns

/-! ## Commands that print -/

/-- A command has printed the text into the substitution at the depth, and changed no more than what
ends with it. -/
structure Prints (v : World) (d : Nat) (text : List Char) (v' : World) : Prop where
  status : v'.status = 0
  tree : v'.tree = v.tree
  input : v'.input = v.input
  out : v'.out = v.out
  err : v'.err = v.err
  text : v'.captures.lookup d = some ((v.captures.lookup d).getD [] ++ text)
  captures : ∀ k < d, v'.captures.lookup k = v.captures.lookup k

/-- A step that keeps all may come before the one that prints. -/
lemma Prints.of_kept {v v' v'' : World} {d : Nat} {text : List Char} (hkept : Kept v v')
    (hd : d < v.depth) (h : Prints v' d text v'') : Prints v d text v'' where
  status := h.status
  tree := h.tree.trans (by rw [hkept.same])
  input := h.input.trans (by rw [hkept.same])
  out := h.out.trans (by rw [hkept.same])
  err := h.err.trans (by rw [hkept.same])
  text := hkept.captures d hd ▸ h.text
  captures k hk := (h.captures k hk).trans (hkept.captures k (by omega))

/-- With enough fuel, the step prints the text wherever it stands inside of a substitution in
`w`. -/
def Printing (w : World) (x : Nat → RunM Unit) (text : List Char) : Prop :=
  ∃ cost, ∀ (v : World) (d fuel : Nat), Alike w v → v.depth = d + 1 →
    v.sinks.lookup 1 = some (.capture d) →
    cost ≤ fuel → Does (x fuel) v fun _ => Prints v d text

/-- The command can be called by its name, and prints a function of its first argument. This is
empty if there is none. -/
structure Interprets (w : World) (f : String) (F : List Char → List Char) : Prop where
  notReserved : reservedWords.contains f = false
  notSpecial : specialBuiltins.contains f = false
  prints : ∀ args, Printing w (call f.toList args false) (F (args.headD []))

/-- A command with a name of its own is called even if it gets no arguments. -/
lemma Interprets.ne_exec {w : World} {f : String} {F : List Char → List Char}
    (hf : Interprets w f F) :
    f.toList ≠ "exec".toList := by
  intro e
  rw [String.toList_inj.mp e] at hf
  exact absurd hf.notSpecial (by decide)

namespace Printing

variable {w : World} {text : List Char}

/-- A command prints what the one prints that it calls. -/
lemma simple {ws : List Word} {f : List Char} {args : List (List Char)}
    (hws : Returns w (allFields ws) (f :: args)) (hexec : f ≠ "exec".toList)
    (hcall : Printing w (call f args false) text) (k : Nat) :
    Printing w (run (.simple k [] ws []) false) text := by
  obtain ⟨cost, hws⟩ := hws
  obtain ⟨cost', hcall⟩ := hcall
  refine ⟨cost + cost' + 2, fun v d fuel hv hdepth hsinks hfuel => ?_⟩
  obtain ⟨fuel, rfl⟩ : ∃ n, fuel = n + 2 := ⟨fuel - 2, by omega⟩
  obtain ⟨v₁, hv₁⟩ : ∃ v₁ : World, v₁ = { v with line := k, substStatus := 0 } := ⟨_, rfl⟩
  have halike : Alike w v₁ := by
    rw [hv₁]
    exact congrArg (fun u : World => { u with line := k, substStatus := 0 }) hv
  refine run_call ?_
  rw [← hv₁]
  refine (hws v₁ (fuel + 1) halike (by rw [hv₁]) (by omega)).mono ?_
  rintro _ v₂ ⟨rfl, hkept⟩
  have hdepth₂ : v₂.depth = d + 1 := by rw [hkept.depth, hv₁, ← hdepth]
  have hsinks₂ : v₂.sinks.lookup 1 = some (.capture d) := by rw [hkept.same, hv₁, ← hsinks]
  refine ⟨f, args, rfl, hexec, ?_⟩
  refine (hcall v₂ d (fuel + 1) (halike.kept hkept) hdepth₂ hsinks₂ (by omega)).mono
    fun _ v₃ hprints => ?_
  refine .bind (.get ?_)
  rw [if_neg (by simp [hprints.status])]
  have hprints₁ : Prints v₁ d text v₃ := hprints.of_kept hkept (by rw [← hkept.depth]; omega)
  rw [hv₁] at hprints₁
  exact .pure { hprints₁ with }

/-- A command between braces. -/
lemma group {c : Command} (h : Printing w (run c false) text) :
    Printing w (run (.group [c] []) false) text := by
  obtain ⟨cost, h⟩ := h
  refine ⟨cost + 3, fun v d fuel hv hdepth hsinks hfuel => ?_⟩
  obtain ⟨fuel, rfl⟩ : ∃ n, fuel = n + 3 := ⟨fuel - 3, by omega⟩
  rw [run, withRedirects, if_pos (by rfl), runAll]
  refine .bind ((h v d (fuel + 1) hv hdepth hsinks (by omega)).mono fun _ v' hprints => ?_)
  rw [runAll]
  exact .pure hprints

/-- A function prints what its body prints. -/
lemma function {f : List Char} {body : Command} {args : List (List Char)}
    (hf : w.functions.lookup f = some body)
    (h : Printing { w with args, loops := 0, calls := w.calls + 1 } (run body false) text) :
    Printing w (call f args false) text := by
  obtain ⟨cost, h⟩ := h
  refine ⟨cost + 1, fun v d fuel hv hdepth hsinks hfuel => ?_⟩
  obtain ⟨fuel, rfl⟩ := Nat.exists_eq_add_one_of_ne_zero (show fuel ≠ 0 by omega)
  have hcalls : v.calls = w.calls := by rw [show v = _ from hv]
  have halike :
      Alike { w with args, loops := 0, calls := w.calls + 1 }
        { v with args, loops := 0, calls := v.calls + 1 } := by
    rw [hcalls]
    exact congrArg (fun u : World => { u with args, loops := 0, calls := w.calls + 1 }) hv
  refine call_function (hv.functions ▸ hf) ?_
  refine (h _ d fuel halike hdepth hsinks (by omega)).mono fun _ v' hprints => ?_
  exact { hprints with }

/-- What `echo` prints. -/
lemma echo (args : List (List Char)) (hecho : w.functions.lookup "echo".toList = none) :
    Printing w (call "echo".toList args false) (Shell.echo args) := by
  refine ⟨1, fun v d fuel hv hdepth hsinks hfuel => ?_⟩
  obtain ⟨fuel, rfl⟩ := Nat.exists_eq_add_one_of_ne_zero (show fuel ≠ 0 by omega)
  refine call_builtin (hv.functions ▸ hecho) (by decide) ?_
  refine .bind (.bind (.get (.modify ?_)))
  rw [hsinks]
  refine .pure ⟨0, rfl, ?_⟩
  refine ⟨rfl, rfl, rfl, rfl, rfl, ?_, fun k hk => ?_⟩
  · simp
  · show List.lookup k ((d, _) :: v.captures.filter (·.1 != d)) = _
    rw [List.lookup_cons, beq_eq_false_iff_ne.mpr (show k ≠ d by omega),
      Files.lookup_filter_of_ne (by omega)]

end Printing

/-- A function that prints its first argument. -/
lemma Interprets.echo {w : World} {f : String} {k : Nat} (hres : reservedWords.contains f = false)
    (hspecial : specialBuiltins.contains f = false)
    (hf : w.functions.lookup f.toList = some (.group
      [.simple k [] [plainWord "echo".toList, [.quote, .param ['1'] .value [] true]] []] []))
    (hecho : w.functions.lookup "echo".toList = none) (hunset : w.refusesUnset = false) :
    Interprets w f fun x => Shell.echo [x] := by
  refine ⟨hres, hspecial, fun args => .function hf ?_⟩
  obtain ⟨w₁, hw₁⟩ : ∃ w₁ : World, w₁ = { w with args, loops := 0, calls := w.calls + 1 } :=
    ⟨_, rfl⟩
  have hargument : Returns w₁ (expandParts [.quote, .param ['1'] .value [] true])
      (.quote :: (args.headD []).map (.char · true)) := by
    refine .of_expands fun v hv => ?_
    have hargs : v.args = args := by rw [show v = _ from hv, hw₁]
    have hset : v.refusesUnset = false :=
      by rw [World.refusesUnset, hv.options, hw₁, ← hunset, World.refusesUnset]
    exact hargs ▸ (Expands.firstArgument hset).quote
  have hfields := hargument.fields (by decide)
  rw [World.split_quoted] at hfields
  have hwords :=
    (Returns.name (w := w₁) (n := "echo".toList) (by decide)).allFields_cons
      (hfields.allFields_cons .allFields_nil)
  rw [← hw₁]
  exact .group (.simple hwords (by decide) (.echo _ (by rwa [hw₁])) k)

/-! ## What comes back -/

/-- The world inside of a substitution. -/
def World.inside (v : World) : World :=
  { v with
    depth := v.depth + 1
    sinks := (1, .capture v.depth) :: v.sinks.filter (·.1 != 1)
    captures := (v.depth, []) :: v.captures.filter (·.1 != v.depth) }

/-- What a substitution makes of the text that was printed. -/
def captured (text : List Char) : List Char :=
  dropNewlines (text.filter (· != '\x00'))

/-- Worlds that are alike are so inside of a substitution. -/
lemma Alike.inside {w v : World} (h : Alike w v) : Alike w v.inside := by
  unfold Alike World.inside
  exact congrArg (fun u : World =>
    { u with depth := v.inside.depth, sinks := v.inside.sinks, captures := v.inside.captures }) h

/-- What was printed inside of a substitution is captured by it. -/
lemma Prints.lookup_inside {v v' : World} {text : List Char} (h : Prints v.inside v.depth text v') :
    v'.captures.lookup v.depth = some text := by
  have hempty : v.inside.captures.lookup v.depth = some [] := by simp [World.inside]
  rw [h.text, hempty]
  rfl

/-- The text is all that is left of a command that prints. -/
lemma Prints.kept {v v' : World} {text : List Char} (h : Prints v.inside v.depth text v')
    (hsubst : v.substStatus = 0) :
    Kept v
      { v with
        tree := v'.tree
        input := v'.input
        out := v'.out
        err := v'.err
        substStatus := v'.status
        captures := v'.captures.filter (·.1 != v.depth) } := by
  refine ⟨?_, fun d hd => ?_⟩
  · rw [h.status, h.tree, h.input, h.out, h.err, ← hsubst]
    rfl
  · have hne : d ≠ v.depth := by omega
    show (v'.captures.filter (·.1 != v.depth)).lookup d = _
    rw [Files.lookup_filter_of_ne hne, h.captures d hd, World.inside, List.lookup_cons,
      beq_eq_false_iff_ne.mpr hne, Files.lookup_filter_of_ne hne]

/-- A step in a place of its own. -/
lemma does_apart {act : RunM Unit} {v : World} {Q : Nat → World → Prop}
    (h : Does act v fun _ v' => Q v'.status
      { v with tree := v'.tree, input := v'.input, out := v'.out, err := v'.err,
               captures := v'.captures }) :
    Does (apart act) v Q := by
  obtain ⟨_, v', e, hQ⟩ := h
  refine ⟨v'.status, _, ?_, hQ⟩
  show apart act v = _
  unfold apart
  rw [e]

/-- A command that prints is replaced by what it prints. -/
lemma Printing.substitute {w : World} {c : Command} {text : List Char}
    (h : Printing w (run c false) text) :
    Returns w (substitute [c]) (captured text) := by
  obtain ⟨cost, h⟩ := h
  refine ⟨cost + 3, fun v fuel hv hsubst hfuel => ?_⟩
  obtain ⟨fuel, rfl⟩ : ∃ n, fuel = n + 3 := ⟨fuel - 3, by omega⟩
  have hrun :
      Does (runAll [c] false (fuel + 2)) v.inside fun _ => Prints v.inside v.depth text := by
    rw [runAll]
    refine .bind
      ((h v.inside v.depth (fuel + 1) hv.inside rfl rfl (by omega)).mono fun _ v' hprints => ?_)
    rw [runAll]
    exact .pure hprints
  rw [Shell.substitute]
  refine .bind (.get (.bind (does_apart (.bind (.modify ?_)))))
  refine hrun.mono fun _ v' hprints =>
    .bind (.get (.bind (.modify (.pure ⟨?_, hprints.kept hsubst⟩))))
  show captured ((v'.captures.lookup v.depth).getD []) = _
  rw [hprints.lookup_inside]
  rfl

/-! ## First fields -/

/-- The first of the texts that a value outside of quotes stands for. -/
def World.firstField (w : World) (text : List Char) : List Char :=
  (w.split (atomsOf false text)).headD []

/-- A field ends at the next separator. -/
lemma fieldsFrom_loose (seps : List Char) (f : Field) (text : List Char) :
    fieldsFrom seps (some f) (atomsOf false text) =
      (f ++ (text.takeWhile (!seps.contains ·)).map (·, false)) ::
        fieldsFrom seps none (atomsOf false (text.dropWhile (!seps.contains ·)).tail) := by
  induction text generalizing f with
  | nil => simp [atomsOf, fieldsFrom]
  | cons c text ih =>
    show fieldsFrom seps (some f) (.loose c :: atomsOf false text) = _
    rw [fieldsFrom]
    by_cases hc : c ∈ seps
    · simp [hc]
    · simp [hc, ih]

/-- A field starts at a character that is no separator. -/
lemma fieldsFrom_loose_cons {seps : List Char} {c : Char} (hc : c ∉ seps) (text : List Char) :
    fieldsFrom seps none (atomsOf false (c :: text)) =
      ((c :: text).takeWhile (!seps.contains ·)).map (·, false) ::
        fieldsFrom seps none (atomsOf false ((c :: text).dropWhile (!seps.contains ·)).tail) := by
  show fieldsFrom seps none (.loose c :: atomsOf false text) = _
  rw [fieldsFrom, if_neg (by simp [hc]), Option.getD_none, fieldsFrom_loose]
  simp [hc]

/-- The text is one field, and no pattern. -/
structure Whole (w : World) (text : List Char) : Prop where
  nonempty : text ≠ []
  noSeparator : ∀ c ∈ text, c ∉ separators w
  noMark : ∀ c ∈ text, c ∉ ['*', '?', '[']

/-- A text that is one field is its first field. -/
lemma Whole.firstField_eq {w : World} {text : List Char} (h : Whole w text) :
    w.firstField text = text := by
  have hall : ∀ c ∈ text, (!(separators w).contains c) = true :=
    fun c hc => by simpa using h.noSeparator c hc
  have hfields : fieldsFrom (separators w) none (atomsOf false text) = [text.map (·, false)] := by
    cases text with
    | nil => exact absurd rfl h.nonempty
    | cons c cs =>
      rw [fieldsFrom_loose_cons (h.noSeparator c (by simp)), List.takeWhile_eq_self_iff.mpr hall,
        List.dropWhile_eq_nil_iff.mpr hall]
      rfl
  rw [World.firstField, World.split_of_fieldsFrom hfields (isMark_plain h.noMark), text_written]
  rfl

/-- The characters at which fields are split if nothing else was said. -/
def blanks : List Char :=
  [' ', '\t', '\n']

/-- The first word between blanks. -/
def firstWord (text : List Char) : List Char :=
  (text.dropWhile blanks.contains).takeWhile (!blanks.contains ·)

/-- Blanks before the first field do not count. -/
lemma fieldsFrom_dropWhile (text : List Char) :
    fieldsFrom blanks none (atomsOf false text) =
      fieldsFrom blanks none (atomsOf false (text.dropWhile blanks.contains)) := by
  induction text with
  | nil => rfl
  | cons c text ih =>
    by_cases hc : blanks.contains c = true
    · have hspace : (c == ' ' || c == '\t' || c == '\n') = true :=
        by simpa [blanks, or_assoc] using hc
      rw [List.dropWhile_cons_of_pos hc, ← ih]
      show fieldsFrom blanks none (.loose c :: atomsOf false text) = _
      rw [fieldsFrom, if_pos hc]
      exact if_pos hspace
    · rw [List.dropWhile_cons_of_neg hc]

/-- Unless other separators are set, the first field of a text is its first word if that is no
pattern. -/
lemma World.firstField_eq_firstWord {w : World} {text : List Char}
    (hseps : w.vars.lookup "IFS".toList = none)
    (hmarks : ∀ c ∈ firstWord text, c ∉ ['*', '?', '[']) : w.firstField text = firstWord text := by
  have hblanks : separators w = blanks := by
    rw [separators, hseps]
    rfl
  unfold World.firstField World.split
  rw [hblanks, fieldsFrom_dropWhile]
  unfold firstWord at hmarks ⊢
  cases hdrop : text.dropWhile blanks.contains with
  | nil => simp [atomsOf, fieldsFrom]
  | cons c cs =>
    have hc : c ∉ blanks := by
      have hhead := List.head?_dropWhile_not blanks.contains text
      simpa [hdrop] using hhead
    rw [hdrop] at hmarks
    rw [fieldsFrom_loose_cons hc]
    dsimp only
    split
    · simp [text_written]
    · rw [List.flatMap_cons, pathsOf_of_marks _ _ (isMark_plain hmarks), text_written]
      rfl

end Stencil.Shell
