import Stencil.Proofs.Files
import Stencil.Proofs.Sections
import Stencil.Proofs.Shell.Run

/-!
# Assignments

What the shell makes of a line that assigns a value to a variable: it reads one command, which sets
the variable and leaves the others alone, unless the variable may not hold the value. There is one
lemma for each kind of line (`Assigns.empty`, `Assigns.argument`, `Assigns.default`).
-/

namespace Stencil.Shell

/-! ## Reading -/

/-- A command that a line ends with is read as one. -/
lemma Reader.next_command {r : Reader} {text rest : List Char} {P : Command → Prop}
    (h : CommandText text P) (hr : r.rest = text ++ '\n' :: rest) :
    ∃ c r', r.next = .ok (some [c], r') ∧ P c ∧ r'.rest = rest := by
  obtain ⟨ls, hls, hs⟩ := h.list
  have hlexes : Lexes r.rest (ls ++ [.mark .newline]) rest :=
    hr ▸ (hs (by rfl)).append (.cons (.newline rest) (.nil rest))
  exact Reader.next_list hls hlexes

/-- A line with an assignment is read as one command. -/
lemma Reader.next_assign {r : Reader} {n cs rest : List Char} {W : Word → Prop}
    (hn : isName n = true) (h : Ending cs W) (hr : r.rest = n ++ '=' :: (cs ++ ['\n']) ++ rest) :
    ∃ k v r', r.next = .ok (some [.simple k [(n, v)] [] []], r') ∧ W v ∧ r'.rest = rest := by
  have hline : r.rest = n ++ '=' :: cs ++ '\n' :: rest := by simp [hr]
  obtain ⟨_, r', hnext, ⟨k, v, hv, rfl⟩, hr'⟩ := Reader.next_command (CommandText.assign hn h) hline
  exact ⟨k, v, r', hnext, hv, hr'⟩

/-! ## Values -/

/-- With the arguments and the variables of `w`, the word stands for the text where it is not
split. -/
def Joins (w : World) (cost : Nat) (word : Word) (text : List Char) : Prop :=
  ∀ (w' : World) (fuel : Nat), w'.args = w.args → w'.vars = w.vars → cost < fuel →
    (textOf word fuel).run w' = (.ok text, w')

/-- The text of quoted characters is the characters. -/
lemma joinedText_quoted (cs : List Char) : joinedText (.quote :: cs.map (.char · true)) = cs := by
  simp [joinedText, List.filterMap_map]

/-- The text of the atoms of a text is the text. -/
lemma joinedText_atomsOf (quoted : Bool) (cs : List Char) :
    joinedText (atomsOf quoted cs) = cs := by
  cases quoted <;> simp [joinedText, atomsOf, List.filterMap_map]

/-- A parameter with a name is a variable. -/
lemma paramValue_name {n : List Char} (hn : isName n = true) (w : World) :
    paramValue w n = w.vars.lookup n := by
  obtain ⟨c, cs, rfl, hc, -⟩ := exists_of_isName hn
  have hdigit : ¬isDigit c = true := by
    simp only [isNameStart, isDigit, Bool.or_eq_true, Bool.and_eq_true, decide_eq_true_eq,
      beq_iff_eq, Char.le_def, UInt32.le_iff_toNat_le] at hc ⊢
    have hnine : '9'.val.toNat = 57 := rfl
    have hbig : 'A'.val.toNat = 65 := rfl
    have hsmall : 'a'.val.toNat = 97 := rfl
    rcases hc with (hc | hc) | rfl
    · omega
    · omega
    · decide
  unfold paramValue
  split
  case h_9 =>
    rename_i heq
    cases heq
    exact if_neg hdigit
  case h_10 =>
    rename_i heq
    cases heq
  all_goals
    rename_i heq
    cases heq
    cases hc

/-- A name is no mark of its own. -/
lemma beq_mark_of_isName {n : List Char} (hn : isName n = true) {d : Char}
    (hd : isNameStart d = false) :
    (n == [d]) = false := by
  obtain ⟨_, _, rfl, hc, -⟩ := exists_of_isName hn
  rw [beq_eq_false_iff_ne]
  rintro ⟨⟩
  rw [hd] at hc
  cases hc

/-- The value of a variable between double quotes. -/
lemma Expands.variable {w : World} {n a : List Char} {ps : Word} {as : List Atom}
    (hn : isName n = true) (ha : w.vars.lookup n = some a) (h : Expands w ps as) :
    Expands w (.param n .value [] true :: ps) (a.map (.char · true) ++ as) := by
  have hpart (fuel : Nat) :
      (expandPart (.param n .value [] true) (fuel + 1)).run w = (.ok (atomsOf true a), w) := by
    rw [expandPart, run_bind_eq_ok]
    refine ⟨w, w, rfl, ?_⟩
    rw [paramValue_name hn, ha, beq_mark_of_isName hn (d := '@') (by decide),
      beq_mark_of_isName hn (d := '*') (by decide)]
    rfl
  exact cons hpart h

/-- Characters before a word expand to themselves. -/
lemma Expands.chars_append {w : World} {ps : Word} {as : List Atom} (cs : List Char) (q : Bool)
    (h : Expands w ps as) :
    Expands w (cs.map (.char · q) ++ ps) (cs.map (.char · q) ++ as) := by
  induction cs with
  | nil => exact h
  | cons c cs ih => exact ih.char c q

namespace Joins

variable {w : World}

/-- A word that expands stands for the text of its atoms. -/
lemma of_expands {word : Word} {as : List Atom}
    (h : ∀ w' : World, w'.args = w.args → w'.vars = w.vars → Expands w' word as) :
    Joins w (word.length + 1) word (joinedText as) := by
  intro w' fuel hargs hvars hfuel
  obtain ⟨fuel, rfl⟩ := Nat.exists_eq_add_one_of_ne_zero (show fuel ≠ 0 by omega)
  rw [textOf, run_bind_eq_ok]
  exact ⟨as, w', h w' hargs hvars fuel (by omega), rfl⟩

/-- Quoted characters stand for themselves. -/
lemma quoted (cs : List Char) : Joins w (cs.length + 2) (.quote :: quotedChars cs) cs := by
  have h := of_expands (w := w) fun w' _ _ => (Expands.chars (w := w') cs true).quote
  rwa [List.singleton_append, joinedText_quoted, List.length_cons, List.length_map] at h

/-- The first argument in quotes stands for itself. -/
lemma argument {a : List Char} (ha : w.args.head? = some a) :
    Joins w 3 [.quote, .param ['1'] .value [] true] a := by
  have h := of_expands (w := w) fun w' hargs _ => (Expands.argument (hargs ▸ ha)).quote
  rwa [List.singleton_append, joinedText_quoted] at h

/-- A value that is missing or empty is replaced by the text. -/
lemma default {n : List Char} (hn : isName n = true) (cs : List Char) :
    Joins w (cs.length + 5) [.param n (.default true) (.quote :: quotedChars cs) false]
      (if (w.vars.lookup n).getD [] = [] then cs else (w.vars.lookup n).getD []) := by
  intro w' fuel hargs hvars hfuel
  obtain ⟨fuel, rfl⟩ : ∃ k, fuel = k + 3 := ⟨fuel - 3, by omega⟩
  have hquoted : (expandParts (.quote :: quotedChars cs) fuel).run w' =
      (.ok ([.quote] ++ cs.map (.char · true)), w') :=
    (Expands.chars cs true).quote fuel (by simp; omega)
  -- An empty value counts as missing, so there are three cases and two results.
  have hpart :
      (expandPart (.param n (.default true) (.quote :: quotedChars cs) false) (fuel + 1)).run w' =
      (.ok (if (w.vars.lookup n).getD [] = [] then [.quote] ++ cs.map (.char · true)
        else atomsOf false ((w.vars.lookup n).getD [])), w') := by
    rw [expandPart, run_bind_eq_ok]
    refine ⟨w', w', rfl, ?_⟩
    rw [paramValue_name hn, hvars]
    cases w.vars.lookup n with
    | none => exact hquoted
    | some x =>
      cases x with
      | nil => exact hquoted
      | cons c x =>
        dsimp only
        rw [beq_mark_of_isName hn (d := '@') (by decide),
          beq_mark_of_isName hn (d := '*') (by decide)]
        rfl
  rw [textOf, run_bind_eq_ok]
  refine ⟨_, w',
    run_bind_eq_ok.mpr
      ⟨_, w', hpart, run_bind_eq_ok.mpr ⟨[], w', Expands.nil _ (by simp), rfl⟩⟩, ?_⟩
  rw [List.append_nil]
  split
  · rw [List.singleton_append, joinedText_quoted]
    rfl
  · rw [joinedText_atomsOf]
    rfl

end Joins

/-! ## Running -/

/-- Only one variable is particular about its value. -/
lemma isAllowed_of_ne {n : List Char} (hn : n ≠ optionIndex) (text : List Char) :
    isAllowed n text = true := by
  rw [isAllowed, bne_iff_ne.mpr hn, Bool.true_or]

/-- A name with an underscore is not the name of that variable. -/
lemma isAllowed_of_underscore {n : List Char} (hn : '_' ∈ n) (text : List Char) :
    isAllowed n text = true := by
  refine isAllowed_of_ne ?_ text
  rintro rfl
  exact absurd hn (by decide)

/-- A variable that may hold the text is set to it. -/
lemma run_setVar {w : World} {n text : List Char} (hfixed : n ∉ w.fixed)
    (hallowed : isAllowed n text = true) :
    (setVar n text).run w = (.ok (), { w with vars := (n, text) :: w.vars.filter (·.1 != n) }) := by
  rw [setVar, run_bind_eq_ok]
  refine ⟨w, w, rfl, ?_⟩
  rw [if_neg (by simpa using hfixed)]
  dsimp only
  rw [hallowed]
  rfl

/-- A variable that may not hold the text ends the run. -/
lemma run_setVar_refused {w : World} {n text : List Char} (hallowed : isAllowed n text = false) :
    ∃ w', (setVar n text).run w = (.error (.exit 2), w') := by
  rw [setVar, run_bind_of_ok (show (get : RunM World).run w = (.ok w, w) from rfl)]
  cases hfixed : w.fixed.contains n with
  | true => exact ⟨_, rfl⟩
  | false =>
    dsimp only
    rw [hallowed]
    exact ⟨_, rfl⟩

/-- In `w'` the variable holds the value, and all else that lines of assignments look at is as it
was in `w`. -/
structure Sets (w : World) (n value : List Char) (w' : World) : Prop where
  vars : w'.vars = (n, value) :: w.vars.filter (·.1 != n)
  args : w'.args = w.args
  fixed : w'.fixed = w.fixed

/-- An assignment is seen in its variable and in no other. -/
lemma Sets.lookup {w w' : World} {n value : List Char} (h : Sets w n value w') (m : List Char) :
    w'.vars.lookup m = if m = n then some value else w.vars.lookup m := by
  rw [h.vars, List.lookup_cons]
  by_cases hm : m = n
  · rw [if_pos hm, hm, beq_self_eq_true]
  · rw [if_neg hm, beq_eq_false_iff_ne.mpr hm, Files.lookup_filter_of_ne hm]

/-- An assignment sets its variable to the text of its word. -/
lemma run_assign_of_textOf {w : World} {n : List Char} {word : Word} {k fuel : Nat} {tested : Bool}
    {Q : World → Prop}
    (h : Does (textOf word (fuel + 1))
    { w with line := k, substStatus := 0, status := 0 } fun text w' =>
      n ∉ w'.fixed ∧ isAllowed n text = true ∧ w'.substStatus = 0 ∧ w'.status = 0 ∧
        Q { w' with vars := (n, text) :: w'.vars.filter (·.1 != n) }) :
    Does (run (.simple k [(n, word)] [] []) tested (fuel + 3)) w fun _ => Q := by
  rw [run]
  refine .bind (.modify (.bind ⟨[], _, by rw [allFields]; rfl, .bind (.modify ?_)⟩))
  rw [withRedirects, if_pos (by rfl), assignAll]
  refine .bind (.bind (h.mono ?_))
  rintro text w' ⟨hfixed, hallowed, hsubst, hstatus, hQ⟩
  obtain ⟨w₁, hw₁⟩ : ∃ w₁, w₁ = { w' with vars := (n, text) :: w'.vars.filter (·.1 != n) } :=
    ⟨_, rfl⟩
  refine .bind ⟨(), w₁, hw₁ ▸ run_setVar hfixed hallowed, ?_⟩
  rw [assignAll]
  refine .pure (.bind (.modify (.bind (.get ?_))))
  have hsame : (if w₁.substStatus == 0 then w₁ else { w₁ with status := w₁.substStatus }) = w₁ :=
    if_pos (by rw [hw₁, hsubst]; rfl)
  rw [hsame, if_neg (by simp [hw₁, hstatus])]
  exact .pure (hw₁ ▸ hQ)

/-- A word that stands for a text is assigned as that text. -/
lemma run_assign {w : World} {n text : List Char} {word : Word} {cost k fuel : Nat} {tested : Bool}
    (hword : Joins w cost word text) (hfixed : n ∉ w.fixed) (hallowed : isAllowed n text = true)
    (hfuel : cost + 2 < fuel) :
    Does (run (.simple k [(n, word)] [] []) tested (fuel + 1)) w fun _ w' => Sets w n text w' := by
  obtain ⟨fuel, rfl⟩ : ∃ j, fuel = j + 2 := ⟨fuel - 2, by omega⟩
  exact run_assign_of_textOf
    ⟨text, _, hword _ (fuel + 1) rfl rfl (by omega), hfixed, hallowed, rfl, rfl, rfl, rfl, rfl⟩

/-- A word whose text the variable may not hold ends the run. -/
lemma run_assign_refused {w : World} {n text : List Char} {word : Word} {cost k fuel : Nat}
    {tested : Bool} (hword : Joins w cost word text) (hallowed : isAllowed n text = false)
    (hfuel : cost + 2 < fuel) :
    ∃ w', (run (.simple k [(n, word)] [] []) tested (fuel + 1)).run w = (.error (.exit 2), w') := by
  obtain ⟨fuel, rfl⟩ : ∃ j, fuel = j + 2 := ⟨fuel - 2, by omega⟩
  obtain ⟨w₁, hw₁⟩ : ∃ w₁, w₁ = { w with line := k, substStatus := 0, status := 0 } := ⟨_, rfl⟩
  have htext : (textOf word (fuel + 1)).run w₁ = (.ok text, w₁) :=
    hword w₁ (fuel + 1) (by rw [hw₁]) (by rw [hw₁]) (by omega)
  obtain ⟨w', hset⟩ := run_setVar_refused (w := w₁) hallowed
  have hassign : (assignAll [(n, word)] (fuel + 2)).run w₁ = (.error (.exit 2), w') := by
    rw [assignAll, run_bind_of_ok htext]
    exact run_bind_of_error hset
  refine ⟨w', ?_⟩
  rw [run,
    run_bind_of_ok
      (show (modify _ : RunM Unit).run w =
        (.ok (), { w with line := k, substStatus := 0 }) from rfl)]
  rw [run_bind_of_ok (show (allFields [] (fuel + 2)).run _ = (.ok [], _) by rw [allFields]; rfl)]
  dsimp only
  rw [run_bind_of_ok (show (modify _ : RunM Unit).run _ = (.ok (), w₁) by rw [hw₁]; rfl)]
  refine run_bind_of_error ?_
  rw [withRedirects]
  exact hassign

/-! ## Lines -/

/-- The shell reads the line as one command, and what this one leaves satisfies `Q`. -/
def Performs (w : World) (line : List Char) (Q : World → Prop) : Prop :=
  ∀ (r : Reader) (rest : List Char), r.rest = line ++ rest →
    ∃ c r', r.next = .ok (some [c], r') ∧ r'.rest = rest ∧
      ∀ fuel, line.length + 20 ≤ fuel → Does (run c false fuel) w fun _ w' => Q w'

/-- The shell reads the line as one command, which ends the run with the status of an error. -/
def Halts (w : World) (line : List Char) : Prop :=
  ∀ (r : Reader) (rest : List Char), r.rest = line ++ rest →
    ∃ c r', r.next = .ok (some [c], r') ∧ r'.rest = rest ∧
      ∀ fuel, line.length + 20 ≤ fuel → ∃ w', (run c false fuel).run w = (.error (.exit 2), w')

/-- The shell reads the text as one command, and with enough fuel what this one leaves satisfies
`Q`. -/
def Evaluates (w : World) (text : List Char) (Q : World → Prop) : Prop :=
  ∀ (r : Reader) (rest : List Char), r.rest = text ++ rest →
    ∃ c r', r.next = .ok (some [c], r') ∧ r'.rest = rest ∧
      ∃ cost, ∀ fuel, cost ≤ fuel → Does (run c false fuel) w fun _ => Q

/-- The line sets the variable to the text if it may hold it, and ends the run otherwise. -/
def Assigns (w : World) (line n text : List Char) : Prop :=
  if isAllowed n text = true then Performs w line (Sets w n text) else Halts w line

/-- What a line performs may be described by less. -/
lemma Performs.mono {w : World} {line : List Char} {P Q : World → Prop} (h : Performs w line P)
    (hPQ : ∀ w', P w' → Q w') : Performs w line Q := by
  intro r rest hr
  obtain ⟨c, r', hnext, hr', hrun⟩ := h r rest hr
  exact ⟨c, r', hnext, hr', fun fuel hfuel => (hrun fuel hfuel).mono fun _ => hPQ⟩

namespace Assigns

variable {w : World} {n : List Char}

/-- A line whose word stands for a text assigns this text. -/
lemma of_joins {cs text : List Char} {word : Word} {cost : Nat} (hn : isName n = true)
    (hfixed : n ∉ w.fixed) (hread : Ending cs (· = word)) (hword : Joins w cost word text)
    (hcost : cost ≤ cs.length + 10) :
    Assigns w (n ++ '=' :: (cs ++ ['\n'])) n text := by
  have hlength : (n ++ '=' :: (cs ++ ['\n'])).length = n.length + cs.length + 2 := by
    simp
    omega
  unfold Assigns
  split
  · rename_i hallowed
    intro r rest hr
    obtain ⟨k, _, r', hnext, rfl, hr'⟩ := Reader.next_assign hn hread hr
    refine ⟨_, r', hnext, hr', fun fuel hfuel => ?_⟩
    obtain ⟨fuel, rfl⟩ := Nat.exists_eq_add_one_of_ne_zero (show fuel ≠ 0 by omega)
    exact run_assign hword hfixed hallowed (by omega)
  · rename_i hallowed
    intro r rest hr
    obtain ⟨k, _, r', hnext, rfl, hr'⟩ := Reader.next_assign hn hread hr
    refine ⟨_, r', hnext, hr', fun fuel hfuel => ?_⟩
    obtain ⟨fuel, rfl⟩ := Nat.exists_eq_add_one_of_ne_zero (show fuel ≠ 0 by omega)
    exact run_assign_refused hword (Bool.not_eq_true _ ▸ hallowed) (by omega)

/-- The line of a declaration assigns nothing to its variable. -/
lemma empty (hn : isName n = true) (hfixed : n ∉ w.fixed) :
    Assigns w (n ++ ['=', '\x27', '\x27', '\n']) n [] :=
  of_joins hn hfixed (Phrase.apostrophes []).ending (.quoted []) (by simp)

/-- The line of an option assigns the first argument to its variable. -/
lemma argument {a : List Char} (hn : isName n = true) (hfixed : n ∉ w.fixed)
    (ha : w.args.head? = some a) :
    Assigns w (n ++ ['=', '\x22', '$', '1', '\x22', '\n']) n a :=
  of_joins hn hfixed (Phrase.quoted (Quoted.argument (d := '1') (by decide) (by decide))).ending
    (.argument ha)
    (by simp)

/-- The text stands in for a value that is missing or empty. -/
lemma default (hn : isName n = true) (hfixed : n ∉ w.fixed) (cs : List Char) :
    Assigns w (n ++ '=' :: '$' :: '{' :: (n ++ ':' :: '-' :: '\x22' ::
        (Escape.escapeChars cs ++ ['\x22', '}', '\n'])))
      n (if (w.vars.lookup n).getD [] = [] then cs else (w.vars.lookup n).getD []) := by
  have hread := Ending.default (Q := (· = _)) hn (Inside.escaped cs).quoted (.nil rfl)
  have hlength := Escape.length_le_length_escapeChars cs
  have h := of_joins hn hfixed hread (.default hn cs) (by simp; omega)
  simpa using h

end Assigns

end Stencil.Shell
