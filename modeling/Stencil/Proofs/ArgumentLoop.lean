import Stencil.Proofs.Substitution

/-!
# The loop over the arguments

What the shell does in the loop of a script that takes the values of its variables from the
arguments. One turn of the loop takes an option and the argument behind it (`Shell.does_turn`), and
a run of the loop takes them all, one after the other (`Shell.does_argumentLoop`).

The loop counts the arguments outside of quotes, so a digit may not be a separator
(`Shell.CanCount`).
-/

namespace Stencil.Shell

/-! ## Counting -/

/-- A number is written with its decimal digits. -/
lemma toList_toString_nat (n : Nat) : (toString n).toList = Nat.toDigits 10 n := by
  rw [show toString n = String.ofList (Nat.toDigits 10 n) from Nat.repr_eq_ofList_toDigits,
    String.toList_ofList]

/-- A number is written with nothing but digits. -/
lemma isDigit_of_mem_toString {n : Nat} {c : Char} (hc : c ∈ (toString n).toList) :
    isDigit c = true := by
  rw [toList_toString_nat] at hc
  have hdigit := Nat.isDigit_of_mem_toDigits (by decide) (Nat.le_refl 10) hc
  simpa [isDigit, Char.isDigit, Char.le_def] using hdigit

/-- A digit is none of some other characters. -/
lemma ne_of_isDigit {c d : Char} (hc : isDigit c = true) (hd : isDigit d = false) : c ≠ d := by
  rintro rfl
  rw [hc] at hd
  cases hd

/-- A number is read back. -/
lemma wholeNumber?_toString (n : Nat) : wholeNumber? (toString n).toList = some (n : Int) := by
  have hdigits : ∀ c ∈ (toString n).toList, isDigit c = true := fun c => isDigit_of_mem_toString
  have hvalue : digitsValue (toString n).toList = n := by
    rw [toList_toString_nat]
    exact Nat.ofDigitChars_toDigits (by decide) (Nat.le_refl 10)
  obtain ⟨c, cs, hcs⟩ := List.exists_cons_of_ne_nil
    (show (toString n).toList ≠ [] by rw [toList_toString_nat]; exact Nat.toDigits_ne_nil)
  rw [hcs] at hdigits hvalue ⊢
  have hspace {d : Char} (hd : isDigit d = true) :
      (d == ' ' || (9 ≤ d.toNat && d.toNat ≤ 13)) = false := by
    have hlow : 48 ≤ d.toNat := by
      simp only [isDigit, Bool.and_eq_true, decide_eq_true_eq, Char.le_def,
        UInt32.le_iff_toNat_le] at hd
      exact hd.1
    have hne := ne_of_isDigit hd (show isDigit ' ' = false by decide)
    simp [hne]
    omega
  have htrim {ds : List Char} (hds : ∀ d ∈ ds, isDigit d = true) :
      ds.dropWhile (fun d => d == ' ' || (9 ≤ d.toNat && d.toNat ≤ 13)) = ds := by
    cases ds with
    | nil => rfl
    | cons d ds => rw [List.dropWhile_cons_of_neg (by simp [hspace (hds d (by simp))])]
  have hall : (c :: cs).all isDigit = true := List.all_eq_true.mpr hdigits
  have hminus := ne_of_isDigit (hdigits c (by simp)) (show isDigit '-' = false by decide)
  have hplus := ne_of_isDigit (hdigits c (by simp)) (show isDigit '+' = false by decide)
  unfold wholeNumber?
  dsimp only
  rw [htrim hdigits, htrim fun d hd => hdigits d (List.mem_reverse.mp hd), List.reverse_reverse]
  split
  · rename_i heq
    exact absurd (List.cons.inj heq).1 hminus
  · rename_i heq
    exact absurd (List.cons.inj heq).1 hplus
  · rw [hall, hvalue]
    rfl

/-- Is there anything to count? -/
lemma Condition.eval_count (facts : FileFacts) (n : Nat) :
    eval facts [(toString n).toList, "-gt".toList, "0".toList] = .ok (decide (0 < n)) := by
  have hne {d : Char} (hd : isDigit d = false) : (toString n).toList ≠ [d] := by
    intro h
    have hmem : d ∈ (toString n).toList := by rw [h]; simp
    exact ne_of_isDigit (isDigit_of_mem_toString hmem) hd rfl
  have hprimary (fuel : Nat) :
      primary facts (fuel + 1) [(toString n).toList, "-gt".toList, "0".toList] =
        .ok (decide (0 < n), []) := by
    rw [primary]
    dsimp only
    rw [if_pos (by decide)]
    have hcompare : compare (String.ofList "-gt".toList) (toString n).toList "0".toList =
        .ok (decide (0 < n)) := by
      rw [String.ofList_toList]
      show (do return decide ((← number (toString n).toList) > (← number "0".toList))) = _
      rw [number, wholeNumber?_toString]
      show Except.ok (decide ((n : Int) > 0)) = _
      simp
    rw [hcompare]
    rfl
  have hnegation (fuel : Nat) :
      negation facts (fuel + 2) [(toString n).toList, "-gt".toList, "0".toList] =
        .ok (decide (0 < n), []) := by
    rw [negation]
    · exact hprimary fuel
    · rintro rest h
      exact hne (by decide) (List.cons.inj h).1
  exact eval_of_either facts (hne (by decide)) (either_of_negation facts (hnegation 36))

/-! ## Words -/

variable {w : World}

/-- A word without marks of patterns stands for itself. -/
lemma Denotes.plain {c : Char} {cs : List Char} (h : (c :: cs).all (· ∉ ['*', '?', '[']) = true) :
    Denotes w (plainWord (c :: cs)) (c :: cs) := by
  have hmarks := isMark_plain (List.all_iff_forall_prop.mp h)
  have hdenotes := Denotes.of_expands (Expands.chars (w := w) (c :: cs) false)
    (by simp [Part.isArguments]) (fieldsFrom_plain _ c cs) fun _ => pathsOf_of_marks _ _ hmarks
  rwa [text_written] at hdenotes

/-- What the loop needs to count the arguments: no function has the name of a command in it, and no
digit is a separator. -/
structure CanCount (w : World) : Prop where
  test : w.functions.lookup "test".toList = none
  shift : w.functions.lookup "shift".toList = none
  digits : ∀ c ∈ separators w, isDigit c = false

/-- The number of the arguments. -/
lemma CanCount.denotes (h : CanCount w) :
    Denotes w [.param ['#'] .value [] false] (toString w.args.length).toList := by
  obtain ⟨ds, hds⟩ : ∃ ds, ds = (toString w.args.length).toList := ⟨_, rfl⟩
  have hdigits : ∀ c ∈ ds, isDigit c = true := fun c hc => isDigit_of_mem_toString (hds ▸ hc)
  obtain ⟨c, cs, rfl⟩ := List.exists_cons_of_ne_nil
    (show ds ≠ [] by rw [hds, toList_toString_nat]; exact Nat.toDigits_ne_nil)
  have hfree : ∀ d ∈ c :: cs, d ∉ separators w := by
    intro d hd hsep
    exact ne_of_isDigit (hdigits d hd) (h.digits d hsep) rfl
  have hmarks : ∀ d ∈ c :: cs, d ∉ ['*', '?', '['] := by
    intro d hd hmark
    have hdigit := hdigits d hd
    simp only [List.mem_cons, List.not_mem_nil, or_false] at hmark
    rcases hmark with rfl | rfl | rfl <;> cases hdigit
  have hexpands : Expands w [.param ['#'] .value [] false] (atomsOf false (c :: cs)) := by
    have hpart (fuel : Nat) :
        (expandPart (.param ['#'] .value [] false) (fuel + 1)).run w =
          (.ok (atomsOf false (c :: cs)), w) := by
      rw [expandPart, run_bind_eq_ok]
      refine ⟨w, w, rfl, ?_⟩
      rw [hds]
      rfl
    have hcons := Expands.cons hpart .nil
    rwa [List.append_nil] at hcons
  have hfields :
      fieldsFrom (separators w) none (atomsOf false (c :: cs)) = [(c :: cs).map (·, false)] := by
    have hall : ∀ d ∈ c :: cs, (!(separators w).contains d) = true :=
      fun d hd => by simpa using hfree d hd
    rw [fieldsFrom_loose_cons (hfree c (by simp)), List.takeWhile_eq_self_iff.mpr hall,
      List.dropWhile_eq_nil_iff.mpr hall]
    rfl
  have hdenotes := Denotes.of_expands hexpands (by simp [Part.isArguments]) hfields
    fun _ => pathsOf_of_marks _ _ (isMark_plain hmarks)
  rwa [text_written, hds] at hdenotes

/-! ## Commands of the loop -/

/-- The test of the loop: are there arguments left? -/
lemma does_test (h : CanCount w) (i : Nat) {fuel : Nat} (hfuel : 20 ≤ fuel) :
    Does (succeeds [.simple i [] [plainWord "test".toList, [.param ['#'] .value [] false],
      plainWord "-gt".toList,
      plainWord "0".toList] []] fuel) w fun b w' => b = !w.args.isEmpty ∧
        w' = { w with line := i, substStatus := 0, status := if w.args.isEmpty then 1 else 0 } := by
  obtain ⟨fuel, rfl⟩ : ∃ n, fuel = n + 4 := ⟨fuel - 4, by omega⟩
  obtain ⟨v, hv⟩ : ∃ v : World, v = { w with line := i, substStatus := 0 } := ⟨_, rfl⟩
  have hcount : CanCount v := by
    rw [hv]
    exact ⟨h.test, h.shift, h.digits⟩
  have hargs : v.args = w.args := by rw [hv]
  have hcall : Does (run (.simple i [] [plainWord "test".toList, [.param ['#'] .value [] false],
      plainWord "-gt".toList, plainWord "0".toList] []) true (fuel + 2)) w fun _ w' =>
        w' = { v with status := if w.args.isEmpty then 1 else 0 } := by
    refine run_call ?_
    rw [← hv]
    have hwords : List.Forall₂ (Denotes v) [plainWord "test".toList, [.param ['#'] .value [] false],
        plainWord "-gt".toList, plainWord "0".toList]
        ["test".toList, (toString v.args.length).toList, "-gt".toList, "0".toList] :=
      .cons (.plain (by decide))
        (.cons hcount.denotes (.cons (.plain (by decide)) (.cons (.plain (by decide)) .nil)))
    refine ⟨_, v, run_allFields (n := 4) hwords (by simp [plainWord]) (by simp; omega), _, _, rfl,
      by decide, ?_⟩
    refine call_builtin hcount.test (by decide) ?_
    refine .bind ?_
    unfold test
    rw [if_neg (by decide)]
    refine .bind (.pure (.bind (.get ?_)))
    rw [Condition.eval_count]
    refine .pure (.pure ⟨_, rfl, .bind (.get ?_)⟩)
    rw [if_neg (by simp)]
    refine .pure ?_
    rw [hargs]
    cases w.args <;> rfl
  rw [succeeds, runAll]
  refine .bind (.bind (hcall.mono ?_))
  rintro _ w' rfl
  rw [runAll]
  refine .pure (.bind (.get (.pure ⟨?_, by rw [hv]⟩)))
  cases w.args <;> rfl

/-- The first argument is taken away. -/
lemma does_shift (hshift : w.functions.lookup "shift".toList = none) {a : List Char}
    {args : List (List Char)} (hargs : w.args = a :: args) (i : Nat) {fuel : Nat}
    (hfuel : 20 ≤ fuel) :
    Does (run (.simple i [] [plainWord "shift".toList] []) false fuel) w fun _ w' =>
      w' = { w with args, line := i, substStatus := 0, status := 0 } := by
  obtain ⟨fuel, rfl⟩ : ∃ n, fuel = n + 2 := ⟨fuel - 2, by omega⟩
  obtain ⟨v, hv⟩ : ∃ v : World, v = { w with line := i, substStatus := 0 } := ⟨_, rfl⟩
  have hargs' : v.args = a :: args := by rw [hv, ← hargs]
  refine run_call ?_
  rw [← hv]
  have hwords : List.Forall₂ (Denotes v) [plainWord "shift".toList] ["shift".toList] :=
    .cons (.plain (by decide)) .nil
  refine ⟨_, v, run_allFields (n := 5) hwords (by simp [plainWord]) (by simp; omega), _, _, rfl,
    by decide, ?_⟩
  refine call_builtin (by rw [hv]; exact hshift) (by decide) ?_
  refine .bind (.pure (.bind (.get ?_)))
  rw [if_neg (by simp [hargs'])]
  refine ⟨_, { v with args }, ?_, 0, rfl, .bind (.get ?_)⟩
  · rw [hargs']
    rfl
  · rw [if_neg (by simp)]
    exact .pure (by rw [hv])

/-- The world after a variable was set. -/
def World.give (w : World) (n value : List Char) : World :=
  { w with vars := (n, value) :: w.vars.filter (·.1 != n) }

/-- The first argument is taken over. -/
lemma does_takeOver {n value : List Char} (hargs : w.args.head? = some value) (hfixed : n ∉ w.fixed)
    (hallowed : isAllowed n value = true) (i : Nat) {fuel : Nat} (hfuel : 20 ≤ fuel) :
    Does (run (.simple i [(n, [.quote, .param ['1'] .value [] true])] [] []) false fuel) w
      fun _ w' =>
        w' = { w.give n value with line := i, substStatus := 0, status := 0 } := by
  obtain ⟨fuel, rfl⟩ : ∃ k, fuel = k + 3 := ⟨fuel - 3, by omega⟩
  exact run_assign_of_textOf
    ⟨value, _, Joins.argument hargs _ (fuel + 1) rfl rfl (by omega), hfixed, hallowed, rfl, rfl,
      rfl⟩

/-! ## Cases -/

/-- Without backslashes a plain text stays as it is. -/
lemma quotedBehind_plain {cs : List Char} (h : '\\' ∉ cs) :
    quotedBehind cs = cs.map (·, false) := by
  induction cs with
  | nil => rfl
  | cons c cs ih =>
    rw [List.mem_cons, not_or] at h
    rw [quotedBehind, ih h.2, beq_false_of_ne (Ne.symm h.1), List.map_cons]
    rintro _ _ rfl
    exact absurd rfl h.1

/-- A pattern without marks and backslashes fits itself only. -/
lemma matchesPattern_plain {cs : List Char} (h : ∀ c ∈ cs, c ∉ ['*', '?', '[', '\\'])
    (text : List Char) :
    matchesPattern (cs.map (·, false)) text = (text == cs) := by
  have hpattern (k : Nat) : patternOf (cs.length + 1 + k) (cs.map (·, false)) = cs.map .char := by
    induction cs with
    | nil => cases k <;> rfl
    | cons c cs ih =>
      have hc := h c (by simp)
      simp only [List.mem_cons, List.not_mem_nil, or_false, not_or] at hc
      have ih := ih fun d hd => h d (by simp [hd])
      rw [List.length_cons, show cs.length + 1 + 1 + k = (cs.length + 1 + k) + 1 by omega,
        List.map_cons, patternOf.eq_def]
      simp [hc, ih]
  have hfits (ds : List Char) : fitsPattern (cs.map .char) ds = (ds == cs) := by
    clear hpattern h
    induction cs generalizing ds with
    | nil => cases ds <;> rfl
    | cons c cs ih =>
      cases ds with
      | nil => rfl
      | cons d ds =>
        rw [List.map_cons, fitsPattern]
        · rw [ih]
          rfl
        · exact nofun
  have hlength := hpattern 0
  rw [matchesPattern, settled_plain, quotedBehind_plain fun hc => h _ hc (by simp), fitsSettled,
    List.length_map, ← Nat.add_zero (cs.length + 1), hlength, hfits]

open Script (IsOptionCase IsArgumentLoop)

/-- The case of a variable takes an option and the value behind it. -/
lemma does_optionCase {n a value : List Char} {rest : List (List Char)}
    {x : List Word × List Command} (hx : IsOptionCase n x)
    (hshift : w.functions.lookup "shift".toList = none) (hargs : w.args = a :: value :: rest)
    (hfixed : n ∉ w.fixed) (hallowed : isAllowed n value = true) {fuel : Nat} (hfuel : 30 ≤ fuel) :
    Does (runAll x.2 false fuel) w fun _ w' =>
      ∃ k, w' = { w.give n value with args := rest, line := k, substStatus := 0, status := 0 } := by
  obtain ⟨i, j, k, rfl⟩ := hx
  obtain ⟨fuel, rfl⟩ : ∃ m, fuel = m + 4 := ⟨fuel - 4, by omega⟩
  rw [runAll]
  refine .bind ((does_shift hshift hargs i (by omega)).mono ?_)
  rintro _ w₁ rfl
  rw [runAll]
  refine .bind ((does_takeOver
    (w := { w with args := value :: rest, line := i, substStatus := 0, status := 0 }) rfl
    hfixed hallowed j (show 20 ≤ fuel + 2 by omega)).mono ?_)
  rintro _ w₂ rfl
  rw [runAll]
  refine .bind ((does_shift
    (w := { w.give n value with args := value :: rest, line := j, substStatus := 0, status := 0 })
    hshift rfl k (show 20 ≤ fuel + 1 by omega)).mono ?_)
  rintro _ w₃ rfl
  rw [runAll]
  exact .pure ⟨k, rfl⟩

/-- An option is a name behind two hyphens. -/
def optionText (n : List Char) : List Char :=
  '-' :: '-' :: n

/-- Does the option fit the pattern of a variable? -/
lemma does_fitsAny {n : List Char} (hn : isName n = true) (text : List Char) {fuel : Nat}
    (hfuel : n.length + 10 ≤ fuel) :
    Does (fitsAny text [plainWord (optionText n)] fuel) w fun b w' => b = (text == optionText n) ∧
      w' = w := by
  obtain ⟨fuel, rfl⟩ : ∃ m, fuel = m + 2 := ⟨fuel - 2, by omega⟩
  have hmarks : ∀ c ∈ optionText n, c ∉ ['*', '?', '[', '\\'] := by
    obtain ⟨_, _, rfl, -, hall⟩ := exists_of_isName hn
    intro c hc hmark
    simp only [List.mem_cons, List.not_mem_nil, or_false] at hmark
    have hnone : isNameChar c = false ∧ c ≠ '-' := by
      rcases hmark with rfl | rfl | rfl | rfl <;> exact ⟨rfl, by decide⟩
    rcases List.mem_cons.mp hc with rfl | hc
    · exact hnone.2 rfl
    · rcases List.mem_cons.mp hc with rfl | hc
      · exact hnone.2 rfl
      · rw [hall c hc] at hnone
        cases hnone.1
  have hexpand : (expandParts (plainWord (optionText n)) (fuel + 1)).run w =
      (.ok ((optionText n).map (.char · false)), w) :=
    Expands.chars (optionText n) false (fuel + 1) (by simp [optionText]; omega)
  rw [fitsAny]
  refine .bind ⟨_, w, hexpand, ?_⟩
  dsimp only
  rw [patternText_chars, matchesPattern_plain hmarks]
  cases text == optionText n with
  | true => exact .pure ⟨rfl, rfl⟩
  | false =>
    rw [fitsAny]
    exact .pure ⟨rfl, rfl⟩

/-- The fuel for the cases of variables. -/
def casesCost : List (List Char) → Nat
  | [] => 30
  | n :: ns => n.length + 10 + casesCost ns

/-- What runs one case can be run whatever the variables are. -/
lemma le_casesCost (ns : List (List Char)) : 30 ≤ casesCost ns := by
  induction ns with
  | nil => exact Nat.le_refl 30
  | cons n ns ih => exact Nat.le_add_left_of_le ih

/-- Of the cases of variables, the one is run whose option is there. -/
lemma does_runCases {ns : List (List Char)} (hns : ∀ n ∈ ns, isName n = true)
    {xs r : List (List Word × List Command)} (hxs : List.Forall₂ IsOptionCase ns xs)
    {n value : List Char} (hn : n ∈ ns) {rest : List (List Char)}
    (hshift : w.functions.lookup "shift".toList = none)
    (hargs : w.args = optionText n :: value :: rest) (hfixed : n ∉ w.fixed)
    (hallowed : isAllowed n value = true) {fuel : Nat} (hfuel : casesCost ns ≤ fuel) :
    Does (runCases (optionText n) (xs ++ r) false fuel) w fun _ w' =>
      ∃ k, w' = { w.give n value with args := rest, line := k, substStatus := 0, status := 0 } := by
  induction hxs generalizing fuel with
  | nil => cases hn
  | @cons m x ns xs hx hxs ih =>
    rw [casesCost] at hfuel
    have hcost := le_casesCost ns
    obtain ⟨fuel, rfl⟩ := Nat.exists_eq_add_one_of_ne_zero (show fuel ≠ 0 by omega)
    have hpattern : x.1 = [plainWord (optionText m)] := by
      obtain ⟨_, _, _, rfl⟩ := hx
      rfl
    rw [List.cons_append, runCases]
    rw [hpattern]
    refine .bind ((does_fitsAny (hns m (by simp)) (optionText n) (by omega)).mono ?_)
    rintro _ w' ⟨rfl, hw'⟩
    rw [hw']
    by_cases hmn : n = m
    · subst hmn
      rw [beq_self_eq_true, if_pos rfl]
      refine .bind (.modify ?_)
      exact does_optionCase (w := { w with status := 0 }) hx hshift hargs hfixed hallowed
        (show 30 ≤ fuel by omega)
    · have hne : (optionText n == optionText m) = false := by
        simpa [optionText] using hmn
      rw [hne, if_neg (by decide)]
      exact ih (fun k hk => hns k (by simp [hk])) ((List.mem_cons.mp hn).resolve_left hmn)
        (by omega)

/-- The selection takes the variable whose option is the first argument. -/
lemma does_select {ns : List (List Char)} (hns : ∀ n ∈ ns, isName n = true)
    {xs r : List (List Word × List Command)} (hxs : List.Forall₂ IsOptionCase ns xs)
    {n value : List Char} (hn : n ∈ ns) {rest : List (List Char)}
    (hshift : w.functions.lookup "shift".toList = none)
    (hargs : w.args = optionText n :: value :: rest) (hfixed : n ∉ w.fixed)
    (hallowed : isAllowed n value = true) (j : Nat) {fuel : Nat} (hfuel : casesCost ns + 2 ≤ fuel) :
    Does (run (.select j [.quote, .param ['1'] .value [] true] (xs ++ r) []) false fuel) w
      fun _ w' =>
        ∃ k,
          w' = { w.give n value with args := rest, line := k, substStatus := 0, status := 0 } := by
  have hcost := le_casesCost ns
  obtain ⟨fuel, rfl⟩ : ∃ m, fuel = m + 2 := ⟨fuel - 2, by omega⟩
  have hhead : w.args.head? = some (optionText n) := by
    rw [hargs]
    rfl
  have htext : (textOf [.quote, .param ['1'] .value [] true] (fuel + 1)).run { w with line := j } =
      (.ok (optionText n), { w with line := j }) :=
    Joins.argument hhead _ (fuel + 1) rfl rfl (by omega)
  rw [run]
  refine .bind (.modify (.bind ⟨_, _, htext, ?_⟩))
  dsimp only
  rw [withRedirects, if_pos (by rfl)]
  exact does_runCases (w := { w with line := j }) hns hxs hn hshift hargs hfixed hallowed (by omega)

/-! ## The loop -/

/-- One turn takes an option and the value behind it. -/
lemma does_turn {ns : List (List Char)} (hns : ∀ n ∈ ns, isName n = true)
    {xs r : List (List Word × List Command)} (hxs : List.Forall₂ IsOptionCase ns xs)
    {n value : List Char} (hn : n ∈ ns) {rest : List (List Char)}
    (hshift : w.functions.lookup "shift".toList = none)
    (hargs : w.args = optionText n :: value :: rest) (hfixed : n ∉ w.fixed)
    (hallowed : isAllowed n value = true) (j : Nat) {fuel : Nat} (hfuel : casesCost ns + 5 ≤ fuel) :
    Does (runOnce [.select j [.quote, .param ['1'] .value [] true] (xs ++ r) []] false fuel) w
      fun goesOn w' =>
        goesOn = true ∧
        ∃ k,
          w' = { w.give n value with args := rest, line := k, substStatus := 0, status := 0 } := by
  obtain ⟨fuel, rfl⟩ : ∃ m, fuel = m + 3 := ⟨fuel - 3, by omega⟩
  have hselect :=
    does_select (w := { w with loops := w.loops + 1 }) (r := r) hns hxs hn hshift hargs hfixed
      hallowed j
    (show casesCost ns + 2 ≤ fuel + 1 by omega)
  rw [runOnce]
  refine .bind (.get (.bind (.modify (.bind (.tryCatch ?_)))))
  rw [runAll]
  refine .bind (.bind (hselect.mono ?_))
  rintro _ _ ⟨k, rfl⟩
  rw [runAll]
  exact .pure (.pure (.bind (.modify (.pure ⟨rfl, k, rfl⟩))))

/-- A pair of a variable and a value that the loop can take. A separator that is a digit would spoil
the count. -/
structure CanTake (ns fixed : List (List Char)) (p : List Char × List Char) : Prop where
  mem : p.1 ∈ ns
  free : p.1 ∉ fixed
  allowed : isAllowed p.1 p.2 = true
  digits : p.1 = "IFS".toList → ∀ c ∈ p.2, isDigit c = false

/-- The world after the variables were set, one after the other. -/
def World.giveAll (w : World) (pairs : List (List Char × List Char)) : World :=
  { w with vars := pairs.foldl (fun vars p => p :: vars.filter (·.1 != p.1)) w.vars }

/-- The arguments of pairs of variables and values. -/
def optionArgs (pairs : List (List Char × List Char)) : List (List Char) :=
  pairs.flatMap fun p => [optionText p.1, p.2]

/-- The loop can still count after a turn. -/
lemma CanCount.give (h : CanCount w) {n value : List Char}
    (hdigits : n = "IFS".toList → ∀ c ∈ value, isDigit c = false) : CanCount (w.give n value) where
  test := h.test
  shift := h.shift
  digits := by
    have hsets : Sets w n value (w.give n value) := ⟨rfl, rfl, rfl⟩
    rw [separators, hsets.lookup]
    split
    · rename_i hn
      exact hdigits hn.symm
    · exact h.digits

/-- The loop takes all pairs, one after the other. -/
lemma does_runLoop {ns : List (List Char)} (hns : ∀ n ∈ ns, isName n = true)
    {xs r : List (List Word × List Command)} (hxs : List.Forall₂ IsOptionCase ns xs) (i j : Nat)
    {pairs : List (List Char × List Char)} (hpairs : ∀ p ∈ pairs, CanTake ns w.fixed p)
    (hcount : CanCount w) (hargs : w.args = optionArgs pairs) {fuel : Nat}
    (hfuel : casesCost ns + pairs.length + 10 ≤ fuel) :
    Does (runLoop false
        [.simple i [] [plainWord "test".toList, [.param ['#'] .value [] false],
          plainWord "-gt".toList,
          plainWord "0".toList] []]
        [.select j [.quote, .param ['1'] .value [] true] (xs ++ r) []] false 0 fuel) w fun _ w' =>
      ∃ k, w' = { w.giveAll pairs with args := [], line := k, substStatus := 0, status := 0 } := by
  have hcost := le_casesCost ns
  -- Each turn leaves a world in which the loop can go on with the pairs that are left.
  induction pairs generalizing w fuel with
  | nil =>
    obtain ⟨fuel, rfl⟩ := Nat.exists_eq_add_one_of_ne_zero (show fuel ≠ 0 by omega)
    rw [runLoop]
    refine .bind ((does_test hcount i (by simp at hfuel; omega)).mono ?_)
    rintro _ w' ⟨rfl, rfl⟩
    rw [hargs, if_neg (by simp [optionArgs])]
    exact .modify ⟨i, rfl⟩
  | cons p pairs ih =>
    obtain ⟨fuel, rfl⟩ := Nat.exists_eq_add_one_of_ne_zero (show fuel ≠ 0 by omega)
    rw [List.length_cons] at hfuel
    have hp := hpairs p (by simp)
    rw [runLoop]
    refine .bind ((does_test hcount i (by omega)).mono ?_)
    rintro _ w' ⟨rfl, rfl⟩
    rw [hargs, if_pos (by simp [optionArgs])]
    refine .bind ((does_turn
      (w := { w with args := optionArgs (p :: pairs), line := i, substStatus := 0, status := 0 })
      hns hxs hp.mem hcount.shift rfl hp.free hp.allowed j
        (show casesCost ns + 5 ≤ fuel by omega)).mono ?_)
    rintro _ w' ⟨rfl, k, rfl⟩
    rw [if_pos rfl]
    refine .bind (.get ?_)
    have hcount' := hcount.give hp.digits
    exact ih
      (w :=
        { w.give p.1 p.2 with args := optionArgs pairs, line := k, substStatus := 0, status := 0 })
      (fun q hq => hpairs q (by simp [hq])) ⟨hcount'.test, hcount'.shift, hcount'.digits⟩ rfl
      (show casesCost ns + pairs.length + 10 ≤ fuel by omega)

/-- The command of the loop takes all pairs. -/
lemma does_argumentLoop {vs : List Variable} (hvs : ∀ v ∈ vs, Name.Valid v.name) {c : Command}
    (hc : IsArgumentLoop vs c) {pairs : List (List Char × List Char)}
    (hpairs : ∀ p ∈ pairs, CanTake (vs.map (·.name.toList)) w.fixed p) (hcount : CanCount w)
    (hargs : w.args = optionArgs pairs) {fuel : Nat}
    (hfuel : casesCost (vs.map (·.name.toList)) + pairs.length + 12 ≤ fuel) :
    Does (run c false fuel) w fun _ w' =>
      ∃ k, w' = { w.giveAll pairs with args := [], line := k, substStatus := 0, status := 0 } := by
  obtain ⟨i, j, xs, r, hxs, rfl⟩ := hc
  obtain ⟨fuel, rfl⟩ : ∃ m, fuel = m + 2 := ⟨fuel - 2, by omega⟩
  have hnames : ∀ n ∈ vs.map (·.name.toList), isName n = true := by
    intro n hn
    obtain ⟨v, hv, rfl⟩ := List.mem_map.mp hn
    exact isName_of_valid (hvs v hv)
  rw [run, withRedirects, if_pos (by rfl)]
  exact does_runLoop hnames (List.forall₂_map_left_iff.mpr hxs) i j hpairs hcount hargs (by omega)

/-- The shell reads the loop of a script as one command, which takes all pairs. -/
lemma evaluates_argumentLoop (name : String) {t : Template} {path : Option String}
    (hvars : ∀ v ∈ t.vars, Name.Valid v.name)
    (htexts : ∀ v ∈ t.vars, ∀ d, v.description = some d → Quotable d)
    (hpath : Quotable (OutputPath.forHelp path)) {pairs : List (List Char × List Char)}
    (hpairs : ∀ p ∈ pairs, CanTake (t.vars.map (·.name.toList)) w.fixed p) (hcount : CanCount w)
    (hargs : w.args = optionArgs pairs) :
    Evaluates w (scanned (Script.argumentLoop name t path) ++ ['\n']) fun w' =>
      ∃ k, w' = { w.giveAll pairs with args := [], line := k, substStatus := 0, status := 0 } := by
  intro r rest hr
  rw [List.append_assoc] at hr
  obtain ⟨c, r', hnext, hc, hr'⟩ :=
    Reader.next_command (Script.commandText_argumentLoop name hvars htexts hpath) hr
  exact ⟨c, r', hnext, hr', _,
    fun fuel hfuel => does_argumentLoop hvars hc hpairs hcount hargs hfuel⟩

end Stencil.Shell
