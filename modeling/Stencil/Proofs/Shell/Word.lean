import Mathlib.Tactic.Common
import Stencil.Proofs.Quotation
import Stencil.Shell.Parse

/-!
# Reading words

What the reader makes of the words of a script. The statements say what a text reads as whatever
follows it, given what the text behind it reads as.
-/

namespace Stencil.Shell

namespace Reader

/-- No token is in reserve, and no lines are waited for. -/
structure Calm (s : Reader) : Prop where
  pushed : s.pushed = false
  pending : s.pending = []

end Reader

/-- A step that succeeds is followed by the next one. -/
lemma run_bind_of {α β : Type} {x : ReadM α} {f : α → ReadM β} {s s' : Reader} {a : α}
    (h : x.run s = .ok (a, s')) : (x >>= f).run s = (f a).run s' := by
  rw [StateT.run_bind, h]
  rfl

/-- Looking at the reader moves nothing. -/
lemma run_get (s : Reader) : (get : ReadM Reader).run s = .ok (s, s) :=
  rfl

/-- The reading succeeds with a result that satisfies `Q`, and the rest of the text is unread. -/
def Leaves {α : Type} (r : Except SyntaxError (α × Reader)) (Q : α → Prop) (rest : List Char) :
    Prop :=
  ∃ a s, r = .ok (a, s) ∧ Q a ∧ s.rest = rest ∧ s.Calm

namespace Leaves

variable {α β : Type} {x : ReadM α} {f : α → ReadM β} {s : Reader} {rest mid : List Char}

/-- Giving a value leaves the text. -/
lemma pure {a : α} {Q : α → Prop} (ha : Q a) (hs : s.rest = rest) (hc : s.Calm) :
    Leaves ((Pure.pure a : ReadM α).run s) Q rest :=
  ⟨a, s, rfl, ha, hs, hc⟩

/-- The result may be described by less. -/
lemma mono {P Q : α → Prop} (h : Leaves (x.run s) P rest) (hPQ : ∀ a, P a → Q a) :
    Leaves (x.run s) Q rest := by
  obtain ⟨a, s', e, ha, hs, hc⟩ := h
  exact ⟨a, s', e, hPQ a ha, hs, hc⟩

/-- What two steps leave is what the second leaves of what the first left. -/
lemma bind {P : α → Prop} {Q : β → Prop} (hx : Leaves (x.run s) P mid)
    (hf : ∀ a s', P a → s'.rest = mid → s'.Calm → Leaves ((f a).run s') Q rest) :
    Leaves ((x >>= f).run s) Q rest := by
  obtain ⟨a, s', e, ha, hs, hc⟩ := hx
  rw [run_bind_of e]
  exact hf a s' ha hs hc

/-- A result that is only changed leaves what is left without the change. -/
lemma map_iff {g : α → β} {Q : β → Prop} :
    Leaves ((x >>= fun a => Pure.pure (g a) : ReadM β).run s) Q rest ↔
      Leaves (x.run s) (fun a => Q (g a)) rest := by
  rw [StateT.run_bind]
  constructor
  · rintro ⟨b, s', e, hb, hs, hc⟩
    cases hx : x.run s with
    | error _ =>
      rw [hx] at e
      cases e
    | ok r =>
      rw [hx] at e
      cases e
      exact ⟨_, _, rfl, hb, hs, hc⟩
  · rintro ⟨a, s', e, ha, hs, hc⟩
    rw [e]
    exact ⟨_, _, rfl, ha, hs, hc⟩

end Leaves

/-! ## Single steps -/

/-- The text does not start with a line break behind a backslash. -/
def NoJoin (text : List Char) : Prop :=
  ∀ rest, text ≠ '\\' :: '\n' :: rest

/-- A text that does not start with a backslash joins no lines. -/
lemma NoJoin.cons {c : Char} (h : c ≠ '\\') (cs : List Char) : NoJoin (c :: cs) := by
  intro rest e
  exact h (List.cons.inj e).1

/-- Where no lines are joined, the next character is the first of what is left. -/
lemma run_peek {s : Reader} (h : NoJoin s.rest) : peek?.run s = .ok (s.rest.head?, s) := by
  have hd : (dropJoins (s.rest.length + 1)).run s = .ok ((), s) := by
    rw [dropJoins, run_bind_of (run_get s)]
    split
    · rename_i r hr
      exact absurd hr (h r)
    · rfl
  show ((dropJoins (s.rest.length + 1) >>= fun _ => _ : ReadM _).run s) = _
  rw [StateT.run_bind, hd]
  rfl

section

variable {s : Reader} {c : Char} {cs : List Char}

/-- Peeking sees the first character and leaves it. -/
lemma peek_leaves (hs : s.rest = c :: cs) (hc : s.Calm) (hj : c ≠ '\\') :
    Leaves (peek?.run s) (· = some c) (c :: cs) := by
  refine ⟨some c, s, ?_, rfl, hs, hc⟩
  rw [run_peek (hs ▸ NoJoin.cons hj cs), hs]
  rfl

/-- Looking at the reader leaves the text. -/
lemma get_leaves (hs : s.rest = cs) (hc : s.Calm) :
    Leaves ((get : ReadM Reader).run s) (· = s) cs :=
  ⟨s, s, rfl, rfl, hs, hc⟩

/-- Skipping takes one character. -/
lemma skip_leaves (hs : s.rest = c :: cs) (hc : s.Calm) :
    Leaves (skip.run s) (fun _ => True) cs := by
  refine ⟨(), _, rfl, trivial, ?_, ?_⟩
  · simp [hs]
  · simp only [hs]
    exact ⟨hc.pushed, hc.pending⟩

/-- Skipping takes as many characters as it is told to. -/
lemma skipBy_leaves {ds : List Char} (hs : s.rest = cs ++ ds) (hc : s.Calm) :
    Leaves ((skipBy cs.length).run s) (fun _ => True) ds := by
  refine ⟨(), _, rfl, trivial, ?_, ?_⟩
  · simp [hs]
  · exact ⟨hc.pushed, hc.pending⟩

/-- Skipping a mark takes one character. -/
lemma skipMark_leaves (hs : s.rest = c :: cs) (hc : s.Calm) :
    Leaves (skipMark.run s) (fun _ => True) cs := by
  refine ⟨(), _, rfl, trivial, ?_, ?_⟩
  · simp [hs]
  · exact ⟨hc.pushed, hc.pending⟩

end

/-! ## Parts of words -/

/-- The text reads in the mode as parts that satisfy `Q`, up to the rest. -/
def Yields (m : Mode) (text : List Char) (Q : Word → Prop) (rest : List Char) : Prop :=
  ∀ (s : Reader) (fuel : Nat), s.rest = text → s.Calm → 20 * text.length + 1 ≤ fuel →
    Leaves ((parts m fuel).run s) Q rest

namespace Yields

variable {m : Mode} {text rest : List Char} {Q : Word → Prop}

/-- The word that is read may be described by less. -/
lemma mono {P : Word → Prop} (h : Yields m text P rest) (hPQ : ∀ w, P w → Q w) :
    Yields m text Q rest :=
  fun s fuel hs hc hf => (h s fuel hs hc hf).mono hPQ

/-- Backslashes and line breaks mean something in every mode. -/
lemma ne_of_isOrdinary {c : Char} (h : m.isOrdinary c = true) : c ≠ '\\' ∧ c ≠ '\n' := by
  constructor <;> rintro rfl <;> cases m <;> simp [Mode.isOrdinary] at h

/-- A run of ordinary characters holds no line break, so the reader stays on its line. -/
lemma run_ordinary (s : Reader) :
    (ordinary m).run s = .ok ((s.rest.takeWhile m.isOrdinary).map fun c => Part.char c m.isQuoted,
      { s with rest := s.rest.dropWhile m.isOrdinary }) := by
  have hcount : (s.rest.takeWhile m.isOrdinary).count '\n' = 0 := by
    refine List.count_eq_zero.mpr fun hn => ?_
    exact (ne_of_isOrdinary (List.mem_takeWhile_imp hn)).2 rfl
  have hsplit := List.takeWhile_append_dropWhile (p := m.isOrdinary) (l := s.rest)
  have htake :
      s.rest.take (s.rest.takeWhile m.isOrdinary).length = s.rest.takeWhile m.isOrdinary := by
    conv => lhs; arg 2; rw [← hsplit]
    exact List.take_left
  have hdrop :
      s.rest.drop (s.rest.takeWhile m.isOrdinary).length = s.rest.dropWhile m.isOrdinary := by
    conv => lhs; arg 2; rw [← hsplit]
    exact List.drop_left
  show Except.ok (_, { s with rest := _, line := _ }) = _
  rw [htake, hdrop, hcount]
  rfl

/-- An ordinary character starts a run of them. -/
lemma run_parts_ordinary {s : Reader} {c : Char} (hs : s.rest = c :: text)
    (hc : m.isOrdinary c = true) (fuel : Nat) :
    (parts m (fuel + 1)).run s =
      ((parts m fuel >>= fun w =>
        pure (.char c m.isQuoted :: ((text.takeWhile m.isOrdinary).map (.char · m.isQuoted) ++ w)) :
          ReadM Word)).run { s with rest := text.dropWhile m.isOrdinary } := by
  rw [parts.eq_def]
  dsimp only
  rw [StateT.run_bind, run_peek (hs ▸ NoJoin.cons (ne_of_isOrdinary hc).1 text), hs]
  show StateT.run (if m.isOrdinary c = true then _ else _) s = _
  rw [if_pos hc, StateT.run_bind, run_ordinary, hs, List.takeWhile_cons_of_pos hc,
    List.dropWhile_cons_of_pos hc]
  rfl

/-- An ordinary character stands for itself. -/
lemma char {c : Char} (hc : m.isOrdinary c = true)
    (h : Yields m text (fun w => Q (.char c m.isQuoted :: w)) rest) :
    Yields m (c :: text) Q rest := by
  intro s fuel hs hcalm hf
  rw [List.length_cons] at hf
  obtain ⟨fuel, rfl⟩ := Nat.exists_eq_add_one_of_ne_zero (show fuel ≠ 0 by omega)
  rw [run_parts_ordinary hs hc]
  -- The reader takes a whole run at once, so the text behind the character may be read in the same
  -- step.
  cases text with
  | nil =>
    exact Leaves.map_iff.mpr
      (h { s with rest := [] } fuel rfl ⟨hcalm.pushed, hcalm.pending⟩ (by simp at hf ⊢; omega))
  | cons d ds =>
    cases hd : m.isOrdinary d with
    | true =>
      have h' :=
        h { s with rest := d :: ds } (fuel + 1) rfl ⟨hcalm.pushed, hcalm.pending⟩ (by omega)
      rw [run_parts_ordinary rfl hd, Leaves.map_iff] at h'
      rw [Leaves.map_iff, List.takeWhile_cons_of_pos hd, List.dropWhile_cons_of_pos hd]
      exact h'
    | false =>
      rw [Leaves.map_iff, List.takeWhile_cons_of_neg (by simp [hd]),
        List.dropWhile_cons_of_neg (by simp [hd])]
      exact h _ _ rfl ⟨hcalm.pushed, hcalm.pending⟩ (by omega)

/-- A row of ordinary characters stands for itself. -/
lemma chars {cs : List Char} (hcs : ∀ c ∈ cs, m.isOrdinary c = true)
    (h : Yields m text (fun w => Q (cs.map (.char · m.isQuoted) ++ w)) rest) :
    Yields m (cs ++ text) Q rest := by
  induction cs generalizing Q with
  | nil => exact h
  | cons c cs ih => exact char (hcs c (by simp)) (ih (fun d hd => hcs d (by simp [hd])) h)

/-- The reader looks at the first character to tell what to do. -/
lemma run_parts {s : Reader} {c : Char} {fuel : Nat} {g : Option Char → ReadM Word}
    (hg : parts m (fuel + 1) = peek? >>= g) (hs : s.rest = c :: text) (hj : NoJoin (c :: text)) :
    (parts m (fuel + 1)).run s = (g (some c)).run s := by
  rw [hg, StateT.run_bind, run_peek (hs ▸ hj), hs]
  rfl

/-- A dollar is ordinary nowhere. -/
lemma isOrdinary_dollar (m : Mode) : m.isOrdinary '$' = false := by
  cases m <;> simp [Mode.isOrdinary]

/-- A substitution stands for what it reads as. -/
lemma dollar {P : Word → Prop} (mid : List Char) (hlen : mid.length ≤ text.length)
    (hd : ∀ (s : Reader)
    (fuel : Nat), s.rest = '$' :: text → s.Calm → 20 * text.length + 20 ≤ fuel →
      Leaves ((Shell.dollar m fuel).run s) P mid)
    (h : ∀ v, P v → Yields m mid (fun w => Q (v ++ w)) rest) : Yields m ('$' :: text) Q rest := by
  intro s fuel hs hcalm hf
  rw [List.length_cons] at hf
  obtain ⟨fuel, rfl⟩ := Nat.exists_eq_add_one_of_ne_zero (show fuel ≠ 0 by omega)
  rw [run_parts (parts.eq_def m (fuel + 1)) hs (NoJoin.cons (by decide) text)]
  dsimp only
  rw [isOrdinary_dollar, if_neg (by decide), if_neg (by decide), if_pos (by decide)]
  refine (hd s fuel hs hcalm (by omega)).bind fun v s' hv hs' hcalm' => ?_
  exact Leaves.map_iff.mpr (h v hv s' fuel hs' hcalm' (by omega))

/-- In double quotes a special character behind a backslash is itself. -/
lemma backslash_leaves {c : Char} {s : Reader} {b : Bool} (hs : s.rest = '\\' :: c :: text)
    (hcalm : s.Calm) (hc : Escape.isSpecial c = true) :
    Leaves ((backslash (.quotes b)).run s) (· = [.char c true]) text := by
  unfold backslash
  refine (skip_leaves hs hcalm).bind fun _ s' _ hs' hcalm' => ?_
  rw [run_bind_of (run_get s'), hs']
  refine (skip_leaves hs' hcalm').bind fun _ s'' _ hs'' hcalm'' => ?_
  refine Leaves.pure ?_ hs'' hcalm''
  rw [if_pos]
  simp only [Escape.isSpecial, Bool.or_eq_true, beq_iff_eq] at hc
  rcases hc with ((rfl | rfl) | rfl) | rfl <;> rfl

/-- A special character behind a backslash stands for itself between double quotes. -/
lemma escaped {b : Bool} {c : Char} (hc : Escape.isSpecial c = true)
    (h : Yields (.quotes b) text (fun w => Q (.char c true :: w)) rest) :
    Yields (.quotes b) ('\\' :: c :: text) Q rest := by
  intro s fuel hs hcalm hf
  simp only [List.length_cons] at hf
  obtain ⟨fuel, rfl⟩ := Nat.exists_eq_add_one_of_ne_zero (show fuel ≠ 0 by omega)
  have hj : NoJoin ('\\' :: c :: text) := by
    intro r e
    injection e with _ e
    obtain rfl := (List.cons.inj e).1
    revert hc
    decide
  rw [run_parts (parts.eq_def _ (fuel + 1)) hs hj]
  dsimp only
  rw [if_neg (by simp [Mode.isOrdinary]), if_pos (by decide)]
  refine (backslash_leaves hs hcalm hc).bind fun v s' hv hs' hcalm' => ?_
  obtain rfl := hv
  exact Leaves.map_iff.mpr (h s' fuel hs' hcalm' (by omega))

/-- A line break stands for itself between double quotes. -/
lemma newline {b : Bool} (h : Yields (.quotes b) text (fun w => Q (.char '\n' true :: w)) rest) :
    Yields (.quotes b) ('\n' :: text) Q rest := by
  intro s fuel hs hcalm hf
  rw [List.length_cons] at hf
  obtain ⟨fuel, rfl⟩ := Nat.exists_eq_add_one_of_ne_zero (show fuel ≠ 0 by omega)
  rw [run_parts (parts.eq_def _ (fuel + 1)) hs (NoJoin.cons (by decide) text)]
  dsimp only
  rw [if_neg (by simp [Mode.isOrdinary]), if_neg (by decide), if_neg (by decide),
    if_neg (by decide)]
  refine (skip_leaves hs hcalm).bind fun _ s' _ hs' hcalm' => ?_
  exact Leaves.map_iff.mpr (h s' fuel hs' hcalm' (by omega))

/-- A double quote ends the text between double quotes. -/
lemma closeQuote {b : Bool} (h : Q []) : Yields (.quotes b) ('\x22' :: rest) Q rest := by
  intro s fuel hs hcalm hf
  obtain ⟨fuel, rfl⟩ := Nat.exists_eq_add_one_of_ne_zero (show fuel ≠ 0 by omega)
  rw [run_parts (parts.eq_def _ (fuel + 1)) hs (NoJoin.cons (by decide) rest)]
  dsimp only
  rw [if_neg (by simp [Mode.isOrdinary]), if_neg (by decide), if_neg (by decide),
    if_neg (by decide)]
  refine (skip_leaves hs hcalm).bind fun _ s' _ hs' hcalm' => ?_
  exact Leaves.pure h hs' hcalm'

/-- A closing brace ends the text inside braces. -/
lemma closeBrace (h : Q []) : Yields .bareBraces ('}' :: rest) Q rest := by
  intro s fuel hs hcalm hf
  obtain ⟨fuel, rfl⟩ := Nat.exists_eq_add_one_of_ne_zero (show fuel ≠ 0 by omega)
  rw [run_parts (parts.eq_def _ (fuel + 1)) hs (NoJoin.cons (by decide) rest)]
  dsimp only
  rw [if_neg (by decide), if_neg (by decide), if_neg (by decide), if_neg (by decide)]
  refine (skip_leaves hs hcalm).bind fun _ s' _ hs' hcalm' => ?_
  exact Leaves.pure h hs' hcalm'

end Yields

/-! ## Parameters -/

/-- The text does not continue a name. -/
def EndsName (text : List Char) : Prop :=
  ∃ d rest, text = d :: rest ∧ isNameChar d = false ∧ d ≠ '\\'

/-- A character of a name differs from each that is none. -/
lemma ne_of_isNameChar {c d : Char} (hc : isNameChar c = true) (hd : isNameChar d = false) :
    c ≠ d := by
  rintro rfl
  rw [hc] at hd
  cases hd

/-- A name starts with a letter or an underscore. -/
lemma exists_of_isName {n : List Char} (h : isName n = true) :
    ∃ c cs, n = c :: cs ∧ isNameStart c = true ∧ ∀ d ∈ c :: cs, isNameChar d = true := by
  cases n with
  | nil => cases h
  | cons c cs =>
    simp only [isName, Bool.and_eq_true, List.all_eq_true] at h
    refine ⟨c, cs, rfl, h.1, fun d hd => ?_⟩
    rcases List.mem_cons.mp hd with rfl | hd
    · simp [isNameChar, h.1]
    · exact h.2 d hd

/-- The longest name is the one of a parameter. -/
lemma paramName_run_leaves {n text : List Char} (hn : ∀ c ∈ n, isNameChar c = true)
    (ht : EndsName text) :
    ∀ (fuel : Nat) (s : Reader), n.length < fuel → s.rest = n ++ text → s.Calm →
      Leaves ((paramName.run fuel).run s) (· = n) text := by
  obtain ⟨d, rest, rfl, hd, hb⟩ := ht
  induction n with
  | nil =>
    intro fuel s hf hs hc
    obtain ⟨fuel, rfl⟩ := Nat.exists_eq_add_one_of_ne_zero (Nat.ne_of_gt hf)
    rw [paramName.run]
    refine (peek_leaves hs hc hb).bind fun o s' ho hs' hc' => ?_
    subst ho
    simp only [hd, Bool.false_eq_true, if_false]
    exact Leaves.pure rfl hs' hc'
  | cons c n ih =>
    intro fuel s hf hs hc
    obtain ⟨fuel, rfl⟩ :=
      Nat.exists_eq_add_one_of_ne_zero (Nat.ne_of_gt (Nat.lt_of_le_of_lt (Nat.zero_le _) hf))
    have hcn := hn c (by simp)
    rw [paramName.run]
    refine (peek_leaves hs hc (ne_of_isNameChar hcn (by decide))).bind fun o s' ho hs' hc' => ?_
    subst ho
    simp only [hcn, if_true]
    refine (skip_leaves hs' hc').bind fun _ s'' _ hs'' hc'' => ?_
    refine Leaves.map_iff.mpr ((ih (fun c hc => hn c (by simp [hc])) fuel s'' ?_ hs'' hc'').mono ?_)
    · simpa using hf
    · rintro _ rfl
      rfl

/-- The name of a variable is read as far as it goes. -/
lemma paramName_leaves {s : Reader} {n text : List Char} (braced : Bool) (hn : isName n = true)
    (ht : EndsName text) (hs : s.rest = n ++ text) (hcalm : s.Calm) :
    Leaves ((paramName braced).run s) (· = n) text := by
  obtain ⟨c, n, rfl, hc, hall⟩ := exists_of_isName hn
  unfold paramName
  refine (peek_leaves hs hcalm (ne_of_isNameChar (hall c (by simp)) (by decide))).bind
    fun o s' ho hs' hcalm' => ?_
  subst ho
  simp only [hc, if_true]
  refine (get_leaves hs' hcalm').bind fun r s'' hr hs'' hcalm'' => ?_
  subst hr
  refine paramName_run_leaves hall ht _ s'' ?_ hs'' hcalm''
  have hrest : r.rest = c :: n ++ text := hs'
  rw [hrest, List.length_append]
  omega

/-- A plain value ends at the closing brace. -/
lemma operation_value_leaves {s : Reader} {n text : List Char} (hs : s.rest = '}' :: text)
    (hcalm : s.Calm) :
    Leaves ((bracedParam.operation n).run s) (· = (n, .value, true)) text := by
  unfold bracedParam.operation
  refine (peek_leaves hs hcalm (by decide)).bind fun o s₁ ho hs₁ hc₁ => ?_
  subst ho
  refine (skipMark_leaves hs₁ hc₁).bind fun _ s₂ _ hs₂ hc₂ => ?_
  exact Leaves.pure rfl hs₂ hc₂

/-- A colon and a dash stand before what replaces a missing or empty value. -/
lemma operation_default_leaves {s : Reader} {n text : List Char} (hs : s.rest = ':' :: '-' :: text)
    (hcalm : s.Calm) :
    Leaves ((bracedParam.operation n).run s) (· = (n, .default true, false)) text := by
  unfold bracedParam.operation
  refine (peek_leaves hs hcalm (by decide)).bind fun o s₁ ho hs₁ hc₁ => ?_
  subst ho
  refine (skipMark_leaves hs₁ hc₁).bind fun _ s₂ _ hs₂ hc₂ => ?_
  refine (peek_leaves hs₂ hc₂ (by decide)).bind fun o s₃ ho hs₃ hc₃ => ?_
  subst ho
  refine (skipMark_leaves hs₃ hc₃).bind fun _ s₄ _ hs₄ hc₄ => ?_
  exact Leaves.pure rfl hs₄ hc₄

/-- A name in braces, and what follows it there. -/
lemma bracedParam_leaves {s : Reader} {n text rest : List Char} {r : List Char × ParamOp × Bool}
    (hn : isName n = true) (ht : EndsName text) (hs : s.rest = n ++ text) (hcalm : s.Calm)
    (hop : ∀ s' : Reader, s'.rest = text → s'.Calm →
      Leaves ((bracedParam.operation n).run s') (· = r) rest) :
    Leaves (bracedParam.run s) (· = r) rest := by
  obtain ⟨c, n, rfl, hc, hall⟩ := exists_of_isName hn
  have hhash : (some c == some '#') = false := by
    simpa using ne_of_isNameChar (hall c (by simp)) (show isNameChar '#' = false by decide)
  unfold bracedParam
  refine (peek_leaves hs hcalm (ne_of_isNameChar (hall c (by simp)) (by decide))).bind
    fun o s₁ ho hs₁ hc₁ => ?_
  subst ho
  rw [hhash, if_neg (by decide)]
  refine (paramName_leaves true hn ht hs₁ hc₁).bind fun o s₂ ho hs₂ hc₂ => ?_
  subst ho
  exact hop s₂ hs₂ hc₂

/-- The reader looks at the character behind a dollar to tell what is asked for. -/
lemma dollar_leaves {m : Mode} {s : Reader} {c : Char} {text rest : List Char} {fuel : Nat}
    {g : Option Char → ReadM Word} {Q : Word → Prop}
    (hg : dollar m (fuel + 1) = skip >>= fun _ => peek? >>= g) (hs : s.rest = '$' :: c :: text)
    (hcalm : s.Calm) (hj : c ≠ '\\')
    (h : ∀ s' : Reader, s'.rest = c :: text → s'.Calm → Leaves ((g (some c)).run s') Q rest) :
    Leaves ((dollar m (fuel + 1)).run s) Q rest := by
  rw [hg]
  refine (skip_leaves hs hcalm).bind fun _ s₁ _ hs₁ hc₁ => ?_
  refine (peek_leaves hs₁ hc₁ hj).bind fun o s₂ ho hs₂ hc₂ => ?_
  subst ho
  exact h s₂ hs₂ hc₂

set_option linter.unusedSimpArgs false in
/-- A name behind a dollar asks for the value of a variable. -/
lemma dollar_name_leaves {m : Mode} {s : Reader} {n text : List Char} {fuel : Nat}
    (hn : isName n = true) (ht : EndsName text) (hs : s.rest = '$' :: (n ++ text)) (hcalm : s.Calm)
    (hf : 20 ≤ fuel) :
    Leaves ((dollar m fuel).run s) (· = [.param n .value [] m.isQuoted]) text := by
  obtain ⟨fuel, rfl⟩ := Nat.exists_eq_add_one_of_ne_zero (show fuel ≠ 0 by omega)
  obtain ⟨c, n, rfl, hc, hall⟩ := exists_of_isName hn
  have hcn := hall c (by simp)
  have hp : c ≠ '(' := ne_of_isNameChar hcn (by decide)
  have hb : c ≠ '{' := ne_of_isNameChar hcn (by decide)
  have hj : c ≠ '\\' := ne_of_isNameChar hcn (by decide)
  refine dollar_leaves (dollar.eq_def m (fuel + 1)) hs hcalm hj fun s₁ hs₁ hc₁ => ?_
  simp only [hp, hb, hc, Bool.true_or, if_true]
  refine (paramName_leaves false hn ht hs₁ hc₁).bind fun o s₂ ho hs₂ hc₂ => ?_
  subst ho
  exact Leaves.pure rfl hs₂ hc₂

/-- A name in braces behind a dollar asks for the value of a variable. -/
lemma dollar_braced_leaves {m : Mode} {s : Reader} {n text : List Char} {fuel : Nat}
    (hn : isName n = true) (hs : s.rest = '$' :: '{' :: (n ++ '}' :: text)) (hcalm : s.Calm)
    (hf : 20 ≤ fuel) :
    Leaves ((dollar m fuel).run s) (· = [.param n .value [] m.isQuoted]) text := by
  obtain ⟨fuel, rfl⟩ := Nat.exists_eq_add_one_of_ne_zero (show fuel ≠ 0 by omega)
  have hend : EndsName ('}' :: text) := ⟨'}', text, rfl, by decide, by decide⟩
  refine dollar_leaves (dollar.eq_def m (fuel + 1)) hs hcalm (by decide) fun s₁ hs₁ hc₁ => ?_
  refine (skip_leaves hs₁ hc₁).bind fun _ s₂ _ hs₂ hc₂ => ?_
  refine (bracedParam_leaves hn hend hs₂ hc₂ fun s' => operation_value_leaves).bind
    fun r s₃ hr hs₃ hc₃ => ?_
  subst hr
  exact Leaves.pure rfl hs₃ hc₃

set_option linter.unusedSimpArgs false in
/-- A digit behind a dollar asks for an argument. -/
lemma dollar_digit_leaves {m : Mode} {s : Reader} {c : Char} {text : List Char} {fuel : Nat}
    (hc : isDigit c = true) (hstart : isNameStart c = false) (hs : s.rest = '$' :: c :: text)
    (hcalm : s.Calm) (hf : 20 ≤ fuel) :
    Leaves ((dollar m fuel).run s) (· = [.param [c] .value [] m.isQuoted]) text := by
  obtain ⟨fuel, rfl⟩ := Nat.exists_eq_add_one_of_ne_zero (show fuel ≠ 0 by omega)
  have hcn : isNameChar c = true := by simp [isNameChar, hc]
  have hj : c ≠ '\\' := ne_of_isNameChar hcn (by decide)
  have hp : c ≠ '(' := ne_of_isNameChar hcn (by decide)
  have hb : c ≠ '{' := ne_of_isNameChar hcn (by decide)
  refine dollar_leaves (dollar.eq_def m (fuel + 1)) hs hcalm hj fun s₁ hs₁ hc₁ => ?_
  simp only [hp, hb, hc, Bool.or_true, if_true]
  have hname : Leaves ((paramName false).run s₁) (· = [c]) text := by
    unfold paramName
    refine (peek_leaves hs₁ hc₁ hj).bind fun o s₂ ho hs₂ hc₂ => ?_
    subst ho
    simp only [hc, hstart, Bool.false_eq_true, if_false, if_true]
    refine (skip_leaves hs₂ hc₂).bind fun _ s₃ _ hs₃ hc₃ => ?_
    exact Leaves.pure rfl hs₃ hc₃
  refine hname.bind fun o s₂ ho hs₂ hc₂ => ?_
  subst ho
  exact Leaves.pure rfl hs₂ hc₂

/-- A number sign behind a dollar asks for the number of arguments. -/
lemma dollar_count_leaves {m : Mode} {s : Reader} {text : List Char} {fuel : Nat}
    (hs : s.rest = '$' :: '#' :: text) (hcalm : s.Calm) (hf : 20 ≤ fuel) :
    Leaves ((dollar m fuel).run s) (· = [.param ['#'] .value [] m.isQuoted]) text := by
  obtain ⟨fuel, rfl⟩ := Nat.exists_eq_add_one_of_ne_zero (show fuel ≠ 0 by omega)
  refine dollar_leaves (dollar.eq_def m (fuel + 1)) hs hcalm (by decide) fun s₁ hs₁ hc₁ => ?_
  refine (skip_leaves hs₁ hc₁).bind fun _ s₂ _ hs₂ hc₂ => ?_
  exact Leaves.pure rfl hs₂ hc₂

/-! ## Text between double quotes -/

/-- Between double quotes the text reads as the parts, whatever follows. -/
def Inside (cs : List Char) (v : Word) : Prop :=
  ∀ ⦃b : Bool⦄ ⦃text rest : List Char⦄ ⦃Q : Word → Prop⦄,
    Yields (.quotes b) text (fun w => Q (v ++ w)) rest → Yields (.quotes b) (cs ++ text) Q rest

/-- The text is all that stands between two double quotes, and reads as the parts. -/
def Quoted (cs : List Char) (v : Word) : Prop :=
  ∀ ⦃b : Bool⦄ ⦃text : List Char⦄, Yields (.quotes b) (cs ++ '\x22' :: text) (· = v) text

namespace Inside

variable {cs ds : List Char} {v w : Word}

/-- Nothing reads as no parts. -/
lemma nil : Inside [] [] :=
  fun _ _ _ _ h => h

/-- What stands in double quotes can be read part by part. -/
lemma append (h₁ : Inside cs v) (h₂ : Inside ds w) : Inside (cs ++ ds) (v ++ w) := by
  intro b text rest Q h
  rw [List.append_assoc]
  refine h₁ (h₂ ?_)
  simpa using h

/-- What can be followed by anything in double quotes can be followed by the closing one. -/
lemma quoted (h : Inside cs v) : Quoted cs v := by
  intro b text
  exact h (Yields.closeQuote (List.append_nil v))

/-- A character that is not special stands for itself, a line break too. -/
lemma char {c : Char} (hc : Escape.isSpecial c = false) : Inside [c] [.char c true] := by
  intro b text rest Q h
  by_cases hn : c = '\n'
  · subst hn
    exact Yields.newline h
  · refine Yields.char ?_ h
    simp only [Escape.isSpecial, Bool.or_eq_false_iff, beq_eq_false_iff_ne] at hc
    simp [Mode.isOrdinary, hc, hn]

/-- Escaped text stands for the text itself. -/
lemma escaped (cs : List Char) : Inside (Escape.escapeChars cs) (quotedChars cs) := by
  induction cs with
  | nil => exact nil
  | cons c cs ih =>
    cases hc : Escape.isSpecial c with
    | true =>
      rw [Escape.escapeChars_cons, Escape.escapeChar_of_special hc]
      intro b text rest Q h
      exact Yields.escaped hc (ih h)
    | false =>
      rw [Escape.escapeChars_cons, Escape.escapeChar_of_plain hc]
      exact append (char hc) ih

/-- Text without special characters stands for itself. -/
lemma plain {cs : List Char} (h : ∀ c ∈ cs, Escape.isSpecial c = false) :
    Inside cs (quotedChars cs) := by
  have := escaped cs
  rwa [Escape.escapeChars_of_plain h] at this

/-- A name in braces behind a dollar asks for the value of a variable. -/
lemma reference {n : List Char} (hn : isName n = true) :
    Inside ('$' :: '{' :: (n ++ ['}'])) [.param n .value [] true] := by
  intro b text rest Q h
  have e : '$' :: '{' :: (n ++ ['}']) ++ text = '$' :: '{' :: (n ++ '}' :: text) := by simp
  rw [e]
  refine Yields.dollar text (by simp; omega) (fun s fuel hs hc hf =>
    dollar_braced_leaves hn hs hc (by omega)) ?_
  rintro _ rfl
  exact h

end Inside

namespace Quoted

/-- A name behind a dollar asks for the value of a variable. -/
lemma dollar {n : List Char} (hn : isName n = true) :
    Quoted ('$' :: n) [.param n .value [] true] := by
  intro b text
  refine Yields.dollar ('\x22' :: text) (by simp) (fun s fuel hs hc hf =>
    dollar_name_leaves hn ⟨_, _, rfl, by decide, by decide⟩ hs hc (by omega)) ?_
  rintro _ rfl
  exact Yields.closeQuote rfl

/-- A digit behind a dollar asks for an argument. -/
lemma argument {d : Char} (hd : isDigit d = true) (hstart : isNameStart d = false) :
    Quoted ['$', d] [.param [d] .value [] true] := by
  intro b text
  refine Yields.dollar ('\x22' :: text) (by simp) (fun s fuel hs hc hf =>
    dollar_digit_leaves hd hstart hs hc (by omega)) ?_
  rintro _ rfl
  exact Yields.closeQuote rfl

end Quoted

/-- What stands between two double quotes is part of the word around them. -/
lemma Yields.openQuote {m : Mode} {cs text rest : List Char} {v : Word} {Q : Word → Prop}
    (hm : m = .bare ∨ m = .bareBraces) (hcs : Quoted cs v)
    (h : Yields m text (fun w => Q (.quote :: (v ++ w))) rest) :
    Yields m ('\x22' :: (cs ++ '\x22' :: text)) Q rest := by
  intro s fuel hs hcalm hf
  obtain ⟨fuel, rfl⟩ := Nat.exists_eq_add_one_of_ne_zero (show fuel ≠ 0 by omega)
  simp only [List.length_cons, List.length_append] at hf
  rw [Yields.run_parts (parts.eq_def _ (fuel + 1)) hs (NoJoin.cons (by decide) _)]
  rcases hm with rfl | rfl
  all_goals
    dsimp only
    rw [if_neg (by decide), if_neg (by decide), if_neg (by decide), if_neg (by decide)]
    refine (skip_leaves hs hcalm).bind fun _ s₁ _ hs₁ hc₁ => ?_
    refine (hcs s₁ fuel hs₁ hc₁ (by simp; omega)).bind fun w s₂ hw hs₂ hc₂ => ?_
    subst hw
    exact Leaves.map_iff.mpr (h s₂ fuel hs₂ hc₂ (by omega))

/-- What stands between two single quotes stands for itself. -/
lemma singleQuotes_leaves {s : Reader} {cs text : List Char} (hcs : '\x27' ∉ cs)
    (hs : s.rest = '\x27' :: (cs ++ '\x27' :: text)) (hcalm : s.Calm) :
    Leaves (singleQuotes.run s) (· = .quote :: quotedChars cs) text := by
  have hinside : (cs ++ '\x27' :: text).takeWhile (· != '\x27') = cs := by
    rw [List.takeWhile_append_of_pos (by
      intro c hc
      simpa using fun e : c = '\x27' => hcs (e ▸ hc)), List.takeWhile_cons_of_neg (by simp),
        List.append_nil]
  unfold singleQuotes
  refine (skip_leaves hs hcalm).bind fun _ s₁ _ hs₁ hc₁ => ?_
  refine (get_leaves hs₁ hc₁).bind fun r s₂ hr hs₂ hc₂ => ?_
  subst hr
  rw [hs₁, hinside]
  refine (skipBy_leaves hs₂ hc₂).bind fun _ s₃ _ hs₃ hc₃ => ?_
  refine (get_leaves hs₃ hc₃).bind fun r s₄ hr hs₄ hc₄ => ?_
  subst hr
  rw [hs₃, List.isEmpty_cons, if_neg (by decide)]
  refine (skip_leaves hs₄ hc₄).bind fun _ s₅ _ hs₅ hc₅ => ?_
  exact Leaves.pure rfl hs₅ hc₅

/-! ## Whole words -/

/-- Does the character end a word outside of quotes? -/
def isBreak (c : Char) : Bool :=
  " \n;&|()".toList.contains c

/-- The text ends the word before it. -/
def Breaks (text : List Char) : Prop :=
  text.head?.any isBreak = true

/-- The text is the end of a word outside of quotes, and reads as parts that satisfy `Q`. -/
def Ending (cs : List Char) (Q : Word → Prop) : Prop :=
  ∀ ⦃rest : List Char⦄, Breaks rest → Yields .bare (cs ++ rest) Q rest

namespace Ending

variable {cs text : List Char} {v : Word} {Q : Word → Prop}

/-- The end of a word may be described by less. -/
lemma mono {P : Word → Prop} (h : Ending cs P) (hPQ : ∀ w, P w → Q w) : Ending cs Q :=
  fun _ hb => (h hb).mono hPQ

/-- Where a word ends no part follows. -/
lemma nil (h : Q []) : Ending [] Q := by
  intro rest hb s fuel hs hcalm hf
  obtain ⟨fuel, rfl⟩ := Nat.exists_eq_add_one_of_ne_zero (show fuel ≠ 0 by omega)
  cases rest with
  | nil => cases hb
  | cons c rest =>
    have hc : c = ' ' ∨ c = '\n' ∨ c = ';' ∨ c = '&' ∨ c = '|' ∨ c = '(' ∨ c = ')' := by
      simpa [Breaks, isBreak] using hb
    have hj : NoJoin (c :: rest) := by
      refine NoJoin.cons ?_ rest
      rintro rfl
      revert hc
      decide
    rw [Yields.run_parts (parts.eq_def _ (fuel + 1)) hs hj]
    dsimp only
    rcases hc with rfl | rfl | rfl | rfl | rfl | rfl | rfl <;> exact Leaves.pure h hs hcalm

/-- Ordinary characters stand for themselves. -/
lemma chars (hcs : ∀ c ∈ cs, Mode.bare.isOrdinary c = true)
    (h : Ending text fun w => Q (cs.map (.char · false) ++ w)) : Ending (cs ++ text) Q := by
  intro rest hb
  rw [List.append_assoc]
  exact Yields.chars hcs (h hb)

/-- What stands between two double quotes is part of the word. -/
lemma quotes (hcs : Quoted cs v) (h : Ending text fun w => Q (.quote :: (v ++ w))) :
    Ending ('\x22' :: (cs ++ '\x22' :: text)) Q := by
  intro rest hb
  simp only [List.cons_append, List.append_assoc]
  exact Yields.openQuote (.inl rfl) hcs (h hb)

/-- What stands between two single quotes stands for itself. -/
lemma apostrophes (hcs : '\x27' ∉ cs)
    (h : Ending text fun w => Q (.quote :: (quotedChars cs ++ w))) :
    Ending ('\x27' :: (cs ++ '\x27' :: text)) Q := by
  intro rest hb s fuel hs hcalm hf
  obtain ⟨fuel, rfl⟩ := Nat.exists_eq_add_one_of_ne_zero (show fuel ≠ 0 by omega)
  simp only [List.cons_append, List.append_assoc, List.length_cons, List.length_append] at hs hf
  rw [Yields.run_parts (parts.eq_def _ (fuel + 1)) hs (NoJoin.cons (by decide) _)]
  dsimp only
  rw [if_neg (by decide), if_neg (by decide), if_neg (by decide), if_neg (by decide)]
  refine (singleQuotes_leaves hcs hs hcalm).bind fun w s₁ hw hs₁ hc₁ => ?_
  subst hw
  exact Leaves.map_iff.mpr (h hb s₁ fuel hs₁ hc₁ (by simp; omega))

/-- A number sign behind a dollar asks for the number of arguments. -/
lemma count (h : Ending text fun w => Q (.param ['#'] .value [] false :: w)) :
    Ending ('$' :: '#' :: text) Q := by
  intro rest hb
  refine Yields.dollar (text ++ rest) (by simp) (fun s fuel hs hc hf =>
    dollar_count_leaves hs hc (by omega)) ?_
  rintro _ rfl
  exact h hb

/-- A quoted text behind a name, a colon and a dash in braces replaces a missing or empty value. -/
lemma default {n : List Char} (hn : isName n = true) (hcs : Quoted cs v)
    (h : Ending text fun w => Q (.param n (.default true) (.quote :: v) false :: w)) :
    Ending ('$' :: '{' :: (n ++ ':' :: '-' :: '\x22' :: (cs ++ '\x22' :: '}' :: text))) Q := by
  intro rest hb
  simp only [List.cons_append, List.append_assoc]
  refine Yields.dollar (P := (· = [.param n (.default true) (.quote :: v) false])) (text ++ rest)
    (by simp; omega) (fun s fuel hs hc hf => ?_) ?_
  · obtain ⟨fuel, rfl⟩ := Nat.exists_eq_add_one_of_ne_zero (show fuel ≠ 0 by omega)
    have hend : EndsName (':' :: '-' :: '\x22' :: (cs ++ '\x22' :: '}' :: (text ++ rest))) :=
      ⟨_, _, rfl, by decide, by decide⟩
    refine dollar_leaves (dollar.eq_def _ (fuel + 1)) hs hc (by decide) fun s₁ hs₁ hc₁ => ?_
    refine (skip_leaves hs₁ hc₁).bind fun _ s₂ _ hs₂ hc₂ => ?_
    refine (bracedParam_leaves hn hend hs₂ hc₂ fun s' => operation_default_leaves).bind
      fun r s₃ hr hs₃ hc₃ => ?_
    subst hr
    refine Leaves.map_iff.mpr ?_
    have hinner :
        Yields .bareBraces ('\x22' :: (cs ++ '\x22' :: '}' :: (text ++ rest))) (· = .quote :: v)
        (text ++ rest) := Yields.openQuote (.inr rfl) hcs (Yields.closeBrace (by simp))
    refine (hinner s₃ fuel hs₃ hc₃ ?_).mono ?_
    · simp at hf ⊢
      omega
    · rintro _ rfl
      rfl
  · rintro _ rfl
    exact h hb

end Ending

end Stencil.Shell
