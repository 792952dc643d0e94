import Mathlib.Data.List.Infix
import Mathlib.Tactic.Common
import Stencil.Yaml.Node

/-!
# Failures of reading nodes

Reading the nodes of a text goes wrong in two ways. A token stands where it may not, and the text is
malformed; or the scanner left a fault among the tokens, and the reader came to it
(`Node.malformed_or_mem_of_ofTokens`).
-/

namespace Stencil.Yaml

namespace Node

/-- A step that leaves some of its tokens, and fails on a misplaced token or at a fault among
them. -/
structure Faithful {α : Type} (x : ReadM α) : Prop where
  rest {t t' : Reading} {a : α} : x.run t = .ok (a, t') → t'.tokens ⊆ t.tokens
  fault {t : Reading} {f : Fault} : x.run t = .error f → f = .malformed ∨ .fault f ∈ t.tokens

namespace Faithful

variable {α β : Type} {x : ReadM α} {g : α → ReadM β}

/-- Giving a value takes no token. -/
lemma pure (a : α) : Faithful (Pure.pure a) where
  rest h := by
    cases h
    exact List.Subset.refl _
  fault h := by cases h

/-- A misplaced token is a failure that is allowed. -/
lemma malformed : Faithful (throw .malformed : ReadM α) where
  rest h := by cases h
  fault h := by
    cases h
    exact .inl rfl

/-- Looking at the reading takes no token. -/
lemma get : Faithful (MonadState.get : ReadM Reading) where
  rest h := by
    cases h
    exact List.Subset.refl _
  fault h := by cases h

/-- A change of the reading is faithful if it adds no token. -/
lemma modify {u : Reading → Reading} (hu : ∀ t, (u t).tokens ⊆ t.tokens) :
    Faithful (modify u : ReadM Unit) where
  rest h := by
    cases h
    exact hu _
  fault h := by cases h

/-- Faithful steps can follow each other. -/
lemma bind (hx : Faithful x) (hg : ∀ a, Faithful (g a)) : Faithful (x >>= g) where
  rest {t t' b} h := by
    rw [StateT.run_bind] at h
    cases hrun : x.run t with
    | error f =>
      rw [hrun] at h
      cases h
    | ok r =>
      rw [hrun] at h
      exact List.Subset.trans ((hg r.1).rest h) (hx.rest hrun)
  fault {t f} h := by
    rw [StateT.run_bind] at h
    cases hrun : x.run t with
    | error f' =>
      rw [hrun] at h
      cases h
      exact hx.fault hrun
    | ok r =>
      rw [hrun] at h
      exact ((hg r.1).fault h).imp_right fun hmem => hx.rest hrun hmem

/-- Whichever of two faithful steps is taken, it is faithful. -/
lemma ite {y : ReadM α} {c : Prop} [Decidable c] (hx : Faithful x) (hy : Faithful y) :
    Faithful (if c then x else y) := by
  split
  · exact hx
  · exact hy

/-! ## Single tokens -/

/-- The one step that comes upon a fault. -/
lemma next? : Faithful next? where
  rest {t t' u} h := by
    rw [Node.next?, StateT.run_bind, StateT.run_get, pure_bind] at h
    split at h <;> cases h
    exact List.Subset.refl _
  fault {t f} h := by
    rw [Node.next?, StateT.run_bind, StateT.run_get, pure_bind] at h
    split at h <;> cases h
    exact .inr (List.mem_of_head? ‹_›)

/-- Taking a token leaves those behind it. -/
lemma skip : Faithful skip :=
  modify fun t => List.tail_subset t.tokens

/-- Looking whether one of some tokens is next takes none. -/
lemma nextIn (ts : List Token) : Faithful (nextIn ts) := by
  refine next?.bind fun u => ?_
  split
  · exact pure false
  · exact pure _

/-- Taking a certain token is faithful. -/
lemma accept (u : Token) : Faithful (accept u) :=
  (nextIn [u]).bind fun _ => ite (skip.bind fun _ => pure true) (pure false)

/-- Demanding a certain token is faithful. -/
lemma expect (u : Token) : Faithful (expect u) :=
  (accept u).bind fun _ => ite (pure ()) malformed

/-! ## Properties of a node -/

/-- Reading a name for a node is faithful. -/
lemma anchor? : Faithful anchor? := by
  refine next?.bind fun u => ?_
  split
  · exact skip.bind fun _ => pure _
  · exact pure none

/-- Reading a tag is faithful. -/
lemma tag? : Faithful tag? := by
  refine next?.bind fun u => ?_
  split
  · exact skip.bind fun _ => pure _
  · exact pure none

/-- Completing a tag takes no token. -/
lemma fullTag (tag : Option (Option String × String)) : Faithful (fullTag tag) := by
  unfold Node.fullTag
  split
  · exact pure none
  · exact pure _
  · refine get.bind fun t => ?_
    split
    · exact pure _
    · exact malformed

/-- Reading what stands before a node is faithful. -/
lemma properties : Faithful properties := by
  refine anchor?.bind fun a => ?_
  split
  · exact tag?.bind fun t => (fullTag t).bind fun _ => pure _
  · refine tag?.bind fun t => ?_
    split
    · exact pure _
    · exact anchor?.bind fun _ => (fullTag _).bind fun _ => pure _

/-- Naming a node takes no token. -/
lemma name (anchor : Option String) (n : Node) : Faithful (name anchor n) := by
  unfold Node.name
  split
  · exact pure ()
  · exact modify fun t => List.Subset.refl t.tokens

/-- Checking that a name is new takes no token. -/
lemma checkNew (anchor : Option String) : Faithful (checkNew anchor) := by
  unfold Node.checkNew
  split
  · exact pure ()
  · exact get.bind fun _ => ite malformed (pure ())

/-- A node without a text takes no token. -/
lemma bare (anchor tag : Option String) : Faithful (bare anchor tag) :=
  ite malformed (pure _)

/-! ## Nodes and their parts -/

/-- All steps that read nodes with this much fuel. -/
structure AtFuel (fuel : Nat) : Prop where
  read (block indentless : Bool) : Faithful (read block indentless fuel)
  readUnless (stops : List Token) (block indentless : Bool) : Faithful
    (readUnless stops block indentless fuel)
  blockItems : Faithful (blockItems fuel)
  indentlessItems : Faithful (indentlessItems fuel)
  blockEntries : Faithful (blockEntries fuel)
  flowItems (first : Bool) : Faithful (flowItems first fuel)
  flowEntries (first : Bool) : Faithful (flowEntries first fuel)

namespace AtFuel

variable {fuel : Nat}

/-- Without fuel every step fails at once. -/
lemma zero : AtFuel 0 := by
  refine ⟨?_, ?_, ?_, ?_, ?_, ?_, ?_⟩
  all_goals
    intros
    simp only [Node.read, Node.readUnless, Node.blockItems, Node.indentlessItems, Node.blockEntries,
      Node.flowItems, Node.flowEntries]
    exact malformed

/-- With more fuel, reading a node is faithful. -/
lemma read_succ (h : AtFuel fuel) (block indentless : Bool) :
    Faithful (Node.read block indentless (fuel + 1)) := by
  rw [Node.read]
  refine next?.bind fun u => ?_
  split
  · refine skip.bind fun _ => get.bind fun t => ?_
    split
    · exact pure _
    · exact malformed
  · refine properties.bind fun p => next?.bind fun first => (checkNew p.1).bind fun _ => ?_
    -- Whatever the node is, its anchor is noted in the end.
    have hnamed (n : Node) : Faithful (Node.name p.1 n >>= fun _ => Pure.pure n) :=
      (name p.1 n).bind fun _ => pure n
    have hbare :
        Faithful (Node.bare p.1 p.2 >>= fun n => Node.name p.1 n >>= fun _ => Pure.pure n) :=
      (bare p.1 p.2).bind hnamed
    split
    · exact skip.bind fun _ => (pure _).bind hnamed
    · exact skip.bind fun _ => (name _ _).bind fun _ => (h.flowItems true).bind fun _ =>
        (pure _).bind hnamed
    · exact skip.bind fun _ => (name _ _).bind fun _ => (h.flowEntries true).bind fun _ =>
        (pure _).bind hnamed
    · exact ite ((name _ _).bind fun _ => h.indentlessItems.bind fun _ => (pure _).bind hnamed)
        hbare
    · exact ite
        (skip.bind fun _ => (name _ _).bind fun _ => h.blockItems.bind fun _ =>
          (pure _).bind hnamed) hbare
    · exact ite
        (skip.bind fun _ => (name _ _).bind fun _ => h.blockEntries.bind fun _ =>
          (pure _).bind hnamed) hbare
    · exact hbare

/-- With more fuel, reading a node that may be left out is faithful. -/
lemma readUnless_succ (h : AtFuel fuel) (stops : List Token) (block indentless : Bool) :
    Faithful (Node.readUnless stops block indentless (fuel + 1)) := by
  rw [Node.readUnless]
  exact (nextIn stops).bind fun _ => ite (pure missing) (h.read block indentless)

/-- With more fuel, reading the items of a block is faithful. -/
lemma blockItems_succ (h : AtFuel fuel) : Faithful (Node.blockItems (fuel + 1)) := by
  rw [Node.blockItems]
  exact (accept _).bind fun _ => ite
    ((h.readUnless _ _ _).bind fun _ => h.blockItems.bind fun _ => pure _)
    ((expect _).bind fun _ => pure [])

/-- With more fuel, reading items that are not indented is faithful. -/
lemma indentlessItems_succ (h : AtFuel fuel) : Faithful (Node.indentlessItems (fuel + 1)) := by
  rw [Node.indentlessItems]
  exact (accept _).bind fun _ => ite
    ((h.readUnless _ _ _).bind fun _ => h.indentlessItems.bind fun _ => pure _) (pure [])

/-- The value of an entry may be left out. -/
lemma value (h : AtFuel fuel) (stops : List Token) (block indentless : Bool) {k : Node → ReadM β}
    (hk : ∀ v, Faithful (k v)) : Faithful (do
      if ← Node.accept .value then
        let v ← Node.readUnless stops block indentless fuel
        k v
      else
        let v ← Pure.pure missing
        k v) :=
  (accept _).bind fun _ =>
    ite ((h.readUnless stops block indentless).bind hk) ((pure missing).bind hk)

/-- With more fuel, reading the entries of a block is faithful. -/
lemma blockEntries_succ (h : AtFuel fuel) : Faithful (Node.blockEntries (fuel + 1)) := by
  rw [Node.blockEntries]
  exact (accept _).bind fun _ => ite
    ((h.readUnless _ _ _).bind fun _ => h.value _ _ _ fun _ => h.blockEntries.bind fun _ => pure _)
    ((expect _).bind fun _ => pure [])

/-- A mark stands between the parts of a flow collection, and none before the first. -/
lemma separated (first : Bool) {k : Unit → ReadM β} (hk : ∀ u, Faithful (k u)) :
    Faithful (if !first then Node.expect .flowEntry >>= k else k ()) :=
  ite ((expect _).bind hk) (hk ())

/-- With more fuel, reading the items between brackets is faithful. -/
lemma flowItems_succ (h : AtFuel fuel) (first : Bool) :
    Faithful (Node.flowItems first (fuel + 1)) := by
  rw [Node.flowItems]
  refine (accept _).bind fun _ =>
    ite (pure []) (separated first fun _ => (accept _).bind fun _ => ite ?_ ?_)
  · exact (h.readUnless _ _ _).bind fun _ => h.value _ _ _ fun _ =>
      (h.flowItems false).bind fun _ => pure _
  · exact (accept _).bind fun _ => ite (pure [])
      ((h.read false false).bind fun _ => (h.flowItems false).bind fun _ => pure _)

/-- With more fuel, reading the entries between braces is faithful. -/
lemma flowEntries_succ (h : AtFuel fuel) (first : Bool) :
    Faithful (Node.flowEntries first (fuel + 1)) := by
  rw [Node.flowEntries]
  refine (accept _).bind fun _ =>
    ite (pure []) (separated first fun _ => (accept _).bind fun _ => ite ?_ ?_)
  · exact (h.readUnless _ _ _).bind fun _ => h.value _ _ _ fun _ =>
      (h.flowEntries false).bind fun _ => pure _
  · exact (accept _).bind fun _ => ite (pure [])
      ((h.read false false).bind fun _ => (h.flowEntries false).bind fun _ => pure _)

/-- One more unit of fuel keeps all steps faithful. -/
lemma succ (h : AtFuel fuel) : AtFuel (fuel + 1) where
  read := h.read_succ
  readUnless := h.readUnless_succ
  blockItems := h.blockItems_succ
  indentlessItems := h.indentlessItems_succ
  blockEntries := h.blockEntries_succ
  flowItems := h.flowItems_succ
  flowEntries := h.flowEntries_succ

end AtFuel

/-- Reading a node is faithful, however deep it goes. -/
lemma atFuel (fuel : Nat) : AtFuel fuel := by
  induction fuel with
  | zero => exact .zero
  | succ fuel ih => exact ih.succ

end Faithful

/-! ## Documents -/

section

variable {handles : List (String × String)} {tokens : List Token} {f : Fault}

/-- If two steps fail, the first does or the second does behind it. -/
lemma error_of_bind {α β ε : Type} {x : Except ε α} {g : α → Except ε β} {e : ε}
    (h : x >>= g = .error e) :
    x = .error e ∨ ∃ a, x = .ok a ∧ g a = .error e := by
  cases x with
  | error e' =>
    cases h
    exact .inl rfl
  | ok a => exact .inr ⟨a, rfl, h⟩

/-- Directives come off the front, and they fail as malformed only. -/
lemma directives_outcome (versioned : Bool) (handles : List (String × String))
    (tokens : List Token) :
    directives versioned handles tokens = .error .malformed ∨
      ∃ r, directives versioned handles tokens = .ok r ∧ r.2 ⊆ tokens := by
  fun_induction directives versioned handles tokens with
  | case1 => exact .inl rfl
  | case3 => exact .inl rfl
  | case6 => exact .inr ⟨_, rfl, List.Subset.refl _⟩
  | case2 _ _ _ _ _ _ ih | case4 _ _ _ _ _ _ ih | case5 _ _ _ _ ih =>
    exact ih.imp_right fun ⟨r, h, hsub⟩ => ⟨r, h, List.subset_cons_of_subset _ hsub⟩

/-- Tokens are refused as misplaced or for a fault among them. -/
lemma malformed_or_mem_of_refuse {α : Type} (h : refuse tokens = (.error f : Except Fault α)) :
    f = .malformed ∨ .fault f ∈ tokens := by
  unfold refuse at h
  split at h <;> cases h
  · exact .inr List.mem_cons_self
  · exact .inl rfl

/-- What is wrong behind a document is a misplaced token or a fault among the tokens. -/
lemma malformed_or_mem_of_finished (h : finished tokens = .error f) :
    f = .malformed ∨ .fault f ∈ tokens := by
  fun_induction finished tokens with
  | case1 => cases h
  | case2 _ ih => exact (ih h).imp_right (List.mem_cons_of_mem _)
  | case3 ts =>
    rcases directives_outcome false [] ts with hd | ⟨r, hd, hsub⟩
    · rw [hd] at h
      cases h
      exact .inl rfl
    · rw [hd] at h
      exact (malformed_or_mem_of_refuse h).imp_right fun hmem => hsub hmem

/-- What is wrong with a document is a misplaced token or a fault among the tokens. -/
lemma malformed_or_mem_of_document (h : document handles tokens = .error f) :
    f = .malformed ∨ .fault f ∈ tokens := by
  have hread := (Faithful.atFuel (4 * tokens.length + 4)).read true false
  rcases error_of_bind h with h | ⟨r, hr, h⟩
  · exact hread.fault h
  · obtain h | ⟨_, _, h⟩ := error_of_bind h
    · exact (malformed_or_mem_of_finished h).imp_right fun hmem => hread.rest hr hmem
    · cases h

/-- What is wrong with a document and its directives is a misplaced token or a fault among the
tokens. -/
lemma malformed_or_mem_of_started (h : started handles tokens = .error f) :
    f = .malformed ∨ .fault f ∈ tokens := by
  unfold started at h
  split at h
  · cases h
  · obtain h | ⟨_, _, h⟩ := error_of_bind h
    · exact (malformed_or_mem_of_finished h).imp_right (List.mem_cons_of_mem _)
    · cases h
  · obtain h | ⟨_, _, h⟩ := error_of_bind h
    · exact malformed_or_mem_of_finished h
    · cases h
  · cases h
    exact .inl rfl
  · exact malformed_or_mem_of_document h

/-- What is wrong behind directives is a misplaced token or a fault among the tokens. -/
lemma malformed_or_mem_of_marked (h : marked handles tokens = .error f) :
    f = .malformed ∨ .fault f ∈ tokens := by
  unfold marked at h
  split at h
  · exact (malformed_or_mem_of_started h).imp_right (List.mem_cons_of_mem _)
  · exact malformed_or_mem_of_refuse h

/-- Tokens that give no node hold a misplaced token or a fault. -/
lemma malformed_or_mem_of_ofTokens (h : ofTokens tokens = .error f) :
    f = .malformed ∨ .fault f ∈ tokens := by
  unfold ofTokens at h
  split at h
  case h_1 => cases h
  case h_4 => exact malformed_or_mem_of_document h
  -- Directives or the mark of a start come first.
  all_goals
    rcases directives_outcome false [] _ with hd | ⟨r, hd, hsub⟩
    · rw [hd] at h
      cases h
      exact .inl rfl
    · rw [hd] at h
      exact (malformed_or_mem_of_marked h).imp_right fun hmem => hsub hmem

end

end Node

end Stencil.Yaml
