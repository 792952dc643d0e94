import Mathlib.Tactic.Common
import Stencil.Proofs.Yaml.Reading

/-!
# What may follow tokens

Nodes are read from left to right, with one token in view. So what a reader makes of some tokens
depends on what follows them only if it asks for that (`Node.Steady`). If they are not malformed
whatever follows, then it does ask, and a fault that stands there comes to light
(`Node.strays_of_not_spoilt`).
-/

namespace Stencil.Yaml.Node

/-- Tokens that are malformed whatever follows them. -/
def Spoilt (tokens : List Token) : Prop :=
  ∀ more, ofTokens (tokens ++ more) = .error .malformed

/-- The reading with further tokens behind its own. -/
def Reading.followedBy (s : Reading) (more : List Token) : Reading :=
  { s with tokens := s.tokens ++ more }

/-- Two steps that do the same whatever follows the tokens of the reading, unless the first asks for
what follows. The result and what is left of the tokens satisfy `Q`. -/
inductive Steady {α : Type} (Q : α → Reading → Prop) (x y : ReadM α) (s : Reading) : Prop where
  | asks : (∀ f more, x.run (s.followedBy (.fault f :: more)) = .error f) → Steady Q x y s
  | fails (e : Fault) : (∀ more, x.run (s.followedBy more) = .error e) →
    (∀ more, y.run (s.followedBy more) = .error e) → Steady Q x y s
  | gives (a : α) (t : Reading) : Q a t →
    (∀ more, x.run (s.followedBy more) = .ok (a, t.followedBy more)) →
    (∀ more, y.run (s.followedBy more) = .ok (a, t.followedBy more)) → Steady Q x y s

namespace Steady

variable {α β : Type} {s : Reading} {Q : α → Reading → Prop} {R : β → Reading → Prop}
  {x y : ReadM α} {g h : α → ReadM β}

/-- Giving a value does not ask for what follows. -/
lemma pure {a : α} (ha : Q a s) : Steady Q (Pure.pure a) (Pure.pure a) s :=
  .gives a s ha (fun _ => rfl) fun _ => rfl

/-- Failing does not ask for what follows. -/
lemma malformed : Steady Q (throw .malformed) (throw .malformed) s :=
  .fails .malformed (fun _ => rfl) fun _ => rfl

/-- Steady steps can follow each other. -/
lemma bind (hx : Steady Q x y s) (hg : ∀ a t, Q a t → Steady R (g a) (h a) t) :
    Steady R (x >>= g) (y >>= h) s := by
  cases hx with
  | asks hask => exact .asks fun f more => by rw [StateT.run_bind, hask]; rfl
  | fails e hx hy =>
    refine .fails e (fun more => ?_) fun more => ?_
    · rw [StateT.run_bind, hx]; rfl
    · rw [StateT.run_bind, hy]; rfl
  | gives a t ha hx hy =>
    have hx' (more : List Token) :
        (x >>= g).run (s.followedBy more) = (g a).run (t.followedBy more) := by
      rw [StateT.run_bind, hx]; rfl
    have hy' (more : List Token) :
        (y >>= h).run (s.followedBy more) = (h a).run (t.followedBy more) := by
      rw [StateT.run_bind, hy]; rfl
    cases hg a t ha with
    | asks hask => exact .asks fun f more => by rw [hx', hask]
    | fails e hx hy => exact .fails e (fun more => by rw [hx', hx]) fun more => by rw [hy', hy]
    | gives b u hb hx hy =>
      exact .gives b u hb (fun more => by rw [hx', hx]) fun more => by rw [hy', hy]

/-- The result and what is left may be described by less. -/
lemma imp {P : α → Reading → Prop} (hx : Steady Q x y s) (h : ∀ a t, Q a t → P a t) :
    Steady P x y s := by
  cases hx with
  | asks hask => exact .asks hask
  | fails e hx hy => exact .fails e hx hy
  | gives a t ha hx hy => exact .gives a t (h a t ha) hx hy

/-! ## Single tokens -/

/-- The next token is in view, unless it is one of those that follow. -/
lemma next? {g h : Option Token → ReadM β}
    (hg : ∀ u ts, s.tokens = u :: ts → Steady R (g (some u)) (h (some u)) s) :
    Steady R (next? >>= g) (next? >>= h) s := by
  refine bind (Q := fun a t => t = s ∧ ∃ u ts, s.tokens = u :: ts ∧ a = some u) ?_ ?_
  · obtain ⟨tokens, handles, anchors⟩ := s
    cases tokens with
    | nil => exact .asks fun _ _ => rfl
    | cons u ts =>
      by_cases hu : ∃ e, u = .fault e
      · obtain ⟨e, rfl⟩ := hu
        exact .fails e (fun _ => rfl) fun _ => rfl
      · have hrun (more : List Token) : Node.next?.run ⟨u :: (ts ++ more), handles, anchors⟩ =
            .ok (some u, ⟨u :: (ts ++ more), handles, anchors⟩) := by
          cases u with
          | fault e => exact absurd ⟨e, rfl⟩ hu
          | _ => rfl
        exact .gives (some u) _ ⟨rfl, u, ts, rfl, rfl⟩ hrun hrun
  · rintro a t ⟨rfl, u, ts, htokens, rfl⟩
    exact hg u ts htokens

/-- Taking a token that is there does not ask for what follows. -/
lemma skip {u : Token} {ts : List Token} (hs : s.tokens = u :: ts) {g h : Unit → ReadM β}
    (hg : Steady R (g ()) (h ()) { s with tokens := ts }) :
    Steady R (skip >>= g) (skip >>= h) s := by
  refine bind (Q := fun _ t => t = { s with tokens := ts }) ?_ ?_
  · have hrun (more : List Token) : Node.skip.run (s.followedBy more) =
        .ok ((), Reading.followedBy { s with tokens := ts } more) := by
      rw [Reading.followedBy, hs]
      rfl
    exact .gives () _ rfl hrun hrun
  · rintro _ t rfl
    exact hg

/-- The handles and the anchors do not depend on the tokens. -/
lemma get {g h : Reading → ReadM β} (hg : ∀ more, g (s.followedBy more) = g s)
    (hh : ∀ more, h (s.followedBy more) = h s) (hs : Steady R (g s) (h s) s) :
    Steady R (MonadState.get >>= g) (MonadState.get >>= h) s := by
  have hx (more : List Token) : (MonadState.get >>= g : ReadM β).run (s.followedBy more) =
      (g s).run (s.followedBy more) := by
    rw [← hg more]
    rfl
  have hy (more : List Token) : (MonadState.get >>= h : ReadM β).run (s.followedBy more) =
      (h s).run (s.followedBy more) := by
    rw [← hh more]
    rfl
  cases hs with
  | asks hask => exact .asks fun f more => by rw [hx, hask]
  | fails e hx' hy' => exact .fails e (fun more => by rw [hx, hx']) fun more => by rw [hy, hy']
  | gives b u hb hx' hy' =>
    exact .gives b u hb (fun more => by rw [hx, hx']) fun more => by rw [hy, hy']

/-- Looking whether one of some tokens is next is steady if both ways on are. -/
lemma nextIn (us : List Token) {x y x' y' : ReadM β} (hyes : Steady R x x' s)
    (hno : Steady R y y' s) :
    Steady R (nextIn us >>= fun b => if b then x else y)
      (nextIn us >>= fun b => if b then x' else y') s := by
  rw [Node.nextIn, bind_assoc, bind_assoc]
  refine next? fun u ts hs => ?_
  dsimp only
  rw [pure_bind, pure_bind]
  split
  · exact hyes
  · exact hno

/-- Passing over a token leaves those behind it. -/
lemma accept {u : Token} {x y x' y' : ReadM β}
    (hyes : ∀ ts, s.tokens = u :: ts → Steady R x x' { s with tokens := ts })
    (hno : s.tokens.head? ≠ some u → Steady R y y' s) :
    Steady R (accept u >>= fun b => if b then x else y)
      (accept u >>= fun b => if b then x' else y') s := by
  rw [Node.accept, bind_assoc, bind_assoc, Node.nextIn, bind_assoc, bind_assoc]
  refine next? fun v ts hs => ?_
  dsimp only
  rw [pure_bind, pure_bind]
  split
  · rename_i hv
    rw [List.contains_iff_mem, List.mem_singleton] at hv
    rw [bind_assoc, bind_assoc]
    refine skip hs ?_
    rw [pure_bind, pure_bind]
    exact hyes ts (hv ▸ hs)
  · rename_i hv
    rw [List.contains_iff_mem, List.mem_singleton] at hv
    rw [pure_bind, pure_bind]
    refine hno fun hhead => hv ?_
    rw [hs] at hhead
    exact Option.some.inj hhead

/-- Demanding a token is steady if the way on is. -/
lemma expect {u : Token} {g h : Unit → ReadM β}
    (hg : ∀ ts, s.tokens = u :: ts → Steady R (g ()) (h ()) { s with tokens := ts }) :
    Steady R (expect u >>= g) (expect u >>= h) s := by
  refine bind (Q := fun _ t => ∃ ts, s.tokens = u :: ts ∧ t = { s with tokens := ts }) ?_ ?_
  · exact accept (fun ts hs => pure ⟨ts, hs, rfl⟩) fun _ => malformed
  · rintro _ t ⟨ts, hs, rfl⟩
    exact hg ts hs

/-! ## Properties of a node -/

/-- A reading that comes later: there are no more tokens left. -/
def Later (s t : Reading) : Prop :=
  t.tokens.length ≤ s.tokens.length

/-- A reading that has gone on: there are fewer tokens left. -/
def Onward (s t : Reading) : Prop :=
  t.tokens.length < s.tokens.length

/-- A token that was taken is one token less. -/
lemma onward_tail {u : Token} {ts : List Token} (hs : s.tokens = u :: ts) :
    Onward s { s with tokens := ts } := by
  rw [Onward, hs]
  exact Nat.lt_succ_self _

/-- Reading a name for a node is steady, and a name takes a token. -/
lemma anchor? : Steady (fun a t => Later s t ∧ (a ≠ none → Onward s t)) anchor? anchor? s := by
  refine next? fun u ts hs => ?_
  split
  · exact skip hs (pure ⟨Nat.le_of_lt (onward_tail hs), fun _ => onward_tail hs⟩)
  · exact pure ⟨Nat.le_refl _, absurd rfl⟩

/-- Reading a tag is steady, and a tag takes a token. -/
lemma tag? : Steady (fun a t => Later s t ∧ (a ≠ none → Onward s t)) tag? tag? s := by
  refine next? fun u ts hs => ?_
  split
  · exact skip hs (pure ⟨Nat.le_of_lt (onward_tail hs), fun _ => onward_tail hs⟩)
  · exact pure ⟨Nat.le_refl _, absurd rfl⟩

/-- Completing a tag is steady and takes no token. -/
lemma fullTag (tag : Option (Option String × String)) :
    Steady (fun a t => (a ≠ none → tag ≠ none) ∧ t = s) (fullTag tag) (fullTag tag) s := by
  unfold Node.fullTag
  split
  · exact pure ⟨absurd rfl, rfl⟩
  · exact pure ⟨fun _ => nofun, rfl⟩
  · refine get (fun _ => rfl) (fun _ => rfl) ?_
    split
    · exact pure ⟨fun _ => nofun, rfl⟩
    · exact malformed

/-- A node with an anchor or a tag has at least that token. -/
lemma properties : Steady (fun p t => Later s t ∧ (p ≠ (none, none) → Onward s t))
    properties properties s := by
  refine anchor?.bind fun a t ⟨hlater, honward⟩ => ?_
  split
  · have ht : Onward s t := honward nofun
    refine tag?.bind fun tag u hu => (fullTag tag).bind fun full v hv => ?_
    have hv : Onward s v := hv.2 ▸ Nat.lt_of_le_of_lt hu.1 ht
    exact pure ⟨Nat.le_of_lt hv, fun _ => hv⟩
  · refine tag?.bind fun tag u hu => ?_
    split
    · exact pure ⟨Nat.le_trans hu.1 hlater, absurd rfl⟩
    · have ht : Onward s u := Nat.lt_of_lt_of_le (hu.2 nofun) hlater
      refine anchor?.bind fun b v hv => (fullTag _).bind fun full w hw => ?_
      have hw : Onward s w := hw.2 ▸ Nat.lt_of_le_of_lt hv.1 ht
      exact pure ⟨Nat.le_of_lt hw, fun _ => hw⟩

/-- Naming a node is steady if the way on is. -/
lemma name (anchor : Option String) (n : Node) {g h : Unit → ReadM β}
    (hg : ∀ t, t.tokens = s.tokens → Steady R (g ()) (h ()) t) :
    Steady R (name anchor n >>= g) (name anchor n >>= h) s := by
  refine bind (Q := fun _ t => t.tokens = s.tokens) ?_ fun _ => hg
  unfold Node.name
  split
  · exact pure rfl
  · rename_i a
    exact .gives () { s with anchors := (a, n) :: s.anchors } rfl (fun _ => rfl) fun _ => rfl

/-- Checking that a name is new is steady if the way on is. -/
lemma checkNew (anchor : Option String) {g h : Unit → ReadM β} (hg : Steady R (g ()) (h ()) s) :
    Steady R (checkNew anchor >>= g) (checkNew anchor >>= h) s := by
  refine bind (Q := fun _ t => t = s) ?_ fun _ t ht => ht ▸ hg
  unfold Node.checkNew
  split
  · exact pure rfl
  · refine get (fun _ => rfl) (fun _ => rfl) ?_
    split
    · exact malformed
    · exact pure rfl

/-- Reading a node without a text is steady if the way on is. -/
lemma bare {anchor tag : Option String} {g h : Node → ReadM β}
    (hg : (anchor, tag) ≠ (none, none) → ∀ n, Steady R (g n) (h n) s) :
    Steady R (bare anchor tag >>= g) (bare anchor tag >>= h) s := by
  refine bind (Q := fun _ t => t = s ∧ (anchor, tag) ≠ (none, none)) ?_
    fun n t ht => ht.1 ▸ hg ht.2 n
  unfold Node.bare
  split
  · exact malformed
  · rename_i hnone
    refine pure ⟨rfl, fun heq => hnone ?_⟩
    cases heq
    rfl

/-! ## Nodes and their parts -/

/-- All steps that read nodes are steady if there is fuel enough for the tokens at hand, whatever
follows those. A node takes at least one token. -/
structure AtFuel (fuel fuel' : Nat) : Prop where
  read (block indentless : Bool) {s : Reading} : 4 * s.tokens.length + 2 ≤ min fuel fuel' →
    Steady (fun _ => Onward s) (read block indentless fuel) (read block indentless fuel') s
  readUnless (stops : List Token) (block indentless : Bool) {s : Reading} :
    4 * s.tokens.length + 3 ≤ min fuel fuel' → Steady (fun _ => Later s)
      (readUnless stops block indentless fuel) (readUnless stops block indentless fuel') s
  blockItems {s : Reading} : 4 * s.tokens.length + 1 ≤ min fuel fuel' →
    Steady (fun _ => Later s) (blockItems fuel) (blockItems fuel') s
  indentlessItems {s : Reading} : 4 * s.tokens.length + 1 ≤ min fuel fuel' →
    Steady (fun _ t => Later s t ∧ (s.tokens.head? = some .blockEntry → Onward s t))
      (indentlessItems fuel) (indentlessItems fuel') s
  blockEntries {s : Reading} : 4 * s.tokens.length + 1 ≤ min fuel fuel' →
    Steady (fun _ => Later s) (blockEntries fuel) (blockEntries fuel') s
  flowItems (first : Bool) {s : Reading} : 4 * s.tokens.length + 3 ≤ min fuel fuel' →
    Steady (fun _ => Later s) (flowItems first fuel) (flowItems first fuel') s
  flowEntries (first : Bool) {s : Reading} : 4 * s.tokens.length + 3 ≤ min fuel fuel' →
    Steady (fun _ => Later s) (flowEntries first fuel) (flowEntries first fuel') s

namespace AtFuel

variable {fuel fuel' : Nat}

/-- With more fuel, reading a node is steady. -/
lemma read_succ (h : AtFuel fuel fuel') (block indentless : Bool) {s : Reading}
    (hfuel : 4 * s.tokens.length + 2 ≤ min (fuel + 1) (fuel' + 1)) :
    Steady (fun _ => Onward s) (Node.read block indentless (fuel + 1))
      (Node.read block indentless (fuel' + 1)) s := by
  rw [Node.read, Node.read]
  refine next? fun u ts hs => ?_
  split
  · refine skip hs (get (fun _ => rfl) (fun _ => rfl) ?_)
    split
    · exact pure (onward_tail hs)
    · exact malformed
  · refine properties.bind fun p t hp => next? fun v vs ht => checkNew p.1 ?_
    obtain ⟨hlater, honward⟩ := hp
    -- Whatever the node is, its anchor is noted in the end.
    have hnamed (n : Node) (t : Reading) (ht : Onward s t) :
        Steady (fun _ => Onward s) (Node.name p.1 n >>= fun _ => Pure.pure n)
          (Node.name p.1 n >>= fun _ => Pure.pure n) t :=
      name _ _ fun u hu => pure (by rw [Onward, hu]; exact ht)
    have hbare : Steady (fun _ => Onward s)
        (Node.bare p.1 p.2 >>= fun n => Node.name p.1 n >>= fun _ => Pure.pure n)
        (Node.bare p.1 p.2 >>= fun n => Node.name p.1 n >>= fun _ => Pure.pure n) t :=
      bare fun hne n => hnamed n t (honward hne)
    have htail : Onward s { t with tokens := vs } := Nat.lt_of_lt_of_le (onward_tail ht) hlater
    have hroom : 4 * vs.length + 5 ≤ min fuel fuel' := by
      have hlt : vs.length < s.tokens.length := htail
      omega
    -- A collection begins with a mark of its own, and then come its parts.
    have hopened {α : Type} {x y : ReadM α} (m : Node) (wrap : α → Node)
        (hx : ∀ u : Reading, u.tokens = vs → Steady (fun _ => Later u) x y u) :
        Steady (fun _ => Onward s)
          (Node.skip >>= fun _ => Node.name p.1 m >>= fun _ => x >>= fun a =>
            Pure.pure (wrap a) >>= fun n => Node.name p.1 n >>= fun _ => Pure.pure n)
          (Node.skip >>= fun _ => Node.name p.1 m >>= fun _ => y >>= fun a =>
            Pure.pure (wrap a) >>= fun n => Node.name p.1 n >>= fun _ => Pure.pure n) t := by
      refine skip ht (name _ _ fun u hu => (hx u hu).bind fun a w hw => ?_)
      have hu : Onward s u := by rw [Onward, hu]; exact htail
      exact (pure (Q := fun _ => Onward s) (Nat.lt_of_le_of_lt hw hu)).bind hnamed
    cases v with
    | scalar text isPlain =>
      exact skip ht ((pure (Q := fun _ => Onward s) htail).bind hnamed)
    | flowSequenceStart =>
      exact hopened _ _ fun u hu => h.flowItems true (by rw [hu]; omega)
    | flowMappingStart =>
      exact hopened _ _ fun u hu => h.flowEntries true (by rw [hu]; omega)
    | blockEntry =>
      cases indentless
      · exact hbare
      · refine name _ _ fun u hu => ?_
        have hcount : u.tokens.length ≤ s.tokens.length := by rw [hu]; exact hlater
        refine (h.indentlessItems (by omega)).bind fun ns w hw => ?_
        have honward : Onward s w := Nat.lt_of_lt_of_le (hw.2 (by rw [hu, ht]; rfl)) hcount
        exact (pure (Q := fun _ => Onward s) honward).bind hnamed
    | blockSequenceStart =>
      cases block
      · exact hbare
      · exact hopened _ _ fun u hu => h.blockItems (by rw [hu]; omega)
    | blockMappingStart =>
      cases block
      · exact hbare
      · exact hopened _ _ fun u hu => h.blockEntries (by rw [hu]; omega)
    | _ => exact hbare

/-- With more fuel, reading a node that may be left out is steady. -/
lemma readUnless_succ (h : AtFuel fuel fuel') (stops : List Token) (block indentless : Bool)
    {s : Reading} (hfuel : 4 * s.tokens.length + 3 ≤ min (fuel + 1) (fuel' + 1)) :
    Steady (fun _ => Later s) (Node.readUnless stops block indentless (fuel + 1))
      (Node.readUnless stops block indentless (fuel' + 1)) s := by
  rw [Node.readUnless, Node.readUnless]
  refine nextIn stops (pure (Nat.le_refl _)) ?_
  have hread := h.read block indentless (s := s) (by omega)
  exact hread.imp fun _ _ => Nat.le_of_lt

/-- With more fuel, reading the items of a block is steady. -/
lemma blockItems_succ (h : AtFuel fuel fuel') {s : Reading}
    (hfuel : 4 * s.tokens.length + 1 ≤ min (fuel + 1) (fuel' + 1)) :
    Steady (fun _ => Later s) (Node.blockItems (fuel + 1)) (Node.blockItems (fuel' + 1)) s := by
  rw [Node.blockItems, Node.blockItems]
  refine accept (fun ts hs => ?_) fun _ => expect fun ts hs => pure (Nat.le_of_lt (onward_tail hs))
  have hcount : ts.length + 1 = s.tokens.length := by rw [hs, List.length_cons]
  refine (h.readUnless _ _ _ (by dsimp only; omega)).bind fun n t ht => ?_
  have ht' : t.tokens.length ≤ ts.length := ht
  refine (h.blockItems (by omega)).bind fun ns u hu => pure ?_
  have hu' : u.tokens.length ≤ t.tokens.length := hu
  rw [Later]
  omega

/-- With more fuel, reading items that are not indented is steady. -/
lemma indentlessItems_succ (h : AtFuel fuel fuel') {s : Reading}
    (hfuel : 4 * s.tokens.length + 1 ≤ min (fuel + 1) (fuel' + 1)) :
    Steady (fun _ t => Later s t ∧ (s.tokens.head? = some .blockEntry → Onward s t))
      (Node.indentlessItems (fuel + 1)) (Node.indentlessItems (fuel' + 1)) s := by
  rw [Node.indentlessItems, Node.indentlessItems]
  refine accept (fun ts hs => ?_) fun hno => pure ⟨Nat.le_refl _, fun heq => absurd heq hno⟩
  have hcount : ts.length + 1 = s.tokens.length := by rw [hs, List.length_cons]
  refine (h.readUnless _ _ _ (by dsimp only; omega)).bind fun n t ht => ?_
  have ht' : t.tokens.length ≤ ts.length := ht
  refine (h.indentlessItems (by omega)).bind fun ns u hu => ?_
  have honward : Onward s u := by
    have hu' : u.tokens.length ≤ t.tokens.length := hu.1
    rw [Onward]
    omega
  exact pure ⟨Nat.le_of_lt honward, fun _ => honward⟩

/-- The key and the value of an entry, either of which may be left out. -/
lemma entry (h : AtFuel fuel fuel') (stops stops' : List Token) (block : Bool) {s : Reading}
    (hfuel : 4 * s.tokens.length + 3 ≤ min fuel fuel') {g g' : Node → Node → ReadM β}
    (hg : ∀ k v t, Later s t → Steady R (g k v) (g' k v) t) :
    Steady R
      (do
        let k ← Node.readUnless stops block block fuel
        if ← Node.accept .value then
          let v ← Node.readUnless stops' block block fuel
          g k v
        else
          let v ← Pure.pure missing
          g k v)
      (do
        let k ← Node.readUnless stops block block fuel'
        if ← Node.accept .value then
          let v ← Node.readUnless stops' block block fuel'
          g' k v
        else
          let v ← Pure.pure missing
          g' k v) s := by
  refine (h.readUnless _ _ _ hfuel).bind fun k t ht => ?_
  have ht' : t.tokens.length ≤ s.tokens.length := ht
  refine accept (fun ts hs => ?_) fun _ => (pure (Q := fun _ => Later s) ht).bind (hg k)
  have hcount : ts.length + 1 = t.tokens.length := by rw [hs, List.length_cons]
  refine (h.readUnless _ _ _ (by dsimp only; omega)).bind fun v u hu => hg k v u ?_
  have hu' : u.tokens.length ≤ ts.length := hu
  rw [Later]
  omega

/-- With more fuel, reading the entries of a block is steady. -/
lemma blockEntries_succ (h : AtFuel fuel fuel') {s : Reading}
    (hfuel : 4 * s.tokens.length + 1 ≤ min (fuel + 1) (fuel' + 1)) :
    Steady (fun _ => Later s) (Node.blockEntries (fuel + 1)) (Node.blockEntries (fuel' + 1)) s := by
  rw [Node.blockEntries, Node.blockEntries]
  refine accept (fun ts hs => ?_) fun _ => expect fun ts hs => pure (Nat.le_of_lt (onward_tail hs))
  have hcount : ts.length + 1 = s.tokens.length := by rw [hs, List.length_cons]
  refine h.entry _ _ true (by dsimp only; omega) fun k v t ht => ?_
  have ht' : t.tokens.length ≤ ts.length := ht
  refine (h.blockEntries (by omega)).bind fun es u hu => pure ?_
  exact Nat.le_trans hu (Nat.le_trans ht' (Nat.le_of_lt (onward_tail hs)))

/-- A mark stands between the parts of a flow collection, and none before the first. -/
lemma separated (first : Bool) {s : Reading} {k k' : Unit → ReadM β}
    (hk : ∀ t, Later s t → Steady R (k ()) (k' ()) t) :
    Steady R (if !first then Node.expect .flowEntry >>= k else k ())
      (if !first then Node.expect .flowEntry >>= k' else k' ()) s := by
  cases first
  · exact expect fun ts hs => hk _ (Nat.le_of_lt (onward_tail hs))
  · exact hk s (Nat.le_refl _)

/-- Reading the parts between two marks is steady if reading those behind the first one is. A part
is an entry or a node by itself. -/
lemma flowParts {α : Type} (h : AtFuel fuel fuel') (first : Bool) (close : Token)
    (stopsKey stopsValue : List Token) (ofEntry : Node → Node → α) (ofNode : Node → α)
    {more more' : ReadM (List α)} {s : Reading}
    (hmore : ∀ u : Reading, 4 * u.tokens.length + 3 ≤ min fuel fuel' →
      Steady (fun _ => Later u) more more' u)
    (hfuel : 4 * s.tokens.length + 3 ≤ min (fuel + 1) (fuel' + 1)) :
    Steady (fun _ => Later s)
      (do
        if ← Node.accept close then return []
        if !first then Node.expect .flowEntry
        if ← Node.accept .key then
          let k ← Node.readUnless stopsKey false false fuel
          let v ← if ← Node.accept .value then Node.readUnless stopsValue false false fuel
            else Pure.pure Node.missing
          return ofEntry k v :: (← more)
        else if ← Node.accept close then return []
        else
          let n ← Node.read false false fuel
          return ofNode n :: (← more))
      (do
        if ← Node.accept close then return []
        if !first then Node.expect .flowEntry
        if ← Node.accept .key then
          let k ← Node.readUnless stopsKey false false fuel'
          let v ← if ← Node.accept .value then Node.readUnless stopsValue false false fuel'
            else Pure.pure Node.missing
          return ofEntry k v :: (← more')
        else if ← Node.accept close then return []
        else
          let n ← Node.read false false fuel'
          return ofNode n :: (← more')) s := by
  refine accept (fun ts hs => pure (Nat.le_of_lt (onward_tail hs))) fun _ => ?_
  refine separated first fun t ht => ?_
  have hle : t.tokens.length ≤ s.tokens.length := ht
  -- Whatever the next part is, some token is taken for it before the parts behind it are read.
  have hrest {u : Reading} (hu : Onward t u) : Steady (fun _ => Later s) more more' u := by
    have hlt : u.tokens.length < t.tokens.length := hu
    exact (hmore u (by omega)).imp fun _ w hw =>
      Nat.le_trans hw (Nat.le_trans (Nat.le_of_lt hlt) hle)
  refine accept (fun ts hs => ?_) fun _ => accept (fun ts hs => pure ?_) fun _ => ?_
  · have hcount : ts.length + 1 = t.tokens.length := by rw [hs, List.length_cons]
    refine h.entry _ _ false (by dsimp only; omega) fun k v u hu => ?_
    exact (hrest (Nat.lt_of_le_of_lt hu (onward_tail hs))).bind fun _ _ hw => pure hw
  · exact Nat.le_trans (Nat.le_of_lt (onward_tail hs)) ht
  · exact (h.read false false (by omega)).bind fun n u hu => (hrest hu).bind fun _ _ hw => pure hw

/-- With more fuel, reading the items between brackets is steady. -/
lemma flowItems_succ (h : AtFuel fuel fuel') (first : Bool) {s : Reading}
    (hfuel : 4 * s.tokens.length + 3 ≤ min (fuel + 1) (fuel' + 1)) :
    Steady (fun _ => Later s) (Node.flowItems first (fuel + 1))
      (Node.flowItems first (fuel' + 1)) s := by
  rw [Node.flowItems, Node.flowItems]
  have hparts := h.flowParts first .flowSequenceEnd
    [.value, .flowEntry, .flowSequenceEnd] [.flowEntry, .flowSequenceEnd]
    (fun k v => Node.mapping (coreTag "map") [(k, v)]) (fun n => n)
    (fun _ hu => h.flowItems false hu) hfuel
  exact hparts

/-- With more fuel, reading the entries between braces is steady. -/
lemma flowEntries_succ (h : AtFuel fuel fuel') (first : Bool) {s : Reading}
    (hfuel : 4 * s.tokens.length + 3 ≤ min (fuel + 1) (fuel' + 1)) :
    Steady (fun _ => Later s) (Node.flowEntries first (fuel + 1))
      (Node.flowEntries first (fuel' + 1)) s := by
  rw [Node.flowEntries, Node.flowEntries]
  have hparts := h.flowParts first .flowMappingEnd
    [.value, .flowEntry, .flowMappingEnd] [.flowEntry, .flowMappingEnd]
    (fun k v => (k, v)) (fun k => (k, Node.missing)) (fun _ hu => h.flowEntries false hu) hfuel
  exact hparts

/-- One more unit of fuel keeps all steps steady. -/
lemma succ (h : AtFuel fuel fuel') : AtFuel (fuel + 1) (fuel' + 1) where
  read := h.read_succ
  readUnless := h.readUnless_succ
  blockItems := h.blockItems_succ
  indentlessItems := h.indentlessItems_succ
  blockEntries := h.blockEntries_succ
  flowItems := h.flowItems_succ
  flowEntries := h.flowEntries_succ

/-- Without fuel there is not enough of it. -/
lemma of_zero (h : min fuel fuel' = 0) : AtFuel fuel fuel' := by
  refine ⟨?_, ?_, ?_, ?_, ?_, ?_, ?_⟩
  all_goals
    intros
    omega

end AtFuel

/-- Reading a node is steady, however deep it goes. -/
lemma atFuel (fuel fuel' : Nat) : AtFuel fuel fuel' := by
  induction fuel generalizing fuel' with
  | zero => exact .of_zero (Nat.zero_min fuel')
  | succ fuel ih =>
    cases fuel' with
    | zero => exact .of_zero (Nat.min_zero _)
    | succ fuel' => exact (ih fuel').succ

end Steady

/-! ## Documents -/

section

variable {handles : List (String × String)} {before after more : List Token} {f : Fault}

/-- A fault that reading comes to, and that does not make the text malformed. -/
def Strays {α : Type} (r : Except Fault α) : Prop :=
  ∃ e, r = .error e ∧ e ≠ .malformed

/-- A fault of the first step is one of both. -/
lemma Strays.bind {α β : Type} {r : Except Fault α} {g : α → Except Fault β} (h : Strays r) :
    Strays (r >>= g) := by
  obtain ⟨e, rfl, he⟩ := h
  exact ⟨e, rfl, he⟩

/-- If two steps are not malformed, the first is not. -/
lemma ne_malformed_of_bind {α β : Type} {r : Except Fault α} {g : α → Except Fault β}
    (h : r >>= g ≠ .error .malformed) : r ≠ .error .malformed := by
  rintro rfl
  exact h rfl

/-- Directives are malformed, or they go up to what follows them, or they end before. -/
lemma directives_steady (versioned : Bool) (handles : List (String × String))
    (before : List Token) :
    (∀ more, directives versioned handles (before ++ more) = .error .malformed) ∨
      (∀ f more, ∃ hs, directives versioned handles (before ++ .fault f :: more) =
        .ok (hs, .fault f :: more)) ∨
      ∃ hs t ts, ∀ more, directives versioned handles (before ++ more) =
        .ok (hs, t :: (ts ++ more)) := by
  induction before generalizing versioned handles with
  | nil => exact .inr (.inl fun f more => ⟨_, rfl⟩)
  | cons t before ih =>
    by_cases hd : ∃ d, t = .directive d
    · obtain ⟨d, rfl⟩ := hd
      cases d with
      | version major minor =>
        simp only [List.cons_append, directives]
        split
        · exact .inl fun _ => rfl
        · exact ih true handles
      | tag handle start =>
        simp only [List.cons_append, directives]
        split
        · exact .inl fun _ => rfl
        · exact ih versioned ((handle, start) :: handles)
      | other name =>
        simp only [List.cons_append, directives]
        exact ih versioned handles
    · refine .inr (.inr ⟨handles ++ standardHandles, t, before, fun more => ?_⟩)
      cases t with
      | directive d => exact absurd ⟨d, rfl⟩ hd
      | _ => rfl

/-- What comes after the document is all read up to a fault. -/
lemma strays_finished (h : finished (before ++ more) ≠ .error .malformed) (hf : f ≠ .malformed) :
    Strays (finished (before ++ .fault f :: after)) := by
  induction before with
  | nil => exact ⟨f, rfl, hf⟩
  | cons t before ih =>
    by_cases ht : t = .documentEnd
    · subst ht
      exact ih h
    · have hother (rest : List Token) : finished (t :: before ++ rest) =
          directives false [] (t :: before ++ rest) >>= fun r => refuse r.2 := by
        cases t with
        | documentEnd => exact absurd rfl ht
        | _ => rfl
      rw [hother] at h ⊢
      rcases directives_steady false [] (t :: before) with hd | hd | ⟨hs, u, us, hd⟩
      · rw [hd] at h
        exact absurd rfl h
      · obtain ⟨hs, hd⟩ := hd f after
        rw [hd]
        exact ⟨f, rfl, hf⟩
      · rw [hd] at h ⊢
        cases u with
        | fault g => exact ⟨g, rfl, fun hg => h (hg ▸ rfl)⟩
        | _ => exact absurd rfl h

/-- The content of a document is read up to a fault. -/
lemma strays_document (h : document handles (before ++ more) ≠ .error .malformed)
    (hf : f ≠ .malformed) : Strays (document handles (before ++ .fault f :: after)) := by
  have hsteady := (Steady.atFuel (4 * (before ++ .fault f :: after).length + 4)
    (4 * (before ++ more).length + 4)).read true false (s := ⟨before, handles, []⟩)
    (by simp only [List.length_append]; omega)
  rw [document] at h ⊢
  cases hsteady with
  | asks hask => exact Strays.bind ⟨f, hask f after, hf⟩
  | fails e hx hy =>
    exact Strays.bind ⟨e, hx _, fun he => ne_malformed_of_bind h (he ▸ hy more)⟩
  | gives n t _ hx hy =>
    have hx := hx (.fault f :: after)
    have hy := hy more
    simp only [Reading.followedBy] at hx hy
    rw [hy] at h
    rw [hx]
    exact (strays_finished (ne_malformed_of_bind h) hf).bind

/-- A fault behind tokens that some others can complete to a document with its directives comes to
light. -/
lemma strays_started (h : started handles (before ++ more) ≠ .error .malformed)
    (hf : f ≠ .malformed) : Strays (started handles (before ++ .fault f :: after)) := by
  cases before with
  | nil => exact ⟨f, rfl, hf⟩
  | cons t before =>
    cases t with
    | documentEnd => exact (strays_finished (ne_malformed_of_bind h) hf).bind
    | directive d =>
      have hbefore : finished (.directive d :: before ++ more) ≠ .error .malformed :=
        ne_malformed_of_bind h
      exact (strays_finished hbefore hf).bind
    | documentStart => exact absurd rfl h
    | _ =>
      rw [started] at h ⊢
      · exact strays_document h hf
      all_goals simp

/-- If tokens are not malformed whatever follows them, then reading comes to a fault that does. -/
lemma strays_of_not_spoilt (h : ¬Spoilt before) (hf : f ≠ .malformed) (after : List Token) :
    Strays (ofTokens (before ++ .fault f :: after)) := by
  obtain ⟨more, h⟩ := not_forall.mp h
  cases before with
  | nil => exact ⟨f, rfl, hf⟩
  | cons t before =>
    by_cases ht : t = .documentStart ∨ ∃ d, t = .directive d
    · have hother (rest : List Token) : ofTokens (t :: before ++ rest) =
          directives false [] (t :: before ++ rest) >>= fun r => marked r.1 r.2 := by
        rcases ht with rfl | ⟨d, rfl⟩ <;> rfl
      rw [hother] at h ⊢
      rcases directives_steady false [] (t :: before) with hd | hd | ⟨hs, u, us, hd⟩
      · rw [hd] at h
        exact absurd rfl h
      · obtain ⟨hs, hd⟩ := hd f after
        rw [hd]
        exact ⟨f, rfl, hf⟩
      · rw [hd] at h ⊢
        cases u with
        | documentStart => exact strays_started h hf
        | fault g => exact ⟨g, rfl, fun hg => h (hg ▸ rfl)⟩
        | _ => exact absurd rfl h
    · cases t with
      | documentStart => exact absurd (.inl rfl) ht
      | directive d => exact absurd (.inr ⟨d, rfl⟩) ht
      | _ =>
        rw [ofTokens] at h ⊢
        · exact strays_document h hf
        all_goals simp

end

end Stencil.Yaml.Node
