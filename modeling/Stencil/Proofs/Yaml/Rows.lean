import Mathlib.Tactic.Common
import Stencil.Yaml.Value

/-!
# Rows of a document

The nodes of a document are read row by row: the outermost node, then its parts, then theirs. No
part is as deep as what it stands in (`Node.Part.depth_lt`), so the rows come to an end, and the
depth of the outermost node is fuel enough. The fault of a document is therefore the first that any
of its parts has, in the order of the rows (`Node.fault?_eq_some_iff`).
-/

namespace Stencil.Yaml.Node

variable {n : Node} {e : Node × Node} {es es' : List (Node × Node)} {items : List Node}
  {p q : Part} {ps ps' : List Part} {f : Fault} {fuel : Nat}

/-! ## Depth -/

/-- An item is not deeper than all of them together. -/
lemma depth_le_itemsDepth (h : n ∈ items) : n.depth ≤ itemsDepth items := by
  induction items with
  | nil => exact absurd h List.not_mem_nil
  | cons m items ih =>
    rw [itemsDepth]
    rcases List.mem_cons.mp h with rfl | h
    · exact Nat.le_max_left _ _
    · exact Nat.le_trans (ih h) (Nat.le_max_right _ _)

/-- An entry is not deeper than all of them together. -/
lemma entryDepth_le_entriesDepth (h : e ∈ es) : entryDepth e ≤ entriesDepth es := by
  induction es with
  | nil => exact absurd h List.not_mem_nil
  | cons e' es ih =>
    rw [entriesDepth]
    rcases List.mem_cons.mp h with rfl | h
    · exact Nat.le_max_left _ _
    · exact Nat.le_trans (ih h) (Nat.le_max_right _ _)

/-- A key is not deeper than its entry. -/
lemma key_depth_le (e : Node × Node) : e.1.depth ≤ entryDepth e := by
  rw [entryDepth.eq_def]
  exact Nat.le_max_left _ _

/-- A value is not deeper than its entry. -/
lemma value_depth_le (e : Node × Node) : e.2.depth ≤ entryDepth e := by
  rw [entryDepth.eq_def]
  exact Nat.le_max_right _ _

/-- The depth of a node is not zero. -/
lemma depth_pos (n : Node) : 0 < n.depth := by
  cases n <;> simp [depth]

/-- A tag does not count for the depth. -/
lemma depth_retag (t : String) (n : Node) : (n.retag t).depth = n.depth := by
  cases n <;> simp [retag, depth]

/-- A key is as deep as its node. -/
lemma depth_asKey (n : Node) : n.asKey.depth = n.depth := by
  rw [asKey]
  split
  · exact depth_retag _ n
  · rfl

/-- What comes of a step for one member of a row comes of that member. -/
lemma exists_of_mem_mapM {α β : Type} {g : α → Option β} {xs : List α} {ys : List β} {y : β}
    (h : xs.mapM g = some ys) (hy : y ∈ ys) : ∃ x ∈ xs, g x = some y := by
  induction xs generalizing ys with
  | nil =>
    cases h
    exact absurd hy List.not_mem_nil
  | cons x xs ih =>
    rw [List.mapM_cons] at h
    obtain ⟨z, hz, h⟩ := Option.bind_eq_some_iff.mp h
    obtain ⟨zs, hzs, h⟩ := Option.bind_eq_some_iff.mp h
    cases h
    rcases List.mem_cons.mp hy with rfl | hy
    · exact ⟨x, List.mem_cons_self, hz⟩
    · obtain ⟨x', hx', hg⟩ := ih hzs hy
      exact ⟨x', List.mem_cons_of_mem x hx', hg⟩

/-- What a merge key brings in is not as deep as its value. -/
lemma entryDepth_lt_of_mergedEntries {flat : List (Node × Node) → Option (List (Node × Node))}
    (hflat : ∀ es es', flat es = some es' → ∀ e ∈ es', entryDepth e ≤ entriesDepth es)
    (h : mergedEntries flat n = some es) (he : e ∈ es) : entryDepth e < n.depth := by
  have hmapping {tag : String} {entries part : List (Node × Node)} (h : flat entries = some part)
      (he : e ∈ part) : entryDepth e < (Node.mapping tag entries).depth := by
    rw [depth]
    exact Nat.lt_succ_of_le (hflat entries part h e he)
  cases n with
  | scalar tag text => cases h
  | mapping tag entries => exact hmapping h he
  | loop isMapping =>
    cases isMapping with
    | false => cases h
    | true =>
      cases h
      exact absurd he List.not_mem_nil
  | sequence tag items =>
    obtain ⟨parts, hparts, hes⟩ := Option.bind_eq_some_iff.mp h
    cases hes
    obtain ⟨part, hpart, he⟩ := List.mem_flatten.mp he
    obtain ⟨m, hm, hmerged⟩ := exists_of_mem_mapM hparts (List.mem_reverse.mp hpart)
    have hinner : entryDepth e < m.depth := by
      cases m with
      | scalar _ _ => cases hmerged
      | sequence _ _ => cases hmerged
      | mapping tag entries => exact hmapping hmerged he
      | loop isMapping =>
        cases isMapping with
        | false => cases hmerged
        | true =>
          cases hmerged
          exact absurd he List.not_mem_nil
    rw [depth]
    exact Nat.lt_succ_of_lt (Nat.lt_of_lt_of_le hinner (depth_le_itemsDepth hm))

/-- No entry of a mapping, merged ones included, is deeper than those that are written down. -/
lemma entryDepth_le_of_flatten (h : flatten fuel es = some es') :
    ∀ e ∈ es', entryDepth e ≤ entriesDepth es := by
  induction fuel generalizing es es' with
  | zero =>
    cases h
    exact fun e he => entryDepth_le_entriesDepth he
  | succ fuel ih =>
    intro e he
    rw [flatten] at h
    obtain ⟨merged, hmerged, h⟩ := Option.bind_eq_some_iff.mp h
    cases h
    rcases List.mem_append.mp he with he | he
    · obtain ⟨part, hpart, he⟩ := List.mem_flatten.mp he
      obtain ⟨e₀, he₀, hpart⟩ := exists_of_mem_mapM hmerged hpart
      have hlt := entryDepth_lt_of_mergedEntries (fun _ _ hflat => ih hflat) hpart he
      have hle := entryDepth_le_entriesDepth (List.mem_filter.mp he₀).1
      exact Nat.le_of_lt (Nat.lt_of_lt_of_le hlt (Nat.le_trans (value_depth_le e₀) hle))
    · exact entryDepth_le_entriesDepth (List.mem_filter.mp he).1

/-! ## Tags -/

/-- The name of a tag is what follows the start that all tags of the language have. -/
lemma tagName?_eq_some_iff {name : String} : n.tagName? = some name ↔ n.tag = coreTag name := by
  have hdrop : ∀ p cs r : List Char, Text.dropStart? p cs = some r ↔ cs = p ++ r := by
    intro p
    induction p with
    | nil => simp [Text.dropStart?]
    | cons a p ih =>
      intro cs r
      cases cs with
      | nil => simp [Text.dropStart?]
      | cons c cs =>
        rw [Text.dropStart?]
        split
        · rename_i hc
          simp [ih, beq_iff_eq.mp hc]
        · rename_i hc
          simp [Ne.symm (fun heq => hc (beq_iff_eq.mpr heq))]
  rw [tagName?, Option.map_eq_some_iff]
  constructor
  · rintro ⟨r, hr, rfl⟩
    rw [← String.toList_inj, (hdrop _ _ _).mp hr, coreTag, String.toList_append,
      String.toList_ofList]
  · intro h
    refine ⟨name.toList, (hdrop _ _ _).mpr ?_, String.ofList_toList⟩
    rw [h, coreTag, String.toList_append]

/-- The tags of collections. -/
def collections : List String :=
  ["seq", "map", "set", "omap", "pairs"]

/-- A node whose tag is that of no collection is a scalar. -/
lemma content_eq_scalar {name : String} (h : n.tag = coreTag name) (hname : name ∉ collections) :
    n.content = .scalar (n.scalarValue name) := by
  have htag := tagName?_eq_some_iff.mpr h
  unfold content
  split
  · rename_i isMapping
    have hloop : (Node.loop isMapping).tagName? = some (if isMapping then "map" else "seq") :=
      tagName?_eq_some_iff.mpr rfl
    rw [htag] at hloop
    cases hloop
    exact absurd hname (by cases isMapping <;> decide)
  · rw [htag]
    split
    case h_6 heq =>
      cases heq
      rfl
    case h_7 heq => cases heq
    all_goals
      rename_i heq
      cases heq
      exact absurd hname (by decide)

/-! ## Parts -/

namespace Part

/-- The number of levels of a part. What is wrong has none. -/
def depth : Part → Nat
  | .node n => n.depth
  | .wrong => 0

end Part

/-- The parts of an entry are not deeper than it. -/
lemma depth_le_of_mem_entryParts (h : q ∈ entryParts e) : q.depth ≤ entryDepth e := by
  have hparts : q = .node e.1.asKey ∨ q = .wrong ∨ q = .node e.2 := by
    rw [entryParts] at h
    split at h <;> simp at h <;> tauto
  rcases hparts with rfl | rfl | rfl
  · rw [Part.depth, depth_asKey]
    exact key_depth_le e
  · exact Nat.zero_le _
  · exact value_depth_le e

/-- The parts of a mapping with one entry are not as deep as it. -/
lemma depth_lt_of_mem_pairParts (h : q ∈ pairParts n) : q.depth < n.depth := by
  unfold pairParts at h
  split at h
  · rename_i tag k v
    have hentry := entryDepth_le_entriesDepth (List.mem_singleton_self (k, v))
    rw [Node.depth]
    rcases List.mem_cons.mp h with rfl | h
    · exact Nat.lt_succ_of_le (Nat.le_trans (key_depth_le (k, v)) hentry)
    · rw [List.mem_singleton.mp h]
      exact Nat.lt_succ_of_le (Nat.le_trans (value_depth_le (k, v)) hentry)
  · rw [List.mem_singleton.mp h]
    exact depth_pos n

/-- The content of a node is made of what stands in it. -/
inductive Content.Of (n : Node) : Content → Prop where
  | scalar (r : Except Fault Value) : Of n (.scalar r)
  | loop (isMapping : Bool) : Of n (.loop isMapping)
  | misfit : Of n .misfit
  | items {ns : List Node} : itemsDepth ns < n.depth → Of n (.items ns)
  | pairs {ns : List Node} : itemsDepth ns < n.depth → Of n (.pairs ns)
  | entries {es : List (Node × Node)} : (∀ e ∈ es, entryDepth e < n.depth) → Of n (.entries es)
  | members {es : List (Node × Node)} : (∀ e ∈ es, entryDepth e < n.depth) → Of n (.members es)

/-- The items of a node are less deep than the node. -/
lemma content_ofItems {wrap : List Node → Content}
    (h : ∀ ns, itemsDepth ns < n.depth → Content.Of n (wrap ns)) :
    Content.Of n (n.ofItems wrap) := by
  cases n with
  | sequence tag items =>
    refine h items ?_
    rw [depth]
    exact Nat.lt_succ_self _
  | _ => exact .misfit

/-- The entries of a node are less deep than the node. -/
lemma content_ofEntries {wrap : List (Node × Node) → Content}
    (h : ∀ es, (∀ e ∈ es, entryDepth e < n.depth) → Content.Of n (wrap es)) :
    Content.Of n (n.ofEntries wrap) := by
  cases n with
  | mapping tag entries =>
    rw [ofEntries]
    split
    · rename_i es hflat
      refine h es fun e he => ?_
      rw [depth]
      exact Nat.lt_succ_of_le (entryDepth_le_of_flatten hflat e he)
    · exact .misfit
  | _ => exact .misfit

/-- The content of a node is less deep than the node. -/
lemma content_of (n : Node) : Content.Of n n.content := by
  unfold content
  split
  · exact .loop _
  · split
    · exact content_ofItems fun _ => .items
    · exact content_ofEntries fun _ => .entries
    · exact content_ofEntries fun _ => .members
    · exact content_ofItems fun _ => .pairs
    · exact content_ofItems fun _ => .pairs
    · exact .scalar _
    · exact .scalar _

/-- What stands in a part is not as deep as it. -/
lemma Part.depth_lt (h : q ∈ p.parts) : q.depth < p.depth := by
  cases p with
  | wrong => exact absurd h List.not_mem_nil
  | node n =>
    have hcontent := content_of n
    rw [parts] at h
    generalize n.content = c at h hcontent
    cases hcontent with
    | scalar | loop => exact absurd h List.not_mem_nil
    | misfit =>
      rw [List.mem_singleton.mp h]
      exact depth_pos n
    | items hns =>
      obtain ⟨m, hm, rfl⟩ := List.mem_map.mp h
      exact Nat.lt_of_le_of_lt (depth_le_itemsDepth hm) hns
    | pairs hns =>
      obtain ⟨m, hm, hq⟩ := List.mem_flatMap.mp h
      exact Nat.lt_trans (depth_lt_of_mem_pairParts hq)
        (Nat.lt_of_le_of_lt (depth_le_itemsDepth hm) hns)
    | entries hes | members hes =>
      obtain ⟨e, he, hq⟩ := List.mem_flatMap.mp h
      exact Nat.lt_of_le_of_lt (depth_le_of_mem_entryParts hq) (hes e he)

/-! ## Rows -/

/-- The row that stands so many rows below a given one. -/
def rowBelow (ps : List Part) : Nat → List Part
  | 0 => ps
  | k + 1 => (rowBelow ps k).flatMap Part.parts

/-- Going down from the next row is going down one row more. -/
lemma rowBelow_parts (ps : List Part) (k : Nat) :
    rowBelow (ps.flatMap Part.parts) k = rowBelow ps (k + 1) := by
  induction k with
  | zero => rfl
  | succ k ih => rw [rowBelow, ih, ← rowBelow]

/-- With each row there is one level less. -/
lemma depth_add_le {d k : Nat} (h : ∀ p ∈ ps, p.depth ≤ d) (hq : q ∈ rowBelow ps k) :
    q.depth + k ≤ d := by
  induction k generalizing q with
  | zero => exact h q hq
  | succ k ih =>
    obtain ⟨p, hp, hq⟩ := List.mem_flatMap.mp hq
    have hlt := Part.depth_lt hq
    have hle := ih hp
    omega

/-- The part comes before all that are wrong: there is no fault in the rows above its own, and none
before it in that row. -/
structure Foremost (ps : List Part) (k : Nat) (p : Part) : Prop where
  above : ∀ j < k, ∀ q ∈ rowBelow ps j, q.fault? = none
  before : ∃ before after, rowBelow ps k = before ++ p :: after ∧ ∀ q ∈ before, q.fault? = none

/-- What is foremost below the next row is foremost, if no part of this row has a fault. -/
lemma Foremost.below {k : Nat} (h : ∀ q ∈ ps, q.fault? = none)
    (hp : Foremost (ps.flatMap Part.parts) k p) : Foremost ps (k + 1) p where
  above j hj q hq := by
    cases j with
    | zero => exact h q hq
    | succ j => exact hp.above j (Nat.lt_of_succ_lt_succ hj) q (rowBelow_parts ps j ▸ hq)
  before := by
    obtain ⟨before, after, hrow, hbefore⟩ := hp.before
    exact ⟨before, after, rowBelow_parts ps k ▸ hrow, hbefore⟩

/-- What is foremost further down is foremost below the next row. -/
lemma Foremost.of_below {k : Nat} (hp : Foremost ps (k + 1) p) :
    Foremost (ps.flatMap Part.parts) k p where
  above j hj q hq := hp.above (j + 1) (Nat.succ_lt_succ hj) q (rowBelow_parts ps j ▸ hq)
  before := by
    obtain ⟨before, after, hrow, hbefore⟩ := hp.before
    exact ⟨before, after, (rowBelow_parts ps k).symm ▸ hrow, hbefore⟩

/-- A search through so many rows ends at the first fault in them. -/
lemma faultFrom_eq_some_iff :
    faultFrom fuel ps = some f ↔ ∃ k < fuel, ∃ p, Foremost ps k p ∧ p.fault? = some f := by
  induction fuel generalizing ps with
  | zero => exact ⟨nofun, fun ⟨k, hk, _⟩ => absurd hk (Nat.not_lt_zero k)⟩
  | succ fuel ih =>
    rw [faultFrom, Option.or_eq_some_iff, List.findSome?_eq_some_iff, List.findSome?_eq_none_iff,
      ih]
    constructor
    · rintro (⟨before, p, after, hps, hp, hbefore⟩ | ⟨hnone, k, hk, p, hfirst, hp⟩)
      · refine ⟨0, Nat.succ_pos fuel, p, ⟨nofun, before, after, hps, hbefore⟩, hp⟩
      · exact ⟨k + 1, Nat.succ_lt_succ hk, p, hfirst.below hnone, hp⟩
    · rintro ⟨k, hk, p, hfirst, hp⟩
      cases k with
      | zero =>
        obtain ⟨before, after, hrow, hbefore⟩ := hfirst.before
        exact .inl ⟨before, p, after, hrow, hp, hbefore⟩
      | succ k =>
        exact .inr ⟨hfirst.above 0 (Nat.succ_pos k),
          k, Nat.lt_of_succ_lt_succ hk, p, hfirst.of_below, hp⟩

/-- The fault of a node is the first of any part in it, in the order of the rows. -/
lemma fault?_eq_some_iff :
    n.fault? = some f ↔ ∃ k p, Foremost [.node n] k p ∧ p.fault? = some f := by
  rw [fault?, faultFrom_eq_some_iff]
  constructor
  · rintro ⟨k, -, p, h⟩
    exact ⟨k, p, h⟩
  · rintro ⟨k, p, hfirst, hp⟩
    obtain ⟨before, after, hrow, -⟩ := hfirst.before
    have hmem : p ∈ rowBelow [.node n] k := hrow ▸ List.mem_append_right _ List.mem_cons_self
    have hroot : ∀ q ∈ [Part.node n], q.depth ≤ n.depth :=
      fun q hq => Nat.le_of_eq (congrArg Part.depth (List.mem_singleton.mp hq))
    have hle := depth_add_le hroot hmem
    exact ⟨k, by omega, p, hfirst, hp⟩

/-! ## Rows without faults -/

/-- No parts have no fault. -/
lemma faultFrom_nil (fuel : Nat) : faultFrom fuel [] = none := by
  induction fuel with
  | zero => rfl
  | succ fuel ih => exact ih

/-- Rows side by side have a fault if one of them has. -/
lemma faultFrom_append_eq_none (h : faultFrom fuel ps = none) (h' : faultFrom fuel ps' = none) :
    faultFrom fuel (ps ++ ps') = none := by
  induction fuel generalizing ps ps' with
  | zero => rfl
  | succ fuel ih =>
    rw [faultFrom, Option.or_eq_none_iff] at h h' ⊢
    rw [List.findSome?_append, Option.or_eq_none_iff, List.flatMap_append]
    exact ⟨⟨h.1, h'.1⟩, ih h.2 h'.2⟩

end Stencil.Yaml.Node
