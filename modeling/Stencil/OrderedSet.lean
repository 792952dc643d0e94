/-!
# Ordered sets

A set of items that keeps the order in which they were added, one item for each key. What the key of
an item is, a function tells. The keys are stored twice: the list of the items tells their order,
and an index tells which keys there are.
-/

namespace Stencil

/-- Items in order of first insertion, one for each key, with an index of their keys. -/
structure OrderedSet {α κ : Type} (key : α → κ) where
  items : List α := []
  index : List κ := []
  nodup : (items.map key).Nodup := by simp
  /-- The index has the keys of the items, in whatever order. -/
  indexed : index.Perm (items.map key) := by simp

namespace OrderedSet

variable {α κ : Type} {key : α → κ}

/-- The set without items. -/
def empty : OrderedSet key := {}

/-- A key is looked up in the index. -/
instance : Membership κ (OrderedSet key) where
  mem s k := k ∈ s.index

instance [DecidableEq κ] (s : OrderedSet key) (k : κ) : Decidable (k ∈ s) :=
  inferInstanceAs (Decidable (k ∈ s.index))

/-- Puts an item with a new key at the end. -/
def push (s : OrderedSet key) (a : α) (h : key a ∉ s) : OrderedSet key where
  items := s.items ++ [a]
  index := key a :: s.index
  nodup := by
    rw [List.map_append, List.nodup_append]
    refine ⟨s.nodup, by simp, ?_⟩
    intro k hk l hl hkl
    simp only [List.map_cons, List.map_nil, List.mem_singleton] at hl
    exact h (s.indexed.mem_iff.mpr (hl ▸ hkl ▸ hk))
  indexed := by
    rw [List.map_append]
    exact (s.indexed.cons (key a)).trans (List.perm_append_singleton (key a) (s.items.map key)).symm

variable [DecidableEq κ]

/-- Is there an item with the key of `a`? -/
def hasKey (s : OrderedSet key) (a : α) : Bool :=
  key a ∈ s

/-- Puts an item at the end unless one with its key is there already, and tells whether it did. -/
def add (a : α) : StateM (OrderedSet key) Bool := fun s =>
  if h : s.hasKey a then (false, s) else (true, s.push a fun hmem => h (decide_eq_true hmem))

/-- The set after an item was added. -/
def insert (s : OrderedSet key) (a : α) : OrderedSet key :=
  ((add a).run s).2

end OrderedSet

end Stencil
