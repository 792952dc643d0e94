import Mathlib.Tactic.Common
import Stencil.Files.Tree

/-!
# Writing and reading files

A tree is a finite map from paths to entries. `Tree.Settled` says that a file with given contents
was put at a path last and can be reached there. It can then be read (`Settled.read`), and writing
it again changes nothing (`Settled.write`).
-/

namespace Stencil.Files

/-- What is dropped under another key does not matter. -/
lemma lookup_filter_of_ne {α β : Type} [BEq α] [LawfulBEq α] {a b : α} (h : a ≠ b)
    (xs : List (α × β)) :
    (xs.filter (·.1 != b)).lookup a = xs.lookup a := by
  induction xs with
  | nil => rfl
  | cons x xs ih =>
    obtain ⟨k, v⟩ := x
    by_cases hk : k = b
    · rw [List.filter_cons_of_neg (by simp [hk]), ih, List.lookup_cons,
        beq_eq_false_iff_ne.mpr (hk ▸ h)]
    · rw [List.filter_cons_of_pos (by simpa using hk), List.lookup_cons, List.lookup_cons, ih]

namespace Tree

variable {t t' : Tree} {p : Path} {parts : List String} {e : Entry} {bytes : List UInt8}

/-- Files are the same if their entries are. -/
lemma eq_of_entries (h : t.entries = t'.entries) : t = t' := by
  cases t
  cases t'
  cases h
  rfl

/-- Of two entries set in one place the second stays. -/
lemma set_set (t : Tree) (parts : List String) (e e' : Entry) :
    (t.set parts e).set parts e' = t.set parts e' := by
  refine eq_of_entries ?_
  simp [set]

/-- An entry that was set is there. -/
lemma get?_set_self (hparts : parts ≠ []) (t : Tree) (e : Entry) :
    (t.set parts e).get? parts = some e := by
  have hempty : parts.isEmpty = false := by simpa using hparts
  simp [get?, set, hempty]

/-- Setting an entry leaves the others. -/
lemma get?_set_of_ne {other : List String} (h : other ≠ parts) (t : Tree) (e : Entry) :
    (t.set parts e).get? other = t.get? other := by
  have hlookup : (t.set parts e).entries.lookup other = t.entries.lookup other := by
    rw [set, List.lookup_cons, beq_eq_false_iff_ne.mpr h, lookup_filter_of_ne h]
  simp only [get?, hlookup]

/-- The name of an entry in a directory. -/
lemma name_eq_some {ps : List String} {x : String} :
    (if ps.length == parts.length + 1 && parts.isPrefixOf ps then ps.getLast? else none) = some x ↔
      ps = parts ++ [x] := by
  simp only [Bool.and_eq_true, beq_iff_eq, List.isPrefixOf_iff_prefix,
    Option.ite_none_right_eq_some]
  constructor
  · rintro ⟨⟨hlength, rest, rfl⟩, hlast⟩
    obtain ⟨y, rfl⟩ := List.length_eq_one_iff.mp (by simpa using hlength)
    simpa using hlast
  · rintro rfl
    simp

/-- The names in a directory are all different. -/
lemma nodup_names (t : Tree) (parts : List String) : (t.names parts).Nodup := by
  have hentries := t.nodup
  rw [List.Nodup, List.pairwise_map] at hentries
  refine List.pairwise_filterMap.mpr (hentries.imp fun hne a ha b hb heq => hne ?_)
  rw [name_eq_some.mp ha, name_eq_some.mp hb, heq]

/-! ## Reaching a path -/

/-- Nothing stands in the way of a path if its components lead through directories and none is too
long. -/
lemma obstacle?_eq_none : t.obstacle? p = none ↔
    ∀ i < p.parts.length, t.get? (p.parts.take i) = some .directory ∧
      (Text.encode (p.parts[i]?.getD "")).length ≤ longestName := by
  unfold obstacle?
  simp only [List.findSome?_eq_none_iff, List.mem_range]
  refine forall₂_congr fun i _ => ?_
  cases t.get? (p.parts.take i) with
  | none => simp
  | some e =>
    cases e with
    | file f => simp
    | directory => simp

/-- What is put at a path does not stand in its way. -/
lemma obstacle?_set (e : Entry) (h : t.obstacle? p = none) :
    (t.set p.parts e).obstacle? p = none := by
  rw [obstacle?_eq_none] at h ⊢
  intro i hi
  have hne : p.parts.take i ≠ p.parts := by
    intro heq
    have := congrArg List.length heq
    rw [List.length_take] at this
    omega
  rw [get?_set_of_ne hne]
  exact h i hi

/-- What exists is reached without an obstacle. -/
lemma reached_of_exists? (h : t.exists? p = .ok true) : t.obstacle? p = none := by
  unfold exists? at h
  split at h
  · cases h
  split at h
  · cases h
  · cases h
  · assumption

/-- A file is written where nothing stands in the way and no directory has its path. -/
lemma write_eq_ok (h : t.write p bytes = .ok t') :
    hasZero p = false ∧ t.obstacle? p = none ∧
    ∃ executable, t' = t.set p.parts (.file { bytes, executable }) := by
  unfold write at h
  split at h
  · cases h
  · rename_i hzero
    refine ⟨by simpa using hzero, ?_⟩
    split at h
    · cases h
    · rename_i hreached
      refine ⟨hreached, ?_⟩
      split at h
      · obtain rfl := Except.ok.inj h
        exact ⟨_, rfl⟩
      · cases h
      · obtain rfl := Except.ok.inj h
        exact ⟨_, rfl⟩

/-- Making a file executable leaves the other entries. -/
lemma get?_makeExecutable {other : List String} (h : other ≠ p.parts) (t : Tree) :
    (t.makeExecutable p).get? other = t.get? other := by
  unfold makeExecutable
  split
  · exact get?_set_of_ne h t _
  · rfl

/-- A file that was just written is made executable. -/
lemma makeExecutable_set (hnamed : p.parts ≠ []) (t : Tree) (f : File) :
    (t.set p.parts (.file f)).makeExecutable p =
      t.set p.parts (.file { f with executable := true }) := by
  simp only [makeExecutable, file?, get?_set_self hnamed, set_set]

/-- Making directories changes nothing that lies deeper than they do. -/
lemma get?_makeFrom (t : Tree) {done todo other : List String}
    (h : done.length + todo.length < other.length) :
    (t.makeFrom done todo).get? other = t.get? other := by
  induction todo generalizing t done with
  | nil => rfl
  | cons name todo ih =>
    rw [List.length_cons] at h
    rw [makeFrom, ih _ (by rw [List.length_append, List.length_singleton]; omega)]
    split
    · rfl
    · refine get?_set_of_ne ?_ t _
      rintro rfl
      rw [List.length_append, List.length_singleton] at h
      omega

/-- Making a directory makes those above it. -/
lemma makeDirectory_eq_ok (h : t.makeDirectory p = .ok t') : t' = t.makeFrom [] p.parts := by
  unfold makeDirectory at h
  split at h
  · cases h
  split at h
  · split at h <;> cases h
  split at h
  · cases h
  · exact (Except.ok.inj h).symm

/-- Every entry lies in a directory. -/
def Rooted (t : Tree) : Prop :=
  ∀ parts name e, t.get? (parts ++ [name]) = some e → t.get? parts = some .directory

/-- The file was put at the path last, and it can be reached there. -/
structure Settled (t : Tree) (p : Path) (f : File) : Prop where
  named : p.parts ≠ []
  zero : hasZero p = false
  reached : t.obstacle? p = none
  put : ∃ t₀ : Tree, t = t₀.set p.parts (.file f)

namespace Settled

variable {f : File}

/-- A settled file is there. -/
lemma get? (h : t.Settled p f) : t.get? p.parts = some (.file f) := by
  obtain ⟨t₀, rfl⟩ := h.put
  exact get?_set_self h.named t₀ _

/-- A script that is written and made executable is there. -/
lemma of_write (hnamed : p.parts ≠ []) (h : t.write p bytes = .ok t') :
    (t'.makeExecutable p).Settled p { bytes, executable := true } := by
  obtain ⟨hzero, hreached, executable, rfl⟩ := write_eq_ok h
  rw [makeExecutable_set hnamed]
  exact ⟨hnamed, hzero, obstacle?_set _ hreached, t, rfl⟩

/-- The file lies in a directory. -/
lemma get?_parent (h : t.Settled p f) : t.get? p.parent.parts = some .directory := by
  have hpos := List.length_pos_iff.mpr h.named
  have := (obstacle?_eq_none.mp h.reached (p.parts.length - 1) (by omega)).1
  rwa [← List.dropLast_eq_take] at this

/-- Putting the file there again changes nothing. -/
lemma set (h : t.Settled p f) : t.set p.parts (.file f) = t := by
  obtain ⟨t₀, rfl⟩ := h.put
  exact set_set ..

/-- A settled file is found. -/
lemma isFile (h : t.Settled p f) : t.isFile p = .ok true := by
  simp [Tree.isFile, h.zero, h.reached, file?, h.get?]

/-- A settled file is read. -/
lemma read (h : t.Settled p f) : t.read p = .ok f.bytes := by
  simp [Tree.read, h.zero, h.reached, h.get?]

/-- Writing what the file holds changes nothing. -/
lemma write (h : t.Settled p f) : t.write p f.bytes = .ok t := by
  simp [Tree.write, h.zero, h.reached, h.get?, h.set]

/-- A file that can be executed stays as it is. -/
lemma makeExecutable (h : t.Settled p f) (hf : f.executable = true) : t.makeExecutable p = t := by
  have hsame : { f with executable := true } = f := by rw [← hf]
  simp [Tree.makeExecutable, file?, h.get?, hsame, h.set]

/-- The directories that lead to a path are there, so none is made. -/
lemma makeFrom (h : t.Settled p f) {done todo : List String}
    (hp : ∃ last, p.parts = done ++ todo ++ [last]) :
    t.makeFrom done todo = t := by
  induction todo generalizing done with
  | nil => rfl
  | cons name todo ih =>
    obtain ⟨last, hlast⟩ := hp
    have hthere : t.get? (done ++ [name]) = some .directory := by
      have := (obstacle?_eq_none.mp h.reached (done.length + 1) (by simp [hlast])).1
      rwa [hlast, show done ++ name :: todo ++ [last] = done ++ [name] ++ (todo ++ [last]) by simp,
        List.take_left' (by simp)] at this
    rw [Tree.makeFrom]
    simp only [hthere, Option.isSome_some, if_true]
    exact ih ⟨last, by simp [hlast]⟩

/-- The directory of the file is there already. -/
lemma makeDirectory (h : t.Settled p f) : t.makeDirectory p.parent = .ok t := by
  have hreached := obstacle?_eq_none.mp h.reached
  have hparent : p.parent.parts = p.parts.dropLast := rfl
  have hlength : p.parent.parts.length + 1 = p.parts.length := by
    have := List.length_pos_iff.mpr h.named
    rw [hparent, List.length_dropLast]
    omega
  unfold Tree.makeDirectory
  split
  · rename_i hzero
    obtain ⟨s, hs, hbad⟩ := List.any_eq_true.mp hzero
    exact absurd hbad (List.any_eq_false.mp h.zero s (List.dropLast_subset _ hs))
  split
  · -- a file cannot be on the way, which leads through directories only
    rename_i hfile
    obtain ⟨i, hi, hbad⟩ := List.exists_of_findSome?_eq_some hfile
    rw [List.mem_range] at hi
    have htake : p.parent.parts.take i = p.parts.take i := by
      rw [hparent, List.dropLast_eq_take, List.take_take, Nat.min_eq_left (by omega)]
    rw [htake, (hreached i (by omega)).1] at hbad
    cases hbad
  split
  · rename_i s hlong
    obtain ⟨i, hi, rfl⟩ := List.mem_iff_getElem.mp (List.mem_of_find?_eq_some hlong)
    have hbad := List.find?_some hlong
    have := (hreached i (by omega)).2
    rw [List.getElem?_eq_getElem (by omega), Option.getD_some] at this
    simp only [hparent, List.getElem_dropLast, gt_iff_lt, decide_eq_true_eq] at hbad
    omega
  · refine congrArg _ (h.makeFrom ⟨p.parts.getLast h.named, ?_⟩)
    rw [List.nil_append, hparent, List.dropLast_concat_getLast h.named]

end Settled

end Tree

end Stencil.Files
