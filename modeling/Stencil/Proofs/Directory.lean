import Mathlib.Data.List.Infix
import Stencil.Proofs.Files

/-!
# Trees of a file system

In a tree that a file system can have (`Tree.Real`) every entry lies in a directory, and its name is
one that a file can have. There the answer to whether a path is a file (`Real.isFile_cases`), and
whether directories can be made and a file written or removed, is said in terms of what stands
where.
-/

namespace Stencil.Files

/-- A name that an entry can have. -/
structure Fits (name : String) : Prop where
  zero : '\x00' ∉ name.toList
  short : (Text.encode name).length ≤ Tree.longestName

/-- Whether a name fits into a directory can be decided. -/
instance (name : String) : Decidable (Fits name) :=
  decidable_of_iff ('\x00' ∉ name.toList ∧ (Text.encode name).length ≤ Tree.longestName)
    ⟨fun h => ⟨h.1, h.2⟩, fun h => ⟨h.zero, h.short⟩⟩

namespace Tree

variable {t t' : Tree} {p : Path} {parts done todo other : List String} {name : String} {e : Entry}
  {f : File}
  {bytes : List UInt8}

/-- A path has no null character exactly if none of its parts has one. -/
lemma hasZero_eq_false : hasZero p = false ↔ ∀ part ∈ p.parts, '\x00' ∉ part.toList := by
  simp [hasZero, Text.hasChar]

/-! ## Looking entries up -/

/-- The root is a directory. -/
lemma get?_nil (t : Tree) : t.get? [] = some .directory :=
  rfl

/-- An entry below the root is found exactly if it is in the list. -/
lemma get?_eq_some_iff (hparts : parts ≠ []) : t.get? parts = some e ↔ (parts, e) ∈ t.entries := by
  have hget : t.get? parts = t.entries.lookup parts := if_neg (by simpa using hparts)
  rw [hget, List.lookup_eq_some_iff]
  constructor
  · rintro ⟨before, after, heq, -⟩
    rw [heq]
    simp
  · intro hmem
    obtain ⟨before, after, heq⟩ := List.append_of_mem hmem
    refine ⟨before, after, heq, fun x hx => ?_⟩
    have hnodup := t.nodup
    rw [heq, List.map_append, List.nodup_append] at hnodup
    rw [bne_iff_ne]
    exact (hnodup.2.2 x.1 (List.mem_map_of_mem hx) parts (by simp)).symm

/-- What was erased is not there. -/
lemma get?_erase_self (hparts : parts ≠ []) (t : Tree) : (t.erase parts).get? parts = none := by
  refine Option.eq_none_iff_forall_ne_some.mpr fun e he => ?_
  rw [get?_eq_some_iff hparts] at he
  simp [erase] at he

/-- Erasing leaves the other entries. -/
lemma get?_erase_of_ne (h : other ≠ parts) (t : Tree) :
    (t.erase parts).get? other = t.get? other := by
  simp only [get?, erase, lookup_filter_of_ne h]

/-- A file is found where an entry is one. -/
lemma file?_eq_some : t.file? parts = some f ↔ t.get? parts = some (.file f) := by
  unfold file?
  split <;> simp_all

/-- The same entry is the same file. -/
lemma file?_congr (h : t.get? parts = t'.get? parts) : t.file? parts = t'.file? parts := by
  unfold file?
  rw [h]

/-- The names in a directory are those of its entries. -/
lemma mem_names {x : String} : x ∈ t.names parts ↔ ∃ e, t.get? (parts ++ [x]) = some e := by
  unfold names
  simp only [List.mem_filterMap, name_eq_some]
  constructor
  · rintro ⟨⟨ps, e⟩, hmem, hx⟩
    exact ⟨e, (get?_eq_some_iff (by simp)).mpr (hx ▸ hmem)⟩
  · rintro ⟨e, he⟩
    exact ⟨(parts ++ [x], e), (get?_eq_some_iff (by simp)).mp he, rfl⟩

/-! ## Real trees -/

/-- What lies somewhere below a path makes it a directory. -/
lemma Rooted.directory (h : t.Rooted) (hne : todo ≠ []) (hget : t.get? (done ++ todo) = some e) :
    t.get? done = some .directory := by
  induction todo using List.reverseRecOn generalizing e with
  | nil => exact absurd rfl hne
  | append_singleton todo x ih =>
    rw [← List.append_assoc] at hget
    have hdir := h _ _ _ hget
    by_cases htodo : todo = []
    · simpa [htodo] using hdir
    · exact ih htodo hdir

/-- A tree that a file system can have. -/
structure Real (t : Tree) : Prop where
  rooted : t.Rooted
  fits : ∀ parts e, t.get? parts = some e → ∀ part ∈ parts, Fits part

/-- Files are real if each entry lies in a directory and has names that fit. -/
lemma real_iff : t.Real ↔
    ∀ x ∈ t.entries, x.1 ≠ [] → t.get? x.1.dropLast = some .directory ∧
      ∀ part ∈ x.1, Fits part := by
  constructor
  · rintro h ⟨parts, e⟩ hmem (hparts : parts ≠ [])
    have hget := (get?_eq_some_iff hparts).mpr hmem
    refine ⟨h.rooted parts.dropLast (parts.getLast hparts) e ?_, h.fits parts e hget⟩
    rwa [List.dropLast_concat_getLast hparts]
  · intro h
    refine ⟨fun parts name e hget => ?_, fun parts e hget part hpart => ?_⟩
    · have := (h _ ((get?_eq_some_iff (by simp)).mp hget) (by simp)).1
      rwa [List.dropLast_concat] at this
    · have hparts : parts ≠ [] := List.ne_nil_of_mem hpart
      exact (h _ ((get?_eq_some_iff hparts).mp hget) hparts).2 part hpart

/-- Whether files are real can be decided. -/
instance (t : Tree) : Decidable t.Real :=
  decidable_of_iff _ real_iff.symm

/-- On the way to a path there is a component that is too long, and what comes before it is a
directory. -/
def Overlong (t : Tree) (p : Path) : Prop :=
  hasZero p = false ∧ ∃ done part rest, p.parts = done ++ part :: rest ∧
    t.get? done = some .directory ∧ longestName < (Text.encode part).length

/-- Directories can be made down to the path: no file is in the way, and the names are possible. -/
def Makeable (t : Tree) (p : Path) : Prop :=
  (∀ part ∈ p.parts, Fits part) ∧ ∀ done ∈ p.parts.inits, t.file? done = none

/-- Whether a directory can be made can be decided. -/
instance (t : Tree) (p : Path) : Decidable (t.Makeable p) :=
  inferInstanceAs (Decidable (_ ∧ _))

namespace Real

/-- An entry that does not replace a directory can be put into a directory. -/
lemma set (h : t.Real) (hdir : t.get? parts = some .directory) (hname : Fits name)
    (hplace : t.get? (parts ++ [name]) ≠ some .directory) (e : Entry) :
    (t.set (parts ++ [name]) e).Real := by
  refine ⟨fun qs x e' hget => ?_, fun qs e' hget part hpart => ?_⟩
  · by_cases heq : qs ++ [x] = parts ++ [name]
    · obtain ⟨rfl, -⟩ := List.append_inj' heq rfl
      rwa [get?_set_of_ne (by simp)]
    · rw [get?_set_of_ne heq] at hget
      have hqs := h.rooted qs x e' hget
      refine (get?_set_of_ne ?_ t e).trans hqs
      rintro rfl
      exact hplace hqs
  · by_cases heq : qs = parts ++ [name]
    · rw [heq] at hpart
      rcases List.mem_append.mp hpart with hpart | hpart
      · exact h.fits parts _ hdir part hpart
      · exact List.mem_singleton.mp hpart ▸ hname
    · rw [get?_set_of_ne heq] at hget
      exact h.fits qs e' hget part hpart

/-- A file can be taken away. -/
lemma erase (h : t.Real) (hfile : t.get? parts = some (.file f)) : (t.erase parts).Real := by
  have hparts : parts ≠ [] := by
    rintro rfl
    cases hfile
  have hkept {qs : List String} {e : Entry} (hget : (t.erase parts).get? qs = some e) :
      qs ≠ parts ∧ t.get? qs = some e := by
    have hne : qs ≠ parts := by
      rintro rfl
      rw [get?_erase_self hparts] at hget
      cases hget
    exact ⟨hne, by rwa [get?_erase_of_ne hne] at hget⟩
  refine ⟨fun qs x e hget => ?_, fun qs e hget => h.fits qs e (hkept hget).2⟩
  have hqs := h.rooted qs x e (hkept hget).2
  refine (get?_erase_of_ne ?_ t).trans hqs
  rintro rfl
  cases hfile.symm.trans hqs

/-! ### Files -/

/-- What is there has no null character in its path. -/
lemma hasZero_of_get? (h : t.Real) (hget : t.get? p.parts = some e) : hasZero p = false :=
  hasZero_eq_false.mpr fun part hpart => (h.fits _ _ hget part hpart).zero

/-- Nothing stands in the way of an entry. -/
lemma obstacle?_of_get? (h : t.Real) (hget : t.get? p.parts = some e) : t.obstacle? p = none := by
  rw [obstacle?_eq_none]
  intro i hi
  have hrest : p.parts.drop i ≠ [] := by simpa using hi
  refine ⟨h.rooted.directory hrest (e := e) (by rwa [List.take_append_drop]), ?_⟩
  rw [List.getElem?_eq_getElem hi, Option.getD_some]
  exact (h.fits _ _ hget _ (List.getElem_mem hi)).short

/-- The first obstacle is a name that is too long if directories lead there. -/
lemma obstacle?_of_overlong (h : t.Real) (hp : t.Overlong p) :
    t.obstacle? p = some (.nameTooLong p.toString) := by
  obtain ⟨-, done, part, rest, hparts, hdir, hlong⟩ := hp
  have hbefore : ∀ i < done.length, t.get? (p.parts.take i) = some .directory ∧
      (Text.encode (p.parts[i]?.getD "")).length ≤ longestName := by
    have := obstacle?_eq_none.mp (obstacle?_of_get? (p := { parts := done }) h hdir)
    intro i hi
    rw [hparts, List.take_append_of_le_length (Nat.le_of_lt hi), List.getElem?_append_left hi]
    exact this i hi
  have hlength : p.parts.length = done.length + (rest.length + 1) := by
    rw [hparts, List.length_append, List.length_cons]
  unfold obstacle?
  rw [hlength, List.range_add, List.findSome?_append, List.findSome?_eq_none_iff.mpr,
    Option.none_or, List.range_succ_eq_map, List.map_cons, List.findSome?_cons]
  · simp [hparts, hdir, hlong]
  · intro i hi
    obtain ⟨hget, hshort⟩ := hbefore i (List.mem_range.mp hi)
    simp [hget, hshort]

/-- If a name is reported as too long, a part of the path is. -/
lemma overlong_of_obstacle? {q : String} (hzero : hasZero p = false)
    (hp : t.obstacle? p = some (.nameTooLong q)) :
    t.Overlong p := by
  obtain ⟨i, hi, hfault⟩ := List.exists_of_findSome?_eq_some hp
  rw [List.mem_range] at hi
  refine ⟨hzero, p.parts.take i, p.parts[i], p.parts.drop (i + 1), by simp, ?_⟩
  dsimp only at hfault
  split at hfault
  · cases hfault
  · cases hfault
  · rename_i hdir
    refine ⟨hdir, ?_⟩
    rw [List.getElem?_eq_getElem hi, Option.getD_some] at hfault
    split at hfault
    · assumption
    · cases hfault

/-- Whether a path is a file can be told unless a name on the way is too long. -/
lemma isFile_cases (h : t.Real) (p : Path) :
    (t.Overlong p ∧ t.isFile p = .error (.nameTooLong p.toString)) ∨
      (¬ t.Overlong p ∧ t.isFile p = .ok (t.file? p.parts).isSome) := by
  by_cases hp : t.Overlong p
  · refine .inl ⟨hp, ?_⟩
    rw [isFile, hp.1, h.obstacle?_of_overlong hp]
    rfl
  refine .inr ⟨hp, ?_⟩
  have hnone (hno : ¬ (hasZero p = false ∧ t.obstacle? p = none)) : t.file? p.parts = none := by
    refine Option.eq_none_iff_forall_ne_some.mpr fun f hf => hno ?_
    have hget := file?_eq_some.mp hf
    exact ⟨h.hasZero_of_get? hget, h.obstacle?_of_get? hget⟩
  unfold isFile
  split
  · rename_i hzero
    rw [hnone (by simp [hzero])]
    rfl
  · rename_i hzero
    split
    · rename_i hobstacle
      exact absurd (overlong_of_obstacle? (by simpa using hzero) hobstacle) hp
    · rename_i e _ hobstacle
      rw [hnone (by simp [hobstacle])]
      rfl
    · rfl

/-- A path that is there is not too long. -/
lemma not_overlong (h : t.Real) (hget : t.get? p.parts = some e) : ¬ t.Overlong p := by
  intro hp
  have := h.obstacle?_of_overlong hp
  rw [h.obstacle?_of_get? hget] at this
  cases this

/-- A file that is there can be removed. -/
lemma remove (h : t.Real) (hfile : t.get? p.parts = some (.file f)) :
    t.remove p = .ok (t.erase p.parts) := by
  simp [Tree.remove, h.hasZero_of_get? hfile, h.obstacle?_of_get? hfile, hfile]

/-- A file is written into a directory if its name is possible. -/
lemma write (h : t.Real) (hp : p.parts = parts ++ [name]) (hdir : t.get? parts = some .directory)
    (hplace : t.get? p.parts ≠ some .directory) (hname : Fits name) (bytes : List UInt8) :
    ∃ executable, t.write p bytes = .ok (t.set p.parts (.file { bytes, executable })) := by
  -- with a file there the path would be that of an entry of a real tree
  have hreal : (t.set p.parts (.file default)).Real := by
    rw [hp] at hplace ⊢
    exact h.set hdir hname hplace _
  have hget : (t.set p.parts (.file default)).get? p.parts = some (.file default) :=
    get?_set_self (by simp [hp]) t _
  have hreached : t.obstacle? p = none := by
    have := hreal.obstacle?_of_get? hget
    rw [obstacle?_eq_none] at this ⊢
    intro i hi
    have hne : p.parts.take i ≠ p.parts := by
      intro heq
      have := congrArg List.length heq
      rw [List.length_take] at this
      omega
    simpa only [get?_set_of_ne hne] using this i hi
  unfold Tree.write
  simp only [hreal.hasZero_of_get? hget, Bool.false_eq_true, if_false, hreached]
  split
  · exact ⟨_, rfl⟩
  · rename_i hat
    exact absurd hat hplace
  · exact ⟨_, rfl⟩

/-- A file whose name does not fit cannot be written. -/
lemma write_of_not_fits (h : t.Real) (hp : p.parts = parts ++ [name])
    (hdir : t.get? parts = some .directory) (hname : ¬ Fits name) (bytes : List UInt8) :
    ∃ e, t.write p bytes = .error e := by
  unfold Tree.write
  cases hzero : hasZero p with
  | true => exact ⟨_, rfl⟩
  | false =>
    have hlong : t.Overlong p := by
      refine ⟨hzero, parts, name, [], hp, hdir, Nat.lt_of_not_le fun hshort => hname ⟨?_, hshort⟩⟩
      exact hasZero_eq_false.mp hzero name (by simp [hp])
    rw [h.obstacle?_of_overlong hlong]
    exact ⟨_, rfl⟩

end Real

/-! ## Making directories -/

/-- Where nothing was, there may be a directory now. All else is as before. -/
lemma makeFrom_cases (t : Tree) (done todo other : List String) :
    (t.makeFrom done todo).get? other = t.get? other ∨
      t.get? other = none ∧ (t.makeFrom done todo).get? other = some .directory ∧
      other <+: done ++ todo := by
  induction todo generalizing t done with
  | nil => exact .inl rfl
  | cons name todo ih =>
    rw [makeFrom]
    have happend : done ++ [name] ++ todo = done ++ name :: todo := by simp
    by_cases hsome : (t.get? (done ++ [name])).isSome
    · simp only [hsome, if_true]
      exact happend ▸ ih t (done ++ [name])
    · simp only [hsome, if_false, Bool.false_eq_true]
      have hmade := ih (t.set (done ++ [name]) .directory) (done ++ [name])
      rw [happend] at hmade
      by_cases hother : other = done ++ [name]
      · subst hother
        rw [get?_set_self (by simp)] at hmade
        refine .inr ⟨by simpa using hsome, ?_, happend ▸ List.prefix_append _ _⟩
        rcases hmade with hmade | hmade
        · exact hmade
        · cases hmade.1
      · rwa [get?_set_of_ne hother] at hmade

/-- Making directories changes no file. -/
lemma file?_makeFrom (t : Tree) (done todo other : List String) :
    (t.makeFrom done todo).file? other = t.file? other := by
  rcases makeFrom_cases t done todo other with h | ⟨hnone, hdir, -⟩
  · exact file?_congr h
  · simp [file?, hnone, hdir]

/-- Directories that are there are not made again. -/
lemma makeFrom_of_directory (h : t.Rooted) (hdir : t.get? (done ++ todo) = some .directory) :
    t.makeFrom done todo = t := by
  induction todo generalizing done with
  | nil => rfl
  | cons name todo ih =>
    have hnext : t.get? (done ++ [name] ++ todo) = some .directory := by simpa using hdir
    have hhere : t.get? (done ++ [name]) = some .directory := by
      cases todo with
      | nil => simpa using hnext
      | cons x xs => exact h.directory (List.cons_ne_nil x xs) hnext
    rw [makeFrom]
    simp only [hhere, Option.isSome_some, if_true]
    exact ih hnext

/-- Made directories are there, and the tree stays real. -/
lemma Real.makeFrom (h : t.Real) (hdone : t.get? done = some .directory)
    (hfits : ∀ part ∈ todo, Fits part)
    (hfree : ∀ other, other <+: done ++ todo → t.file? other = none) :
    (t.makeFrom done todo).Real ∧ (t.makeFrom done todo).get? (done ++ todo) = some .directory := by
  induction todo generalizing t done with
  | nil => exact ⟨h, by rwa [List.append_nil]⟩
  | cons name todo ih =>
    have happend : done ++ name :: todo = done ++ [name] ++ todo := by simp
    rw [happend] at hfree ⊢
    have hrest : ∀ part ∈ todo, Fits part :=
      fun part hpart => hfits part (List.mem_cons_of_mem _ hpart)
    rw [Tree.makeFrom]
    cases hget : t.get? (done ++ [name]) with
    | none =>
      simp only [Option.isSome_none, Bool.false_eq_true, if_false]
      refine ih (h.set hdone (hfits name (by simp)) (by simp [hget]) _)
        (get?_set_self (by simp) t _) hrest ?_
      intro other hother
      by_cases heq : other = done ++ [name]
      · rw [file?, heq, get?_set_self (by simp)]
      · rw [file?_congr (get?_set_of_ne heq t _)]
        exact hfree other hother
    | some e =>
      simp only [Option.isSome_some, if_true]
      refine ih h ?_ hrest hfree
      cases e with
      | directory => exact hget
      | file f =>
        have := hfree (done ++ [name]) (List.prefix_append _ _)
        rw [file?_eq_some.mpr hget] at this
        cases this

/-- Directories are made exactly if they can be. -/
lemma makeDirectory_cases (t : Tree) (p : Path) :
    (t.Makeable p ∧ t.makeDirectory p = .ok (t.makeFrom [] p.parts)) ∨
      (¬ t.Makeable p ∧ ∃ e, t.makeDirectory p = .error e) := by
  unfold makeDirectory
  cases hzero : hasZero p with
  | true =>
    refine .inr ⟨fun hm => ?_, _, rfl⟩
    rw [hasZero_eq_false.mpr fun part hpart => (hm.1 part hpart).zero] at hzero
    cases hzero
  | false =>
    rw [if_neg (by simp)]
    split
    · rename_i i hfile
      refine .inr ⟨fun hm => ?_, by split <;> exact ⟨_, rfl⟩⟩
      obtain ⟨j, -, hj⟩ := List.exists_of_findSome?_eq_some hfile
      have hnone := hm.2 (p.parts.take j) ((List.mem_inits _ _).mpr (List.take_prefix _ _))
      split at hj
      · rename_i f hget
        rw [file?_eq_some.mpr hget] at hnone
        cases hnone
      · cases hj
    · rename_i hfile
      split
      · rename_i part hlong
        refine .inr ⟨fun hm => ?_, _, rfl⟩
        have hshort := (hm.1 part (List.mem_of_find?_eq_some hlong)).short
        have := List.find?_some hlong
        simp only [gt_iff_lt, decide_eq_true_eq] at this
        omega
      · rename_i hshort
        refine .inl
          ⟨⟨fun part hpart => ⟨hasZero_eq_false.mp hzero part hpart, ?_⟩, fun done hdone => ?_⟩,
            rfl⟩
        · simpa using List.find?_eq_none.mp hshort part hpart
        · obtain ⟨rest, hrest⟩ := (List.mem_inits _ _).mp hdone
          refine Option.eq_none_iff_forall_ne_some.mpr fun f hf => ?_
          have hlength : done.length < p.parts.length + 1 := by
            rw [← hrest, List.length_append]
            omega
          have := List.findSome?_eq_none_iff.mp hfile done.length (List.mem_range.mpr hlength)
          rw [← hrest, List.take_left, file?_eq_some.mp hf] at this
          cases this

end Tree

end Stencil.Files
