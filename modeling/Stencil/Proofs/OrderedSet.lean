import Mathlib.Data.List.Basic
import Stencil.Template.Basic

/-!
# Ordered sets

An item is added if its key is new, and else nothing changes (`OrderedSet.run_add`). So a run of
additions tells of each item whether its key occurred before (`OrderedSet.run_mapM_add`), and the
list at its end has the first item of each key in the order of the additions
(`OrderedSet.items_foldl_insert`). `OrderedSet.add_keeps_first` says so of the sets of variables and
of chains, and that their lists and indices agree.
-/

namespace Stencil

/-- Taking repetitions away before or after a function is applied. -/
lemma eraseDupsBy_map {α β : Type} (f : α → β) (r : β → β → Bool) (xs : List α) :
    (xs.map f).eraseDupsBy r = (xs.eraseDupsBy fun x y => r (f x) (f y)).map f := by
  have hloop (ys : List α) :
      List.eraseDupsBy.loop r (xs.map f) (ys.map f) =
        (List.eraseDupsBy.loop (fun x y => r (f x) (f y)) xs ys).map f := by
    induction xs generalizing ys with
    | nil => simp [List.eraseDupsBy.loop]
    | cons x xs ih =>
      simp only [List.map_cons, List.eraseDupsBy.loop, List.any_map, Function.comp_def]
      cases ys.any fun y => r (f x) (f y) with
      | true => exact ih ys
      | false => exact ih (x :: ys)
  exact hloop []

namespace OrderedSet

/-- Of each key, whether none before it is the same. -/
def firsts {κ : Type} [DecidableEq κ] (ks : List κ) : List Bool :=
  ks.mapIdx fun i k => decide (k ∉ ks.take i)

section

variable {α κ : Type} {key : α → κ} {s : OrderedSet key} {a : α} {as : List α} {k : κ}

/-- The index has the keys of the list. -/
lemma mem_iff_mem_keys : k ∈ s ↔ k ∈ s.items.map key :=
  s.indexed.mem_iff

/-- The empty set has no items. -/
@[simp]
lemma items_empty : (empty : OrderedSet key).items = [] :=
  rfl

/-- No key is in the empty set. -/
@[simp]
lemma not_mem_empty : k ∉ (empty : OrderedSet key) :=
  List.not_mem_nil

/-- A new item is put at the end. -/
@[simp]
lemma items_push (h : key a ∉ s) : (s.push a h).items = s.items ++ [a] :=
  rfl

variable [DecidableEq κ]

/-- Adding an item whose key is there changes nothing, and says so. -/
lemma run_add_of_mem (h : key a ∈ s) : (add a).run s = (false, s) :=
  dif_pos (decide_eq_true h)

/-- Adding an item with a new key puts it at the end, and says so. -/
lemma run_add_of_notMem (h : key a ∉ s) : (add a).run s = (true, s.push a h) :=
  dif_neg fun hkey => h (of_decide_eq_true hkey)

/-- Inserting an item whose key is there changes nothing. -/
lemma insert_of_mem (h : key a ∈ s) : s.insert a = s :=
  congrArg Prod.snd (run_add_of_mem h)

/-- Inserting an item with a new key puts it at the end. -/
lemma insert_of_notMem (h : key a ∉ s) : s.insert a = s.push a h :=
  congrArg Prod.snd (run_add_of_notMem h)

/-- An item is added exactly if its key is new. -/
lemma run_add (s : OrderedSet key) (a : α) : (add a).run s = (decide (key a ∉ s), s.insert a) := by
  by_cases h : key a ∈ s
  · rw [run_add_of_mem h, insert_of_mem h, decide_eq_false (not_not_intro h)]
  · rw [run_add_of_notMem h, insert_of_notMem h, decide_eq_true h]

/-- An item that is refused changes nothing. -/
lemma eq_of_run_add {s' : OrderedSet key} (h : (add a).run s = (false, s')) : s' = s := by
  rw [run_add, Prod.mk.injEq, decide_eq_false_iff_not, not_not] at h
  exact h.2.symm.trans (insert_of_mem h.1)

/-- After an insertion the key is there, with those that were. -/
lemma mem_insert : k ∈ s.insert a ↔ k ∈ s ∨ k = key a := by
  by_cases h : key a ∈ s
  · rw [insert_of_mem h]
    exact ⟨.inl, fun hk => hk.elim id fun e => e ▸ h⟩
  · rw [insert_of_notMem h]
    exact List.mem_cons.trans or_comm

/-- A set that items are added to one by one. -/
lemma mem_foldl_insert : k ∈ as.foldl insert s ↔ k ∈ s ∨ k ∈ as.map key := by
  induction as generalizing s with
  | nil => simp
  | cons a as ih => rw [List.foldl_cons, ih, mem_insert, List.map_cons, List.mem_cons, or_assoc]

/-- The items that follow those of a set are new ones, the first of each key. -/
lemma items_foldl_insert (s : OrderedSet key) (as : List α) :
    (as.foldl insert s).items =
      s.items ++ (as.filter (key · ∉ s)).eraseDupsBy fun a b => key a == key b := by
  induction as generalizing s with
  | nil => simp
  | cons a as ih =>
    rw [List.foldl_cons, ih]
    by_cases h : key a ∈ s
    · rw [insert_of_mem h, List.filter_cons_of_neg (by simpa using h)]
    · -- what is new after `a` was new before it and has another key
      have hnew : as.filter (key · ∉ s.insert a) =
          (as.filter (key · ∉ s)).filter fun b => decide ((key b == key a) = false) := by
        rw [List.filter_filter]
        refine List.filter_congr fun b _ => ?_
        simp [mem_insert, and_comm]
      rw [hnew, insert_of_notMem h, items_push, List.filter_cons_of_pos (by simpa using h),
        List.eraseDupsBy_cons, List.append_assoc, List.singleton_append]

/-- A row of insertions keeps the first item of each key. -/
lemma items_foldl_insert_empty (as : List α) :
    (as.foldl insert (empty : OrderedSet key)).items =
      as.eraseDupsBy fun a b => key a == key b := by
  rw [items_foldl_insert, items_empty, List.nil_append, List.filter_eq_self.mpr (by simp)]

/-- The keys of a set are those of the items that were added, each once. -/
lemma keys_foldl_insert_empty (as : List α) :
    (as.foldl insert (empty : OrderedSet key)).items.map key = (as.map key).eraseDups := by
  rw [items_foldl_insert_empty]
  exact (eraseDupsBy_map key (· == ·) as).symm

/-- The answers of a run tell of each item whether its key is new. -/
lemma run_mapM_add (s : OrderedSet key) (as : List α) :
    (as.mapM add).run s =
      ((as.map key).mapIdx fun i k => decide (k ∉ s ∧ k ∉ (as.map key).take i),
        as.foldl insert s) := by
  induction as generalizing s with
  | nil => rfl
  | cons a as ih =>
    have hrun : ((a :: as).mapM add).run s =
        (decide (key a ∉ s) :: ((as.mapM add).run (s.insert a)).1,
          ((as.mapM add).run (s.insert a)).2) := by
      rw [List.mapM_cons, StateT.run_bind, run_add]
      rfl
    have hfirst : (key a ∉ s ∧ key a ∉ (key a :: as.map key).take 0) ↔ key a ∉ s :=
      and_iff_left List.not_mem_nil
    have hrest (i : Nat) (k : κ) : (k ∉ s ∧ k ∉ (key a :: as.map key).take (i + 1)) ↔
        k ∉ s.insert a ∧ k ∉ (as.map key).take i := by
      rw [mem_insert, not_or, List.take_succ_cons, List.mem_cons, not_or, and_assoc]
    simp only [hrun, ih, List.map_cons, List.mapIdx_cons, List.foldl_cons, hfirst, hrest]

/-- A row of additions says of each item whether it is the first with its key. -/
lemma run_mapM_add_empty (as : List α) :
    (as.mapM add).run (empty : OrderedSet key) = (firsts (as.map key), as.foldl insert empty) := by
  simp only [run_mapM_add, not_mem_empty, not_false_eq_true, true_and, firsts]

end

end OrderedSet

namespace VariableSet

/-- The names of a set of variables are its keys. -/
lemma mem_names {s : VariableSet} {n : String} : n ∈ s.names ↔ n ∈ s :=
  OrderedSet.mem_iff_mem_keys.symm

/-- A variable that is made of a name has this name. -/
lemma map_name_ofName (ns : List String) : (ns.map Variable.ofName).map Variable.name = ns := by
  rw [List.map_map]
  exact List.map_id ns

/-- Names are inserted as variables that are made of them. -/
lemma foldl_insert (s : VariableSet) (ns : List String) :
    ns.foldl insert s = (ns.map Variable.ofName).foldl OrderedSet.insert s := by
  rw [List.foldl_map]
  rfl

/-- After a row of insertions exactly the inserted names are there. -/
lemma mem_foldl_insert {n : String} {ns : List String} : n ∈ ns.foldl insert empty ↔ n ∈ ns := by
  rw [foldl_insert, OrderedSet.mem_foldl_insert, map_name_ofName]
  exact or_iff_right OrderedSet.not_mem_empty

/-- A row of insertions keeps each name once, in the order of their first places. -/
lemma items_foldl_insert (ns : List String) :
    (ns.foldl insert empty).items = ns.eraseDups.map Variable.ofName := by
  rw [foldl_insert]
  exact (OrderedSet.items_foldl_insert_empty _).trans (eraseDupsBy_map _ _ ns)

/-- The names after a row of insertions are the inserted ones, each once. -/
lemma names_foldl_insert (ns : List String) : (ns.foldl insert empty).names = ns.eraseDups := by
  rw [names, items_foldl_insert, map_name_ofName]

/-- A row of additions says of each name whether it is new. -/
lemma run_mapM_add (ns : List String) :
    (ns.mapM add).run empty = (OrderedSet.firsts ns, ns.foldl insert empty) := by
  have hadd : ns.mapM add = (ns.map Variable.ofName).mapM OrderedSet.add := List.mapM_map.symm
  have hrun : ((ns.map Variable.ofName).mapM OrderedSet.add).run empty =
      (OrderedSet.firsts ((ns.map Variable.ofName).map Variable.name), _) :=
    OrderedSet.run_mapM_add_empty _
  rw [hadd, hrun, map_name_ofName, foldl_insert]
  rfl

end VariableSet

/-- Each addition to a set tells whether its key is new. The list at the end of a run has the first
item of each key, in order and as it was added, and the index has the same keys. An addition that is
refused changes neither of them. The key of a chain is its base with its filters, whatever its name
is. -/
theorem OrderedSet.add_keeps_first :
    (∀ ns : List String, ∃ s : VariableSet,
      (ns.mapM VariableSet.add).run VariableSet.empty = (firsts ns, s) ∧
      s.items = ns.eraseDups.map Variable.ofName ∧ s.index.Perm s.names ∧ ∀ n, n ∈ s ↔ n ∈ ns) ∧
    (∀ cs : List Chain, ∃ s : ChainSet,
      (cs.mapM ChainSet.add).run ChainSet.empty =
        (firsts (cs.map fun c => (c.base, c.filters)), s) ∧
      s.items = cs.eraseDupsBy (fun c d => decide ((c.base, c.filters) = (d.base, d.filters))) ∧
      s.index.Perm (s.items.map Chain.key) ∧ ∀ k, k ∈ s ↔ k ∈ cs.map fun c => (c.base, c.filters)) ∧
    (∀ (s s' : VariableSet) n, (VariableSet.add n).run s = (false, s') → s' = s) ∧
    ∀ (s s' : ChainSet) c, (ChainSet.add c).run s = (false, s') → s' = s := by
  refine ⟨fun ns =>
    ⟨_, VariableSet.run_mapM_add ns, VariableSet.items_foldl_insert ns, OrderedSet.indexed _, ?_⟩,
    fun cs =>
      ⟨_, OrderedSet.run_mapM_add_empty cs, OrderedSet.items_foldl_insert_empty cs,
        OrderedSet.indexed _, ?_⟩,
    ?_, ?_⟩
  · exact fun n => VariableSet.mem_foldl_insert
  · exact fun k => OrderedSet.mem_foldl_insert.trans (or_iff_right OrderedSet.not_mem_empty)
  · exact fun s s' n => OrderedSet.eq_of_run_add
  · exact fun s s' c => OrderedSet.eq_of_run_add

/-- Chains that differ in their names only are the same, and chains that differ in more are not,
even with one name. -/
theorem OrderedSet.add_keeps_first_of_renamed :
    let c : Chain := { base := "a", filters := ["f"], name := "a_f" }
    let renamed : Chain := { base := "a", filters := ["f"], name := "b" }
    let bare : Chain := { base := "a", filters := [], name := "a_f" }
    (∃ s : VariableSet,
      (["b", "a", "b"].mapM VariableSet.add).run VariableSet.empty = ([true, true, false], s) ∧
      s.names = ["b", "a"] ∧ "name" ∉ s ∧ (VariableSet.add "b").run s = (false, s)) ∧
    ∃ s : ChainSet,
      ([c, renamed, bare, c].mapM ChainSet.add).run ChainSet.empty =
        ([true, false, true, false], s) ∧
      s.items = [c, bare] ∧ (ChainSet.add renamed).run s = (false, s) := by
  intro c renamed bare
  refine ⟨?_, ?_⟩
  · obtain ⟨s, hrun, hitems, -, hmem⟩ := add_keeps_first.1 ["b", "a", "b"]
    have hb : "b" ∈ s := (hmem "b").mpr (by decide)
    have hadd : (VariableSet.add "b").run s = (false, s.insert "b") :=
      (run_add s (.ofName "b")).trans
        (congrArg (·, s.insert "b") (decide_eq_false (not_not_intro hb)))
    refine ⟨s, hrun.trans (congrArg (·, s) (by decide)), ?_,
      fun h => absurd ((hmem "name").mp h) (by decide), ?_⟩
    · rw [VariableSet.names, hitems]
      decide
    · rw [hadd, add_keeps_first.2.2.1 s _ "b" hadd]
  · obtain ⟨s, hrun, hitems, -, hmem⟩ := add_keeps_first.2.1 [c, renamed, bare, c]
    have hkey : renamed.key ∈ s := (hmem renamed.key).mpr (by decide)
    have hadd : (ChainSet.add renamed).run s = (false, s.insert renamed) :=
      (run_add s renamed).trans
        (congrArg (·, s.insert renamed) (decide_eq_false (not_not_intro hkey)))
    refine ⟨s, hrun.trans (congrArg (·, s) (by decide)), hitems.trans (by decide), ?_⟩
    rw [hadd, add_keeps_first.2.2.2 s _ renamed hadd]

end Stencil
