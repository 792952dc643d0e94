import Stencil.CommandLine
import Stencil.Proofs.Catalogue

/-!
# Listing and looking up

Names are listed by the names of the files, and looked up by a rule for names. In a file system what
is found is listed (`Store.mem_names_of_exists`). What is listed is found too
(`Store.run_exists_of_file`), except for hidden files: a script whose name starts with a dot is
listed and cannot be looked up. So a listing fails if there is such a script, and else only if a
name is read as markup that cannot be printed (`Command.perform_list`, `Store.names_agree`).
-/

namespace Stencil

open Files

/-- No name in the tree has a slash, which stands between names. -/
def Files.Tree.Slashless (t : Tree) : Prop :=
  ∀ x ∈ t.entries, ∀ part ∈ x.1, '/' ∉ part.toList

/-- Whether no name has a slash can be decided. -/
instance (t : Tree) : Decidable t.Slashless :=
  inferInstanceAs (Decidable (∀ x ∈ t.entries, ∀ part ∈ x.1, '/' ∉ part.toList))

namespace Store

variable {s : Store} {t : Tree} {n : String}

/-- The name is that of a hidden file. -/
def Hidden (n : String) : Prop :=
  n.toList.head? = some '.'

/-- Whether a name is hidden can be decided. -/
instance : DecidablePred Hidden :=
  fun n => inferInstanceAs (Decidable (n.toList.head? = some '.'))

/-- What is listed has a name that can be looked up, unless it is hidden. -/
lemma isTemplateName_of_mem_names (hslash : t.Slashless) (h : n ∈ s.names t) :
    isTemplateName n = true ↔ ¬ Hidden n := by
  obtain ⟨hne, hfile⟩ := mem_names_iff.mp h
  obtain ⟨f, hf⟩ := Option.isSome_iff_exists.mp hfile
  have hpart : '/' ∉ (n ++ scriptSuffix).toList :=
    hslash _ ((Tree.get?_eq_some_iff (by simp)).mp (Tree.file?_eq_some.mp hf)) _ (by simp)
  rw [String.toList_append, List.mem_append, not_or] at hpart
  rw [isTemplateName_iff, Hidden]
  exact ⟨fun h => h.2.2, fun h => ⟨hne, hpart.1, h⟩⟩

/-- Whether a name is found can be told where the file is. -/
lemma run_exists_of_file (hreal : t.Real) (hname : isTemplateName n = true)
    (hfile : (t.file? (s.scriptPath n).parts).isSome = true) :
    (s.exists? n).run t = (.ok true, t) := by
  obtain ⟨f, hf⟩ := Option.isSome_iff_exists.mp hfile
  rcases hreal.isFile_cases (s.scriptPath n) with ⟨hlong, -⟩ | ⟨-, hfound⟩
  · exact absurd hlong (hreal.not_overlong (Tree.file?_eq_some.mp hf))
  · rw [run_exists hname, hfound, hfile]

/-- A name that is found is listed. -/
lemma mem_names_of_exists (hreal : t.Real) (h : ((s.exists? n).run t).1 = .ok true) :
    n ∈ s.names t := by
  cases hname : isTemplateName n with
  | false =>
    rw [exists?, run_path_bind_of_not_name hname] at h
    cases h
  | true =>
    rw [run_exists hname] at h
    refine mem_names_iff.mpr ⟨(isTemplateName_iff.mp hname).1, ?_⟩
    rcases hreal.isFile_cases (s.scriptPath n) with ⟨-, hlong⟩ | ⟨-, hfound⟩
    · rw [hlong] at h
      cases h
    · rw [hfound] at h
      exact Except.ok.inj h

end Store

namespace Command

open Store Session

/-- The rows of a listing: each name with its path, unless one of the names is hidden. The first
such name is the error. -/
lemma mapM_row {names : List String} (h : ∀ n ∈ names, isTemplateName n = true ↔ ¬ Hidden n) :
    names.mapM row =
      match names.find? (Hidden ·) with
      | some n => .error (.unreported (.known (.invalidTemplateName n)))
      | none => .ok (names.map fun n => [n, (Project.store.scriptPath n).toString]) := by
  induction names with
  | nil => rfl
  | cons n names ih =>
    rw [List.mapM_cons, ih fun m hm => h m (List.mem_cons_of_mem n hm)]
    have hn := h n List.mem_cons_self
    by_cases hhidden : Hidden n
    · have hrow : row n = .error (.unreported (.known (.invalidTemplateName n))) := by
        rw [row, pathFor, if_neg (by simpa [hhidden] using hn)]
      rw [hrow, List.find?_cons_of_pos (by simpa using hhidden)]
      rfl
    · have hrow : row n = .ok [n, (Project.store.scriptPath n).toString] := by
        rw [row, pathFor_of_name (hn.mpr hhidden)]
      rw [hrow, List.find?_cons_of_neg (by simpa using hhidden)]
      cases names.find? (Hidden ·) with
      | some m => rfl
      | none => rfl

/-- What a listing prints. -/
def listing (names : List String) : String :=
  if names.isEmpty then Console.printed "[yellow]No templates found[/yellow]"
  else Console.Table.printed
    { heads := ["Name", "Path"],
      rows := names.map fun n => [n, (Project.store.scriptPath n).toString] }

/-- The name of a template, or its path, is read as markup that cannot be printed. -/
def Unprintable (n : String) : Prop :=
  Console.isFaulty n = true ∨ Console.isFaulty (Project.store.scriptPath n).toString = true

/-- Whether a name cannot be printed can be decided. -/
instance : DecidablePred Unprintable :=
  fun _ => inferInstanceAs (Decidable (_ ∨ _))

/-- A listing prints every name with its path. It ends with an error that is not reported if a name
is hidden, or if one cannot be printed. -/
lemma perform_list {s : Session} (hslash : s.tree.Slashless) :
    CommandLine.perform .list s =
      match (Project.store.names s.tree).find? (Hidden ·) with
      | some n =>
        { status := 1, session := s, unreported := some (.known (.invalidTemplateName n)) }
      | none =>
        if ∃ n ∈ Project.store.names s.tree, Unprintable n then
          { status := 1, session := s, unreported := some .badStyle }
        else
          { status := 0
            session :=
              { s with terminal := s.terminal.print (listing (Project.store.names s.tree)) } } := by
  have hrows := mapM_row fun n => isTemplateName_of_mem_names (s := Project.store) (n := n) hslash
  have hlist : (perform .list).run s =
      match (Project.store.names s.tree).find? (Hidden ·) with
      | some n => (.error (.unreported (.known (.invalidTemplateName n))), s)
      | none =>
        if ∃ n ∈ Project.store.names s.tree, Unprintable n then (.error (.unreported .badStyle), s)
        else (.ok (),
          { s with terminal := s.terminal.print (listing (Project.store.names s.tree)) }) := by
    show list.run s = _
    unfold list
    rw [run_bind_of_ok (show (get : CommandM Session).run s = (.ok s, s) from rfl)]
    cases hnames : Project.store.names s.tree with
    | nil => rfl
    | cons n names =>
      rw [hnames] at hrows
      dsimp only
      rw [hrows]
      cases (n :: names).find? (Hidden ·) with
      | some m => rfl
      | none =>
        have hfaulty : ((n :: names).map fun m => [m, (Project.store.scriptPath m).toString]).any
            (·.any Console.isFaulty) = decide (∃ m ∈ n :: names, Unprintable m) := by
          rw [Bool.eq_iff_iff, decide_eq_true_iff]
          simp [Unprintable]
        dsimp only
        rw [hfaulty]
        by_cases h : ∃ m ∈ n :: names, Unprintable m
        · rw [if_pos (decide_eq_true h), if_pos h]
          rfl
        · rw [if_neg (by simpa using h), if_neg h]
          rfl
  rw [CommandLine.perform, hlist]
  cases (Project.store.names s.tree).find? (Hidden ·) with
  | some n => simp [CommandLine.finish, Failure.handle]
  | none =>
    dsimp only
    by_cases h : ∃ n ∈ Project.store.names s.tree, Unprintable n
    · rw [if_pos h, if_pos h]
      simp [CommandLine.finish, Failure.handle]
    · rw [if_neg h, if_neg h]

end Command

namespace Store

end Store

end Stencil
