import Stencil.Proofs.Store

/-!
# Settings of a project

Reading the settings of a project leaves its files alone (`Project.looks_settings`), and saving a
script keeps the settings (`Project.settings_save`).
-/

namespace Stencil

open Files

/-! ## Steps that only look -/

/-- The step leaves the files as they are. -/
def FileM.Looks {α : Type} (act : FileM α) : Prop :=
  ∀ tree, (act.run tree).2 = tree

namespace FileM.Looks

variable {α β : Type}

/-- Giving a value changes no file. -/
lemma pure (a : α) : Looks (Pure.pure a : FileM α) :=
  fun _ => rfl

/-- Failing changes no file. -/
lemma throw (e : Failure) : Looks (MonadExcept.throw e : FileM α) :=
  fun _ => rfl

/-- Looking at the files changes none. -/
lemma get : Looks (MonadState.get : FileM Tree) :=
  fun _ => rfl

/-- What the file system reports changes no file. -/
lemma liftFile (r : Except Unexpected α) : Looks (FileM.liftFile r) := by
  cases r with
  | ok a => exact pure a
  | error e => exact throw _

/-- Two steps that only look do so one after the other. -/
lemma bind {act : FileM α} {f : α → FileM β} (h : Looks act) (hf : ∀ a, Looks (f a)) :
    Looks (act >>= f) := by
  intro tree
  have htree := h tree
  show (ExceptT.bindCont f (act.run tree).1 (act.run tree).2).2 = tree
  rw [htree]
  cases (act.run tree).1 with
  | ok a => exact hf a tree
  | error e => rfl

end FileM.Looks

/-- Checking the name of a template only looks at the files. -/
lemma Store.looks_requirePath (s : Store) (name : String) : FileM.Looks (s.requirePath name) := by
  unfold requirePath
  split
  · exact .pure _
  · exact .throw _

namespace Project

/-- Reading the settings only looks at the files. -/
lemma looks_settings : FileM.Looks settings := by
  refine .bind .get fun tree => .bind (.liftFile _) fun found => ?_
  split
  · refine .bind .get fun tree => .bind (.liftFile _) fun bytes => ?_
    split
    · exact .pure _
    · exact .throw _
  · exact .pure _

variable {tree tree' : Tree} {st : Settings}

/-- Without a file the settings are the usual ones. Otherwise they are what the file says. -/
lemma settings_eq_ok : settings.run tree = (.ok st, tree) ↔
    tree.exists? settingsPath = .ok false ∧ st = {} ∨
      tree.exists? settingsPath = .ok true ∧
        ∃ bytes, tree.read settingsPath = .ok bytes ∧
          Settings.ofBytes settingsPath.toString bytes = .ok st := by
  constructor
  · intro h
    obtain ⟨found, hfound, h⟩ := FileM.run_asks.mp h
    cases found with
    | false =>
      cases h
      exact .inl ⟨hfound, rfl⟩
    | true =>
      obtain ⟨bytes, hbytes, h⟩ := FileM.run_asks.mp h
      refine .inr ⟨hfound, bytes, hbytes, ?_⟩
      split at h
      · rename_i hread
        cases h
        exact hread
      · cases h
  · rintro (⟨hmissing, rfl⟩ | ⟨hfound, bytes, hbytes, hread⟩)
    · exact FileM.run_asks.mpr ⟨false, hmissing, rfl⟩
    · refine FileM.run_asks.mpr ⟨true, hfound, FileM.run_asks.mpr ⟨bytes, hbytes, ?_⟩⟩
      rw [hread]
      rfl

/-- The settings lie in the directory of the project. -/
lemma parts_settingsPath : settingsPath.parts = [".moho", "config.yaml"] :=
  rfl

/-- A file of a project can be reached if the project's directory is there. -/
lemma reached_child_iff {name : String} (hname : (Text.encode name).length ≤ Tree.longestName) :
    tree.obstacle? (directory.child name) = none ↔ tree.get? directory.parts = some .directory := by
  have hparts : (directory.child name).parts = [".moho", name] := rfl
  have hshort : (Text.encode ".moho").length ≤ Tree.longestName := by decide
  rw [Tree.obstacle?_eq_none, hparts]
  constructor
  · intro h
    exact (h 1 (Nat.lt_succ_self 1)).1
  · rintro h i hi
    match i with
    | 0 => exact ⟨rfl, hshort⟩
    | 1 => exact ⟨h, hname⟩

/-- The settings are reached exactly if the directory of the project is there. -/
lemma reached_iff : tree.obstacle? settingsPath = none ↔ tree.get? [".moho"] = some .directory :=
  reached_child_iff (by decide)

/-- A script is no file of settings. -/
lemma parts_settingsPath_ne (name : String) :
    settingsPath.parts ≠ store.root.parts ++ [name ++ Store.scriptSuffix] := by
  intro h
  have hnames : "config.yaml" = name ++ Store.scriptSuffix := by
    rw [parts_settingsPath] at h
    exact (List.cons.inj (List.cons.inj h).2).1
  have hlast : "config.yaml".toList.getLast? = (name.toList ++ ['.', 'm', 'h']).getLast? := by
    rw [hnames, String.toList_append]
    rfl
  rw [List.getLast?_append,
    show ['.', 'm', 'h'].getLast?.or name.toList.getLast? = some 'h' from rfl] at hlast
  exact absurd hlast (by decide)

/-- Saving a script keeps the settings. -/
lemma settings_save {name script : String} {p : Path} (hrooted : tree.Rooted)
    (hsave : (store.save name script).run tree = (.ok p, tree'))
    (h : settings.run tree = (.ok st, tree)) :
    settings.run tree' = (.ok st, tree') := by
  have hget : tree'.get? settingsPath.parts = tree.get? settingsPath.parts :=
    Store.get?_save hsave (by decide) (parts_settingsPath_ne name)
  have hreached' : tree'.obstacle? settingsPath = none := by
    obtain ⟨q, hpath, hsettled⟩ := Store.holds_of_save hsave
    have hparent := hsettled.get?_parent
    rw [Store.pathFor_eq_ok hpath] at hparent
    exact reached_iff.mpr hparent
  cases hreached : tree.obstacle? settingsPath with
  | none =>
    have hexists : tree'.exists? settingsPath = tree.exists? settingsPath := by
      simp only [Tree.exists?, hreached, hreached', hget]
    have hread : tree'.read settingsPath = tree.read settingsPath := by
      simp only [Tree.read, hreached, hreached', hget]
    rw [settings_eq_ok] at h ⊢
    rwa [hexists, hread]
  | some e =>
    -- The directory was missing, so there was no file of settings, and there is none now.
    have hmissing : tree.get? settingsPath.parts = none := by
      refine Option.eq_none_iff_forall_ne_some.mpr fun entry hentry => ?_
      have hparent := hrooted [".moho"] "config.yaml" entry hentry
      rw [reached_iff.mpr hparent] at hreached
      cases hreached
    have hexists' : tree'.exists? settingsPath = .ok false := by
      rw [Tree.exists?, if_neg (by decide), hreached', hget, hmissing]
      rfl
    rcases settings_eq_ok.mp h with ⟨-, rfl⟩ | ⟨hexists, -⟩
    · exact settings_eq_ok.mpr (.inl ⟨hexists', rfl⟩)
    · rw [Tree.reached_of_exists? hexists] at hreached
      cases hreached

end Project

end Stencil
