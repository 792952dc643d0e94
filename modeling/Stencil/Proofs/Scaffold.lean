import Stencil.Proofs.Directory
import Stencil.Proofs.Project

/-!
# New projects

Making a project adds what is missing and changes nothing that is there. `Tree.Adds` says so of two
trees, one of which came from the other. Each file is there already, or cannot be made because a
directory has its path, or is added (`Project.Provided`). `Project.Scaffolded` says what comes of
the whole, whether it fails between the steps or not, and `Project.scaffold_adds_missing` what this
means for the files and the settings.
-/

namespace Stencil

open Files

namespace Files.Tree

variable {t t' t'' : Tree} {parts : List String} {new new' : List (List String × Entry)}

/-! ## Trees that grow -/

/-- The later tree has all entries of the earlier one, and no others but the new ones. -/
structure Adds (t t' : Tree) (new : List (List String × Entry)) : Prop where
  kept : ∀ parts e, t.get? parts = some e → t'.get? parts = some e
  fresh : ∀ parts e, t'.get? parts = some e → t.get? parts = some e ∨ (parts, e) ∈ new

namespace Adds

/-- Nothing was added to files that are the same. -/
lemma refl (t : Tree) (new : List (List String × Entry)) : t.Adds t new :=
  ⟨fun _ _ h => h, fun _ _ h => .inl h⟩

/-- What is added in two steps is added by both. -/
lemma trans (h : t.Adds t' new) (h' : t'.Adds t'' new') : t.Adds t'' (new ++ new') where
  kept parts e hget := h'.kept parts e (h.kept parts e hget)
  fresh parts e hget := by
    rcases h'.fresh parts e hget with hget | hnew
    · exact (h.fresh parts e hget).imp_right (List.mem_append_left new')
    · exact .inr (List.mem_append_right new hnew)

/-- What was added may be described by more. -/
lemma mono (h : t.Adds t' new) (hnew : new ⊆ new') : t.Adds t' new' :=
  ⟨h.kept, fun parts e hget => (h.fresh parts e hget).imp_right fun hmem => hnew hmem⟩

/-- An entry is added where there was none. -/
lemma set (hfree : t.get? parts = none) (e : Entry) : t.Adds (t.set parts e) [(parts, e)] where
  kept other e' hget := by
    have hne : other ≠ parts := by
      rintro rfl
      cases hfree.symm.trans hget
    rwa [get?_set_of_ne hne]
  fresh other e' hget := by
    by_cases hother : other = parts
    · subst hother
      have hnamed : other ≠ [] := by
        rintro rfl
        cases hfree
      cases (get?_set_self hnamed t e).symm.trans hget
      exact .inr List.mem_cons_self
    · exact .inl ((get?_set_of_ne hother t e).symm.trans hget)

/-- Other paths are left alone. -/
lemma get?_eq (h : t.Adds t' new) (hother : parts ∉ new.map Prod.fst) :
    t'.get? parts = t.get? parts := by
  cases hget : t.get? parts with
  | some e => exact h.kept parts e hget
  | none =>
    refine Option.eq_none_iff_forall_ne_some.mpr fun e hget' => ?_
    rcases h.fresh parts e hget' with hold | hnew
    · cases hget.symm.trans hold
    · exact hother (List.mem_map_of_mem hnew)

/-- Files that were there are still there. -/
lemma file? (h : t.Adds t' new) {f : File} (hf : t.file? parts = some f) :
    t'.file? parts = some f :=
  file?_eq_some.mpr (h.kept parts _ (file?_eq_some.mp hf))

/-- What was a file is still a file. -/
lemma isSome_file? (h : t.Adds t' new) (hfile : (t.file? parts).isSome = true) :
    (t'.file? parts).isSome = true := by
  obtain ⟨f, hf⟩ := Option.isSome_iff_exists.mp hfile
  rw [h.file? hf]
  rfl

end Adds

end Files.Tree

namespace Project

variable {t t' : Tree} {p : Path} {text : String} {r : Except Failure (List Path)}
  {made : List Path}

/-! ## The directory -/

/-- The directory of the project is made unless something has its name. -/
lemma makeFrom_directory (t : Tree) : t.makeFrom [] directory.parts =
    if (t.get? directory.parts).isSome then t else t.set directory.parts .directory :=
  rfl

/-- The directory of the project can be made unless it is a file. -/
lemma makeable_directory : t.Makeable directory ↔ t.file? directory.parts = none := by
  have hinits : directory.parts.inits = [[], directory.parts] := rfl
  have hfits : ∀ part ∈ directory.parts, Fits part := by decide
  rw [Tree.Makeable, hinits, List.forall_mem_cons, List.forall_mem_singleton]
  exact ⟨fun h => h.2.2, fun h => ⟨hfits, rfl, h⟩⟩

/-- The directory is there, or is added. -/
lemma makeDirectory_of_free (h : t.file? directory.parts = none) :
    ∃ t', t.makeDirectory directory = .ok t' ∧
    t.Adds t' [(directory.parts, .directory)] ∧ t'.get? directory.parts = some .directory := by
  rcases t.makeDirectory_cases directory with ⟨-, hmake⟩ | ⟨hno, -⟩
  · rw [makeFrom_directory] at hmake
    refine ⟨_, hmake, ?_⟩
    cases hget : t.get? directory.parts with
    | none => exact ⟨.set hget _, Tree.get?_set_self (by decide) t _⟩
    | some e =>
      cases e with
      | directory => exact ⟨.refl t _, hget⟩
      | file f => cases h.symm.trans (Tree.file?_eq_some.mpr hget)
  · exact absurd (makeable_directory.mpr h) hno

/-- A file in the place of the directory is an error. -/
lemma makeDirectory_of_file (h : t.file? directory.parts ≠ none) :
    ∃ e, t.makeDirectory directory = .error e := by
  rcases t.makeDirectory_cases directory with ⟨hyes, -⟩ | ⟨-, hfail⟩
  · exact absurd (makeable_directory.mp hyes) h
  · exact hfail

/-- A directory that is there is not made again. -/
lemma makeDirectory_of_directory (h : t.get? directory.parts = some .directory) :
    t.makeDirectory directory = .ok t := by
  have hfree : t.file? directory.parts = none := by rw [Tree.file?, h]
  rcases t.makeDirectory_cases directory with ⟨-, hmake⟩ | ⟨hno, -⟩
  · rwa [makeFrom_directory, h] at hmake
  · exact absurd (makeable_directory.mpr hfree) hno

/-! ## A file -/

/-- The path can be reached wherever there is the directory of a project. -/
structure Inside (p : Path) : Prop where
  zero : Tree.hasZero p = false
  reached : ∀ t : Tree, t.get? directory.parts = some .directory → t.obstacle? p = none

/-- The settings lie in the directory of the project. -/
lemma inside_settingsPath : Inside settingsPath :=
  ⟨by decide, fun _ => (reached_child_iff (by decide)).mpr⟩

/-- The note lies in the directory of the project. -/
lemma inside_readmePath : Inside readmePath :=
  ⟨by decide, fun _ => (reached_child_iff (by decide)).mpr⟩

/-- With the directory in place, looking for a file in it cannot fail. -/
lemma Inside.isFile (hp : Inside p) (hdir : t.get? directory.parts = some .directory) :
    t.isFile p = .ok (t.file? p.parts).isSome := by
  simp [Tree.isFile, hp.zero, hp.reached t hdir]

/-- A file that is there is not provided again. -/
lemma run_provide_of_file (h : t.isFile p = .ok true) (text : String) :
    (provide p text).run t = (.ok [], t) := by
  unfold provide
  rw [FileM.run_asks_eq (·.isFile p), h]
  rfl

/-- A file that is missing is written. -/
lemma run_provide_of_no_file (h : t.isFile p = .ok false) (text : String) : (provide p text).run t =
    match t.write p (Text.encode text) with
    | .ok t' => (.ok [p], t')
    | .error e => (.error (.unexpected e), t) := by
  unfold provide
  rw [FileM.run_asks_eq (·.isFile p), h]
  show (FileM.change (·.write p (Text.encode text)) >>= fun _ => pure [p]).run t = _
  rw [FileM.run_bind, FileM.run_change_eq]
  cases t.write p (Text.encode text) with
  | ok t' => rfl
  | error e => rfl

/-- What comes of providing a file. -/
inductive Provided (p : Path) (text : String) (t : Tree) : Except Failure (List Path) → Tree → Prop
  | there {f : File} : t.get? p.parts = some (.file f) → Provided p text t (.ok []) t
  | blocked : t.get? p.parts = some .directory →
      Provided p text t (.error (.unexpected (.isDirectory p.toString))) t
  | made : t.get? p.parts = none →
    Provided p text t (.ok [p]) (t.set p.parts (.file { bytes := Text.encode text }))

/-- Providing a file comes to one of the ends of `Provided`. -/
lemma provided (hp : Inside p) (hdir : t.get? directory.parts = some .directory) (text : String) :
    ∃ r t', (provide p text).run t = (r, t') ∧ Provided p text t r t' := by
  have hreached := hp.reached t hdir
  have hask := hp.isFile hdir
  cases hget : t.get? p.parts with
  | none =>
    have hwrite : t.write p (Text.encode text) =
        .ok (t.set p.parts (.file { bytes := Text.encode text })) := by
      simp [Tree.write, hp.zero, hreached, hget]
    rw [Tree.file?, hget] at hask
    refine ⟨_, _, ?_, .made hget⟩
    rw [run_provide_of_no_file hask, hwrite]
  | some e =>
    rw [Tree.file?, hget] at hask
    cases e with
    | file f => exact ⟨_, _, run_provide_of_file hask text, .there hget⟩
    | directory =>
      have hwrite : t.write p (Text.encode text) = .error (.isDirectory p.toString) := by
        simp [Tree.write, hp.zero, hreached, hget]
      refine ⟨_, _, ?_, .blocked hget⟩
      rw [run_provide_of_no_file hask, hwrite]

namespace Provided

/-- Providing a file adds that file at most. -/
lemma adds (h : Provided p text t r t') :
    t.Adds t' [(p.parts, .file { bytes := Text.encode text })] := by
  cases h with
  | there _ => exact .refl t _
  | blocked _ => exact .refl t _
  | made hfree => exact .set hfree _

/-- Providing a file succeeds unless a directory has its name. -/
lemma succeeds_iff (h : Provided p text t r t') :
    (∃ made, r = .ok made) ↔ t.get? p.parts ≠ some .directory := by
  cases h with
  | there hget => simp [hget]
  | blocked hget => simp [hget]
  | made hget => simp [hget]

/-- If it succeeds, the file was made if it was missing, and it is there now. -/
lemma made_eq (h : Provided p text t (.ok made) t') :
    made = [p].filter (fun p => (t.file? p.parts).isNone) ∧ (t'.file? p.parts).isSome = true := by
  cases h with
  | there hget =>
    have hfile := Tree.file?_eq_some.mpr hget
    simp [hfile]
  | made hget =>
    have hnamed : p.parts ≠ [] := by
      intro hnil
      rw [hnil] at hget
      cases hget
    have hmissing : t.file? p.parts = none := by rw [Tree.file?, hget]
    have hfile :=
      Tree.file?_eq_some.mpr (Tree.get?_set_self hnamed t (.file { bytes := Text.encode text }))
    simp [hmissing, hfile]

end Provided

/-! ## The whole -/

/-- The entries of a new project. -/
def newEntries : List (List String × Entry) :=
  [(directory.parts, .directory),
    (settingsPath.parts, .file { bytes := Text.encode newSettings.text }),
    (readmePath.parts, .file { bytes := Text.encode readmeText })]

/-- What comes of making a project. -/
structure Scaffolded (t : Tree) (r : Except Failure (List Path)) (t' : Tree) : Prop where
  adds : t.Adds t' newEntries
  /-- Nothing is written before the directory is there. -/
  opened : t' = t ∨ t'.get? directory.parts = some .directory
  succeeds : (∃ made, r = .ok made) ↔ t.file? directory.parts = none ∧
    t.get? settingsPath.parts ≠ some .directory ∧ t.get? readmePath.parts ≠ some .directory
  made : ∀ made, r = .ok made →
    made = [settingsPath, readmePath].filter (fun p => (t.file? p.parts).isNone) ∧
    t'.get? directory.parts = some .directory ∧ (t'.file? settingsPath.parts).isSome = true ∧
      (t'.file? readmePath.parts).isSome = true

/-- Where the directory can be made, the files follow. -/
lemma run_scaffold (hmake : t.makeDirectory directory = .ok t') : scaffold.run t =
    (provide settingsPath newSettings.text >>= fun a =>
      provide readmePath readmeText >>= fun b => pure (a ++ b)).run t' :=
  run_bind_of_ok (FileM.run_change.mpr hmake)

/-- Making a project comes to one of the ends of `Scaffolded`. -/
lemma scaffolded (t : Tree) : ∃ r t', scaffold.run t = (r, t') ∧ Scaffolded t r t' := by
  by_cases hfree : t.file? directory.parts = none
  · obtain ⟨t₁, hmake, hadds₁, hdir₁⟩ := makeDirectory_of_free hfree
    obtain ⟨r₂, t₂, hrun₂, hsettings⟩ := provided inside_settingsPath hdir₁ newSettings.text
    have hadds₂ := hadds₁.trans hsettings.adds
    have hdir₂ := hsettings.adds.kept _ _ hdir₁
    have hget₁ : t₁.get? settingsPath.parts = t.get? settingsPath.parts :=
      hadds₁.get?_eq (by decide)
    have hget₂ : t₂.get? readmePath.parts = t.get? readmePath.parts := hadds₂.get?_eq (by decide)
    have hsucceeds := hsettings.succeeds_iff
    rw [hget₁] at hsucceeds
    rw [run_scaffold hmake]
    cases r₂ with
    | error e =>
      refine ⟨.error e, t₂, run_bind_of_error hrun₂, hadds₂.mono (by decide), .inr hdir₂, ?_, nofun⟩
      exact ⟨nofun, fun h => nomatch hsucceeds.mpr h.2.1⟩
    | ok a =>
      obtain ⟨r₃, t₃, hrun₃, hreadme⟩ := provided inside_readmePath hdir₂ readmeText
      have hadds₃ : t.Adds t₃ newEntries := hadds₂.trans hreadme.adds
      have hdir₃ := hreadme.adds.kept _ _ hdir₂
      have hsucceeds' := hreadme.succeeds_iff
      rw [hget₂] at hsucceeds'
      rw [run_bind_of_ok hrun₂]
      cases r₃ with
      | error e =>
        refine ⟨.error e, t₃, run_bind_of_error hrun₃, hadds₃, .inr hdir₃, ?_, nofun⟩
        exact ⟨nofun, fun h => nomatch hsucceeds'.mpr h.2.2⟩
      | ok b =>
        refine ⟨.ok (a ++ b), t₃, run_bind_of_ok hrun₃, hadds₃, .inr hdir₃, ?_, ?_⟩
        · exact ⟨fun _ => ⟨hfree, hsucceeds.mp ⟨a, rfl⟩, hsucceeds'.mp ⟨b, rfl⟩⟩, fun _ => ⟨_, rfl⟩⟩
        · rintro made ⟨⟩
          obtain ⟨rfl, hthere₂⟩ := hsettings.made_eq
          obtain ⟨rfl, hthere₃⟩ := hreadme.made_eq
          refine ⟨?_, hdir₃, hreadme.adds.isSome_file? hthere₂, hthere₃⟩
          -- what was missing before a file is provided was missing at the start
          simp only [List.filter_cons, Tree.file?_congr hget₁, Tree.file?_congr hget₂,
            List.filter_nil]
          split <;> rfl
  · obtain ⟨e, hfail⟩ := makeDirectory_of_file hfree
    refine ⟨.error (.unexpected e), t, ?_, .refl t _, .inl rfl, ?_, nofun⟩
    · refine run_bind_of_error ?_
      rw [FileM.run_change_eq, hfail]
    · exact ⟨nofun, fun h => absurd h.1 hfree⟩

/-- A project that is complete stays as it is. -/
lemma run_scaffold_of_complete (hdir : t.get? directory.parts = some .directory)
    (hsettings : t.isFile settingsPath = .ok true) (hreadme : t.isFile readmePath = .ok true) :
    scaffold.run t = (.ok [], t) := by
  rw [run_scaffold (makeDirectory_of_directory hdir),
    run_bind_of_ok (run_provide_of_file hsettings _)]
  exact run_bind_of_ok (run_provide_of_file hreadme _)

/-- The settings of a new project are read from their file. -/
lemma ofBytes_newSettings :
    Settings.ofBytes settingsPath.toString (Text.encode newSettings.text) = .ok newSettings := by
  have hread : (Settings.ofBytes settingsPath.toString (Text.encode newSettings.text)).toOption =
      some newSettings := by
    decide +kernel
  cases hresult : Settings.ofBytes settingsPath.toString (Text.encode newSettings.text) with
  | ok st =>
    rw [hresult] at hread
    exact congrArg _ (Option.some.inj hread)
  | error e =>
    rw [hresult] at hread
    cases hread

/-- A file that was made is the settings or the note. -/
lemma Scaffolded.new_file {parts : List String} {f : File} (h : Scaffolded t r t')
    (hmissing : t.file? parts = none) (hf : t'.file? parts = some f) :
    parts = settingsPath.parts ∧ f.bytes = Text.encode newSettings.text ∨
      parts = readmePath.parts ∧ f.bytes = Text.encode readmeText := by
  rcases h.adds.fresh _ _ (Tree.file?_eq_some.mp hf) with hold | hnew
  · cases hmissing.symm.trans (Tree.file?_eq_some.mpr hold)
  · simp only [newEntries, List.mem_cons, List.not_mem_nil, or_false, Prod.mk.injEq, reduceCtorEq,
      and_false, false_or, Entry.file.injEq] at hnew
    rcases hnew with ⟨hparts, rfl⟩ | ⟨hparts, rfl⟩
    · exact .inl ⟨hparts, rfl⟩
    · exact .inr ⟨hparts, rfl⟩

/-- Settings that were made are those of a new project. -/
lemma Scaffolded.settings (h : Scaffolded t r t') (hmissing : t.file? settingsPath.parts = none)
    (hmade : t'.file? settingsPath.parts ≠ none) : settings.run t' = (.ok newSettings, t') := by
  obtain ⟨f, hf⟩ := Option.ne_none_iff_exists'.mp hmade
  have hget := Tree.file?_eq_some.mp hf
  have hbytes : f.bytes = Text.encode newSettings.text := by
    rcases h.new_file hmissing hf with ⟨-, hbytes⟩ | ⟨hparts, -⟩
    · exact hbytes
    · exact absurd hparts (by decide)
  have hdir : t'.get? directory.parts = some .directory := by
    refine h.opened.resolve_left ?_
    rintro rfl
    exact hmade hmissing
  have hreached := inside_settingsPath.reached t' hdir
  refine settings_eq_ok.mpr (.inr ⟨?_, f.bytes, ?_, hbytes ▸ ofBytes_newSettings⟩)
  · simp [Tree.exists?, inside_settingsPath.zero, hreached, hget]
  · simp [Tree.read, inside_settingsPath.zero, hreached, hget]

/-- Making a project changes no file that was there, and no other file is made but the settings and
the note, whether it succeeds or fails. It succeeds unless a file has the path of the directory, or
a directory that of a file. Then the files that were missing are given, both are there, and making
the project again changes nothing. Settings that were made give the version only. -/
theorem scaffold_adds_missing (tree : Tree) :
    let result := (scaffold.run tree).1
    let after := (scaffold.run tree).2
    (∀ parts f, tree.file? parts = some f → after.file? parts = some f) ∧
    (∀ parts, tree.file? parts = none → after.file? parts ≠ none →
      parts = settingsPath.parts ∨ parts = readmePath.parts) ∧
    (∀ made, result = .ok made →
      made = [settingsPath, readmePath].filter (fun p => (tree.file? p.parts).isNone) ∧
      after.isFile settingsPath = .ok true ∧ after.isFile readmePath = .ok true ∧
      scaffold.run after = (.ok [], after)) ∧
    (tree.file? settingsPath.parts = none → after.file? settingsPath.parts ≠ none →
      ∃ st, settings.run after = (.ok st, after) ∧ st.schema = 1 ∧ st.editorCommand = none ∧
        st.extraFilters = [] ∧
        st.given = ["version"]) ∧
    ((∃ made, result = .ok made) ↔ tree.file? directory.parts = none ∧
      tree.get? settingsPath.parts ≠ some .directory ∧
      tree.get? readmePath.parts ≠ some .directory) := by
  obtain ⟨r, t', hrun, h⟩ := scaffolded tree
  rw [hrun]
  dsimp only
  refine ⟨fun parts f hf => h.adds.file? hf, ?_, ?_, ?_, h.succeeds⟩
  · intro parts hmissing hmade
    obtain ⟨f, hf⟩ := Option.ne_none_iff_exists'.mp hmade
    exact (h.new_file hmissing hf).imp And.left And.left
  · intro made hmade
    obtain ⟨hlist, hdir, hsettings, hreadme⟩ := h.made made hmade
    have hthere {p : Path} (hp : Inside p) (hfile : (t'.file? p.parts).isSome = true) :
        t'.isFile p = .ok true := by
      rw [hp.isFile hdir, hfile]
    have hsettings' := hthere inside_settingsPath hsettings
    have hreadme' := hthere inside_readmePath hreadme
    exact ⟨hlist, hsettings', hreadme', run_scaffold_of_complete hdir hsettings' hreadme'⟩
  · intro hmissing hmade
    exact ⟨newSettings, h.settings hmissing hmade, rfl, rfl, rfl, rfl⟩

/-- With a directory in the place of the note, the settings are made before the failure, and they
can be read. -/
theorem scaffold_adds_missing_before_failure :
    let script : File := { bytes := Text.encode "#!/bin/sh\n", executable := true }
    let tree : Tree :=
      { entries :=
        [([".moho"], .directory), ([".moho", "a.mh"], .file script),
          ([".moho", "readme.md"], .directory)]
        nodup := by decide }
    let after := (scaffold.run tree).2
    (¬∃ made, (scaffold.run tree).1 = .ok made) ∧ after.file? [".moho", "a.mh"] = some script ∧
      ∃ st, settings.run after = (.ok st, after) ∧ st.schema = 1 ∧ st.editorCommand = none ∧
        st.extraFilters = [] ∧
        st.given = ["version"] := by
  intro script tree after
  obtain ⟨hkept, -, -, hsettings, hsucceeds⟩ := scaffold_adds_missing tree
  have hmade : after.file? settingsPath.parts ≠ none := by decide +kernel
  refine ⟨fun hok => (hsucceeds.mp hok).2.2 rfl, hkept _ _ rfl, hsettings rfl hmade⟩

end Project

end Stencil
