import Mathlib.Data.String.Basic
import Stencil.Proofs.Directory
import Stencil.Proofs.Project

/-!
# The store as a finite map

What a store holds is a map from names to texts (`Store.catalogue`). `Store.Outcome` says what one
call can answer and what it makes of the files. From it follows that every row of calls changes the
map as its saves and deletions say, and no other file (`Store.refines_map`).
-/

namespace Stencil

open Files

namespace Text

/-- A start can be dropped exactly if the text has it. -/
lemma isSome_dropStart? {start cs : List Char} :
    (dropStart? start cs).isSome = true ↔ start <+: cs := by
  fun_induction dropStart? start cs with
  | case1 cs => simp
  | case2 a start => simp
  | case3 a start c cs h ih => simp_all
  | case4 a start c cs h => simp_all

/-- A text ends with the end of its list. -/
lemma endsWith_iff {s tail : String} : endsWith s tail = true ↔ tail.toList <:+ s.toList := by
  rw [endsWith, isSome_dropStart?, List.reverse_prefix]

end Text

namespace Store

variable {s : Store} {t t' : Tree} {n m : String} {script : Text.Points} {parts : List String}

/-- The path of the script with a name. -/
def scriptPath (s : Store) (n : String) : Path :=
  s.root.child (n ++ scriptSuffix)

/-- The script of a template lies in the directory of the store. -/
@[simp]
lemma parts_scriptPath (s : Store) (n : String) :
    (s.scriptPath n).parts = s.root.parts ++ [n ++ scriptSuffix] :=
  rfl

/-- The directory of a script is that of the store. -/
@[simp]
lemma parent_scriptPath (s : Store) (n : String) : (s.scriptPath n).parent = s.root := by
  simp [scriptPath, Path.child, Path.parent]

/-- Templates with different names have different scripts. -/
lemma scriptPath_inj : (s.scriptPath n).parts = (s.scriptPath m).parts ↔ n = m := by
  simp [← String.toList_inj, String.toList_append]

/-- What is in the way to the store is no script. -/
lemma ne_scriptPath_of_prefix (h : parts <+: s.root.parts) (n : String) :
    parts ≠ (s.scriptPath n).parts := by
  intro heq
  have := h.length_le
  rw [heq, parts_scriptPath, List.length_append, List.length_singleton] at this
  omega

/-! ## What a store holds -/

/-- The texts of the scripts by name, as bytes. -/
def catalogue (s : Store) (t : Tree) (n : String) : Option (List UInt8) :=
  if isTemplateName n then (t.file? (s.scriptPath n).parts).map File.bytes else none

/-- Whatever has the suffix of a script and something before it is a file whose name is that of a
template: it is not hidden. -/
def Tidy (s : Store) (t : Tree) : Prop :=
  ∀ x ∈ t.names s.root.parts, ∀ n ∈ stem? x, isTemplateName n = true ∧
    (t.file? (s.root.parts ++ [x])).isSome = true

/-- Whether a store is tidy can be decided. -/
instance (s : Store) (t : Tree) : Decidable (s.Tidy t) :=
  inferInstanceAs (Decidable (∀ x ∈ t.names s.root.parts, ∀ n ∈ stem? x, _ ∧ _))

/-- A script is named after its template. -/
lemma stem?_eq_some {x : String} : stem? x = some n ↔ n ≠ "" ∧ x = n ++ scriptSuffix := by
  unfold stem?
  have hsuffix : scriptSuffix.length = 3 := rfl
  simp only [Bool.and_eq_true, Text.endsWith_iff, bne_iff_ne, Option.ite_none_right_eq_some,
    hsuffix, ← String.length_toList, Option.some.injEq, ← String.toList_inj, String.toList_ofList,
    String.toList_append, ne_eq]
  constructor
  · rintro ⟨⟨⟨stem, hstem⟩, hlength⟩, hn⟩
    have htail : scriptSuffix.toList.length = 3 := rfl
    rw [← hstem, List.length_append, htail] at hlength hn
    rw [Nat.add_sub_cancel] at hlength hn
    rw [List.take_left] at hn
    subst hn
    exact ⟨fun hempty => hlength (by simp [hempty]), hstem.symm⟩
  · rintro ⟨hn, hx⟩
    have htail : scriptSuffix.toList.length = 3 := rfl
    rw [hx]
    refine ⟨⟨List.suffix_append _ _, ?_⟩, ?_⟩
    · rw [List.length_append, htail, Nat.add_sub_cancel]
      exact fun hempty => hn (List.length_eq_zero_iff.mp hempty)
    · rw [List.length_append, htail, Nat.add_sub_cancel, List.take_left]

/-- A name of a template is not empty, has no slash and does not start with a dot. -/
lemma isTemplateName_iff :
    isTemplateName n = true ↔ n ≠ "" ∧ '/' ∉ n.toList ∧ n.toList.head? ≠ some '.' := by
  have hstart : Text.startsWith n "." = true ↔ n.toList.head? = some '.' := by
    rw [Text.startsWith, show ".".toList = ['.'] from rfl]
    cases n.toList with
    | nil => simp [Text.dropStart?]
    | cons c cs =>
      by_cases hc : c = '.'
      · simp [Text.dropStart?, hc]
      · simp [Text.dropStart?, hc, Ne.symm hc]
  have hslash : Text.hasChar n '/' = true ↔ '/' ∈ n.toList := by simp [Text.hasChar]
  rw [isTemplateName, Bool.and_eq_true, Bool.and_eq_true, Bool.not_eq_true', Bool.not_eq_true',
    Bool.not_eq_true', Bool.eq_false_iff, Bool.eq_false_iff, Bool.eq_false_iff, ne_eq, ne_eq, ne_eq,
    String.isEmpty_iff, hslash, hstart, and_assoc]

/-- A path with the suffix of scripts is one if anything is there. -/
lemma Tidy.file? (h : s.Tidy t) (hn : n ≠ "") {e : Entry}
    (hget : t.get? (s.scriptPath n).parts = some e) :
    isTemplateName n = true ∧ ∃ f, e = .file f := by
  obtain ⟨hname, hfile⟩ := h _ (Tree.mem_names.mpr ⟨e, hget⟩) n (stem?_eq_some.mpr ⟨hn, rfl⟩)
  refine ⟨hname, ?_⟩
  obtain ⟨f, hf⟩ := Option.isSome_iff_exists.mp hfile
  exact ⟨f, Option.some.inj (hget.symm.trans (Tree.file?_eq_some.mp hf))⟩

/-- A store stays tidy if it was and only a script is new. -/
lemma Tidy.of_get? (h : s.Tidy t) (hget : ∀ x e, t'.get? (s.root.parts ++ [x]) = some e →
    t.get? (s.root.parts ++ [x]) = some e ∨
    ∃ n f, isTemplateName n = true ∧ x = n ++ scriptSuffix ∧ e = .file f) :
    s.Tidy t' := by
  intro x hx n hstem
  obtain ⟨hn, rfl⟩ := stem?_eq_some.mp hstem
  obtain ⟨e, he⟩ := Tree.mem_names.mp hx
  rcases hget _ e he with hold | ⟨m, f, hm, heq, rfl⟩
  · obtain ⟨hname, f, rfl⟩ := h.file? hn hold
    exact ⟨hname, by rw [Tree.file?_eq_some.mpr he]; rfl⟩
  · obtain rfl : n = m := by simpa [← String.toList_inj, String.toList_append] using heq
    exact ⟨hm, by rw [Tree.file?_eq_some.mpr he]; rfl⟩

/-- What every row of calls keeps of a store and its files. -/
structure Sound (s : Store) (t : Tree) : Prop where
  real : t.Real
  tidy : s.Tidy t

/-- Making the directory of a store leaves what is in it. -/
lemma get?_made (s : Store) (t : Tree) (x : String) :
    (t.makeFrom [] s.root.parts).get? (s.root.parts ++ [x]) = t.get? (s.root.parts ++ [x]) :=
  t.get?_makeFrom (by simp)

/-- The directory of a store that can be made is there then. -/
lemma Sound.made (h : s.Sound t) (hmake : t.Makeable s.root) :
    s.Sound (t.makeFrom [] s.root.parts) ∧
    (t.makeFrom [] s.root.parts).get? s.root.parts = some .directory := by
  obtain ⟨hreal, hdir⟩ := h.real.makeFrom t.get?_nil hmake.1 fun done hdone =>
    hmake.2 done ((List.mem_inits _ _).mpr hdone)
  refine ⟨⟨hreal, h.tidy.of_get? fun x e hget => .inl ?_⟩, hdir⟩
  rwa [get?_made] at hget

/-- No directory is where the script of a template belongs. -/
lemma Sound.get?_ne_directory (h : s.Sound t) (hname : isTemplateName n = true) :
    t.get? (s.scriptPath n).parts ≠ some .directory := by
  intro hget
  obtain ⟨f, hf⟩ := (h.tidy.file? (isTemplateName_iff.mp hname).1 hget).2
  cases hf

/-- The names are those of the files with the suffix of scripts and something before it. -/
lemma mem_names_iff : n ∈ s.names t ↔ n ≠ "" ∧ (t.file? (s.scriptPath n).parts).isSome = true := by
  simp only [names, List.mem_mergeSort, List.mem_filterMap, List.mem_filter, stem?_eq_some]
  constructor
  · rintro ⟨_, ⟨-, hfile⟩, hn, rfl⟩
    exact ⟨hn, hfile⟩
  · rintro ⟨hn, hfile⟩
    obtain ⟨f, hf⟩ := Option.isSome_iff_exists.mp hfile
    exact ⟨n ++ scriptSuffix, ⟨Tree.mem_names.mpr ⟨_, Tree.file?_eq_some.mp hf⟩, hfile⟩, hn, rfl⟩

/-- The names are those in the catalogue. -/
lemma mem_names (h : s.Tidy t) : n ∈ s.names t ↔ (s.catalogue t n).isSome = true := by
  rw [mem_names_iff, catalogue]
  constructor
  · rintro ⟨hn, hfile⟩
    obtain ⟨f, hf⟩ := Option.isSome_iff_exists.mp hfile
    rwa [if_pos (h.file? hn (Tree.file?_eq_some.mp hf)).1, Option.isSome_map]
  · intro hsome
    split at hsome
    · rename_i hname
      exact ⟨(isTemplateName_iff.mp hname).1, by rwa [Option.isSome_map] at hsome⟩
    · cases hsome

/-- The names are listed by code point, each once. -/
lemma pairwise_names (s : Store) (t : Tree) : (s.names t).Pairwise (· < ·) := by
  have hnodup : (s.names t).Nodup := by
    refine (List.mergeSort_perm _ _).nodup_iff.mpr
      (List.Nodup.filterMap ?_ ((t.nodup_names _).filter _))
    intro x y n hx hy
    rw [(stem?_eq_some.mp hx).2, (stem?_eq_some.mp hy).2]
  have hsorted : (s.names t).Pairwise fun a b => (!decide (b < a)) = true := by
    refine List.pairwise_mergeSort ?_ ?_ _
    · intro a b c hab hbc
      simp only [Bool.not_eq_true', decide_eq_false_iff_not, not_lt] at hab hbc ⊢
      exact hab.trans hbc
    · intro a b
      simp only [Bool.or_eq_true, Bool.not_eq_true', decide_eq_false_iff_not, not_lt]
      exact le_total a b
  refine (hsorted.and hnodup).imp fun {a b} h => lt_of_le_of_ne (not_lt.mp ?_) h.2
  simpa only [Bool.not_eq_true', decide_eq_false_iff_not] using h.1

/-! ## Calls -/

/-- What can be asked of a store. -/
inductive Call where
  | pathFor (name : String)
  | has (name : String)
  | names
  | save (name : String) (script : Text.Points)
  | delete (name : String)
  deriving DecidableEq, Repr

/-- What a store answers. -/
inductive Reply where
  | path (p : Path)
  | found (b : Bool)
  | names (ns : List String)
  | deleted
  deriving DecidableEq, Repr

namespace Call

/-- Asks a store. -/
def perform (s : Store) : Call → FileM Reply
  | .pathFor n => return .path (← s.requirePath n)
  | .has n => return .found (← s.exists? n)
  | .names => return .names (s.names (← get))
  | .save n script => return .path (← s.save n script)
  | .delete n => do
    s.delete n
    return .deleted

/-- The name that a call is about. -/
def name? : Call → Option String
  | .pathFor n | .has n | .save n _ | .delete n => some n
  | .names => none

/-- The name whose script a call may change: that of a save or a deletion that succeeds, and that of
a save of what has no encoding. -/
def target? : Call → Except Failure Reply → Option String
  | .save n _, .ok _ | .delete n, .ok _ | .save n _, .error (.unexpected (.unencodable _)) => some n
  | _, _ => none

/-- What a file holds after a text was written to it: nothing if the text has no encoding. -/
def written (script : Text.Points) : List UInt8 :=
  match script.encode with
  | .ok bytes => bytes
  | .error _ => []

/-- What a call makes of a map. Only some names can be saved. -/
def applyTo (savable : String → Prop) [DecidablePred savable] (m : String → Option (List UInt8)) :
    Call → String → Option (List UInt8)
  | .save n script => if savable n then Function.update m n (some (written script)) else m
  | .delete n => Function.update m n none
  | _ => m

end Call

/-- The files after a row of calls. A call that fails is followed by the next one. -/
def runAll (s : Store) (t : Tree) (calls : List Call) : Tree :=
  calls.foldl (fun t c => ((c.perform s).run t).2) t

/-- A script can be saved under the name: a template may have it, the file system allows the name of
the file, and the directory is there or can be made. -/
def Savable (s : Store) (t : Tree) (n : String) : Prop :=
  isTemplateName n = true ∧ Fits (n ++ scriptSuffix) ∧ t.Makeable s.root

/-- Whether a template can be saved can be decided. -/
instance (s : Store) (t : Tree) : DecidablePred (s.Savable t) :=
  fun _ => inferInstanceAs (Decidable (_ ∧ _ ∧ _))

/-- What a call can answer, and what it makes of the files. -/
inductive Outcome (s : Store) (t : Tree) : Call → Except Failure Reply → Tree → Prop
  | invalid {c : Call} {n : String} : c.name? = some n → isTemplateName n = false →
    Outcome s t c (.error (.known (.invalidTemplateName n))) t
  | path {n : String} : isTemplateName n = true →
    Outcome s t (.pathFor n) (.ok (.path (s.scriptPath n))) t
  | found {n : String} : isTemplateName n = true → ¬ t.Overlong (s.scriptPath n) →
    Outcome s t (.has n) (.ok (.found (t.file? (s.scriptPath n).parts).isSome)) t
  | overlong {c : Call} {n : String} : c = .has n ∨ c = .delete n → isTemplateName n = true →
    t.Overlong (s.scriptPath n) →
      Outcome s t c (.error (.unexpected (.nameTooLong (s.scriptPath n).toString))) t
  | names : Outcome s t .names (.ok (.names (s.names t))) t
  | saved {n : String} {script : Text.Points} {bytes : List UInt8} : s.Savable t n →
    script.encode = .ok bytes →
    Outcome s t (.save n script) (.ok (.path (s.scriptPath n)))
      ((t.makeFrom [] s.root.parts).set (s.scriptPath n).parts
        (.file { bytes, executable := true }))
  /-- The file is emptied before the script turns out to have no encoding. -/
  | emptied {n : String} {script : Text.Points} {fault : Text.EncodeError}
    {executable : Bool} : s.Savable t n →
    script.encode = .error fault →
    Outcome s t (.save n script) (.error (.unexpected (.unencodable fault)))
      ((t.makeFrom [] s.root.parts).set (s.scriptPath n).parts (.file { bytes := [], executable }))
  | unmade {n : String} {script : Text.Points} {e : Unexpected} : isTemplateName n = true →
    ¬ t.Makeable s.root →
    Outcome s t (.save n script) (.error (.unexpected e)) t
  /-- The directory is made before the name turns out to be impossible. -/
  | unfit {n : String} {script : Text.Points} {e : Unexpected} : isTemplateName n = true →
    t.Makeable s.root →
    ¬ Fits (n ++ scriptSuffix) →
    Outcome s t (.save n script) (.error (.unexpected e)) (t.makeFrom [] s.root.parts)
  | deleted {n : String} {f : File} : isTemplateName n = true →
    t.get? (s.scriptPath n).parts = some (.file f) →
    Outcome s t (.delete n) (.ok .deleted) (t.erase (s.scriptPath n).parts)
  | absent {n : String} : isTemplateName n = true → ¬ t.Overlong (s.scriptPath n) →
    t.file? (s.scriptPath n).parts = none →
      Outcome s t (.delete n) (.error (.known (.templateNotFound n))) t

/-- A name of a template has a path. -/
lemma pathFor_of_name (h : isTemplateName n = true) : s.pathFor n = .ok (s.scriptPath n) := by
  rw [pathFor, if_pos h]
  rfl

/-- Any other name is refused, and the files stay as they are. -/
lemma run_requirePath_of_not_name (h : isTemplateName n = false) (t : Tree) :
    (s.requirePath n).run t = (.error (.known (.invalidTemplateName n)), t) := by
  rw [requirePath, pathFor, h]
  rfl

/-- A step that starts with the path of a script. -/
lemma run_path_bind {α : Type} (h : isTemplateName n = true) (f : Path → FileM α) (t : Tree) :
    (s.requirePath n >>= f).run t = (f (s.scriptPath n)).run t := by
  rw [FileM.run_bind, run_requirePath (pathFor_of_name h)]

/-- Whatever is to be done with a refused name is not done. -/
lemma run_path_bind_of_not_name {α : Type} (h : isTemplateName n = false) (f : Path → FileM α)
    (t : Tree) :
    (s.requirePath n >>= f).run t = (.error (.known (.invalidTemplateName n)), t) := by
  rw [FileM.run_bind, run_requirePath_of_not_name h]

/-- A template exists if its script is a file. -/
lemma run_exists (h : isTemplateName n = true) (t : Tree) :
    (s.exists? n).run t =
      match t.isFile (s.scriptPath n) with
      | .ok b => (.ok b, t)
      | .error e => (.error (.unexpected e), t) := by
  rw [exists?, run_path_bind h, FileM.run_bind]
  show (FileM.liftFile (t.isFile (s.scriptPath n))).run t = _
  cases t.isFile (s.scriptPath n) with
  | ok b => rfl
  | error e => rfl

/-- A deletion removes the script, if it is a file. -/
lemma run_delete (h : isTemplateName n = true) (t : Tree) :
    (s.delete n).run t =
      match t.isFile (s.scriptPath n) with
      | .ok true => (FileM.change (·.remove (s.scriptPath n))).run t
      | .ok false => (.error (.known (.templateNotFound n)), t)
      | .error e => (.error (.unexpected e), t) := by
  have hrequire : (s.require n).run t =
      match t.isFile (s.scriptPath n) with
      | .ok true => (.ok (s.scriptPath n), t)
      | .ok false => (.error (.known (.templateNotFound n)), t)
      | .error e => (.error (.unexpected e), t) := by
    rw [require, run_path_bind h, FileM.run_asks_eq]
    rcases t.isFile (s.scriptPath n) with e | b
    · rfl
    · cases b <;> rfl
  rw [delete, FileM.run_bind, hrequire]
  rcases t.isFile (s.scriptPath n) with e | b
  · rfl
  · cases b <;> rfl

/-- What is written when a script is saved: its encoding, or nothing if it has none. -/
lemma run_save (h : isTemplateName n = true) (t : Tree) :
    (s.save n script).run t =
      match t.makeDirectory s.root with
      | .error e => (.error (.unexpected e), t)
      | .ok made =>
        match made.write (s.scriptPath n) (Call.written script), script.encode with
        | .error e, _ => (.error (.unexpected e), made)
        | .ok emptied, .error fault => (.error (.unexpected (.unencodable fault)), emptied)
        | .ok written, .ok _ =>
          (.ok (s.scriptPath n), written.makeExecutable (s.scriptPath n)) := by
  rw [save, run_path_bind h, FileM.run_bind, FileM.run_change_eq, parent_scriptPath]
  cases t.makeDirectory s.root with
  | error e => rfl
  | ok made =>
    simp only [FileM.run_bind, FileM.run_writeText_eq, Call.written]
    cases script.encode with
    | ok bytes =>
      dsimp only
      cases made.write (s.scriptPath n) bytes with
      | error e => rfl
      | ok written => rfl
    | error fault =>
      dsimp only
      cases made.write (s.scriptPath n) [] with
      | error e => rfl
      | ok emptied => rfl

/-- Saving makes the directory first, and then fails only for a name that no file can have, or for a
script without an encoding. -/
lemma outcome_save (hs : s.Sound t) (h : isTemplateName n = true) (script : Text.Points) :
    Outcome s t (.save n script) ((Call.save n script).perform s |>.run t).1
      ((Call.save n script).perform s |>.run t).2 := by
  rw [Call.perform, FileM.run_bind, run_save h]
  rcases t.makeDirectory_cases s.root with ⟨hmake, hmade⟩ | ⟨hmake, e, he⟩
  · obtain ⟨hs', hdir⟩ := hs.made hmake
    rw [hmade]
    by_cases hfits : Fits (n ++ scriptSuffix)
    · obtain ⟨executable, hwrite⟩ :=
        hs'.real.write (s.parts_scriptPath n) hdir (hs'.get?_ne_directory h) hfits
          (Call.written script)
      simp only [hwrite]
      cases hencode : script.encode with
      | ok bytes =>
        simp only [Tree.makeExecutable_set (p := s.scriptPath n) (by simp), Call.written, hencode]
        exact .saved ⟨h, hfits, hmake⟩ hencode
      | error fault =>
        simp only [Call.written, hencode]
        exact .emptied ⟨h, hfits, hmake⟩ hencode
    · obtain ⟨e, he⟩ :=
        hs'.real.write_of_not_fits (s.parts_scriptPath n) hdir hfits (Call.written script)
      simp only [he]
      exact .unfit h hmake hfits
  · rw [he]
    exact .unmade h hmake

/-- Every call has one of the outcomes. -/
lemma outcome_perform (hs : s.Sound t) (c : Call) :
    Outcome s t c ((c.perform s).run t).1 ((c.perform s).run t).2 := by
  by_cases hname : ∃ n, c.name? = some n ∧ isTemplateName n = false
  · obtain ⟨n, hn, hbad⟩ := hname
    have hrun : (c.perform s).run t = (.error (.known (.invalidTemplateName n)), t) := by
      cases c with
      | names => cases hn
      | pathFor m =>
        cases hn
        rw [Call.perform, run_path_bind_of_not_name hbad]
      | has m =>
        cases hn
        rw [Call.perform, FileM.run_bind, exists?, run_path_bind_of_not_name hbad]
      | save m script =>
        cases hn
        rw [Call.perform, FileM.run_bind, save, run_path_bind_of_not_name hbad]
      | delete m =>
        cases hn
        rw [Call.perform, FileM.run_bind, delete, FileM.run_bind, require,
          run_path_bind_of_not_name hbad]
    rw [hrun]
    exact .invalid hn hbad
  · have hgood {n : String} (hn : c.name? = some n) : isTemplateName n = true := by
      cases hbad : isTemplateName n with
      | true => rfl
      | false => exact absurd ⟨n, hn, hbad⟩ hname
    cases c with
    | names => exact .names
    | pathFor n =>
      rw [Call.perform, run_path_bind (hgood rfl)]
      exact .path (hgood rfl)
    | has n =>
      rw [Call.perform, FileM.run_bind, run_exists (hgood rfl)]
      rcases hs.real.isFile_cases (s.scriptPath n) with ⟨hlong, hfile⟩ | ⟨hlong, hfile⟩
      · rw [hfile]
        exact .overlong (.inl rfl) (hgood rfl) hlong
      · rw [hfile]
        exact .found (hgood rfl) hlong
    | save n script => exact outcome_save hs (hgood rfl) script
    | delete n =>
      rw [Call.perform, FileM.run_bind, run_delete (hgood rfl)]
      rcases hs.real.isFile_cases (s.scriptPath n) with ⟨hlong, hfile⟩ | ⟨hlong, hfile⟩
      · rw [hfile]
        exact .overlong (.inr rfl) (hgood rfl) hlong
      · cases hget : t.file? (s.scriptPath n).parts with
        | none =>
          rw [hfile, hget]
          exact .absent (hgood rfl) hlong hget
        | some f =>
          have hat := Tree.file?_eq_some.mp hget
          simp only [hfile, hget, Option.isSome_some, FileM.run_change_eq, hs.real.remove hat]
          exact .deleted (hgood rfl) hat

/-! ## What a call keeps -/

namespace Outcome

variable {c : Call} {r : Except Failure Reply}

/-- A call changes at most one script. The directory of the store may be made. -/
lemma get? (h : Outcome s t c r t')
    (hparts : ∀ n, c.target? r = some n → parts ≠ (s.scriptPath n).parts) :
    t'.get? parts = t.get? parts ∨
      t.get? parts = none ∧ t'.get? parts = some .directory ∧ parts <+: s.root.parts := by
  cases h with
  | saved | emptied =>
    rw [Tree.get?_set_of_ne (hparts _ rfl)]
    exact t.makeFrom_cases [] s.root.parts parts
  | unfit => exact t.makeFrom_cases [] s.root.parts parts
  | deleted => exact .inl (Tree.get?_erase_of_ne (hparts _ rfl) t)
  | _ => exact .inl rfl

/-- A call changes no file but the script of its target. -/
lemma file? (h : Outcome s t c r t')
    (hparts : ∀ n, c.target? r = some n → parts ≠ (s.scriptPath n).parts) :
    t'.file? parts = t.file? parts := by
  rcases h.get? hparts with hsame | ⟨hnone, hdir, -⟩
  · exact Tree.file?_congr hsame
  · simp [Tree.file?, hnone, hdir]

/-- Only the script of a template is changed. -/
lemma isTemplateName_of_target (h : Outcome s t c r t') {n : String} (hn : c.target? r = some n) :
    isTemplateName n = true := by
  cases h with
  | saved hsave | emptied hsave =>
    cases hn
    exact hsave.1
  | deleted hname =>
    cases hn
    exact hname
  | @unmade _ _ e hname | @unfit _ _ e hname =>
    cases e <;> cases hn
    exact hname
  | invalid | overlong => cases c <;> cases hn
  | _ => cases hn

/-- A store is what it should be after a call if it was so before. -/
lemma sound (h : Outcome s t c r t') (hs : s.Sound t) : s.Sound t' := by
  cases h with
  | @saved n _ _ hsave | @emptied n _ _ _ hsave =>
    obtain ⟨hname, hfits, hmake⟩ := hsave
    obtain ⟨hs', hdir⟩ := hs.made hmake
    refine ⟨hs'.real.set hdir hfits (hs'.get?_ne_directory hname) _,
      hs'.tidy.of_get? fun x e hget => ?_⟩
    by_cases hx : x = n ++ scriptSuffix
    · rw [hx, ← parts_scriptPath, Tree.get?_set_self (by simp)] at hget
      exact .inr ⟨n, _, hname, hx, (Option.some.inj hget).symm⟩
    · rw [Tree.get?_set_of_ne (by simpa using hx)] at hget
      exact .inl hget
  | unfit hname hmake => exact (hs.made hmake).1
  | @deleted n f hname hfile =>
    refine ⟨hs.real.erase hfile, hs.tidy.of_get? fun x e hget => .inl ?_⟩
    by_cases hx : s.root.parts ++ [x] = (s.scriptPath n).parts
    · rw [hx, Tree.get?_erase_self (by simp)] at hget
      cases hget
    · rwa [Tree.get?_erase_of_ne hx] at hget
  | _ => exact hs

/-- No call changes which names can be saved. -/
lemma savable_iff (h : Outcome s t c r t') : s.Savable t' n ↔ s.Savable t n := by
  refine and_congr Iff.rfl
    (and_congr Iff.rfl (and_congr Iff.rfl (forall₂_congr fun done hdone => ?_)))
  rw [h.file? fun m _ => ne_scriptPath_of_prefix ((List.mem_inits _ _).mp hdone) m]

end Outcome

/-- The catalogue after one script has changed. -/
lemma catalogue_eq_update (hname : isTemplateName n = true)
    (hother : ∀ m, m ≠ n → t'.file? (s.scriptPath m).parts = t.file? (s.scriptPath m).parts) :
    s.catalogue t' =
      Function.update (s.catalogue t) n ((t'.file? (s.scriptPath n).parts).map File.bytes) := by
  funext m
  by_cases hm : m = n
  · subst hm
    rw [Function.update_self, catalogue, if_pos hname]
  · rw [Function.update_of_ne hm, catalogue, catalogue, hother m hm]

/-- The catalogue after a script was put at its place. -/
lemma catalogue_set (hname : isTemplateName n = true) (f : File) :
    s.catalogue ((t.makeFrom [] s.root.parts).set (s.scriptPath n).parts (.file f)) =
      Function.update (s.catalogue t) n (some f.bytes) := by
  have hparts : (s.scriptPath n).parts ≠ [] := by simp
  rw [catalogue_eq_update (t := t) hname, Tree.file?_eq_some.mpr (Tree.get?_set_self hparts _ _),
    Option.map_some]
  intro m hm
  rw [Tree.file?_congr (Tree.get?_set_of_ne (by rwa [ne_eq, scriptPath_inj]) _ _), t.file?_makeFrom]

/-- What is no name is not in the catalogue. -/
lemma catalogue_of_not_name (h : isTemplateName n = false) : s.catalogue t n = none := by
  simp [catalogue, h]

/-- A name without a script is not in the catalogue. -/
lemma catalogue_of_file?_none (h : t.file? (s.scriptPath n).parts = none) :
    s.catalogue t n = none := by
  rw [catalogue, h]
  split <;> rfl

/-- No file has a name that is too long. -/
lemma file?_of_overlong (hreal : t.Real) (h : t.Overlong (s.scriptPath n)) :
    t.file? (s.scriptPath n).parts = none :=
  Option.eq_none_iff_forall_ne_some.mpr fun _ hf => hreal.not_overlong (Tree.file?_eq_some.mp hf) h

/-- A call changes the catalogue as it should. -/
lemma Outcome.catalogue {c : Call} {r : Except Failure Reply} (h : Outcome s t c r t')
    (hs : s.Sound t) :
    s.catalogue t' = c.applyTo (s.Savable t) (s.catalogue t) := by
  -- a name that is not there can be deleted from a map, which is still the same
  have hdelete {n : String} (hn : s.catalogue t n = none) :
      s.catalogue t = (Call.delete n).applyTo (s.Savable t) (s.catalogue t) :=
    (Function.update_eq_self_iff.mpr hn.symm).symm
  cases h with
  | @invalid _ n hn hbad =>
    cases c with
    | names => rfl
    | pathFor m => rfl
    | has m => rfl
    | save m script =>
      cases hn
      rw [Call.applyTo, if_neg fun hsave => by simp [hsave.1] at hbad]
    | delete m =>
      cases hn
      exact hdelete (catalogue_of_not_name hbad)
  | overlong hc hname hlong =>
    rcases hc with rfl | rfl
    · rfl
    · exact hdelete (catalogue_of_file?_none (file?_of_overlong hs.real hlong))
  | saved hsave hencode =>
    rw [Call.applyTo, if_pos hsave, catalogue_set hsave.1, Call.written, hencode]
  | emptied hsave hencode =>
    rw [Call.applyTo, if_pos hsave, catalogue_set hsave.1, Call.written, hencode]
  | unmade hname hmake => rw [Call.applyTo, if_neg fun hsave => hmake hsave.2.2]
  | unfit hname hmake hfits =>
    rw [Call.applyTo, if_neg fun hsave => hfits hsave.2.1]
    funext m
    simp only [Store.catalogue, t.file?_makeFrom]
  | @deleted n f hname hfile =>
    rw [Call.applyTo, catalogue_eq_update (t := t) hname, Tree.file?,
      Tree.get?_erase_self (by simp)]
    · rfl
    · intro m hm
      exact Tree.file?_congr (Tree.get?_erase_of_ne (by rwa [ne_eq, scriptPath_inj]) t)
  | absent hname hlong hfile => exact hdelete (catalogue_of_file?_none hfile)
  | _ => rfl

/-! ## Rows of calls -/

/-- Any row of calls leaves the store sound. -/
lemma Sound.runAll (h : s.Sound t) (calls : List Call) : s.Sound (s.runAll t calls) := by
  induction calls generalizing t with
  | nil => exact h
  | cons c calls ih => exact ih ((outcome_perform h c).sound h)

/-- Any row of calls leaves what can be saved. -/
lemma Sound.savable_runAll (h : s.Sound t) (calls : List Call) :
    s.Savable (s.runAll t calls) n ↔ s.Savable t n := by
  induction calls generalizing t with
  | nil => exact Iff.rfl
  | cons c calls ih =>
    have hc := outcome_perform h c
    exact (ih (hc.sound h)).trans hc.savable_iff

/-- The catalogue after a row of calls is the map with their saves and deletions. -/
lemma Sound.catalogue_runAll (h : s.Sound t) (calls : List Call) :
    s.catalogue (s.runAll t calls) = calls.foldl (Call.applyTo (s.Savable t)) (s.catalogue t) := by
  induction calls generalizing t with
  | nil => rfl
  | cons c calls ih =>
    have hc := outcome_perform h c
    have hsavable :
        Call.applyTo (s.Savable ((c.perform s).run t).2) = Call.applyTo (s.Savable t) := by
      funext m d
      cases d with
      | save n script => simp only [Call.applyTo, hc.savable_iff]
      | _ => rfl
    have := ih (hc.sound h)
    rwa [hsavable, hc.catalogue h] at this

/-- Any row of calls leaves the files that are no script of a template. -/
lemma Sound.file?_runAll (h : s.Sound t) (calls : List Call)
    (hparts : ∀ n, isTemplateName n = true → parts ≠ (s.scriptPath n).parts) :
    (s.runAll t calls).file? parts = t.file? parts := by
  induction calls generalizing t with
  | nil => rfl
  | cons c calls ih =>
    have hc := outcome_perform h c
    exact (ih (hc.sound h)).trans (hc.file? fun n hn => hparts n (hc.isTemplateName_of_target hn))

/-- What a call answers, given a map, the names that can be saved and those that are too long to be
looked up. -/
inductive Answers (s : Store) (savable overlong : String → Prop)
    (held : String → Option (List UInt8)) :
    Call → Except Failure Reply → Prop
  | invalid {c : Call} {n : String} : c.name? = some n → isTemplateName n = false →
    Answers s savable overlong held c (.error (.known (.invalidTemplateName n)))
  | path {n : String} : isTemplateName n = true →
    Answers s savable overlong held (.pathFor n) (.ok (.path (s.scriptPath n)))
  | found {n : String} : isTemplateName n = true → ¬ overlong n →
    Answers s savable overlong held (.has n) (.ok (.found (held n).isSome))
  | overlong {c : Call} {n : String} : c = .has n ∨
    c = .delete n → isTemplateName n = true → held n = none →
    overlong n →
      Answers s savable overlong held c
        (.error (.unexpected (.nameTooLong (s.scriptPath n).toString)))
  | names {ns : List String} : ns.Pairwise (· < ·) → (∀ n, n ∈ ns ↔ (held n).isSome = true) →
    Answers s savable overlong held .names (.ok (.names ns))
  | saved {n : String} {script : Text.Points} {bytes : List UInt8} : savable n →
    script.encode = .ok bytes →
    Answers s savable overlong held (.save n script) (.ok (.path (s.scriptPath n)))
  | emptied {n : String} {script : Text.Points} {fault : Text.EncodeError} : savable n →
    script.encode = .error fault →
    Answers s savable overlong held (.save n script) (.error (.unexpected (.unencodable fault)))
  | refused {n : String} {script : Text.Points} {e : Unexpected} : isTemplateName n = true →
    ¬ savable n →
    Answers s savable overlong held (.save n script) (.error (.unexpected e))
  | deleted {n : String} : (held n).isSome = true →
    Answers s savable overlong held (.delete n) (.ok .deleted)
  | absent {n : String} : isTemplateName n = true → ¬ overlong n → held n = none →
    Answers s savable overlong held (.delete n) (.error (.known (.templateNotFound n)))

/-- What a call gives is the answer of the catalogue. -/
lemma Outcome.answers {c : Call} {r : Except Failure Reply} (h : Outcome s t c r t')
    (hs : s.Sound t) :
    Answers s (s.Savable t) (fun n => t.Overlong (s.scriptPath n)) (s.catalogue t) c r := by
  have hheld {n : String} (hname : isTemplateName n = true) :
      (s.catalogue t n).isSome = (t.file? (s.scriptPath n).parts).isSome := by
    rw [Store.catalogue, if_pos hname, Option.isSome_map]
  cases h with
  | invalid hn hbad => exact .invalid hn hbad
  | path hname => exact .path hname
  | found hname hlong => exact hheld hname ▸ .found hname hlong
  | overlong hc hname hlong =>
    exact .overlong hc hname (catalogue_of_file?_none (file?_of_overlong hs.real hlong)) hlong
  | names => exact .names (s.pairwise_names t) fun n => mem_names hs.tidy
  | saved hsave hencode => exact .saved hsave hencode
  | emptied hsave hencode => exact .emptied hsave hencode
  | unmade hname hmake => exact .refused hname fun hsave => hmake hsave.2.2
  | unfit hname hmake hfits => exact .refused hname fun hsave => hfits hsave.2.1
  | deleted hname hfile => exact .deleted (by rw [hheld hname, Tree.file?_eq_some.mpr hfile]; rfl)
  | absent hname hlong hfile => exact .absent hname hlong (catalogue_of_file?_none hfile)

/-- A call that fails leaves everything as it is, except that it may have made the directory of the
store, and that a save of what has no encoding leaves an empty script. -/
lemma Outcome.of_error {c : Call} {e : Failure} (h : Outcome s t c (.error e) t') (hs : s.Sound t) :
    t' = t ∨
    (t.get? s.root.parts = none ∧ (∃ n script, c = .save n script) ∧
      t' = t.makeFrom [] s.root.parts) ∨
      ∃ n script fault, c = .save n script ∧ script.encode = .error fault ∧
        e = .unexpected (.unencodable fault) ∧ s.catalogue t' n = some [] := by
  cases h with
  | @unfit n script e hname hmake =>
    cases hget : t.get? s.root.parts with
    | none => exact .inr (.inl ⟨rfl, ⟨n, script, rfl⟩, rfl⟩)
    | some entry =>
      cases entry with
      | directory => exact .inl (Tree.makeFrom_of_directory hs.real.rooted hget)
      | file f =>
        have := hmake.2 s.root.parts ((List.mem_inits _ _).mpr (List.prefix_refl _))
        rw [Tree.file?_eq_some.mpr hget] at this
        cases this
  | @emptied n script fault executable hsave hencode =>
    refine .inr (.inr ⟨n, script, fault, rfl, hencode, rfl, ?_⟩)
    rw [catalogue_set hsave.1, Function.update_self]
  | _ => exact .inl rfl

/-- A store is a finite map, up to three things. After any row of calls it holds what the saves and
deletions among them make of what it held, the next call is answered from that, and it changes no
file but the script that it saves or deletes. But a name that is too long for a file cannot be
looked up or deleted like another absent one; a save that fails may leave a new directory; and a
save of what has no encoding fails with an empty script in place of the old one. -/
theorem refines_map (s : Store) {t : Tree} (hreal : t.Real) (htidy : s.Tidy t) :
    (∀ n m p, s.pathFor n = .ok p → s.pathFor m = .ok p → n = m) ∧
    ∀ calls : List Call,
      let now := s.runAll t calls
      let held := calls.foldl (Call.applyTo (s.Savable t)) (s.catalogue t)
      s.catalogue now = held ∧
      (∀ parts, (∀ n, isTemplateName n = true → parts ≠ (s.scriptPath n).parts) →
        now.file? parts = t.file? parts) ∧
      (∀ x ∈ ["config.yaml", "readme.md"],
        now.file? (s.root.parts ++ [x]) = t.file? (s.root.parts ++ [x])) ∧
      ∀ call : Call,
        let r := ((call.perform s).run now).1
        let next := ((call.perform s).run now).2
        Answers s (s.Savable t) (fun n => now.Overlong (s.scriptPath n)) held call r ∧
        (∀ parts, (∀ n, call.target? r = some n → parts ≠ (s.scriptPath n).parts) →
          next.get? parts = now.get? parts ∨
            now.get? parts = none ∧ next.get? parts = some .directory ∧ parts <+: s.root.parts) ∧
        ∀ e, r = .error e → next = now ∨
          (now.get? s.root.parts = none ∧ (∃ n script, call = .save n script) ∧
            next = now.makeFrom [] s.root.parts) ∨
          ∃ n script fault, call = .save n script ∧ script.encode = .error fault ∧
            e = .unexpected (.unencodable fault) ∧ s.catalogue next n = some [] := by
  have hs : s.Sound t := ⟨hreal, htidy⟩
  refine ⟨fun n m p hn hm => ?_, fun calls => ?_⟩
  · have hpath := congrArg Path.parts ((pathFor_eq_ok hn).symm.trans (pathFor_eq_ok hm))
    exact scriptPath_inj.mp hpath
  intro now held
  have hnow : s.Sound now := hs.runAll calls
  have hheld : s.catalogue now = held := hs.catalogue_runAll calls
  have hsavable : s.Savable now = s.Savable t := funext fun n => propext (hs.savable_runAll calls)
  refine ⟨hheld, fun parts hparts => hs.file?_runAll calls hparts, fun x hx => ?_, fun call => ?_⟩
  · refine hs.file?_runAll calls fun n _ heq => ?_
    obtain rfl : x = n ++ scriptSuffix := by simpa using heq
    have hends : Text.endsWith (n ++ scriptSuffix) scriptSuffix = true := by
      rw [Text.endsWith_iff, String.toList_append]
      exact List.suffix_append _ _
    have hnot : ∀ y ∈ ["config.yaml", "readme.md"], Text.endsWith y scriptSuffix = false :=
      by decide
    rw [hnot _ hx] at hends
    cases hends
  · have hcall := outcome_perform hnow call
    refine ⟨?_, fun parts hparts => hcall.get? hparts, fun e he => ?_⟩
    · rw [← hheld, ← hsavable]
      exact hcall.answers hnow
    · rw [he] at hcall
      exact hcall.of_error hnow

/-- Names with dots and a template that was there before. The settings beside them stay, and so does
a script whose name only looks alike. -/
theorem refines_map_of_dots :
    let t : Tree :=
      { entries := [([".moho"], .directory), ([".moho", "a.mh"], .file { bytes := [97] }),
          ([".moho", "config.yaml"], .file { bytes := [98] }), ([".moho", "old"], .directory)]
        nodup := by decide }
    let calls : List Call :=
      [.save "a.mh" "x", .save "a." "y", .delete "a", .save "a/b" "z", .save "a." "w", .delete "c"]
    let now := Project.store.runAll t calls
    t.Real ∧ Project.store.Tidy t ∧
      Project.store.catalogue now "a" = none ∧
      Project.store.catalogue now "a.mh" = some (Text.encode "x") ∧
      Project.store.catalogue now "a." = some (Text.encode "w") ∧
      now.file? [".moho", "config.yaml"] = some { bytes := [98] } := by
  intro t calls now
  have hreal : t.Real := by decide +kernel
  have htidy : Project.store.Tidy t := by decide +kernel
  obtain ⟨hheld, -, hkept, -⟩ := (refines_map Project.store hreal htidy).2 calls
  have hconfig := hkept "config.yaml" (by simp)
  simp only [now, hheld]
  exact ⟨hreal, htidy, by decide +kernel, by decide +kernel, by decide +kernel, hconfig⟩

/-- A name that is too long for a file is not there, but a deletion does not say so. A save that
fails may have made the directory, or emptied the script that was there. -/
theorem delete_overlong_differs :
    let t : Tree :=
      { entries := [([".moho"], .directory), ([".moho", "b.mh"], .file { bytes := [98] })] }
    let long := String.ofList (List.replicate 300 'a')
    t.Real ∧ Project.store.Tidy t ∧ isTemplateName long = true ∧
    Project.store.catalogue t long = none ∧
      (((Call.delete long).perform Project.store).run t).1 ≠ .error
        (.known (.templateNotFound long)) ∧
      (((Call.save "\x00" "").perform Project.store).run {}).1 = .error (.unexpected .zeroInPath) ∧
      (((Call.save "\x00" "").perform Project.store).run {}).2 ≠ {} ∧
      (((Call.save "b" [.half 0]).perform Project.store).run t).1 =
        .error (.unexpected (.unencodable { position := 0, half := 0, length := 1 })) ∧
      Project.store.catalogue (((Call.save "b" [.half 0]).perform Project.store).run t).2 "b" =
        some [] := by
  intro t long
  have hreal : t.Real := by decide +kernel
  have htidy : Project.store.Tidy t := by decide +kernel
  obtain ⟨hlength, hall⟩ : 255 < long.toList.length ∧ ∀ c ∈ long.toList, c = 'a' := by
    rw [String.toList_ofList, List.length_replicate]
    exact ⟨by decide, fun c hc => List.eq_of_mem_replicate hc⟩
  clear_value long
  have hname : isTemplateName long = true := by
    refine isTemplateName_iff.mpr
      ⟨?_, fun hmem => absurd (hall _ hmem) (by decide), fun hhead => ?_⟩
    · rintro rfl
      cases hlength
    · exact absurd (hall _ (List.mem_of_mem_head? hhead)) (by decide)
  have hparts : (Project.store.scriptPath long).parts = [".moho"] ++ [long ++ scriptSuffix] :=
    parts_scriptPath Project.store long
  -- the name alone has more bytes than a component can have
  have hlong : t.Overlong (Project.store.scriptPath long) := by
    refine ⟨Tree.hasZero_eq_false.mpr ?_, [".moho"], long ++ scriptSuffix, [], hparts, rfl, ?_⟩
    · have hzero : '\x00' ∉ long.toList := fun hmem => absurd (hall _ hmem) (by decide)
      rw [hparts]
      simp [hzero, scriptSuffix]
    · have hbytes := Text.length_le_length_encodeChars (long ++ scriptSuffix).toList
      rw [String.toList_append, List.length_append] at hbytes
      rw [Text.encode, String.toList_append]
      exact Nat.lt_of_lt_of_le (Nat.lt_add_right _ hlength) hbytes
  refine ⟨hreal, htidy, hname, catalogue_of_file?_none (file?_of_overlong hreal hlong),
    fun hdelete => ?_, by decide +kernel, by decide +kernel,
    by decide +kernel, by decide +kernel⟩
  have houtcome := outcome_perform ⟨hreal, htidy⟩ (.delete long)
  rw [hdelete] at houtcome
  generalize (((Call.delete long).perform Project.store).run t).2 = t' at houtcome
  cases houtcome with
  | absent _ hnot => exact hnot hlong

end Store

end Stencil
