import Stencil.CommandLine
import Stencil.Proofs.Catalogue
import Stencil.Proofs.Edit
import Stencil.Proofs.Faults

/-!
# Commands that fail

The commands that make and edit a template write last. Every step before the save only looks at the
files (`Prepares`), apart from the runs of the stored script, and every failure ends the program
with a status other than zero (`Counts`). What can fail from then on is the save and the message
after it (`Command.Left`). So a command that fails leaves all files as they were, unless a script
without an encoding was to be saved or a name is read as faulty markup, and one that succeeds has
written the script of its template and no other file (`Command.perform_saves_last`).
-/

namespace Stencil

open Files

/-! ## Failures that count -/

/-- The status with which a failure ends the program. -/
def Failure.exitStatus (e : Failure) : Int :=
  match e.handle.2 with
  | .abort => 1
  | .exit status => status

/-- The status at the end is that of the failure. -/
lemma CommandLine.status_finish (s : Session) (e : Failure) :
    (finish s e).status = e.exitStatus := by
  cases e <;> rfl

/-- Reporting a failure changes no file. -/
lemma CommandLine.tree_finish (s : Session) (e : Failure) : (finish s e).session.tree = s.tree := by
  cases e <;> rfl

section

variable {σ α β : Type} {x : ExceptT Failure (StateM σ) α} {f : α → ExceptT Failure (StateM σ) β}

/-- A step ends where its first part fails, or goes on where that succeeds. -/
lemma run_bind_cases {s s'' : σ} {r : Except Failure β} (h : (x >>= f).run s = (r, s'')) :
    (∃ e, x.run s = (.error e, s'') ∧ r = .error e) ∨
    ∃ a s', x.run s = (.ok a, s') ∧ (f a).run s' = (r, s'') := by
  change ExceptT.bindCont f (x.run s).1 (x.run s).2 = _ at h
  rcases hx : x.run s with ⟨e | a, s'⟩
  · rw [hx] at h
    cases h
    exact .inl ⟨e, rfl, rfl⟩
  · rw [hx] at h
    exact .inr ⟨a, s', rfl, h⟩

/-- Whenever the step fails, the program ends with a status other than zero. -/
def Counts (x : ExceptT Failure (StateM σ) α) : Prop :=
  ∀ s e s', x.run s = (.error e, s') → e.exitStatus ≠ 0

namespace Counts

/-- A step that only gives a value cannot fail. -/
lemma pure (a : α) : Counts (Pure.pure a : ExceptT Failure (StateM σ) α) := by
  intro s e s' h
  cases h

/-- A failure counts if its status is not zero. -/
lemma throw {e : Failure} (he : e.exitStatus ≠ 0) :
    Counts (MonadExcept.throw e : ExceptT Failure (StateM σ) α) := by
  intro s e' s' h
  cases h
  exact he

/-- Looking at the state cannot fail. -/
lemma get : Counts (MonadState.get : ExceptT Failure (StateM σ) σ) := by
  intro s e s' h
  cases h

/-- Setting the state cannot fail. -/
lemma set (s₀ : σ) : Counts (MonadStateOf.set s₀ : ExceptT Failure (StateM σ) PUnit) := by
  intro s e s' h
  cases h

/-- Changing the state cannot fail. -/
lemma modify (g : σ → σ) : Counts (modify g : ExceptT Failure (StateM σ) PUnit) := by
  intro s e s' h
  cases h

/-- What counts in two steps counts in the one after the other. -/
lemma bind (hx : Counts x) (hf : ∀ a, Counts (f a)) : Counts (x >>= f) := by
  intro s e s'' h
  rcases run_bind_cases h with ⟨e', hrun, he⟩ | ⟨a, s', -, hrun⟩
  · cases he
    exact hx s e s'' hrun
  · exact hf a s' e s'' hrun

/-- A failure of the file system counts. -/
lemma liftFile (r : Except Unexpected α) : Counts (FileM.liftFile r) := by
  cases r with
  | ok a => exact pure a
  | error e => exact throw Int.one_ne_zero

/-- A change of the files fails only with what the file system reports. -/
lemma change (g : Tree → Except Unexpected Tree) : Counts (FileM.change g) :=
  bind get fun _ => bind (liftFile _) fun t => set t

/-- Writing a text fails only with what counts. -/
lemma writeText (p : Path) (text : Text.Points) : Counts (FileM.writeText p text) := by
  unfold FileM.writeText
  split
  · exact change _
  · exact bind (change _) fun _ => throw Int.one_ne_zero

end Counts

end

/-- A source that is no template ends the program with a status other than zero. -/
lemma Template.exitStatus_parse {source : String} {e : ParseError} (h : parse source = .error e) :
    (Failure.known (.parse e)).exitStatus ≠ 0 := by
  rcases Source.parse_eq_error h with ⟨inside, -, hfault⟩ | ⟨n, by', rfl⟩
  · cases hfault with
    | nested => exact Int.one_ne_zero
    | unfinished => exact Int.one_ne_zero
    | invalid => exact Int.one_ne_zero
  · exact Int.one_ne_zero

/-- Settings that cannot be read end the program with an error. -/
lemma Settings.exitStatus_ofBytes {path : String} {bs : List UInt8} {e : Failure}
    (h : ofBytes path bs = .error e) :
    e.exitStatus ≠ 0 := by
  unfold ofBytes at h
  split at h
  · cases h
    exact Int.one_ne_zero
  unfold ofText at h
  split at h
  · unfold ofValue at h
    split at h
    · cases h
    split at h
    · split at h
      · cases h
        exact Int.one_ne_zero
      split at h
      · cases h
      · cases h
        exact Int.one_ne_zero
    · cases h
      exact Int.one_ne_zero
  · cases h
    exact Int.one_ne_zero
  · cases h
    exact Int.one_ne_zero

/-- Reading the settings of a project fails only with what counts. -/
lemma Project.counts_settings : Counts settings := by
  refine .bind .get fun _ => .bind (.liftFile _) fun found => ?_
  split
  · refine .bind .get fun _ => .bind (.liftFile _) fun bytes => ?_
    split
    · exact .pure _
    · rename_i he
      exact .throw (Settings.exitStatus_ofBytes he)
  · exact .pure _

/-- Reading a source file fails only with what counts. -/
lemma Command.counts_readSource (file : String) : Counts (readSource file) := by
  refine .bind .get fun _ => .bind (.liftFile _) fun bytes => ?_
  split
  · exact .pure _
  · exact .throw Int.one_ne_zero

namespace Store

variable (s : Store) (n : String)

/-- Checking the name of a template fails only with what counts. -/
lemma counts_requirePath : Counts (s.requirePath n) := by
  unfold requirePath
  split
  · exact .pure _
  · rename_i e he
    unfold pathFor at he
    split at he
    · cases he
    · cases he
      exact .throw Int.one_ne_zero

/-- Looking up a template fails only with what counts. -/
lemma counts_require : Counts (s.require n) := by
  refine .bind (s.counts_requirePath n) fun p => .bind .get fun _ =>
    .bind (.liftFile _) fun found => ?_
  split
  · exact .pure _
  · exact .throw Int.one_ne_zero

/-- Looking up a template only looks at the files. -/
lemma looks_require : FileM.Looks (s.require n) := by
  refine .bind (s.looks_requirePath n) fun p => .bind .get fun _ =>
    .bind (.liftFile _) fun found => ?_
  split
  · exact .pure _
  · exact .throw _

/-- A save fails only with what counts. -/
lemma counts_save (script : Text.Points) : Counts (s.save n script) :=
  .bind (s.counts_requirePath n) fun _ => .bind (.change _) fun _ => .bind (.writeText _ _) fun _ =>
    .bind (.modify _) fun _ => .pure _

/-- A deletion fails only with what counts. -/
lemma counts_delete : Counts (s.delete n) :=
  .bind (s.counts_require n) fun _ => .change _

/-- Asking a script for what it says about itself fails only with what counts. -/
lemma counts_describe (request : String) : Counts (s.describe n request) := by
  refine .bind (s.counts_require n) fun p => .bind .get fun _ =>
    .bind (.liftFile _) fun script => ?_
  refine .bind .get fun _ => .bind (.set _) fun _ => ?_
  split
  · exact .throw Int.one_ne_zero
  · exact .throw Int.one_ne_zero
  · split
    · exact .pure _
    · exact .throw Int.one_ne_zero

end Store

/-! ## Steps before the save -/

/-- The step leaves the files as they are and reads on in the input, and a failure of it counts. -/
structure Prepares {α : Type} (act : CommandM α) : Prop where
  counts : Counts act
  step : ∀ {s r s'}, act.run s = (r, s') → s'.tree = s.tree ∧ s'.terminal.input <:+ s.terminal.input

namespace Prepares

open Session

variable {α β : Type} {act : CommandM α} {f : α → CommandM β}

/-- Giving a value prepares. -/
lemma pure (a : α) : Prepares (Pure.pure a : CommandM α) := by
  refine ⟨.pure a, ?_⟩
  intro s r s' h
  cases h
  exact ⟨rfl, List.suffix_rfl⟩

/-- A failure that counts may stand before the save. -/
lemma throw {e : Failure} (he : e.exitStatus ≠ 0) :
    Prepares (MonadExcept.throw e : CommandM α) := by
  refine ⟨.throw he, ?_⟩
  intro s r s' h
  cases h
  exact ⟨rfl, List.suffix_rfl⟩

/-- Looking at the session prepares. -/
lemma get : Prepares (MonadState.get : CommandM Session) := by
  refine ⟨.get, ?_⟩
  intro s r s' h
  cases h
  exact ⟨rfl, List.suffix_rfl⟩

/-- Two steps that prepare do so one after the other. -/
lemma bind (h : Prepares act) (hf : ∀ a, Prepares (f a)) : Prepares (act >>= f) := by
  refine ⟨h.counts.bind fun a => (hf a).counts, ?_⟩
  intro s r s'' hrun
  rcases run_bind_cases hrun with ⟨e, hact, -⟩ | ⟨a, s', hact, hrest⟩
  · exact h.step hact
  · obtain ⟨htree, hinput⟩ := h.step hact
    obtain ⟨htree', hinput'⟩ := (hf a).step hrest
    exact ⟨htree'.trans htree, hinput'.trans hinput⟩

/-- A step that prepares does so if its value is dropped. -/
lemma discard (h : Prepares act) : Prepares (discard act) := by
  rw [discard_eq_bind]
  exact h.bind fun _ => pure _

/-- Steps for the items of a list prepare if each of them does. -/
lemma mapM {g : α → CommandM β} (hg : ∀ a, Prepares (g a)) (as : List α) :
    Prepares (as.mapM g) := by
  induction as with
  | nil => exact pure []
  | cons a as ih =>
    rw [List.mapM_cons]
    exact (hg a).bind fun _ => ih.bind fun _ => pure _

/-- A step on the files prepares if it only looks at them. -/
lemma onFiles {file : FileM α} (hcounts : Counts file) (hlooks : file.Looks) :
    Prepares (onFiles file) := by
  refine ⟨?_, ?_⟩
  · intro s e s' h
    obtain ⟨hr, -⟩ := Prod.mk.inj h
    exact hcounts s.tree e (file.run s.tree).2 (Prod.ext hr rfl)
  · intro s r s' h
    cases h
    exact ⟨hlooks s.tree, List.suffix_rfl⟩

/-- Printing an error changes no file. -/
lemma printError (text : String) : Prepares (printError text) := by
  refine ⟨.modify _, ?_⟩
  intro s r s' h
  cases h
  exact ⟨rfl, List.suffix_rfl⟩

/-- Asking a question changes no file. -/
lemma ask (q : Question) : Prepares (ask q) := by
  refine ⟨?_, ?_⟩
  · intro s e s' h
    change Session.ask q s = _ at h
    unfold Session.ask at h
    rcases hanswer : Terminal.ask q s.terminal with ⟨_ | a, terminal⟩
    · rw [hanswer] at h
      cases h
      exact Int.one_ne_zero
    · rw [hanswer] at h
      cases h
  · intro s r s' h
    cases h
    refine ⟨rfl, ?_⟩
    show (Terminal.ask q s.terminal).2.input <:+ s.terminal.input
    unfold Terminal.ask Terminal.readAfter
    cases hinput : s.terminal.input with
    | nil => simp [Terminal.print, hinput]
    | cons line rest => simp [Terminal.print, hinput]

end Prepares

/-- Asking for a yes or a no reads on in the input. -/
lemma Terminal.input_confirmFrom (text output : String) (lines : List String) :
    (confirmFrom text output lines).2.input <:+ lines := by
  induction lines generalizing output with
  | nil => exact List.suffix_rfl
  | cons line rest ih =>
    unfold confirmFrom
    split
    · exact List.suffix_cons _ _
    · exact (ih _).trans (List.suffix_cons _ _)

namespace Session

/-- Asking for a yes changes no file. -/
lemma prepares_confirm (question : String) : Prepares (confirm question) := by
  refine ⟨?_, ?_⟩
  · intro s e s' h
    change confirm question s = _ at h
    unfold confirm at h
    rcases hanswer : Terminal.confirm question s.terminal with ⟨_ | a, terminal⟩
    · rw [hanswer] at h
      cases h
      exact Int.one_ne_zero
    · rw [hanswer] at h
      cases h
  · intro s r s' h
    cases h
    exact ⟨rfl, Terminal.input_confirmFrom _ _ _⟩

/-- Opening the editor once changes no file of the project. -/
lemma prepares_edit (command : Option String) (seed : String) : Prepares (edit command seed) := by
  refine ⟨?_, ?_⟩
  · intro s e s' h
    rw [run_edit] at h
    cases hhead : s.edits.head?.join with
    | none =>
      rw [hhead] at h
      cases h
      exact Int.one_ne_zero
    | some text =>
      rw [hhead] at h
      cases h
  · intro s r s' h
    rw [run_edit, after_opening] at h
    cases h
    exact ⟨rfl, List.suffix_rfl⟩

/-- However often the editor is opened, nothing is written. -/
lemma prepares_editFrom (command : Option String) (retry : Bool) (fuel : Nat) (seed : String) :
    Prepares (editFrom command retry fuel seed) := by
  induction fuel generalizing seed with
  | zero => exact .throw Int.one_ne_zero
  | succ fuel ih =>
    refine (prepares_edit command seed).bind fun text => ?_
    cases hparse : Template.parse text with
    | ok t => exact .pure t
    | error e =>
      have he := Template.exitStatus_parse hparse
      have hagain : Prepares (do
          printError (Error.parse e).report
          if ← confirm retryQuestion then editFrom command retry fuel text
          else throw (.known (.parse e))) := by
        refine .bind (.printError _) fun _ => .bind (prepares_confirm _) fun again => ?_
        cases again with
        | false => exact .throw he
        | true => exact ih text
      cases retry with
      | false => exact .bind (.throw he) fun _ => hagain
      | true => exact hagain

/-- Opening the editor until its text is a template changes no file of the project. -/
lemma prepares_editUntilValid (command : Option String) (retry : Bool) (seed : String) :
    Prepares (editUntilValid command retry seed) :=
  .bind .get fun _ => prepares_editFrom _ _ _ _

end Session

/-- Asking for the default path changes no file. -/
lemma prepares_askPath (previous : Option String) : Prepares (askPath Session.ask previous) :=
  .bind (.ask _) fun _ => .pure _

/-- Asking about the variables of a template changes no file. -/
lemma Template.prepares_collect (t : Template) (previous : Metadata) :
    Prepares (t.collect Session.ask previous) := by
  refine .bind (.mapM (fun v => ?_) _) fun _ => .pure _
  unfold Variable.collect
  split
  · exact .pure v
  · exact .bind (.ask _) fun _ => .bind (.ask _) fun _ => .pure _

/-! ## The save -/

/-- The trees agree but at some places. The directory of the project may have been made. -/
def Project.SameOff (places : List (List String)) (t t' : Tree) : Prop :=
  ∀ parts ∉ places, t'.file? parts = t.file? parts ∧
    (parts ≠ directory.parts → t'.get? parts = t.get? parts)

namespace Project.SameOff

/-- Files are the same as themselves. -/
lemma refl (places : List (List String)) (t : Tree) : SameOff places t t :=
  fun _ _ => ⟨rfl, fun _ => rfl⟩

/-- Making the directory of the project changes none of the files. -/
lemma makeFrom (places : List (List String)) (t : Tree) :
    SameOff places t (t.makeFrom [] directory.parts) := by
  refine fun parts _ => ⟨t.file?_makeFrom _ _ _, fun hparts => ?_⟩
  rcases t.makeFrom_cases [] directory.parts parts with h | ⟨hnone, -, hprefix⟩
  · exact h
  · -- the only entries on the way to the directory are the root, which is always there, and the
    -- directory itself
    rcases List.prefix_concat_iff.mp (show parts <+: [] ++ [".moho"] from hprefix) with heq | hnil
    · exact absurd heq hparts
    · rw [List.prefix_nil.mp hnil] at hnone
      cases hnone

/-- Setting an entry changes the files at its place only. -/
lemma set {t t' : Tree} (h : SameOff [] t t') (place : List String) (e : Entry) :
    SameOff [place] t (t'.set place e) := by
  intro parts hparts
  have hget := Tree.get?_set_of_ne (List.ne_of_not_mem_cons hparts) t' e
  obtain ⟨hfile, hentry⟩ := h parts (List.not_mem_nil)
  exact ⟨(Tree.file?_congr hget).trans hfile, fun hne => hget.trans (hentry hne)⟩

end Project.SameOff

/-- A step that replaces the files and only looks from there on leaves what it put in their
place. -/
lemma FileM.run_replace {α : Type} {g : Tree → Tree} {f : Tree → FileM α} {t t' : Tree}
    {r : Except Failure α} (hf : ∀ tree, Looks (f tree))
    (h : (get >>= fun tree => set (g tree) >>= fun _ => f tree).run t = (r, t')) :
    t' = g t := by
  have hlooks := hf t (g t)
  change (f t).run (g t) = _ at h
  rwa [h] at hlooks

namespace Store

variable {s : Store} {n : String} {script : Text.Points} {t t' : Tree}

/-- A save that fails has made the directory at most, unless the script has no encoding and the file
was emptied. -/
lemma save_eq_error {e : Failure} (h : (s.save n script).run t = (.error e, t')) :
    t' = t ∨ t' = t.makeFrom [] s.root.parts ∨ ∃ fault executable, script.encode = .error fault ∧
      e = .unexpected (.unencodable fault) ∧
      t' = (t.makeFrom [] s.root.parts).set (s.scriptPath n).parts
        (.file { bytes := [], executable }) := by
  cases hname : isTemplateName n with
  | false =>
    rw [save, run_path_bind_of_not_name hname] at h
    cases h
    exact .inl rfl
  | true =>
    rw [run_save hname] at h
    cases hmade : t.makeDirectory s.root with
    | error e' =>
      rw [hmade] at h
      cases h
      exact .inl rfl
    | ok made =>
      simp only [hmade] at h
      split at h
      · cases h
        exact .inr (.inl (Tree.makeDirectory_eq_ok hmade))
      · rename_i fault hwrite hencode
        cases h
        obtain ⟨-, -, executable, rfl⟩ := Tree.write_eq_ok hwrite
        refine .inr (.inr ⟨fault, executable, hencode, rfl, ?_⟩)
        rw [Call.written, hencode, Tree.makeDirectory_eq_ok hmade]
      · cases h

/-- A save that succeeds has put the script at its path. -/
lemma tree_save {p : Path} (h : (s.save n script).run t = (.ok p, t')) :
    p = s.scriptPath n ∧ ∃ bytes, script.encode = .ok bytes ∧
      t' = (t.makeFrom [] s.root.parts).set (s.scriptPath n).parts
        (.file { bytes, executable := true }) := by
  obtain ⟨hpath, bytes, made, written, hbytes, hmade, hwritten, rfl⟩ := save_eq_ok h
  obtain rfl : p = s.scriptPath n := pathFor_eq_ok hpath
  obtain ⟨-, -, executable, rfl⟩ := Tree.write_eq_ok hwritten
  refine ⟨rfl, bytes, hbytes, ?_⟩
  rw [Tree.makeExecutable_set (by simp), Tree.makeDirectory_eq_ok hmade, parent_scriptPath]

/-- A script that must be there is found at its path. -/
lemma require_eq_ok {p : Path} (h : (s.require n).run t = (.ok p, t')) :
    p = s.scriptPath n ∧ t' = t := by
  have htree := s.looks_require n t
  rw [h] at htree
  refine ⟨?_, htree⟩
  cases hname : isTemplateName n with
  | false =>
    rw [require, run_path_bind_of_not_name hname] at h
    cases h
  | true =>
    rw [require, run_path_bind hname] at h
    obtain ⟨found, -, hfound⟩ := FileM.run_asks.mp h
    cases found with
    | false => cases hfound
    | true =>
      cases hfound
      rfl

/-- The files after the script of a template was run with a request, if it can be read. -/
def afterRun (s : Store) (n : String) (t : Tree) (request : String) : Tree :=
  match t.read (s.scriptPath n) with
  | .ok script => (Shell.runScript t (s.scriptPath n).toString script [request]).tree
  | .error _ => t

/-- A template is described by a run of its script. Without the run there is a failure. -/
lemma describe_cases {request : String} {r : Except Failure String}
    (h : (s.describe n request).run t = (r, t')) :
    (t' = t ∧ ∃ e, r = .error e) ∨ t' = s.afterRun n t request := by
  rcases run_bind_cases h with ⟨e, hrequire, rfl⟩ | ⟨p, t₁, hrequire, hrest⟩
  · have htree := s.looks_require n t
    rw [hrequire] at htree
    exact .inl ⟨htree, e, rfl⟩
  · obtain ⟨rfl, rfl⟩ := require_eq_ok hrequire
    rw [FileM.run_asks_eq] at hrest
    cases hread : t₁.read (s.scriptPath n) with
    | error e =>
      rw [hread] at hrest
      cases hrest
      exact .inl ⟨rfl, _, rfl⟩
    | ok bytes =>
      -- whatever the script prints, what it did to the files stays
      rw [hread] at hrest
      have hafter (run : List UInt8 → Tree) : (match t₁.read (s.scriptPath n) with
          | .ok script => run script
          | .error _ => t₁) = run bytes := by
        rw [hread]
      refine .inr (Eq.trans (FileM.run_replace (fun tree => ?_) hrest)
        (hafter fun script =>
          (Shell.runScript t₁ (s.scriptPath n).toString script [request]).tree).symm)
      split
      · exact .throw _
      · exact .throw _
      · split
        · exact .pure _
        · exact .throw _

/-- What only looks at a description adds nothing to the run. -/
lemma describe_bind_cases {α : Type} {request : String} {f : String → FileM α}
    (hf : ∀ a, FileM.Looks (f a)) {r : Except Failure α}
    (h : (s.describe n request >>= f).run t = (r, t')) :
    (t' = t ∧ ∃ e, r = .error e) ∨ t' = s.afterRun n t request := by
  rcases run_bind_cases h with ⟨e, hdescribe, rfl⟩ | ⟨out, t₁, hdescribe, hrest⟩
  · rcases describe_cases hdescribe with ⟨htree, -⟩ | htree
    · exact .inl ⟨htree, e, rfl⟩
    · exact .inr htree
  · have hlooks := hf out t₁
    rw [hrest] at hlooks
    rcases describe_cases hdescribe with ⟨-, e, he⟩ | htree
    · cases he
    · exact .inr (hlooks.trans htree)

/-- Reading a stored template fails only with what counts. -/
lemma counts_readTemplate : Counts (s.readTemplate n) :=
  .bind (s.counts_describe n _) fun _ => .pure _

/-- Reading what is stored about the variables fails only with what counts. -/
lemma counts_readMetadata : Counts (s.readMetadata n) := by
  refine .bind (s.counts_describe n _) fun out => ?_
  split
  · exact .pure _
  · exact .throw Int.one_ne_zero

/-- Reading a stored template either fails before its script is run, or leaves what the run
leaves. -/
lemma readTemplate_cases {r : Except Failure String} (h : (s.readTemplate n).run t = (r, t')) :
    (t' = t ∧ ∃ e, r = .error e) ∨ t' = s.afterRun n t "get-template" :=
  describe_bind_cases (fun _ => .pure _) h

/-- Reading the stored variables either fails before the script is run, or leaves what the run
leaves. -/
lemma readMetadata_cases {r : Except Failure Metadata} (h : (s.readMetadata n).run t = (r, t')) :
    (t' = t ∧ ∃ e, r = .error e) ∨ t' = s.afterRun n t "get-vars" := by
  refine describe_bind_cases (fun out => ?_) h
  split
  · exact .pure _
  · exact .throw _

/-- A deletion that fails leaves the files as they are. -/
lemma delete_eq_error {e : Failure} (h : (s.delete n).run t = (.error e, t')) : t' = t := by
  rcases run_bind_cases h with ⟨_, hrequire, -⟩ | ⟨p, t₁, hrequire, hchange⟩
  · have htree := s.looks_require n t
    rwa [hrequire] at htree
  · have htree := s.looks_require n t
    rw [hrequire] at htree
    rw [FileM.run_change_eq] at hchange
    split at hchange
    · cases hchange
    · cases hchange
      exact htree

/-- A deletion that succeeds takes the script away. -/
lemma delete_eq_ok (h : (s.delete n).run t = (.ok (), t')) :
    t' = t.erase (s.scriptPath n).parts := by
  obtain ⟨p, t₁, hrequire, hchange⟩ := run_bind_eq_ok.mp h
  obtain ⟨rfl, rfl⟩ := require_eq_ok hrequire
  have hremove := FileM.run_change.mp hchange
  unfold Tree.remove at hremove
  split at hremove
  · cases hremove
  split at hremove
  · cases hremove
  split at hremove
  · exact (Except.ok.inj hremove).symm
  · cases hremove
  · cases hremove

end Store

/-! ## What was typed -/

/-- The value that a typed line stands for where a value is on offer. -/
def lineValue (offered : Option String) (line : String) : Option String :=
  answerValue (Text.trim (if line.isEmpty then offered.getD "" else line))

/-- The variables after lines were typed for their defaults and descriptions. The name is not asked
for. -/
inductive Variable.Collected (previous : Metadata) :
    List Variable → List String → List Variable → Prop
  | nil : Collected previous [] [] []
  | name {v : Variable} {vs vs' : List Variable} {lines : List String} : v.name = nameVariable →
    Collected previous vs lines vs' → Collected previous (v :: vs) lines (v :: vs')
  | asked {v : Variable} {vs vs' : List Variable} {lines : List String}
    (d e : String) : v.name ≠ nameVariable →
    Collected previous vs lines vs' → Collected previous (v :: vs) (d :: e :: lines)
      ({ v with
        default := (lineValue (previous.defaults.lookup v.name) d).map Escape.escape
        description :=
          (lineValue (previous.descriptions.lookup v.name) e).map Escape.escape } :: vs')

section

open Session

variable {s s' : Session} {previous : Metadata}

/-- An answer is what the next line stands for. -/
lemma Session.exists_line {q : Question} {answer : String} (h : (ask q).run s = (.ok answer, s')) :
    ∃ line, s.terminal.input = line :: s'.terminal.input ∧
      answerValue answer = lineValue q.offered line := by
  change ask q s = _ at h
  unfold ask Terminal.ask Terminal.readAfter at h
  cases hinput : s.terminal.input with
  | nil =>
    simp only [Terminal.print, hinput] at h
    cases h
  | cons line rest =>
    simp only [Terminal.print, hinput] at h
    obtain ⟨hanswer, rfl⟩ := Prod.mk.inj h
    exact ⟨line, rfl, congrArg answerValue (Except.ok.inj hanswer).symm⟩

/-- The lines for all variables are read one after the other, and each variable gets its own. -/
lemma Variable.collected_of_mapM {vs vs' : List Variable} (hvs : ∀ v ∈ vs, v.Fresh)
    (h : (vs.mapM (Variable.collect ask previous)).run s = (.ok vs', s')) :
    ∃ lines, s.terminal.input = lines ++ s'.terminal.input ∧ Collected previous vs lines vs' := by
  induction vs generalizing s vs' with
  | nil =>
    cases h
    exact ⟨[], rfl, .nil⟩
  | cons v vs ih =>
    rw [List.mapM_cons] at h
    obtain ⟨v', s₁, hv, h⟩ := run_bind_eq_ok.mp h
    obtain ⟨ws, s₂, hws, h⟩ := run_bind_eq_ok.mp h
    cases h
    obtain ⟨lines, hlines, hcollected⟩ := ih (fun w hw => hvs w (List.mem_cons_of_mem v hw)) hws
    unfold collect at hv
    split at hv
    · rename_i hname
      cases hv
      exact ⟨lines, hlines, .name (beq_iff_eq.mp hname) hcollected⟩
    · rename_i hname
      obtain ⟨d, s₃, hd, hv⟩ := run_bind_eq_ok.mp hv
      obtain ⟨e, s₄, he, hv⟩ := run_bind_eq_ok.mp hv
      cases hv
      obtain ⟨first, hfirst, hdefault⟩ := exists_line hd
      obtain ⟨second, hsecond, hdescription⟩ := exists_line he
      refine ⟨first :: second :: lines, by rw [hfirst, hsecond, hlines]; rfl, ?_⟩
      obtain ⟨hnone, hnone'⟩ := hvs v (List.mem_cons_self)
      rw [hnone, hnone', storeAnswer_none, storeAnswer_none, hdefault, hdescription]
      exact .asked first second (fun hn => hname (beq_iff_eq.mpr hn)) hcollected

end

/-! ## Commands -/

/-- The result of a command that was run in a session. -/
def CommandLine.resultOf (r : Except Failure Unit) (s : Session) : Result :=
  match r with
  | .ok _ => { status := 0, session := s }
  | .error e => finish s e

/-- The files stay as the command left them. -/
lemma CommandLine.tree_resultOf (r : Except Failure Unit) (s : Session) :
    (resultOf r s).session.tree = s.tree := by
  cases r with
  | ok _ => rfl
  | error e => exact tree_finish s e

/-- What is left of the editor's results and of the input stays as the command left it. -/
lemma CommandLine.rest_resultOf (r : Except Failure Unit) (s : Session) :
    (resultOf r s).session.edits = s.edits ∧
    (resultOf r s).session.terminal.input = s.terminal.input := by
  cases r with
  | ok _ => exact ⟨rfl, rfl⟩
  | error e => cases e <;> exact ⟨rfl, rfl⟩

/-- A failure that counts shows in the status. -/
lemma CommandLine.status_resultOf {e : Failure} (h : e.exitStatus ≠ 0) (s : Session) :
    (resultOf (.error e) s).status ≠ 0 := by
  rwa [resultOf, status_finish]

/-- The program ends with what the run of its command gives. -/
lemma CommandLine.perform_of_run {request : Command.Request} {s s' : Session}
    {r : Except Failure Unit} (h : (Command.perform request).run s = (r, s')) :
    perform request s = resultOf r s' := by
  unfold perform resultOf
  rw [h]
  cases r <;> rfl

/-- A step before the save ends the command with a failure that counts, or the rest is run with the
same files. -/
lemma Prepares.run_bind_cases {α β : Type} {act : CommandM α} {f : α → CommandM β}
    (h : Prepares act) {s s'' : Session} {r : Except Failure β}
    (hrun : (act >>= f).run s = (r, s'')) :
    (∃ e, r = .error e ∧ e.exitStatus ≠ 0 ∧ s''.tree = s.tree) ∨
      ∃ a s', act.run s = (.ok a, s') ∧ s'.tree = s.tree ∧ (f a).run s' = (r, s'') := by
  rcases Stencil.run_bind_cases hrun with ⟨e, hact, rfl⟩ | ⟨a, s', hact, hrest⟩
  · exact .inl ⟨e, rfl, h.counts s e s'' hact, (h.step hact).1⟩
  · exact .inr ⟨a, s', hact, (h.step hact).1, hrest⟩

namespace Command

open Session Project

variable {s s' : Session} {name : String} {retry : Bool}

/-- The template comes from the last text that was taken from the editor and from the last lines
that were read: those for its variables, and before them `first`. -/
def Composed (previous : Metadata) (first : List String) (s s' : Session) (t : Template) : Prop :=
  ∃ tried text parsed confirmed lines vars, s.edits = tried ++ some text :: s'.edits ∧
    Template.parse text = .ok parsed ∧
    s.terminal.input = confirmed ++ first ++ lines ++ s'.terminal.input ∧
    Variable.Collected previous parsed.vars lines vars ∧ t = { parsed with vars }

/-- The script was written, it can be executed, and no other file is different. -/
structure Saved (name : String) (script : Text.Points) (before after : Tree) : Prop where
  script : ∃ bytes, script.encode = .ok bytes ∧
    after.file? (store.scriptPath name).parts = some { bytes, executable := true }
  others : SameOff [(store.scriptPath name).parts] before after

/-- The script has no encoding, and an empty file is in its place. No other file is different. -/
structure Emptied (name : String) (script : Text.Points) (before after : Tree) : Prop where
  encode : ∃ fault, script.encode = .error fault
  script : (after.file? (store.scriptPath name).parts).map File.bytes = some []
  others : SameOff [(store.scriptPath name).parts] before after

/-- How a command can end that has a script to save. It fails with an empty file if the script has
no encoding, and with the script in its place if the message, in which the name is read as markup,
cannot be printed. -/
inductive Left (done name : String) (script : Text.Points) (before : Tree)
    (r : CommandLine.Result) : Prop
  | untouched : r.status ≠ 0 → SameOff [] before r.session.tree → Left done name script before r
  | emptied : r.status ≠ 0 → Emptied name script before r.session.tree →
    Left done name script before r
  | unannounced : r.status ≠ 0 → r.unreported = some .badStyle →
    Console.isFaulty (announcement done name (store.scriptPath name)) = true →
    Saved name script before r.session.tree → Left done name script before r
  | saved : r.status = 0 →
    Console.isFaulty (announcement done name (store.scriptPath name)) = false →
    Saved name script before r.session.tree → Left done name script before r

/-- A file that was put at the place of a script is there, and all others stay. -/
lemma set_script (name : String) (before : Tree) (f : File) :
    let after := (before.makeFrom [] store.root.parts).set (store.scriptPath name).parts (.file f)
    after.file? (store.scriptPath name).parts = some f ∧
    SameOff [(store.scriptPath name).parts] before after :=
  ⟨Tree.file?_eq_some.mpr (Tree.get?_set_self (by simp) _ _), (SameOff.makeFrom [] before).set _ _⟩

/-- The save and its message, which end a command. -/
lemma left_of_save {done : String} {script : Text.Points} {r : Except Failure Unit}
    (h : (onFiles (store.save name script) >>= announce done name).run s = (r, s')) :
    Left done name script s.tree (CommandLine.resultOf r s') ∧ s'.edits = s.edits ∧
      s'.terminal.input = s.terminal.input := by
  rcases run_bind_cases h with ⟨e, hsave, rfl⟩ | ⟨p, s₁, hsave, hannounce⟩
  · obtain ⟨tree, hrun, rfl⟩ := run_onFiles.mp hsave
    have hstatus :=
      CommandLine.status_resultOf (store.counts_save name script s.tree e tree hrun) { s with tree }
    refine ⟨?_, rfl, rfl⟩
    rcases Store.save_eq_error hrun with rfl | rfl | ⟨fault, executable, hencode, -, rfl⟩
    · refine .untouched hstatus ?_
      rw [CommandLine.tree_resultOf]
      exact .refl [] _
    · refine .untouched hstatus ?_
      rw [CommandLine.tree_resultOf]
      exact .makeFrom [] _
    · refine .emptied hstatus ?_
      rw [CommandLine.tree_resultOf]
      obtain ⟨hscript, hothers⟩ := set_script name s.tree { bytes := [], executable }
      exact ⟨⟨fault, hencode⟩, congrArg (Option.map File.bytes) hscript, hothers⟩
  · obtain ⟨tree, hrun, rfl⟩ := run_onFiles.mp hsave
    obtain ⟨rfl, bytes, hbytes, rfl⟩ := Store.tree_save hrun
    obtain ⟨hscript, hothers⟩ := set_script name s.tree { bytes, executable := true }
    rw [announce, run_say] at hannounce
    split at hannounce
    · rename_i hfaulty
      cases hannounce
      exact ⟨.unannounced Int.one_ne_zero rfl hfaulty ⟨⟨bytes, hbytes, hscript⟩, hothers⟩, rfl, rfl⟩
    · rename_i hfaulty
      cases hannounce
      exact ⟨.saved rfl (by simpa using hfaulty) ⟨⟨bytes, hbytes, hscript⟩, hothers⟩, rfl, rfl⟩

/-- A template that was edited and then asked about, with the files as they were. -/
lemma composed_of_collect {command : Option String} {seed : String} {t t' : Template}
    {previous : Metadata} {first : List String} {s₂ s₃ : Session}
    (hedit : (editUntilValid command retry seed).run s = (.ok t, s')) (hasked : Asked s' s₂)
    (hfirst : s'.terminal.input = first ++ s₂.terminal.input)
    (hcollect : (t.collect ask previous).run s₂ = (.ok t', s₃)) :
    Composed previous first s s₃ t' ∧ s₃.tree = s.tree := by
  obtain ⟨confirmed, hconfirmed⟩ := ((prepares_editUntilValid _ _ _).step hedit).2
  obtain ⟨_, _, hget, hedit⟩ := run_bind_eq_ok.mp hedit
  cases hget
  obtain ⟨tried, text, hedits, hparse, htree⟩ := editFrom_eq_ok hedit
  obtain ⟨_, rfl⟩ := hasked
  obtain ⟨-, -, -, -, -, _, hs₃⟩ := Template.collect_eq_ok hparse hcollect
  obtain ⟨vars, s₄, hvars, hpure⟩ := run_bind_eq_ok.mp hcollect
  cases hpure
  obtain ⟨lines, hlines, hcollected⟩ :=
    Variable.collected_of_mapM (Template.fresh_of_parse hparse) hvars
  refine ⟨⟨tried, text, t, confirmed, lines, vars, ?_, hparse, ?_, hcollected, rfl⟩, ?_⟩
  · rw [hedits, hs₃]
  · rw [← hconfirmed, hfirst, hlines, List.append_assoc, List.append_assoc]
  · rw [hs₃]
    exact htree

/-- A step on the files that succeeds by a run of a script leaves what the run left. -/
lemma onFiles_described {α : Type} {file : FileM α} {a : α} {t : Tree}
    (hfile : ∀ {r t'}, file.run s.tree = (r, t') → (t' = s.tree ∧ ∃ e, r = .error e) ∨ t' = t)
    (h : (onFiles file).run s = (.ok a, s')) :
    file.run s.tree = (.ok a, t) ∧ s' = { s with tree := t } := by
  obtain ⟨t', hrun, rfl⟩ := run_onFiles.mp h
  rcases hfile hrun with ⟨-, e, he⟩ | rfl
  · cases he
  · exact ⟨hrun, rfl⟩

/-- The requests with which an edit runs the stored script. -/
def editRequests : List String :=
  ["get-template", "get-vars"]

/-- The files after the stored script was run with some requests. -/
def afterRuns (name : String) (t : Tree) (requests : List String) : Tree :=
  requests.foldl (store.afterRun name) t

/-- A template is composed in the same way whatever happens to it then. -/
lemma Composed.congr {previous : Metadata} {first : List String} {s₁ : Session} {t : Template}
    (h : Composed previous first s s₁ t) (hedits : s'.edits = s₁.edits)
    (hinput : s'.terminal.input = s₁.terminal.input) : Composed previous first s s' t := by
  unfold Composed
  rw [hedits, hinput]
  exact h

/-- Making a template fails before anything is written, or comes to the save. -/
lemma create_cases {path : Option Text.Points} {source : Option String} {r : Except Failure Unit}
    (h : (create name path source retry).run s = (r, s')) :
    (∃ e, r = .error e ∧ e.exitStatus ≠ 0 ∧ s'.tree = s.tree) ∨
      ∃ st t, settings.run s.tree = (.ok st, s.tree) ∧ Composed {} [] s s' t ∧
        Left "Created" name (Script.compilePoints { extra := st.extraFilters } name t path) s.tree
          (CommandLine.resultOf r s') := by
  rcases (Prepares.onFiles counts_settings looks_settings).run_bind_cases h with hfails | ⟨st, s₁,
    hsettings, -, h₁⟩
  · exact .inl hfails
  obtain ⟨hst, rfl⟩ := onFiles_looks looks_settings hsettings
  have hpath := Prepares.onFiles (store.counts_requirePath name) (store.looks_requirePath name)
  rcases hpath.discard.run_bind_cases h₁ with hfails | ⟨_, s₂, hname, -, h₂⟩
  · exact .inl hfails
  obtain ⟨_, hname⟩ := run_discard_eq_ok hname
  obtain ⟨-, rfl⟩ := onFiles_looks (store.looks_requirePath name) hname
  have hrest {seed : String} (h : ExceptT.run (do
      let t ← editUntilValid st.editorCommand retry seed
      let t ← t.collect ask {}
      let saved ← onFiles
        (store.save name (Script.compilePoints { extra := st.extraFilters } name t path))
      announce "Created" name saved) s₂ = (r, s')) :
      (∃ e, r = .error e ∧ e.exitStatus ≠ 0 ∧ s'.tree = s₂.tree) ∨
        ∃ st t, settings.run s₂.tree = (.ok st, s₂.tree) ∧ Composed {} [] s₂ s' t ∧
          Left "Created" name (Script.compilePoints { extra := st.extraFilters } name t path)
            s₂.tree
            (CommandLine.resultOf r s') := by
    rcases (prepares_editUntilValid _ _ _).run_bind_cases h with hfails | ⟨t, s₃, hedit, htree, h⟩
    · exact .inl hfails
    rcases (t.prepares_collect _).run_bind_cases h with ⟨e, hr, he, hsame⟩ | ⟨t', s₄, hcollect,
      -, h⟩
    · exact .inl ⟨e, hr, he, hsame.trans htree⟩
    obtain ⟨hcomposed, htree⟩ :=
      composed_of_collect hedit (.refl s₃) (List.nil_append _).symm hcollect
    obtain ⟨hleft, hedits, hinput⟩ := left_of_save h
    rw [htree] at hleft
    exact .inr ⟨st, t', hst, hcomposed.congr hedits hinput, hleft⟩
  cases source with
  | none => exact hrest h₂
  | some file =>
    rcases (Prepares.onFiles (counts_readSource file)
      (looks_readSource file)).run_bind_cases h₂ with
      hfails | ⟨seed, s₃, hread, -, h₃⟩
    · exact .inl hfails
    obtain ⟨-, rfl⟩ := onFiles_looks (looks_readSource file) hread
    exact hrest h₃

/-- A step that runs the stored script fails, and then the script was run or not, or the rest finds
what it left. -/
lemma onFiles_described_cases {α β : Type} {file : FileM α} {f : α → CommandM β} {t : Tree}
    {r : Except Failure β} (hcounts : Counts file)
    (hfile : ∀ {r t'}, file.run s.tree = (r, t') → (t' = s.tree ∧ ∃ e, r = .error e) ∨ t' = t)
    (h : (onFiles file >>= f).run s = (r, s')) :
    (∃ e, r = .error e ∧ e.exitStatus ≠ 0 ∧ (s'.tree = s.tree ∨ s'.tree = t)) ∨
      ∃ a, file.run s.tree = (.ok a, t) ∧ (f a).run { s with tree := t } = (r, s') := by
  rcases run_bind_cases h with ⟨e, hact, rfl⟩ | ⟨a, s₁, hact, hrest⟩
  · obtain ⟨tree, hrun, rfl⟩ := run_onFiles.mp hact
    exact .inl ⟨e, rfl, hcounts s.tree e tree hrun, (hfile hrun).imp_left And.left⟩
  · obtain ⟨hrun, rfl⟩ := onFiles_described hfile hact
    exact .inr ⟨a, hrun, hrest⟩

/-- Editing a template fails before anything is written, apart from what the stored script did, or
comes to the save. -/
lemma edit_cases {r : Except Failure Unit} (h : (edit name retry).run s = (r, s')) :
    (∃ e, r = .error e ∧ e.exitStatus ≠ 0 ∧
        ∃ requests, requests <+: editRequests ∧ s'.tree = afterRuns name s.tree requests) ∨
      ∃ st previous first t, settings.run s.tree = (.ok st, s.tree) ∧
        (store.readMetadata name).run (afterRuns name s.tree ["get-template"]) =
          (.ok previous, afterRuns name s.tree editRequests) ∧
        Composed previous [first] s s' t ∧
        Left "Updated" name
          (Script.compile { extra := st.extraFilters } name t
            (lineValue previous.defaultPath first))
          (afterRuns name s.tree editRequests) (CommandLine.resultOf r s') := by
  rcases (Prepares.onFiles counts_settings looks_settings).run_bind_cases h with
    ⟨e, hr, he, htree⟩ | ⟨st, s₁, hsettings, -, h₁⟩
  · exact .inl ⟨e, hr, he, [], List.nil_prefix, htree⟩
  obtain ⟨hst, rfl⟩ := onFiles_looks looks_settings hsettings
  -- the script is run twice, and each run may be the last thing that happens
  rcases onFiles_described_cases Store.counts_readTemplate Store.readTemplate_cases h₁ with
    ⟨e, hr, he, htree | htree⟩ | ⟨seed, -, h₂⟩
  · exact .inl ⟨e, hr, he, [], List.nil_prefix, htree⟩
  · exact .inl ⟨e, hr, he, ["get-template"], by decide, htree⟩
  rcases onFiles_described_cases Store.counts_readMetadata Store.readMetadata_cases h₂ with
    ⟨e, hr, he, htree | htree⟩ | ⟨previous, hread, h₃⟩
  · exact .inl ⟨e, hr, he, ["get-template"], by decide, htree⟩
  · exact .inl ⟨e, hr, he, editRequests, List.prefix_rfl, htree⟩
  -- from here on the files stay until the save
  rcases (prepares_editUntilValid _ _ _).run_bind_cases h₃ with ⟨e, hr, he, htree⟩ | ⟨t, s₄, hedit,
    htree₄, h₄⟩
  · exact .inl ⟨e, hr, he, editRequests, List.prefix_rfl, htree⟩
  rcases (prepares_askPath _).run_bind_cases h₄ with ⟨e, hr, he, htree⟩ | ⟨path, s₅, hpath,
    htree₅, h₅⟩
  · exact .inl ⟨e, hr, he, editRequests, List.prefix_rfl, htree.trans htree₄⟩
  obtain ⟨answer, _, hask, hpure⟩ := run_bind_eq_ok.mp hpath
  cases hpure
  obtain ⟨first, hfirst, hvalue⟩ := exists_line hask
  rcases (t.prepares_collect _).run_bind_cases h₅ with ⟨e, hr, he, htree⟩ | ⟨t', s₆, hcollect,
    -, h₆⟩
  · exact .inl ⟨e, hr, he, editRequests, List.prefix_rfl, htree.trans (htree₅.trans htree₄)⟩
  obtain ⟨hcomposed, htree₆⟩ := composed_of_collect hedit (ask_eq_ok hask).2
    (show s₄.terminal.input = [first] ++ _ from hfirst) hcollect
  obtain ⟨hleft, hedits, hinput⟩ := left_of_save h₆
  rw [htree₆, hvalue] at hleft
  exact .inr ⟨st, previous, first, t', hst, hread, hcomposed.congr hedits hinput, hleft⟩

/-- A deletion fails before anything is taken away, or comes to its message. -/
lemma delete_cases {r : Except Failure Unit} (h : (delete name).run s = (r, s')) :
    (∃ e, r = .error e ∧ e.exitStatus ≠ 0 ∧ s'.tree = s.tree) ∨
      s'.tree = s.tree.erase (store.scriptPath name).parts ∧
        r = if Console.isFaulty (farewell name) = true then .error (.unreported .badStyle)
          else .ok () := by
  rcases run_bind_cases h with ⟨e, hact, rfl⟩ | ⟨_, s₁, hact, hsay⟩
  · obtain ⟨tree, hrun, rfl⟩ := run_onFiles.mp hact
    exact .inl ⟨e, rfl, store.counts_delete name s.tree e tree hrun, Store.delete_eq_error hrun⟩
  · obtain ⟨tree, hrun, rfl⟩ := run_onFiles.mp hact
    obtain rfl := Store.delete_eq_ok hrun
    rw [run_say] at hsay
    split at hsay
    · rename_i hfaulty
      cases hsay
      exact .inr ⟨rfl, (if_pos hfaulty).symm⟩
    · rename_i hfaulty
      cases hsay
      exact .inr ⟨rfl, (if_neg hfaulty).symm⟩

/-- With a name that has no bracket and a script that is a text, a command that fails has changed no
file. -/
lemma Left.sameOff {done script : String} {before : Tree} {r : CommandLine.Result}
    (h : Left done name script before r) (hopen : '[' ∉ done.toList) (hslash : '\\' ∉ done.toList)
    (hname : '[' ∉ name.toList) (hstatus : r.status ≠ 0) :
    SameOff [] before r.session.tree := by
  cases h with
  | untouched _ hsame => exact hsame
  | emptied _ hemptied =>
    obtain ⟨fault, hencode⟩ := hemptied.encode
    rw [Text.Points.encode_ofString] at hencode
    cases hencode
  | unannounced _ _ hfaulty =>
    have htext : (store.scriptPath name).toString =
        "" ++ (".moho" ++ "/" ++ (name ++ Store.scriptSuffix)) := rfl
    have hpath : '[' ∉ (store.scriptPath name).toString.toList := by
      rw [htext]
      simp [hname, Store.scriptSuffix]
    rw [isFaulty_announcement hopen hslash, isFaulty_messageTail hname hpath] at hfaulty
    cases hfaulty
  | saved hzero => exact absurd hzero hstatus

/-- A command that succeeds has saved its script. -/
lemma Left.saved_of_status {done : String} {script : Text.Points} {before : Tree}
    {r : CommandLine.Result} (h : Left done name script before r) (hstatus : r.status = 0) :
    Saved name script before r.session.tree := by
  cases h with
  | untouched hfailed => exact absurd hstatus hfailed
  | emptied hfailed => exact absurd hstatus hfailed
  | unannounced hfailed => exact absurd hstatus hfailed
  | saved _ _ hsaved => exact hsaved

/-- A command that makes a template fails and leaves the files, or ends in one of the ways of
`Left`. -/
lemma perform_create (name : String) (retry : Bool) (s : Session) (path : Option Text.Points)
    (source : Option String) :
    let r := CommandLine.perform (.create name path source retry) s;
    (r.status ≠ 0 ∧ r.session.tree = s.tree) ∨
      ∃ st t, settings.run s.tree = (.ok st, s.tree) ∧ Composed {} [] s r.session t ∧
        Left "Created" name (Script.compilePoints { extra := st.extraFilters } name t path) s.tree
          r := by
  rcases hrun : (create name path source retry).run s with ⟨r, s'⟩
  rw [CommandLine.perform_of_run
    (show (perform (.create name path source retry)).run s = (r, s') from hrun)]
  obtain ⟨hedits, hinput⟩ := CommandLine.rest_resultOf r s'
  rcases create_cases hrun with ⟨e, rfl, hstatus, htree⟩ | ⟨st, t, hst, hcomposed, hleft⟩
  · exact .inl
      ⟨CommandLine.status_resultOf hstatus s', (CommandLine.tree_resultOf _ s').trans htree⟩
  · exact .inr ⟨st, t, hst, hcomposed.congr hedits hinput, hleft⟩

/-- A command that edits a template fails and leaves what the runs of the script left, or ends in
one of the ways of `Left`. -/
lemma perform_edit (name : String) (retry : Bool) (s : Session) :
    let r := CommandLine.perform (.edit name retry) s;
    (r.status ≠ 0 ∧
      ∃ requests, requests <+: editRequests ∧ r.session.tree = afterRuns name s.tree requests) ∨
      ∃ st previous first t, settings.run s.tree = (.ok st, s.tree) ∧
        (store.readMetadata name).run (afterRuns name s.tree ["get-template"]) =
          (.ok previous, afterRuns name s.tree editRequests) ∧
        Composed previous [first] s r.session t ∧
        Left "Updated" name
          (Script.compile { extra := st.extraFilters } name t
            (lineValue previous.defaultPath first))
          (afterRuns name s.tree editRequests) r := by
  rcases hrun : (edit name retry).run s with ⟨r, s'⟩
  rw [CommandLine.perform_of_run (show (perform (.edit name retry)).run s = (r, s') from hrun)]
  obtain ⟨hedits, hinput⟩ := CommandLine.rest_resultOf r s'
  rcases edit_cases hrun with
    ⟨e, rfl, hstatus, requests, hrequests, htree⟩ | ⟨st, previous, first, t, hst, hread, hcomposed,
      hleft⟩
  · exact .inl ⟨CommandLine.status_resultOf hstatus s', requests, hrequests,
      (CommandLine.tree_resultOf _ s').trans htree⟩
  · exact .inr ⟨st, previous, first, t, hst, hread, hcomposed.congr hedits hinput, hleft⟩

/-- A command that deletes a template fails and leaves the files, or its script is gone. -/
lemma perform_delete (name : String) (s : Session) :
    let r := CommandLine.perform (.delete name) s;
    (r.status ≠ 0 ∧ r.session.tree = s.tree) ∨
      r.session.tree.file? (store.scriptPath name).parts = none ∧
        SameOff [(store.scriptPath name).parts] s.tree r.session.tree ∧
        (r.status ≠ 0 ↔ Console.isFaulty (farewell name) = true) := by
  rcases hrun : (delete name).run s with ⟨r, s'⟩
  rw [CommandLine.perform_of_run (show (perform (.delete name)).run s = (r, s') from hrun)]
  dsimp only
  rw [CommandLine.tree_resultOf]
  rcases delete_cases hrun with ⟨e, rfl, hstatus, htree⟩ | ⟨htree, rfl⟩
  · exact .inl ⟨CommandLine.status_resultOf hstatus s', htree⟩
  · have hgone :
        (s.tree.erase (store.scriptPath name).parts).get? (store.scriptPath name).parts = none :=
      Tree.get?_erase_self (by simp) s.tree
    rw [htree]
    refine .inr ⟨?_, fun parts hparts => ?_, ?_⟩
    · rw [Tree.file?, hgone]
    · have hget := Tree.get?_erase_of_ne (List.ne_of_not_mem_cons hparts) s.tree
      exact ⟨Tree.file?_congr hget, fun _ => hget⟩
    · split
      · rename_i hfaulty
        exact iff_of_true Int.one_ne_zero hfaulty
      · rename_i hfaulty
        exact iff_of_false (fun h => h rfl) hfaulty

end Command

end Stencil
