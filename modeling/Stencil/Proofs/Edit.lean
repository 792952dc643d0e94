import Stencil.Proofs.Markup
import Stencil.Proofs.Project
import Stencil.Proofs.Prompt
import Stencil.Proofs.Retry
import Stencil.Proofs.Transport

/-!
# Editing without a change

A template that was created can be opened again and again. If the text is saved as it was offered
and every question gets an empty line, the files stay as they are (`Command.edit_unchanged`). The
argument: what is read back is what was stored (`Store.Holds.readTemplate`,
`Store.Holds.readMetadata`), so the same script is compiled, and saving it again changes nothing
(`Store.Holds.save`).
-/

namespace Stencil

open Files Shell

/-! ## Steps of commands -/

namespace Session

variable {s s' : Session} {seed : String} {command : Option String} {retry : Bool}

/-- A step on the files leaves the rest of the session as it is. -/
lemma run_onFiles {α : Type} {act : FileM α} {r : Except Failure α} :
    (onFiles act).run s = (r, s') ↔ ∃ tree, act.run s.tree = (r, tree) ∧ s' = { s with tree } := by
  have hrun :
      (onFiles act).run s = ((act.run s.tree).1, { s with tree := (act.run s.tree).2 }) := rfl
  rw [hrun]
  cases act.run s.tree with
  | mk r' tree =>
    constructor
    · intro h
      cases h
      exact ⟨tree, rfl, rfl⟩
    · rintro ⟨_, hr, rfl⟩
      cases hr
      rfl

/-- A step that only looks at the files gives what they say. -/
lemma does_onFiles {α : Type} {act : FileM α} {a : α} {Q : α → Session → Prop}
    (h : act.run s.tree = (.ok a, s.tree)) (hQ : Q a s) : Does (onFiles act) s Q :=
  ⟨a, s, run_onFiles.mpr ⟨s.tree, h, rfl⟩, hQ⟩

/-- To discard a result is to go on without it. -/
lemma discard_eq_bind {α : Type} (act : CommandM α) :
    discard act = act >>= fun _ => pure PUnit.unit := by
  rw [Functor.discard, map_const, Function.comp_apply, map_eq_pure_bind]

/-- A step whose value is dropped had one. -/
lemma run_discard_eq_ok {α : Type} {act : CommandM α} {u : PUnit}
    (h : (discard act).run s = (.ok u, s')) :
    ∃ a, act.run s = (.ok a, s') := by
  rw [discard_eq_bind] at h
  obtain ⟨a, _, hact, hpure⟩ := run_bind_eq_ok.mp h
  cases hpure
  exact ⟨a, hact⟩

/-- A step that only looks leaves the session as it is. -/
lemma onFiles_looks {α : Type} {act : FileM α} {a : α} (hlooks : act.Looks)
    (h : (onFiles act).run s = (.ok a, s')) :
    act.run s.tree = (.ok a, s.tree) ∧ s' = s := by
  obtain ⟨tree, hact, rfl⟩ := run_onFiles.mp h
  have htree : tree = s.tree := by
    rw [← hlooks s.tree, hact]
  rw [htree] at hact ⊢
  exact ⟨hact, rfl⟩

/-- Opening the editor takes one of its results and changes no file. -/
lemma edit_eq_ok {text : String} (h : (edit command seed).run s = (.ok text, s')) :
    s.edits = some text :: s'.edits ∧ s'.tree = s.tree := by
  rw [run_edit, after_opening] at h
  cases hedits : s.edits with
  | nil =>
    rw [hedits] at h
    cases h
  | cons found rest =>
    rw [hedits] at h
    cases found with
    | none => cases h
    | some found =>
      cases h
      exact ⟨rfl, rfl⟩

/-- Asking for a yes only uses the terminal. -/
lemma confirm_asked {question : String} {answer : Bool}
    (h : (confirm question).run s = (.ok answer, s')) :
    Asked s s' := by
  change (_, { s with terminal := (Terminal.confirm question s.terminal).2 }) = _ at h
  obtain ⟨-, rfl⟩ := Prod.mk.inj h
  exact ⟨_, rfl⟩

/-- The template comes from the last text that was taken from the editor. -/
lemma editFrom_eq_ok {fuel : Nat} {t : Template}
    (h : (editFrom command retry fuel seed).run s = (.ok t, s')) :
    ∃ tried text, s.edits = tried ++ some text :: s'.edits ∧ Template.parse text = .ok t ∧
      s'.tree = s.tree := by
  induction fuel generalizing s seed with
  | zero => cases h
  | succ fuel ih =>
    obtain ⟨text, s₁, hedit, h⟩ := run_bind_eq_ok.mp h
    obtain ⟨hedits, htree⟩ := edit_eq_ok hedit
    cases hparse : Template.parse text with
    | ok t' =>
      rw [hparse] at h
      cases h
      exact ⟨[], text, hedits, hparse, htree⟩
    | error e =>
      rw [hparse] at h
      cases retry with
      | false => cases h
      | true =>
        obtain ⟨_, s₂, hprint, h⟩ := run_bind_eq_ok.mp h
        cases hprint
        obtain ⟨again, s₃, hconfirm, h⟩ := run_bind_eq_ok.mp h
        obtain ⟨_, rfl⟩ := confirm_asked hconfirm
        cases again with
        | false => cases h
        | true =>
          -- This text was tried in vain. The next one is found by the rest of the run.
          obtain ⟨tried, last, hlast, hok, htree'⟩ := ih h
          refine ⟨some text :: tried, last, ?_, hok, htree'.trans htree⟩
          rw [hedits]
          exact congrArg (some text :: ·) hlast

/-- A text that is a template is taken at once. -/
lemma editUntilValid_of_head {text : String} {t : Template} (h : s.edits.head? = some (some text))
    (hparse : Template.parse text = .ok t) :
    (editUntilValid command retry seed).run s =
      (.ok t, { s with edits := s.edits.tail, openings := s.openings ++ [{ seed, command }] }) := by
  have hhead : s.edits.head?.join = some text := by
    rw [h]
    rfl
  rw [run_editUntilValid, run_editFrom_valid hhead hparse, after_opening]

end Session

/-- The metadata of a script that was saved are those of its template. -/
lemma Store.Holds.readMetadata {s : Store} {tree : Tree} {name : String} {t : Template}
    {path : Option String} (h : s.Holds tree name (Script.compile {} name t path))
    (hpresent : Script.Presentable t path) (hnodup : t.variableNames.Nodup) :
    (s.readMetadata name).run tree = (.ok
      { defaultPath := path
        defaults := Metadata.texts Variable.default t.vars
        descriptions := Metadata.texts Variable.description t.vars }, tree) := by
  have hrequest : raw "get-vars".toList = "get-vars".toList :=
    raw_ascii (List.all_iff_forall_prop.mp (by decide))
  have hrun := Script.finishes_compile hpresent name tree (.inr hrequest)
  rw [if_neg (by rw [hrequest]; decide), Metadata.echo_payload hpresent.vars path] at hrun
  have hdescribe := h.describe hrun (Metadata.decodeLines_payload hpresent.vars path)
  refine run_bind_eq_ok.mpr ⟨_, tree, hdescribe, ?_⟩
  rw [Metadata.decode_append_newline hpresent.vars,
    Metadata.decode_payload_texts hpresent.vars hnodup]
  rfl

/-- The text of a variable is found under its name. -/
lemma Metadata.lookup_texts {names : List String} {n : String} (hn : n ∈ names)
    (texts : String → Option String) :
    (names.filterMap fun m => (texts m).map fun x => (m, x)).lookup n = texts n := by
  cases htext : texts n with
  | none =>
    rw [List.lookup_eq_none_iff]
    rintro ⟨m, x⟩ he
    obtain ⟨k, -, hk⟩ := List.mem_filterMap.mp he
    obtain ⟨y, hy, hxy⟩ := Option.map_eq_some_iff.mp hk
    cases hxy
    have hne : n ≠ m := by
      rintro rfl
      cases htext.symm.trans hy
    simpa using hne
  | some x =>
    induction names with
    | nil => cases hn
    | cons m names ih =>
      rw [List.filterMap_cons]
      by_cases hm : n = m
      · subst hm
        rw [htext]
        exact List.lookup_cons_self
      · have hrest := ih ((List.mem_cons.mp hn).resolve_left hm)
        cases texts m with
        | none => exact hrest
        | some y =>
          rw [Option.map_some, List.lookup_cons, beq_eq_false_iff_ne.mpr hm]
          exact hrest

namespace Command

open Session

variable {name : String} {points : Option Text.Points} {path seedFile : Option String}
  {retry : Bool}
  {s s₁ : Session}

/-- Reading a source file only looks at the files. -/
lemma looks_readSource (file : String) : FileM.Looks (readSource file) := by
  refine .bind .get fun tree => .bind (.liftFile _) fun bytes => ?_
  split
  · exact .pure _
  · exact .throw _

/-- A message that was printed has no faulty tag. -/
lemma announce_eq_ok {done : String} {p : Path} (h : (announce done name p).run s = (.ok (), s₁)) :
    Console.isFaulty (announcement done name p) = false ∧
      ∃ output, s₁ = { s with terminal := s.terminal.print output } := by
  rw [announce, run_say] at h
  split at h
  · cases h
  · rename_i hfaulty
    cases h
    exact ⟨by simpa using hfaulty, _, rfl⟩

/-- A message without faulty tags is printed. -/
lemma does_announce {done : String} {p : Path} {P : Unit → Session → Prop}
    (hfaulty : Console.isFaulty (announcement done name p) = false)
    (h : ∀ output, P () { s with terminal := s.terminal.print output }) :
    Does (announce done name p) s P := by
  refine ⟨(), _, ?_, h (Console.printed (announcement done name p))⟩
  rw [announce, run_say, hfaulty]
  rfl

/-- The steps of a command that made a template. -/
lemma create_steps (h : (create name points seedFile retry).run s = (.ok (), s₁)) :
    ∃ settings seed t s₂ t' s₃ saved tree output,
      Project.settings.run s.tree = (.ok settings, s.tree) ∧
      (editUntilValid settings.editorCommand retry seed).run s = (.ok t, s₂) ∧
      (t.collect ask {}).run s₂ = (.ok t', s₃) ∧
      (Project.store.save name
        (Script.compilePoints { extra := settings.extraFilters } name t' points)).run s₃.tree =
        (.ok saved, tree) ∧
      Console.isFaulty (announcement "Created" name saved) = false ∧
      s₁ = { s₃ with tree, terminal := s₃.terminal.print output } := by
  obtain ⟨settings, s', hsettings, hnext⟩ := run_bind_eq_ok.mp h
  obtain ⟨hsettings, rfl⟩ := onFiles_looks Project.looks_settings hsettings
  obtain ⟨_, s'', hpath, hseed⟩ := run_bind_eq_ok.mp hnext
  obtain ⟨_, hpath⟩ := run_discard_eq_ok hpath
  obtain ⟨-, rfl⟩ := onFiles_looks (Store.looks_requirePath _ _) hpath
  -- Wherever the seed comes from, the rest is the same, and the seed does not matter to it.
  obtain ⟨seed, hrest⟩ : ∃ seed, ExceptT.run (do
      let t ← editUntilValid settings.editorCommand retry seed
      let t ← t.collect ask {}
      let saved ← onFiles
        (Project.store.save name
          (Script.compilePoints { extra := settings.extraFilters } name t points))
      announce "Created" name saved) s'' = (.ok (), s₁) := by
    cases seedFile with
    | none => exact ⟨"", hseed⟩
    | some file =>
      obtain ⟨seed, s₂, hread, hrest⟩ := run_bind_eq_ok.mp hseed
      obtain ⟨-, rfl⟩ := onFiles_looks (looks_readSource file) hread
      exact ⟨seed, hrest⟩
  obtain ⟨t, s₂, hedit, hrest⟩ := run_bind_eq_ok.mp hrest
  obtain ⟨t', s₃, hcollect, hsave⟩ := run_bind_eq_ok.mp hrest
  obtain ⟨saved, s₄, hsaved, hannounce⟩ := run_bind_eq_ok.mp hsave
  obtain ⟨tree, hwritten, rfl⟩ := run_onFiles.mp hsaved
  obtain ⟨hfaulty, output, rfl⟩ := announce_eq_ok hannounce
  exact ⟨settings, seed, t, s₂, t', s₃, saved, tree, output, hsettings, hedit, hcollect, hwritten,
    hfaulty, rfl⟩

/-- A command makes a template if each of its steps succeeds. -/
lemma does_create {settings : Settings} {t t' : Template} {s₂ s₃ : Session} {p : Path} {tree : Tree}
    (hsettings : Project.settings.run s.tree = (.ok settings, s.tree))
    (hpath : Project.store.pathFor name = .ok p)
    (hedit : (editUntilValid settings.editorCommand retry "").run s = (.ok t, s₂))
    (hcollect : (t.collect ask {}).run s₂ = (.ok t', s₃))
    (hsave : (Project.store.save name
      (Script.compile { extra := settings.extraFilters } name t' path)).run s₃.tree =
      (.ok p, tree))
    (hfaulty : Console.isFaulty (announcement "Created" name p) = false) :
    Does (create name (path.map Text.Points.ofString) none retry) s fun _ s₁ =>
      ∃ output, s₁ = { s₃ with tree, terminal := s₃.terminal.print output } := by
  have hname : (discard (onFiles (Project.store.requirePath name))).run s = (.ok (), s) := by
    rw [discard_eq_bind]
    exact run_bind_eq_ok.mpr
      ⟨p, s, run_onFiles.mpr ⟨s.tree, Store.run_requirePath hpath s.tree, rfl⟩, rfl⟩
  have hsaved :
      (onFiles (Project.store.save name (Script.compilePoints { extra := settings.extraFilters }
        name t'
      (path.map Text.Points.ofString)))).run s₃ = (.ok p, { s₃ with tree }) := by
    rw [Script.compilePoints_ofString]
    exact run_onFiles.mpr ⟨tree, hsave, rfl⟩
  refine .bind (does_onFiles hsettings (.bind ⟨(), s, hname, .bind (.pure ?_)⟩))
  refine .bind ⟨t, s₂, hedit, .bind ⟨t', s₃, hcollect, .bind ⟨p, { s₃ with tree }, hsaved, ?_⟩⟩⟩
  exact does_announce hfaulty fun output => ⟨output, rfl⟩

/-- What was done when a template was created. -/
lemma create_eq_ok
    (h : (create name (path.map Text.Points.ofString) seedFile retry).run s = (.ok (), s₁)) :
    ∃ settings tried text t defaults descriptions saved,
      Project.settings.run s.tree = (.ok settings, s.tree) ∧
      s.edits = tried ++ some text :: s₁.edits ∧
      Template.parse text = .ok t ∧ Given defaults ∧ Given descriptions ∧
      (Project.store.save name (Script.compile { extra := settings.extraFilters } name
        (t.annotate defaults descriptions) path)).run s.tree = (.ok saved, s₁.tree) ∧
      Console.isFaulty (announcement "Created" name saved) = false := by
  obtain ⟨settings, seed, t, s₂, t', s₃, saved, tree, output, hsettings, hedit, hcollect, hwritten,
      hfaulty, rfl⟩ :=
    create_steps h
  obtain ⟨_, _, hget, hedit⟩ := run_bind_eq_ok.mp hedit
  cases hget
  obtain ⟨tried, text, hedits, hparse, htree⟩ := editFrom_eq_ok hedit
  obtain ⟨defaults, descriptions, hd, he, rfl, ⟨_, rfl⟩⟩ := Template.collect_eq_ok hparse hcollect
  refine ⟨settings, tried, text, t, defaults, descriptions, saved, hsettings, hedits, hparse, hd,
    he, ?_, hfaulty⟩
  rw [Script.compilePoints_ofString] at hwritten
  rw [← htree]
  exact hwritten

/-- What editing can keep: a source that is read back as it is, and a default path that stands in a
script as it is and lasts. -/
structure Editable (source : String) (t : Template) (path : Option String) : Prop where
  parse : Template.parse source = .ok t
  noBackslash : '\\' ∉ source.toList
  noReturn : '\r' ∉ source.toList
  noZero : '\x00' ∉ source.toList
  noFlag : source ≠ "-n"
  filters : ∀ c ∈ t.chains, ∀ f ∈ c.filters, f ∉ reservedWords
  path : ∀ p ∈ path, p ≠ "" ∧ p ≠ "-" ∧ Text.trim p = p ∧ ∀ c ∈ p.toList, Escape.isSpecial c = false

/-- The editor gives the source back, and an empty line waits for each question. -/
structure Untouched (source : String) (t : Template) (s : Session) : Prop where
  editor : s.edits.head? = some (some source)
  answers : List.replicate (1 + Variable.questions t.vars) "" <+: s.terminal.input

section

variable {source : String} {t : Template} {tree : Tree}
  {defaults descriptions : String → Option String}
  {settings : Settings}

/-- The default path of what can be edited lasts. -/
lemma Editable.lasting (h : Editable source t path) : ∀ p ∈ path, Lasting p := by
  intro p hp
  obtain ⟨hempty, hclear, htrim, -⟩ := h.path p hp
  refine ⟨htrim, ?_⟩
  have hvalue : (p.isEmpty || p == clearAnswer) = false := by
    rw [Bool.or_eq_false_iff]
    exact ⟨by simpa using hempty, beq_eq_false_iff_ne.mpr hclear⟩
  rw [answerValue, hvalue]
  rfl

/-- What can be edited stands in a script as it is. -/
lemma Editable.presentable (h : Editable source t path)
    (defaults descriptions : String → Option String) :
    Script.Presentable (t.annotate defaults descriptions) path :=
  Script.presentable_of_parse h.parse h.filters (.of_path fun p hp => (h.path p hp).2.2.2) defaults
    descriptions

/-- The source of a template that can be kept is read back. -/
lemma Editable.readTemplate (h : Editable source t path)
    (hholds : Project.store.Holds tree name
      (Script.compile {} name (t.annotate defaults descriptions) path)) :
    (Project.store.readTemplate name).run tree = (.ok source, tree) := by
  have hpresent := h.presentable defaults descriptions
  have hsource : (t.annotate defaults descriptions).source = source := by
    obtain ⟨ps, -, -, -, rfl⟩ := Source.parse_eq_ok.mp h.parse
    rfl
  obtain ⟨text, htext, -⟩ := Text.exists_decodeLines_encode (Store.echoed source)
  have hread :=
    hholds.readTemplate hpresent (hsource ▸ h.noBackslash) (hsource ▸ h.noZero) (hsource ▸ htext)
  rwa [(Store.dropLineEnd_eq_source_iff htext).mpr ⟨h.noReturn, h.noFlag⟩] at hread

/-- Editing a template without a change leaves the files as they are. -/
lemma edit_again (h : Editable source t path) (hd : Given defaults) (he : Given descriptions)
    (hfaulty : ∀ p, Project.store.pathFor name = .ok p →
      Console.isFaulty (announcement "Updated" name p) = false)
    (hholds : Project.store.Holds tree name
      (Script.compile {} name (t.annotate defaults descriptions) path))
    (hsettings : Project.settings.run tree = (.ok settings, tree))
    (hbuiltin : settings.extraFilters = []) (hs : Untouched source t s) (htree : s.tree = tree) :
    Does (edit name retry) s fun _ s' =>
      s'.tree = tree ∧
      s'.openings = s.openings ++ [{ seed := source, command := settings.editorCommand }] := by
  subst htree
  have hnamed := Template.wellNamed_of_parse h.parse
  have hpresent := h.presentable defaults descriptions
  have hmetadata := hholds.readMetadata hpresent (hnamed.annotate defaults descriptions).nodup
  obtain ⟨rest, hinput⟩ := hs.answers
  rw [List.replicate_add, List.append_assoc] at hinput
  -- What is on offer is what was answered before.
  have hlookup {text : Variable → Option String} {texts : String → Option String}
      (htexts : ∀ v ∈ (t.annotate defaults descriptions).vars,
        text v = (texts v.name).map Escape.escape) :
      ∀ n ∈ t.variableNames,
        (Metadata.texts text (t.annotate defaults descriptions).vars).lookup n = texts n := by
    intro n hn
    rw [Metadata.texts_escaped htexts]
    exact Metadata.lookup_texts (by rwa [← Template.variableNames_annotate] at hn) texts
  refine .bind (does_onFiles hsettings ?_)
  refine .bind (does_onFiles (h.readTemplate hholds) ?_)
  refine .bind (does_onFiles hmetadata ?_)
  refine .bind ⟨t, _, editUntilValid_of_head hs.editor h.parse, ?_⟩
  refine .bind (.bind ((ask_blank (s := { s with
    edits := s.edits.tail
    openings :=
      s.openings ++ [{ seed := source, command := settings.editorCommand }] }) (pathQuestion path)
    hinput.symm).mono ?_))
  rintro _ s₂ ⟨rfl, ⟨_, rfl⟩, hinput₂⟩
  rw [show (pathQuestion path).offered = path from rfl, answerValue_offered h.lasting]
  refine .pure (.bind ((Template.collect_again h.parse hd he
    (hlookup fun v hv => (Template.texts_of_mem_annotate hv).1)
    (hlookup fun v hv => (Template.texts_of_mem_annotate hv).2) hinput₂).mono ?_))
  rintro _ s₃ ⟨rfl, ⟨_, rfl⟩, -⟩
  rw [hbuiltin]
  obtain ⟨saved, hsave⟩ := hholds.save
  exact .bind
    (does_onFiles hsave
      (does_announce (hfaulty saved (Store.save_eq_ok hsave).1) fun _ => ⟨rfl, rfl⟩))

/-- Edits of a template one after the other, each in a session of its own that finds the files as
the one before left them. Gives the sessions at their ends, or the first failure. -/
def editAll (name : String) (retry : Bool) (tree : Tree) :
    List Session → Except Failure (List Session)
  | [] => .ok []
  | s :: rest =>
    match (edit name retry).run { s with tree } with
    | (.error e, _) => .error e
    | (.ok (), s') => (editAll name retry s'.tree rest).map (s' :: ·)

/-- If one edit leaves the files as they are, so does a row of them. -/
lemma editAll_of_does {sessions : List Session}
    (h : ∀ r ∈ sessions, Does (edit name retry) { r with tree } fun _ r' =>
      r'.tree = tree ∧ r'.openings.getLast?.map Opening.seed = some source) :
    ∃ ends, editAll name retry tree sessions = .ok ends ∧ ends.length = sessions.length ∧
      ∀ r ∈ ends, r.tree = tree ∧ r.openings.getLast?.map Opening.seed = some source := by
  induction sessions with
  | nil => exact ⟨[], rfl, rfl, by simp⟩
  | cons r rest ih =>
    obtain ⟨_, r', hrun, htree, hseed⟩ := h r (by simp)
    obtain ⟨ends, hends, hlength, hall⟩ := ih fun q hq => h q (by simp [hq])
    refine ⟨r' :: ends, ?_, by rw [List.length_cons, List.length_cons, hlength], ?_⟩
    · rw [editAll, hrun]
      show (editAll name retry r'.tree rest).map (r' :: ·) = _
      rw [htree, hends]
      rfl
    · intro q hq
      rcases List.mem_cons.mp hq with rfl | hq
      · exact ⟨htree, hseed⟩
      · exact hall q hq

/-- After a template was created, any number of edits that change nothing succeed. Each of them
offers the source as it was written, and the files stay as they were. -/
theorem edit_unchanged (tried : List (Option String)) (hrooted : s.tree.Rooted)
    (hbuiltin : ∀ settings, Project.settings.run s.tree = (.ok settings, s.tree) →
      settings.extraFilters = [])
    (hcreate : (create name (path.map Text.Points.ofString) seedFile retry).run s = (.ok (), s₁))
    (hsource : s.edits = tried ++ some source :: s₁.edits) (h : Editable source t path)
    (again : Bool) {sessions : List Session} (hsessions : ∀ r ∈ sessions, Untouched source t r) :
    (∃ script, Project.store.Holds s₁.tree name script) ∧
      ∃ ends, editAll name again s₁.tree sessions = .ok ends ∧ ends.length = sessions.length ∧
        ∀ r ∈ ends, r.tree = s₁.tree ∧ r.openings.getLast?.map Opening.seed = some source := by
  obtain ⟨settings, tried', source', t', defaults, descriptions, saved, hsettings, hsource', hparse,
    hd, he, hsave,
    hcreated⟩ := create_eq_ok hcreate
  -- The editor's results before and after tell which text was taken last.
  obtain ⟨-, hlast⟩ := List.append_inj' (hsource.symm.trans hsource') rfl
  obtain rfl : source = source' := Option.some.inj (List.cons.inj hlast).1
  obtain rfl : t = t' := Except.ok.inj (h.parse.symm.trans hparse)
  have hextra := hbuiltin settings hsettings
  rw [hextra] at hsave
  have hholds := Store.holds_of_save hsave
  -- The message of an edit has the same tags as that of the creation.
  have hfaulty (p : Path) (hp : Project.store.pathFor name = .ok p) :
      Console.isFaulty (announcement "Updated" name p) = false := by
    obtain rfl : saved = p := Except.ok.inj ((Store.save_eq_ok hsave).1.symm.trans hp)
    rwa [isFaulty_announcement (by decide) (by decide)] at hcreated ⊢
  refine ⟨⟨_, hholds⟩, editAll_of_does fun r hr => ?_⟩
  have hr' : Untouched source t { r with tree := s₁.tree } :=
    ⟨(hsessions r hr).editor, (hsessions r hr).answers⟩
  refine (edit_again h hd he hfaulty hholds (Project.settings_save hrooted hsave hsettings) hextra
    hr' rfl).mono ?_
  rintro _ r' ⟨htree, hopenings⟩
  refine ⟨htree, ?_⟩
  rw [hopenings, List.getLast?_concat]
  rfl

/-- Two edits of a template with a filter, whose default has a quote and blanks around it and whose
second description was left empty, in a project that has no directory yet. -/
theorem edit_unchanged_twice :
    let source := "$ \x7b\x7b who | upper \x7d\x7d\n"
    let s : Session :=
      { tree := {}, terminal := { input := [" \x22me ", "", "later"] }, edits := [some source] }
    let r : Session := { tree := {}, terminal := { input := ["", "", ""] }, edits := [some source] }
    let path := some "src/name.py"
    ∃ s₁, (create "a" (path.map Text.Points.ofString) none false).run s = (.ok (), s₁) ∧
      (∃ script, Project.store.Holds s₁.tree "a" script) ∧
      ∃ ends, editAll "a" false s₁.tree [r, r] = .ok ends ∧ ends.length = [r, r].length ∧
        ∀ r ∈ ends, r.tree = s₁.tree ∧ r.openings.getLast?.map Opening.seed = some source := by
  intro source s r path
  let t : Template :=
    { source
      skeleton := "\\$ $\x7bwho_upper\x7d\n"
      vars := [{ name := "who" }, { name := "name" }]
      chains := [Chain.of "who" ["upper"]]
      usesName := false }
  have hparse : Template.parse source = .ok t := by decide +kernel
  have heditable : Editable source t path := by
    refine ⟨hparse, by decide, by decide, by decide, by decide, by decide, ?_⟩
    intro p hp
    obtain rfl : "src/name.py" = p := Option.some.inj hp
    exact ⟨by decide, by decide, by decide, List.all_iff_forall_prop.mp (by decide)⟩
  have hfaulty (p : Path) (hp : Project.store.pathFor "a" = .ok p) :
      Console.isFaulty (announcement "Created" "a" p) = false := by
    cases hp
    rw [isFaulty_announcement (by decide) (by decide)]
    exact isFaulty_messageTail (by decide) (by decide)
  have hsettings : Project.settings.run s.tree = (.ok {}, s.tree) := rfl
  have hcreate :
      Does (create "a" (path.map Text.Points.ofString) none false) s fun _ s₁ => s₁.edits = [] := by
    refine (does_create hsettings rfl (editUntilValid_of_head rfl hparse) rfl
      (Store.save_of_write rfl rfl rfl)
      (hfaulty _ rfl)).mono ?_
    rintro _ s₁ ⟨_, rfl⟩
    rfl
  obtain ⟨_, s₁, hcreate, hedits⟩ := hcreate
  have hrooted : s.tree.Rooted := by
    intro parts name e he
    simp [s, Tree.get?] at he
  have hbuiltin (settings : Settings) (h : Project.settings.run s.tree = (.ok settings, s.tree)) :
      settings.extraFilters = [] := by
    cases h
    rfl
  refine ⟨s₁, hcreate,
    edit_unchanged [] hrooted hbuiltin hcreate (by rw [hedits]; rfl) heditable false ?_⟩
  intro r' hr'
  obtain rfl : r' = r := by simpa using hr'
  exact ⟨rfl, [], rfl⟩

end

end Command

end Stencil
