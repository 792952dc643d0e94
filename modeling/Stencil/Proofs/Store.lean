import Stencil.Proofs.Files
import Stencil.Proofs.SelfDescription
import Stencil.Project

/-!
# Reading templates back

A script that was saved is there (`Store.Holds`), and it answers when it is asked about its
template. The answer is printed by `echo` and read as lines, which not every source survives:
`Store.readTemplate_save` says which do.
-/

namespace Stencil

open Files Shell

namespace Text

/-- No line end but a line feed is left. -/
lemma return_notMem_unifyLineEnds (cs : List Char) : '\r' ∉ unifyLineEnds cs := by
  fun_induction unifyLineEnds cs with
  | case1 cs ih => simpa using ih
  | case2 cs hnext ih => simpa using ih
  | case3 c cs hnext hreturn ih =>
    simp only [List.mem_cons, not_or]
    exact ⟨fun e => hreturn e.symm, ih⟩
  | case4 => exact List.not_mem_nil

/-- Whatever was encoded can be read as lines. -/
lemma exists_decodeLines_encode (s : String) :
    ∃ text, decodeLines (encode s) = .ok text ∧ '\r' ∉ text.toList := by
  refine ⟨_, by rw [decodeLines, decode_encode]; rfl, ?_⟩
  rw [String.toList_ofList]
  exact return_notMem_unifyLineEnds _

end Text

namespace FileM

variable {tree tree' : Tree}

/-- A step that first asks the files something succeeds if there is an answer and the step succeeds
with it. -/
lemma run_asks {α β : Type} {ask : Tree → Except Unexpected α} {f : α → FileM β} {b : β} :
    (get >>= fun t => liftFile (ask t) >>= f).run tree = (.ok b, tree') ↔
      ∃ a, ask tree = .ok a ∧ (f a).run tree = (.ok b, tree') := by
  constructor
  · intro h
    obtain ⟨_, _, hget, h⟩ := run_bind_eq_ok.mp h
    cases hget
    obtain ⟨a, _, hlift, h⟩ := run_bind_eq_ok.mp h
    cases hask : ask tree with
    | error e =>
      rw [hask] at hlift
      cases hlift
    | ok a =>
      rw [hask] at hlift
      cases hlift
      exact ⟨a, rfl, h⟩
  · rintro ⟨a, hask, h⟩
    refine run_bind_eq_ok.mpr ⟨tree, tree, rfl, run_bind_eq_ok.mpr ⟨a, tree, ?_, h⟩⟩
    rw [hask]
    rfl

/-- A change of files that succeeds. -/
lemma run_change {f : Tree → Except Unexpected Tree} :
    (change f).run tree = (.ok (), tree') ↔ f tree = .ok tree' := by
  rw [change, run_asks]
  constructor
  · rintro ⟨made, hmade, h⟩
    cases h
    exact hmade
  · intro h
    exact ⟨tree', h, rfl⟩

/-- A step goes on after another one that succeeds. -/
lemma run_bind {α β : Type} (act : FileM α) (f : α → FileM β) (tree : Tree) :
    (act >>= f).run tree =
      match act.run tree with
      | (.ok a, tree') => (f a).run tree'
      | (.error e, tree') => (.error e, tree') := by
  show ExceptT.bindCont f (act.run tree).1 (act.run tree).2 = _
  obtain ⟨r, tree'⟩ := act.run tree
  cases r with
  | ok a => rfl
  | error e => rfl

/-- A step that asks the files goes on with the answer, or fails with what they report. -/
lemma run_asks_eq {α β : Type} (ask : Tree → Except Unexpected α) (f : α → FileM β) (tree : Tree) :
    (get >>= fun t => liftFile (ask t) >>= f).run tree =
      match ask tree with
      | .ok a => (f a).run tree
      | .error e => (.error (.unexpected e), tree) := by
  rw [run_bind]
  show (liftFile (ask tree) >>= f).run tree = _
  rw [run_bind]
  cases ask tree with
  | ok a => rfl
  | error e => rfl

/-- A change leaves new files, or fails and leaves those that were. -/
lemma run_change_eq (f : Tree → Except Unexpected Tree) (tree : Tree) :
    (change f).run tree =
      match f tree with
      | .ok tree' => (.ok (), tree')
      | .error e => (.error (.unexpected e), tree) := by
  rw [change, run_asks_eq]
  cases f tree with
  | ok tree' => rfl
  | error e => rfl

/-- A text with an encoding is written. One without leaves an empty file and fails. -/
lemma run_writeText_eq (p : Path) (text : Text.Points) (tree : Tree) :
    (writeText p text).run tree =
      match text.encode with
      | .ok bytes =>
        match tree.write p bytes with
        | .ok written => (.ok (), written)
        | .error e => (.error (.unexpected e), tree)
      | .error e =>
        match tree.write p [] with
        | .ok emptied => (.error (.unexpected (.unencodable e)), emptied)
        | .error e' => (.error (.unexpected e'), tree) := by
  rw [writeText]
  cases text.encode with
  | ok bytes => exact run_change_eq _ tree
  | error e =>
    simp only [run_bind, run_change_eq]
    cases tree.write p [] with
    | ok emptied => rfl
    | error e' => rfl

/-- A text is written exactly if it has an encoding and its bytes can be written. -/
lemma run_writeText {p : Path} {text : Text.Points} :
    (writeText p text).run tree = (.ok (), tree') ↔
      ∃ bytes, text.encode = .ok bytes ∧ tree.write p bytes = .ok tree' := by
  rw [run_writeText_eq]
  constructor
  · intro h
    split at h
    · rename_i bytes hbytes
      split at h
      · rename_i written hwritten
        cases h
        exact ⟨bytes, hbytes, hwritten⟩
      · cases h
    · split at h <;> cases h
  · rintro ⟨bytes, hbytes, hwritten⟩
    simp only [hbytes, hwritten]

end FileM

namespace Store

variable {s : Store} {name script : String} {p : Path} {tree tree' : Tree}

/-! ## Saving -/

/-- The script of a template was saved under its name. -/
def Holds (s : Store) (tree : Tree) (name script : String) : Prop :=
  ∃ p, s.pathFor name = .ok p ∧ tree.Settled p { bytes := Text.encode script, executable := true }

/-- A name with a path is accepted. -/
lemma run_requirePath (h : s.pathFor name = .ok p) (tree : Tree) :
    (s.requirePath name).run tree = (.ok p, tree) := by
  rw [requirePath, h]
  rfl

/-- The path of a template lies in the directory of the store. -/
lemma pathFor_eq_ok (h : s.pathFor name = .ok p) : p = s.root.child (name ++ scriptSuffix) := by
  unfold pathFor at h
  split at h
  · exact (Except.ok.inj h).symm
  · cases h

/-- Saving makes the directory, writes the script and makes it executable. -/
lemma save_eq_ok {script : Text.Points} (h : (s.save name script).run tree = (.ok p, tree')) :
    s.pathFor name = .ok p ∧ ∃ bytes made written, script.encode = .ok bytes ∧
      tree.makeDirectory p.parent = .ok made ∧ made.write p bytes = .ok written ∧
      tree' = written.makeExecutable p := by
  rw [save, run_bind_eq_ok] at h
  obtain ⟨q, _, hq, h⟩ := h
  cases hpath : s.pathFor name with
  | error e =>
    rw [requirePath, hpath] at hq
    cases hq
  | ok q' =>
    rw [run_requirePath hpath] at hq
    cases hq
    obtain ⟨_, made, hmade, h⟩ := run_bind_eq_ok.mp h
    obtain ⟨_, written, hwritten, h⟩ := run_bind_eq_ok.mp h
    obtain ⟨_, _, hmodify, h⟩ := run_bind_eq_ok.mp h
    cases hmodify
    cases h
    obtain ⟨bytes, hbytes, hwritten⟩ := FileM.run_writeText.mp hwritten
    exact ⟨rfl, bytes, made, written, hbytes, FileM.run_change.mp hmade, hwritten, rfl⟩

/-- A text is saved where the directory can be made and the file written. -/
lemma save_of_write {made written : Tree} (hpath : s.pathFor name = .ok p)
    (hmade : tree.makeDirectory p.parent = .ok made)
    (hwritten : made.write p (Text.encode script) = .ok written) :
    (s.save name script).run tree = (.ok p, written.makeExecutable p) := by
  refine run_bind_eq_ok.mpr ⟨p, tree, run_requirePath hpath tree, ?_⟩
  refine run_bind_eq_ok.mpr ⟨(), made, FileM.run_change.mpr hmade, ?_⟩
  have hwrite := FileM.run_writeText.mpr ⟨_, Text.Points.encode_ofString script, hwritten⟩
  exact run_bind_eq_ok.mpr ⟨(), written, hwrite, rfl⟩

/-- After a save the store holds the script. -/
lemma holds_of_save (h : (s.save name script).run tree = (.ok p, tree')) :
    s.Holds tree' name script := by
  obtain ⟨hpath, bytes, made, written, hbytes, -, hwritten, rfl⟩ := save_eq_ok h
  obtain rfl : Text.encode script = bytes :=
    Except.ok.inj ((Text.Points.encode_ofString script).symm.trans hbytes)
  refine ⟨p, hpath, .of_write ?_ hwritten⟩
  rw [pathFor_eq_ok hpath]
  exact List.append_ne_nil_of_right_ne_nil _ (List.cons_ne_nil _ _)

/-- Saving changes nothing else that lies as deep. -/
lemma get?_save {script : Text.Points} (h : (s.save name script).run tree = (.ok p, tree'))
    {other : List String} (hdeep : s.root.parts.length < other.length)
    (hother : other ≠ s.root.parts ++ [name ++ scriptSuffix]) :
    tree'.get? other = tree.get? other := by
  obtain ⟨hpath, bytes, made, written, -, hmade, hwritten, rfl⟩ := save_eq_ok h
  obtain rfl := pathFor_eq_ok hpath
  obtain ⟨-, -, executable, rfl⟩ := Tree.write_eq_ok hwritten
  have hne : other ≠ (s.root.child (name ++ scriptSuffix)).parts := hother
  rw [Tree.get?_makeExecutable hne, Tree.get?_set_of_ne hne, Tree.makeDirectory_eq_ok hmade]
  refine Tree.get?_makeFrom tree ?_
  simpa [Path.parent, Path.child] using hdeep

namespace Holds

/-- A script that a store holds is found and read. -/
lemma require (h : s.Holds tree name script) :
    ∃ p, (s.require name).run tree = (.ok p, tree) ∧ tree.read p = .ok (Text.encode script) := by
  obtain ⟨p, hpath, hsettled⟩ := h
  refine ⟨p, run_bind_eq_ok.mpr ⟨p, tree, run_requirePath hpath tree, ?_⟩, hsettled.read⟩
  exact FileM.run_asks.mpr ⟨true, hsettled.isFile, rfl⟩

/-- A script that was saved can be saved again, which changes nothing. -/
lemma save (h : s.Holds tree name script) : ∃ p, (s.save name script).run tree = (.ok p, tree) := by
  obtain ⟨p, hpath, hsettled⟩ := h
  refine ⟨p, ?_⟩
  rw [save_of_write hpath hsettled.makeDirectory hsettled.write, hsettled.makeExecutable rfl]

/-- What a script prints that runs to its end. -/
lemma describe (h : s.Holds tree name script) {request printed text : String}
    (hrun : Finishes (raw request.toList) tree (scanned script) [] (raw printed.toList))
    (htext : Text.decodeLines (Text.encode printed) = .ok text) :
    (s.describe name request).run tree = (.ok text, tree) := by
  obtain ⟨p, hrequire, hread⟩ := h.require
  refine run_bind_eq_ok.mpr ⟨p, tree, hrequire, FileM.run_asks.mpr ⟨Text.encode script, hread, ?_⟩⟩
  refine run_bind_eq_ok.mpr ⟨tree, tree, rfl, ?_⟩
  rw [runScript_of_finishes p.toString hrun]
  refine run_bind_eq_ok.mpr ⟨(), tree, rfl, ?_⟩
  rw [htext]
  rfl

end Holds

/-! ## Reading a source -/

/-- A newline at the end is dropped. -/
lemma dropLineEnd_append (s : String) : dropLineEnd (s ++ "\n") = s := by
  have hend : Text.endsWith (s ++ "\n") "\n" = true := by
    simp [Text.endsWith, Text.dropStart?]
  rw [dropLineEnd, if_pos hend, String.toList_append, show "\n".toList = ['\n'] from rfl,
    List.dropLast_concat, String.ofList_toList]

/-- Dropping the newline adds no character. -/
lemma mem_of_mem_dropLineEnd {c : Char} {s : String} (h : c ∈ (dropLineEnd s).toList) :
    c ∈ s.toList := by
  unfold dropLineEnd at h
  split at h
  · rw [String.toList_ofList] at h
    exact List.dropLast_subset _ h
  · exact h

/-- What `echo` makes of a source. One that is the flag of `echo` is not printed. -/
def echoed (source : String) : String :=
  if source = "-n" then "" else source ++ "\n"

/-- A source without backslashes is printed as it is. -/
lemma echo_source {source : String} (hbackslash : '\\' ∉ source.toList)
    (hzero : '\x00' ∉ source.toList) :
    Shell.echo [scanned source] = raw (echoed source).toList := by
  have hflag : raw "-n".toList = ['-', 'n'] := raw_ascii (List.all_iff_forall_prop.mp (by decide))
  rw [scanned_eq_raw hzero]
  unfold echoed
  split
  · rename_i h
    rw [h, hflag]
    rfl
  · rename_i h
    rw [echo_of_inert (Inert.of_no_backslash hbackslash).raw, String.toList_append, raw_append]
    · rfl
    · intro e
      exact h (String.toList_inj.mp (raw_inj (e.trans hflag.symm)))

/-- A source is read back unless lines are read in another way than they were written, or nothing
was printed. -/
lemma dropLineEnd_eq_source_iff {source text : String}
    (h : Text.decodeLines (Text.encode (echoed source)) = .ok text) :
    dropLineEnd text = source ↔ '\r' ∉ source.toList ∧ source ≠ "-n" := by
  constructor
  · -- What was read as lines holds no carriage return, and nothing is read if nothing was printed.
    rintro rfl
    obtain ⟨text', htext, hreturn⟩ := Text.exists_decodeLines_encode (echoed (dropLineEnd text))
    obtain rfl : text' = text := Except.ok.inj (htext.symm.trans h)
    refine ⟨fun hr => hreturn (mem_of_mem_dropLineEnd hr), fun hflag => ?_⟩
    rw [echoed, if_pos hflag] at h
    obtain rfl : "" = text' := Except.ok.inj h
    exact absurd hflag (by decide)
  · rintro ⟨hreturn, hflag⟩
    rw [echoed, if_neg hflag, Text.decodeLines_encode] at h
    · obtain rfl := Except.ok.inj h
      exact dropLineEnd_append source
    · rw [String.toList_append, List.mem_append, not_or]
      exact ⟨hreturn, by decide⟩

/-- The source of a script that was saved is what is read of what it prints. -/
lemma Holds.readTemplate {t : Template} {path : Option String}
    (h : s.Holds tree name (Script.compile {} name t path)) (hpresent : Script.Presentable t path)
    (hbackslash : '\\' ∉ t.source.toList) (hzero : '\x00' ∉ t.source.toList) {text : String}
    (htext : Text.decodeLines (Text.encode (echoed t.source)) = .ok text) :
    (s.readTemplate name).run tree = (.ok (dropLineEnd text), tree) := by
  have hrequest : raw "get-template".toList = "get-template".toList :=
    raw_ascii (List.all_iff_forall_prop.mp (by decide))
  have hrun := Script.finishes_compile hpresent name tree (.inl hrequest)
  rw [if_pos hrequest, echo_source hbackslash hzero] at hrun
  exact run_bind_eq_ok.mpr ⟨text, tree, h.describe hrun htext, rfl⟩

/-- The source of a template that was saved is always read, and it is the same unless it holds a
carriage return or is the flag of `echo`. -/
theorem readTemplate_save {source : String} {t : Template} (hparse : Template.parse source = .ok t)
    (hbackslash : '\\' ∉ source.toList) (hzero : '\x00' ∉ source.toList)
    (hfilters : ∀ c ∈ t.chains, ∀ f ∈ c.filters, f ∉ reservedWords) {path : Option String}
    (hpath : ∀ q, path = some q → ∀ c ∈ q.toList, Escape.isSpecial c = false)
    (defaults descriptions : String → Option String)
    (hsave : (s.save name (Script.compile {} name (t.annotate defaults descriptions) path)).run
      tree = (.ok p, tree')) :
    ∃ text, (s.readTemplate name).run tree' = (.ok text, tree') ∧
      (text = source ↔ '\r' ∉ source.toList ∧ source ≠ "-n") := by
  have hpresent :=
    Script.presentable_of_parse hparse hfilters (.of_path hpath) defaults descriptions
  obtain rfl : t.source = source := by
    obtain ⟨ps, -, -, -, rfl⟩ := Source.parse_eq_ok.mp hparse
    rfl
  obtain ⟨text, htext, -⟩ := Text.exists_decodeLines_encode (echoed t.source)
  exact ⟨_, (holds_of_save hsave).readTemplate hpresent hbackslash hzero htext,
    dropLineEnd_eq_source_iff htext⟩

/-- A source with quotes, a dollar and two line ends, whose variable has both texts, and a path. -/
theorem readTemplate_save_quotes :
    let source := "\x22$HOME\x22 \x7b\x7b who | upper \x7d\x7d\n\n"
    let texts := fun n => if n = "who" then some "\x60me\x60" else none
    ∃ t p tree', Template.parse source = .ok t ∧
      (Project.store.save "a"
        (Script.compile {} "a" (t.annotate texts texts) (some "src/name.py"))).run {} =
        (.ok p, tree') ∧
      ∃ text, (Project.store.readTemplate "a").run tree' = (.ok text, tree') ∧
        (text = source ↔ '\r' ∉ source.toList ∧ source ≠ "-n") := by
  intro source texts
  have hparse : Template.parse source = .ok
      { source
        skeleton := "\\\x22\\$HOME\\\x22 $\x7bwho_upper\x7d\n\n"
        vars := [{ name := "who" }, { name := "name" }]
        chains := [Chain.of "who" ["upper"]]
        usesName := false } := by decide +kernel
  have hsave (script : String) : ∃ p tree',
      (Project.store.save "a" script).run {} = (.ok p, tree') := by
    exact ⟨_, _, save_of_write rfl rfl rfl⟩
  obtain ⟨p, tree', hsave⟩ := hsave _
  exact ⟨_, p, tree', hparse, hsave, readTemplate_save hparse (by decide) (by decide) (by decide)
    (by rintro _ ⟨⟩; exact List.all_iff_forall_prop.mp (by decide)) texts texts hsave⟩

end Store

end Stencil
