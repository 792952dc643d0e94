import Stencil.Proofs.Environment
import Stencil.Proofs.Substitution

/-!
# Results of chains

What the line of a chain assigns. The word behind the equals sign is a substitution for each filter,
the first one innermost. The first filter gets the value of the base between quotes, and sees all of
it. All others get what the one before printed outside of quotes, and see the first field of that
only (`filtered`). Where each of these texts is one field, the filters are composed (`composed`).
-/

namespace Stencil

namespace Shell

/-! ## Filters -/

/-- What the filters make of the value if each sees all that the one before printed. -/
def composed (F : String → List Char → List Char) (value : List Char) (fs : List String) :
    List Char :=
  fs.foldl (fun text f => captured (F f text)) value

/-- What the filters make of the value if the first sees all of it, and each other one the first
field of what the one before printed. -/
def filtered (w : World) (F : String → List Char → List Char) (value : List Char) :
    List String → List Char
  | [] => value
  | f :: fs => fs.foldl (fun text g => captured (F g (w.firstField text))) (captured (F f value))

/-- Filters are composed as long as they print single fields. -/
lemma filtered_eq_composed {w : World} {F : String → List Char → List Char} {value : List Char}
    {fs : List String}
    (h : ∀ gs hs, fs = gs ++ hs → gs ≠ [] → hs ≠ [] → Whole w (composed F value gs)) :
    filtered w F value fs = composed F value fs := by
  -- The induction is on the filters that are left, behind the ones that are done.
  have hfold (gs hs : List String) (hgs : gs ≠ []) (hfs : fs = gs ++ hs) :
      hs.foldl (fun text g => captured (F g (w.firstField text))) (composed F value gs) =
        composed F value (gs ++ hs) := by
    induction hs generalizing gs with
    | nil => rw [List.append_nil, List.foldl_nil]
    | cons f hs ih =>
      have hstep :
          captured (F f (w.firstField (composed F value gs))) = composed F value (gs ++ [f]) := by
        rw [(h gs (f :: hs) hfs hgs (by simp)).firstField_eq, composed, composed, List.foldl_append]
        rfl
      rw [List.foldl_cons, hstep, ih (gs ++ [f]) (by simp) (by simp [hfs]), List.append_assoc,
        List.singleton_append]
  cases fs with
  | nil => rfl
  | cons f fs => exact hfold [f] fs (by simp) rfl

/-! ## Words -/

section

variable {w : World} {F : String → List Char → List Char}

/-- A filter gets the first of the texts that its argument stands for. -/
lemma returns_applied {f : String} {W : Word → Prop} {as : List Atom}
    (hname : isName f.toList = true) (hf : Interprets w f (F f))
    (hW : ∀ v, W v → v.any Part.isArguments = false ∧ Returns w (expandParts v) as) {word : Word}
    (hword : Script.Applied f W word) :
    word.any Part.isArguments = false ∧
      Returns w (expandParts word) (atomsOf false (captured (F f ((w.split as).headD [])))) := by
  obtain ⟨k, v, hv, rfl⟩ := hword
  obtain ⟨hv, hreturns⟩ := hW v hv
  have hwords :=
    (Returns.name hname).allFields_cons ((hreturns.fields hv).allFields_cons .allFields_nil)
  rw [List.append_nil, List.singleton_append] at hwords
  have hsubstitute := (Printing.simple hwords hf.ne_exec (hf.prints _) k).substitute
  refine ⟨rfl, .part ?_⟩
  exact hsubstitute.map (atomsOf false) fun fuel => by rw [expandPart]

/-- A variable is not the list of the arguments. -/
lemma any_isArguments_name {n : List Char} (hn : isName n = true) :
    List.any [.quote, .param n .value [] true] Part.isArguments = false := by
  have hpart : Part.isArguments (.param n .value [] true) = false := by
    unfold Part.isArguments
    split
    · rename_i h
      cases h
      cases hn
    · rfl
  rw [List.any_cons, List.any_cons, hpart]
  rfl

/-- The word of a chain stands for what its filters make of the value of its base. -/
lemma returns_chainWord {c : Chain} {value : List Char} (hbase : isName c.base.toList = true)
    (hvalue : w.vars.lookup c.base.toList = some value)
    (hfilters : ∀ f ∈ c.filters, isName f.toList = true ∧ Interprets w f (F f)) {word : Word}
    (hword : Script.ChainWord c word) : Returns w (textOf word) (filtered w F value c.filters) := by
  have hfold (fs : List String) (hfs : ∀ f ∈ fs, isName f.toList = true ∧ Interprets w f (F f))
    (W : Word → Prop)
      (text : List Char)
        (hW : ∀ v, W v → v.any Part.isArguments = false ∧
          Returns w (expandParts v) (atomsOf false text))
      (hword : fs.foldl (fun W f => Script.Applied f W) W word) :
      Returns w (textOf word)
        (fs.foldl (fun text g => captured (F g (w.firstField text))) text) := by
    induction fs generalizing W text with
    | nil =>
      have htext := (hW word hword).2.textOf
      rwa [joinedText_atomsOf] at htext
    | cons f fs ih =>
      obtain ⟨hname, hf⟩ := hfs f (by simp)
      exact ih (fun g hg => hfs g (by simp [hg])) _ _ (fun v hv => returns_applied hname hf hW hv)
        hword
  have hquoted : Returns w (expandParts [.quote, .param c.base.toList .value [] true])
      (.quote :: value.map (.char · true)) := by
    refine .of_expands fun v hv => ?_
    have h := ((Expands.nil (w := v)).variable hbase (hv.vars ▸ hvalue)).quote
    rwa [List.append_nil] at h
  unfold Script.ChainWord at hword
  cases hfs : c.filters with
  | nil =>
    rw [hfs] at hword
    obtain rfl := hword
    have htext := hquoted.textOf
    rwa [joinedText_quoted] at htext
  | cons f fs =>
    rw [hfs] at hword hfilters
    obtain ⟨hname, hf⟩ := hfilters f (by simp)
    refine hfold fs (fun g hg => hfilters g (by simp [hg])) _ _ (fun v hv => ?_) hword
    have hvariable (u : Word) (hu : u = [.quote, .param c.base.toList .value [] true]) :
        u.any Part.isArguments = false ∧
        Returns w (expandParts u) (.quote :: value.map (.char · true)) :=
      hu ▸ ⟨any_isArguments_name hbase, hquoted⟩
    have happlied := returns_applied hname hf hvariable hv
    rwa [World.split_quoted] at happlied

end

/-! ## Lines -/

/-- A word that is the same wherever it stands is assigned as it is. -/
lemma Evaluates.of_returns {w : World} {n cs text : List Char} {W : Word → Prop}
    (hn : isName n = true) (hfixed : n ∉ w.fixed) (hallowed : isAllowed n text = true)
    (hread : Ending cs W) (hword : ∀ word, W word → Returns w (textOf word) text) :
    Evaluates w (n ++ '=' :: (cs ++ ['\n'])) fun w' => Sets w n text w' ∧ w'.status = 0 := by
  intro r rest hr
  obtain ⟨k, word, r', hnext, hW, hr'⟩ := Reader.next_assign hn hread hr
  obtain ⟨cost, htext⟩ := hword word hW
  refine ⟨_, r', hnext, hr', cost + 3, fun fuel hfuel => ?_⟩
  obtain ⟨fuel, rfl⟩ : ∃ j, fuel = j + 3 := ⟨fuel - 3, by omega⟩
  have halike : Alike w { w with line := k, substStatus := 0, status := 0 } := rfl
  refine run_assign_of_textOf ((htext _ (fuel + 1) halike rfl (by omega)).mono ?_)
  rintro _ w' ⟨rfl, hkept⟩
  rw [hkept.same]
  exact ⟨hfixed, hallowed, rfl, rfl, ⟨rfl, rfl, rfl⟩, rfl⟩

end Shell

namespace Script

open Shell

/-- The line of a chain assigns what its filters make of the value of its base. -/
lemma evaluates_chain {c : Chain} (hname : Name.Valid c.name) (hjoined : '_' ∈ c.name.toList)
    (hbase : Name.Valid c.base) (hvalid : ∀ f ∈ c.filters, Name.Valid f) {w : World}
    {F : String → List Char → List Char} {value : List Char}
    (hvalue : w.vars.lookup c.base.toList = some value) (hfree : c.name.toList ∉ w.fixed)
    (hfilters : ∀ f ∈ c.filters, Interprets w f (F f)) :
    Evaluates w (scanned (Assignment.chain c).line) fun w' =>
      Sets w c.name.toList (filtered w F value c.filters) w' ∧ w'.status = 0 := by
  obtain ⟨p, hp, hmeans⟩ :=
    exists_phrase_chainExpression hbase fun f hf => ⟨hvalid f hf, (hfilters f hf).notReserved⟩
  have hword (word : Word) (hword : p.means word) :
      Returns w (textOf word) (filtered w F value c.filters) :=
    returns_chainWord (isName_of_valid hbase) hvalue
      (fun f hf => ⟨isName_of_valid (hvalid f hf), hfilters f hf⟩) (hmeans word hword)
  have hline : scanned (Assignment.chain c).line = c.name.toList ++ '=' :: (p.text ++ ['\n']) := by
    delta Assignment.line
    simp (disch := first | with_reducible rfl | decide) only [scanned_append, scanned_literal,
      scanned_of_valid hname, hp]
    simp only [List.append_assoc, List.cons_append, List.nil_append]
  rw [hline]
  exact .of_returns (isName_of_valid hname) hfree (isAllowed_of_underscore hjoined _) p.ending hword

/-- The line of a chain, which stands in every script of its template, sets its variable to what the
filters make of the value of its base. The first filter sees all of this value, and each other one
the first field of what the one before printed, which is its first word if no other separators were
set. So filters are composed if there is one of them, or if all but the last print single words. -/
theorem chain_evaluates {source : String} {t : Template} (h : Template.parse source = .ok t)
    {c : Chain} (hc : c ∈ t.chains) {w : World} {F : String → List Char → List Char}
    {value : List Char} (hvalue : w.vars.lookup c.base.toList = some value)
    (hfree : c.name.toList ∉ w.fixed) (hfilters : ∀ f ∈ c.filters, Interprets w f (F f)) :
    (∀ lib name path defaults descriptions, ∃ before after,
      compile lib name (t.annotate defaults descriptions) path =
        before ++ (Assignment.chain c).line ++ after) ∧
      Evaluates w (scanned (Assignment.chain c).line) (fun w' =>
        Sets w c.name.toList (filtered w F value c.filters) w' ∧ w'.status = 0) ∧
      ((∀ gs hs, c.filters = gs ++ hs → gs ≠ [] → hs ≠ [] → Whole w (composed F value gs)) →
        filtered w F value c.filters = composed F value c.filters) ∧
      ∀ text, w.vars.lookup "IFS".toList = none → (∀ x ∈ firstWord text, x ∉ ['*', '?', '[']) →
        w.firstField text = firstWord text := by
  have hnamed := Template.wellNamed_of_parse h
  obtain ⟨hname, hbase, hvalid⟩ := hnamed.chains c hc
  refine ⟨fun lib name path defaults descriptions => ?_,
    evaluates_chain hname (hnamed.joined c hc) hbase hvalid hvalue hfree hfilters,
    filtered_eq_composed, fun text => World.firstField_eq_firstWord⟩
  exact exists_compile_eq_assign (chain_mem_items (by rwa [Template.chains_annotate]))

/-- The body of a function that prints its first argument. -/
abbrev printArgument : Command :=
  .group [.simple 1 [] [plainWord "echo".toList, [.quote, .param ['1'] .value [] true]] []] []

/-- A value with blanks reaches the first filter as it is, and the second one gets its first
word. -/
theorem chain_evaluates_of_blanks :
    let source := "\x7b\x7b a | f | g \x7d\x7d"
    let value := " x  y*\n".toList
    let w : World :=
      { scriptName := "t"
        args := []
        vars := [("a".toList, value)]
        functions := [("f".toList, printArgument), ("g".toList, printArgument)]
        tree := {} }
    let F := fun (_ : String) x => Shell.echo [x]
    ∃ t, Template.parse source = .ok t ∧ Chain.of "a" ["f", "g"] ∈ t.chains ∧
      (∀ f ∈ ["f", "g"], Interprets w f (F f)) ∧
      Evaluates w "a_f_g=$(g $(f \"$a\"))\n".toList
        (fun w' => Sets w "a_f_g".toList "x".toList w' ∧ w'.status = 0) ∧
      composed F value ["f", "g"] = " x  y*".toList := by
  intro source value w F
  have h : Template.parse source = .ok
      { source
        skeleton := "$\x7ba_f_g\x7d"
        vars := [{ name := "a" }, { name := "name" }]
        chains := [Chain.of "a" ["f", "g"]]
        usesName := false } := by decide +kernel
  have hfilters : ∀ f ∈ ["f", "g"], Interprets w f (F f) := by
    intro f hf
    rw [List.mem_cons, List.mem_singleton] at hf
    rcases hf with rfl | rfl
    · exact .echo (by decide) (by decide) (by rfl) (by rfl) (by rfl)
    · exact .echo (by decide) (by decide) (by rfl) (by rfl) (by rfl)
  have hc : Chain.of "a" ["f", "g"] ∈ [Chain.of "a" ["f", "g"]] := List.mem_singleton_self _
  have hvalue : w.vars.lookup "a".toList = some value := rfl
  obtain ⟨-, heval, -⟩ := chain_evaluates h hc hvalue (by decide) hfilters
  have hline : scanned (Assignment.chain (Chain.of "a" ["f", "g"])).line =
      "a_f_g=$(g $(f \"$a\"))\n".toList := by
    decide +kernel
  have hresult : filtered w F value ["f", "g"] = "x".toList := by decide +kernel
  rw [hline] at heval
  exact ⟨_, h, hc, hfilters, hresult ▸ heval, by decide +kernel⟩

/-- Two filters that print their argument leave one word of two. -/
theorem chain_splits_output :
    let script :=
      "f() \x7b\n  echo \"$1\"\n\x7d\na='x y'\n" ++
        (Assignment.chain (Chain.of "a" ["f", "f"])).line
    let start : World := { scriptName := "t", args := [], tree := {} }
    let finished := ((runText (Reader.ofScript (scanned script)) 100).run start).2
    finished.vars.lookup "a_f_f".toList = some "x".toList ∧
      composed (fun _ x => Shell.echo [x]) "x y".toList ["f", "f"] = "x y".toList := by
  decide +kernel

end Script

end Stencil
