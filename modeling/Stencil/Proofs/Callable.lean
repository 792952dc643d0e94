import Stencil.Proofs.Assignment
import Stencil.Proofs.FirstUse
import Stencil.Proofs.SelfDescription
import Stencil.Proofs.Shell.Refusal
import Stencil.Proofs.Transport

/-!
# Filters that can be called

A filter is called by its name, and its definition gives this name to a function. Names are checked,
but a reserved word of the shell is a name as well. The line of a chain is refused if one of its
filters is a reserved word, and so is the definition of a filter that no function may be named
after. The script of a template answers its requests if none of its filters is of this kind
(`FilterLibrary.Callable`), and is refused as a whole otherwise.
-/

namespace Stencil

open Shell

namespace FilterLibrary

/-- The name of the filter reaches a command: it is no reserved word, and a function may have it if
one is to. -/
def Callable (lib : FilterLibrary) (f : String) : Prop :=
  f ∉ reservedWords ∧ (lib.contains f = true → f ∉ specialBuiltins)

/-- Whether a filter can be called can be decided. -/
instance (lib : FilterLibrary) (f : String) : Decidable (lib.Callable f) :=
  inferInstanceAs (Decidable (_ ∧ _))

/-- Those among the filters that are the project's own and can be called have bodies that read as
commands. -/
def Legible (lib : FilterLibrary) (fs : List String) : Prop :=
  ∀ f ∈ fs, lib.Callable f → ∀ body, lib.extra.lookup f = some body →
    Readable false (scanned (Script.bodyLines body))

end FilterLibrary

namespace Script

/-! ## Chains -/

/-- Calls around a text that is blocked are blocked. -/
lemma blocked_calls {fs : List String} (hvalid : ∀ f ∈ fs, Name.Valid f) {e : String}
    (he : Blocked (scanned e)) :
    Blocked (scanned (fs.foldl (fun e f => "$(" ++ f ++ " " ++ e ++ ")") e)) := by
  induction fs generalizing e with
  | nil => exact he
  | cons f fs ih =>
    have hf := hvalid f List.mem_cons_self
    apply ih (fun g hg => hvalid g (List.mem_cons_of_mem f hg))
    rw [scanned_apply hf]
    exact he.call (isName_of_valid hf)

/-- Up to the first reserved word the calls around a word are a word. From there on they are
none. -/
lemma blocked_calls_of_reserved {fs : List String} (hvalid : ∀ f ∈ fs, Name.Valid f)
    (hres : ∃ f ∈ fs, f ∈ reservedWords) {e : String}
    (he : ∃ p : Phrase, scanned e = p.text ∧ ∀ word, p.means word → plainText? word = none) :
    Blocked (scanned (fs.foldl (fun e f => "$(" ++ f ++ " " ++ e ++ ")") e)) := by
  induction fs generalizing e with
  | nil =>
    obtain ⟨_, hmem, -⟩ := hres
    cases hmem
  | cons f fs ih =>
    have hf := hvalid f List.mem_cons_self
    have hrest := fun g hg => hvalid g (List.mem_cons_of_mem f hg)
    by_cases hreserved : f ∈ reservedWords
    · obtain ⟨p, hp, hplain⟩ := he
      apply blocked_calls hrest
      rw [scanned_apply hf, hp]
      exact blocked_of_reserved (isName_of_valid hf) hreserved (Unfit.phrase p hplain)
    · obtain ⟨g, hg, hgres⟩ := hres
      have hmem : g ∈ fs := by
        rcases List.mem_cons.mp hg with rfl | hg
        · exact absurd hgres hreserved
        · exact hg
      apply ih hrest ⟨g, hmem, hgres⟩
      -- What a call stands for is no plain word, whatever its argument stands for.
      obtain ⟨p, hp, hmeans⟩ := exists_phrase_apply hf (by simpa using hreserved) he
      refine ⟨p, hp, fun word hword => ?_⟩
      obtain ⟨k, v, -, rfl⟩ := hmeans word hword
      rfl

/-- A chain with a reserved word among its filters has no expression. -/
lemma blocked_chainExpression {c : Chain} (hbase : Name.Valid c.base)
    (hvalid : ∀ f ∈ c.filters, Name.Valid f) (hres : ∃ f ∈ c.filters, f ∈ reservedWords) :
    Blocked (scanned (chainExpression c)) := by
  refine blocked_calls_of_reserved hvalid hres ?_
  obtain ⟨p, hp, hmeans⟩ := exists_phrase_value hbase
  refine ⟨p, hp, fun word hword => ?_⟩
  rw [hmeans word hword]
  rfl

/-- The shell sees the line of a chain as it is written. -/
lemma scanned_chainLine {c : Chain} (hname : Name.Valid c.name) :
    scanned (c.name ++ "=" ++ chainExpression c ++ "\n") =
      c.name.toList ++ '=' :: (scanned (chainExpression c) ++ ['\n']) := by
  simp (disch := first | with_reducible rfl | decide) only [scanned_append, scanned_literal,
    scanned_of_valid hname, List.append_assoc, List.cons_append, List.nil_append]

/-- A chain whose expression is blocked jams. -/
lemma jams_chain {c : Chain} (hname : Name.Valid c.name) (h : Blocked (scanned (chainExpression c)))
    (text : List Char) : Jams (scanned (c.name ++ "=" ++ chainExpression c ++ "\n") ++ text) := by
  obtain ⟨d, n, hn, -, hall⟩ := exists_of_isName (isName_of_valid hname)
  -- The name and the sign are part of the word that the expression stands in.
  have hsticks :
      Sticks ((c.name.toList ++ ['=']) ++ (scanned (chainExpression c) ++ '\n' :: text)) := by
    apply Sticks.chars _ (h.sticks _)
    intro x hx
    rcases List.mem_append.mp hx with hx | hx
    · exact isOrdinary_of_isNameChar (hall x (hn ▸ hx))
    · rw [List.mem_singleton.mp hx]
      decide
  rw [scanned_chainLine hname]
  simp only [hn, List.append_assoc, List.cons_append, List.nil_append] at hsticks ⊢
  exact hsticks.jams (startsWord_of_isNameChar (hall d List.mem_cons_self))

/-- The line of a chain is an assignment, or no command at all. -/
lemma next_chain {c : Chain} (hname : Name.Valid c.name) (hbase : Name.Valid c.base)
    (hvalid : ∀ f ∈ c.filters, Name.Valid f) {r : Reader} {rest : List Char}
    (hr : r.rest = scanned (c.name ++ "=" ++ chainExpression c ++ "\n") ++ rest) :
    (∀ f ∈ c.filters, f ∉ reservedWords) ∧
        (∃ k word r', r.next = .ok (some [.simple k [(c.name.toList, word)] [] []], r') ∧
          ChainWord c word ∧
          r'.rest = rest) ∨
      (∃ f ∈ c.filters, f ∈ reservedWords) ∧ ∃ e, r.next = .error e := by
  by_cases hres : ∃ f ∈ c.filters, f ∈ reservedWords
  · refine .inr ⟨hres, ?_⟩
    apply Jams.reader_next
    rw [hr]
    exact jams_chain hname (blocked_chainExpression hbase hvalid hres) rest
  · have hfree : ∀ f ∈ c.filters, f ∉ reservedWords := fun f hf hmem => hres ⟨f, hf, hmem⟩
    refine .inl ⟨hfree, ?_⟩
    obtain ⟨p, hp, hmeans⟩ :=
      exists_phrase_chainExpression hbase fun f hf => ⟨hvalid f hf, by simpa using hfree f hf⟩
    rw [scanned_chainLine hname, hp] at hr
    obtain ⟨k, word, r', hnext, hword, hr'⟩ :=
      Reader.next_assign (isName_of_valid hname) p.ending hr
    exact ⟨k, word, r', hnext, hmeans word hword, hr'⟩

/-! ## Definitions -/

variable {lib : FilterLibrary} {t : Template} {path : Option String}

/-- The definition of a filter reads as a command if the filter can be called and its body reads as
commands. -/
lemma section_function {fs : List String} (hbodies : lib.Legible fs) {f s : String} (hmem : f ∈ fs)
    (hf : Name.Valid f) (hcallable : lib.Callable f) (h : lib.function? f = some s) :
    FullSection s := by
  cases hextra : lib.extra.lookup f with
  | none =>
    apply section_filter (f := f)
    rw [← h, FilterLibrary.function?, FilterLibrary.function?, FilterLibrary.body?,
      FilterLibrary.body?, hextra]
    rfl
  | some body =>
    have hknown : lib.body? f = some body := by
      rw [FilterLibrary.body?, hextra]
      rfl
    have hspecial := hcallable.2 (by rw [FilterLibrary.contains, hknown]; rfl)
    rw [FilterLibrary.function?, hknown] at h
    obtain rfl := Option.some.inj h
    exact section_body hf (by simpa using hspecial) (by simpa using hcallable.1)
      (hbodies f hmem hcallable body hextra)

/-- The definition of a filter that cannot be called is refused. -/
lemma obstacle_function {f s : String} (hf : Name.Valid f) (hcallable : ¬lib.Callable f)
    (h : lib.function? f = some s) : Obstacle s := by
  obtain ⟨body, hbody, rfl⟩ := Option.map_eq_some_iff.mp h
  have hbad : f ∈ reservedWords ∨ f ∈ specialBuiltins := by
    by_contra hno
    exact hcallable ⟨fun hres => hno (.inl hres), fun _ hspecial => hno (.inr hspecial)⟩
  intro text e
  rw [define_eq]
  simp (disch := first | with_reducible rfl | decide) only [scanned_append, scanned_literal,
    scanned_of_valid hf, List.append_assoc, List.cons_append, List.nil_append]
  exact refused_define (isName_of_valid hf) hbad _

section

variable {fs : List String} (hvalid : ∀ f ∈ fs, Name.Valid f) (hbodies : lib.Legible fs)
include hvalid hbodies

/-- Definitions of filters that can be called are a section. -/
lemma section_render (h : ∀ f ∈ fs, lib.contains f = true → lib.Callable f) :
    Section (lib.render fs) := by
  apply Section.join
  intro s hs
  simp only [List.mem_filterMap, List.mem_eraseDups] at hs
  obtain ⟨f, hf, hfs⟩ := hs
  obtain ⟨body, hbody, -⟩ := Option.map_eq_some_iff.mp hfs
  have hcontains : lib.contains f = true := by
    rw [FilterLibrary.contains, hbody]
    rfl
  exact (section_function hbodies hf (hvalid f hf) (h f hf hcontains) hfs).toSection

/-- The definition of a filter that cannot be called is an obstacle. -/
lemma obstacle_render (h : ∃ f ∈ fs, lib.contains f = true ∧ ¬lib.Callable f) :
    Obstacle (lib.render fs) := by
  apply Obstacle.join
  · intro s hs
    simp only [List.mem_filterMap, List.mem_eraseDups] at hs
    obtain ⟨f, hf, hfs⟩ := hs
    by_cases hcallable : lib.Callable f
    · exact .inl (section_function hbodies hf (hvalid f hf) hcallable hfs).toSection
    · exact .inr (obstacle_function (hvalid f hf) hcallable hfs)
  · obtain ⟨f, hf, hcontains, hcallable⟩ := h
    obtain ⟨body, hbody⟩ := Option.isSome_iff_exists.mp hcontains
    have hfs : lib.function? f = some (FilterLibrary.define f body) := by
      rw [FilterLibrary.function?, hbody]
      rfl
    refine ⟨_, List.mem_filterMap.mpr ⟨f, ?_, hfs⟩, obstacle_function (hvalid f hf) hcallable hfs⟩
    exact List.mem_eraseDups.mpr hf

end

/-- A chain with a reserved word among its filters is an obstacle. -/
lemma obstacle_chains {cs : List Chain}
    (hchains : ∀ c ∈ cs, Name.Valid c.name ∧ Name.Valid c.base ∧ ∀ f ∈ c.filters, Name.Valid f)
    (h : ∃ c ∈ cs, ∃ f ∈ c.filters, f ∈ reservedWords) :
    Obstacle (String.join (cs.map fun c => c.name ++ "=" ++ chainExpression c ++ "\n")) := by
  have hline {c : Chain} (hc : c ∈ cs) (hres : ∃ f ∈ c.filters, f ∈ reservedWords) :
      Obstacle (c.name ++ "=" ++ chainExpression c ++ "\n") := by
    obtain ⟨hname, hbase, hvalid⟩ := hchains c hc
    intro text e
    exact .of_jams (jams_chain hname (blocked_chainExpression hbase hvalid hres) text)
  apply Obstacle.join
  · intro s hs
    obtain ⟨c, hc, rfl⟩ := List.mem_map.mp hs
    by_cases hres : ∃ f ∈ c.filters, f ∈ reservedWords
    · exact .inr (hline hc hres)
    · obtain ⟨hname, hbase, hvalid⟩ := hchains c hc
      refine .inl (section_chain hname hbase fun f hf => ⟨hvalid f hf, ?_⟩).toSection
      simpa using fun hmem => hres ⟨f, hf, hmem⟩
  · obtain ⟨c, hc, hres⟩ := h
    exact ⟨_, List.mem_map_of_mem hc, hline hc hres⟩

/-- The filters of a template are refused if one of them cannot be called. -/
lemma obstacle_filters
    (hchains : ∀ c ∈ t.chains, Name.Valid c.name ∧ Name.Valid c.base ∧
      ∀ f ∈ c.filters, Name.Valid f)
    (hbodies : lib.Legible t.usedFilters) (h : ¬∀ f ∈ t.usedFilters, lib.Callable f) :
    Obstacle (filters lib t) := by
  have hvalid : ∀ f ∈ t.usedFilters, Name.Valid f := by
    intro f hf
    obtain ⟨c, hc, hfc⟩ := Template.mem_usedFilters.mp hf
    exact (hchains c hc).2.2 f hfc
  obtain ⟨f, hf, hcallable⟩ : ∃ f ∈ t.usedFilters, ¬lib.Callable f := by simpa using h
  obtain ⟨c, hc, hfc⟩ := Template.mem_usedFilters.mp hf
  have hsome : t.chains.isEmpty = false := List.isEmpty_eq_false_iff.mpr (List.ne_nil_of_mem hc)
  rw [filters, hsome, if_neg (by decide)]
  -- A definition is refused, or all of them read as commands and the line of a chain is refused.
  by_cases hdefined : ∃ g ∈ t.usedFilters, lib.contains g = true ∧ ¬lib.Callable g
  · have hrender := obstacle_render hvalid hbodies hdefined
    exact Obstacle.append (.append (.after (.heading rfl (by decide)) hrender) _) _
  · have hgood : ∀ g ∈ t.usedFilters, lib.contains g = true → lib.Callable g := by
      intro g hg hcontains
      by_contra hbad
      exact hdefined ⟨g, hg, hcontains, hbad⟩
    have hres : f ∈ reservedWords := by
      by_contra hno
      exact hcallable ⟨hno, fun hcontains => (hgood f hf hcontains).2 hcontains⟩
    have hrender := section_render hvalid hbodies hgood
    refine Obstacle.after
      (.append (.append (.heading rfl (by decide)) hrender) (.heading rfl (by decide))) ?_
    exact obstacle_chains hchains ⟨c, hc, f, hfc, hres⟩

/-! ## Scripts -/

set_option maxRecDepth 4000 in
/-- A script whose filters are refused is refused as a whole. -/
lemma stumbles_compile (h : Fitting t path) (hfilters : Obstacle (filters lib t)) (name : String)
    (tree : Files.Tree) (request : List Char) :
    Stumbles request tree (scanned (compile lib name t path)) [] := by
  obtain ⟨htemplate, hvars⟩ := quoted_requests
  have hinside := Obstacle.after (h.head name) hfilters
  have hblock : Refused false _ :=
    lays_refused.empty (lays_refused.comment 0 " normal template-outputing block".toList
    (by decide) (hinside (scanned (output t path ++ guardClose ++ editing t path)) false))
  -- To the reader the block is one command with its test, so nothing of it is run.
  have hguard : Stumbles request tree _ [] := .of_next fun r hr =>
    hblock.reader_next ((commandText_differ htemplate).and (commandText_differ hvars)) hr
  have hscript := Runs.comment "!/bin/sh".toList (by decide) (.set (.empty hguard))
  delta compile preamble guardOpen
  simp (disch := first | with_reducible rfl | decide) only [scanned_append,
    scanned_literal] at hscript ⊢
  simp (disch := with_reducible rfl) only [Text.toList_literal, List.reduceReplicate, Shell.line,
    Phrase.text_plain, Phrase.text_quoted, List.append_assoc, List.cons_append,
    List.nil_append] at hscript ⊢
  exact hscript

section

variable {source : String} (hparse : Template.parse source = .ok t) (hpath : OutputPath.Plain path)
  (hbodies : lib.Legible t.usedFilters) (name scriptName : String)
    (defaults descriptions : String → Option String)
  (tree : Files.Tree)
include hparse hpath hbodies

/-- If all filters can be called, the script prints its source and its payload when it is asked for
them. -/
lemma runScript_of_callable (h : ∀ f ∈ t.usedFilters, lib.Callable f) :
    let annotated := t.annotate defaults descriptions
    let run :=
      fun request =>
        runScript tree scriptName (Text.encode (compile lib name annotated path)) [request]
    run "get-template" =
      { status := some 0, out := toBytes (Shell.echo [scanned source]), err := [], tree } ∧
      run "get-vars" =
        { status := some 0, out := Text.encode (Metadata.payload annotated path ++ "\n"), err := [],
          tree } := by
  intro annotated run
  have hfitting : Fitting annotated path := fitting_of_parse hparse hpath defaults descriptions
  have hsource : annotated.source = source := by
    obtain ⟨ps, -, -, -, rfl⟩ := Source.parse_eq_ok.mp hparse
    rfl
  have hreserved : ∀ c ∈ t.chains, ∀ f ∈ c.filters, f ∉ reservedWords :=
    fun c hc f hf => (h f (Template.mem_usedFilters.mpr ⟨c, hc, hf⟩)).1
  have hfilters : Section (filters lib annotated) := by
    refine (presentable_of_parse hparse hreserved hpath defaults descriptions).section_filters
      fun f hf s hs => ?_
    obtain ⟨c, hc, hfc⟩ := Template.mem_usedFilters.mp hf
    have hmem : f ∈ t.usedFilters := Template.mem_usedFilters.mpr ⟨c, hc, hfc⟩
    exact section_function hbodies hmem ((hfitting.chains c hc).2.2 f hfc) (h f hmem) hs
  have hrequest (s : String) (hs : s.toList.all (·.toNat < 128) = true) : raw s.toList = s.toList :=
    raw_ascii (List.all_iff_forall_prop.mp hs)
  have htemplate := hrequest "get-template" (by decide)
  have hvars := hrequest "get-vars" (by decide)
  have hfirst := finishes_compile_of_section hfitting hfilters name tree (.inl htemplate)
  have hsecond := finishes_compile_of_section hfitting hfilters name tree (.inr hvars)
  rw [if_pos htemplate, hsource] at hfirst
  rw [if_neg (by rw [hvars]; decide), Metadata.echo_payload hfitting.vars path] at hsecond
  exact ⟨runScript_eq_of_finishes scriptName hfirst, runScript_of_finishes scriptName hsecond⟩

/-- If a filter cannot be called, the script is refused whatever it is asked for. -/
lemma runScript_of_not_callable (h : ¬∀ f ∈ t.usedFilters, lib.Callable f) (request : String) :
    let script := compile lib name (t.annotate defaults descriptions) path
    ∃ err,
      runScript tree scriptName (Text.encode script) [request] =
        { status := some 2, out := [], err, tree } := by
  intro script
  have hfitting := fitting_of_parse hparse hpath defaults descriptions
  exact runScript_of_stumbles scriptName
    (stumbles_compile hfitting (obstacle_filters hfitting.chains hbodies h) name tree _)

end

/-- Of a template that was read, the line of a chain is an assignment if none of its filters is a
reserved word, and no command otherwise, whatever follows it. Provided that the path has no special
characters and the bodies of the project's filters read as commands, the script prints its source
and its payload when it is asked for them if all filters can be called. It is refused before it does
anything, whatever it is asked for, if one of them cannot. -/
theorem answers_iff_callable {source : String} {t : Template}
    (hparse : Template.parse source = .ok t) :
    (∀ c ∈ t.chains, ∀ (r : Reader) (rest : List Char),
      r.rest = scanned (c.name ++ "=" ++ chainExpression c ++ "\n") ++ rest →
        (∀ f ∈ c.filters, f ∉ reservedWords) ∧
          (∃ k word r', r.next = .ok (some [.simple k [(c.name.toList, word)] [] []], r') ∧
            ChainWord c word ∧
            r'.rest = rest) ∨
        (∃ f ∈ c.filters, f ∈ reservedWords) ∧ ∃ e, r.next = .error e) ∧
    ∀ (lib : FilterLibrary) (path : Option String), OutputPath.Plain path →
      lib.Legible t.usedFilters →
      ∀ (name scriptName : String) (defaults descriptions : String →
        Option String) (tree : Files.Tree),
        let annotated := t.annotate defaults descriptions
        let run :=
          fun request =>
            runScript tree scriptName (Text.encode (compile lib name annotated path)) [request]
        ((∀ f ∈ t.usedFilters, lib.Callable f) →
          run "get-template" =
            { status := some 0, out := toBytes (Shell.echo [scanned source]), err := [], tree } ∧
          run "get-vars" =
            { status := some 0, out := Text.encode (Metadata.payload annotated path ++ "\n"),
              err := [], tree }) ∧
        ((¬∀ f ∈ t.usedFilters, lib.Callable f) →
          ∀ request, ∃ err, run request = { status := some 2, out := [], err, tree }) := by
  refine ⟨fun c hc r rest hr => ?_,
    fun lib path hpath hbodies name scriptName defaults descriptions tree => ?_⟩
  · obtain ⟨hname, hbase, hvalid⟩ := (Template.wellNamed_of_parse hparse).chains c hc
    exact next_chain hname hbase hvalid hr
  · intro annotated run
    constructor
    · exact runScript_of_callable hparse hpath hbodies name scriptName defaults descriptions tree
    · exact runScript_of_not_callable hparse hpath hbodies name scriptName defaults descriptions
        tree

/-- A filter of the project, a built-in one, and one that is no filter but is named after a special
command. -/
theorem answers_iff_callable_of_set :
    let source := "\x7b\x7b a | rev \x7d\x7d\x7b\x7b b | set | upper \x7d\x7d"
    let lib : FilterLibrary := { extra := [("rev", "echo \"$1\" | rev")] }
    let path := some "src/a.py"
    ∃ t, Template.parse source = .ok t ∧ OutputPath.Plain path ∧ lib.Legible t.usedFilters ∧
      (∀ f ∈ t.usedFilters, lib.Callable f) ∧
      ∀ (name scriptName : String) (defaults descriptions : String →
        Option String) (tree : Files.Tree),
        let annotated := t.annotate defaults descriptions
        let run :=
          fun request =>
            runScript tree scriptName (Text.encode (compile lib name annotated path)) [request]
        run "get-template" =
          { status := some 0, out := toBytes (Shell.echo [scanned source]), err := [], tree } ∧
        run "get-vars" =
          { status := some 0, out := Text.encode (Metadata.payload annotated path ++ "\n"),
            err := [], tree } := by
  intro source lib path
  have hparse : Template.parse source = .ok
      { source
        skeleton := "$\x7ba_rev\x7d$\x7bb_set_upper\x7d"
        vars := [{ name := "a" }, { name := "b" }, { name := "name" }]
        chains := [Chain.of "a" ["rev"], Chain.of "b" ["set", "upper"]]
        usesName := false } := by decide +kernel
  have hpath : OutputPath.Plain path := by decide +kernel
  have hcallable : ∀ f ∈ ["rev", "set", "upper"], lib.Callable f := by decide +kernel
  have hrev :=
    (CommandText.words (.plain "echo")
    [.quoted (Quoted.argument (d := '1') (by decide) (by decide))]
    (free_plain (by decide))).bars
      (.cons (CommandText.words (.plain "rev") [] (free_plain (by decide))) .nil)
  have hrows : Readable false _ := .line (hrev.indent 2) .nil
  have hbodies : lib.Legible ["rev", "set", "upper"] := by
    intro f hf _ body hbody
    obtain rfl : "echo \"$1\" | rev" = body := by
      obtain ⟨l₁, l₂, hsplit, -⟩ := List.lookup_eq_some_iff.mp hbody
      have hmem : (f, body) ∈ lib.extra := by simp [hsplit]
      exact (congrArg Prod.snd (List.mem_singleton.mp hmem)).symm
    rw [bodyLines_of_line (by decide) (by decide)]
    simp (disch := first | with_reducible rfl | decide) only [scanned_append,
      scanned_literal] at hrows ⊢
    simp (disch := with_reducible rfl) only [Text.toList_literal, List.reduceReplicate, Shell.line,
      Phrase.text_plain, Phrase.text_quoted, List.cons_append, List.nil_append] at hrows ⊢
    exact hrows
  refine ⟨_, hparse, hpath, hbodies, hcallable,
    fun name scriptName defaults descriptions tree => ?_⟩
  exact ((answers_iff_callable hparse).2 lib path hpath hbodies name scriptName defaults
    descriptions tree).1 hcallable

/-- A reserved word is read as a filter, and a project may name a filter after a special command. -/
theorem filters_uncallable :
    let refused := fun (lib : FilterLibrary) source => ∃ t, Template.parse source = .ok t ∧
      ∀ (name scriptName : String) (defaults descriptions : String →
        Option String) (tree : Files.Tree) request,
        let script := compile lib name (t.annotate defaults descriptions) none
        ∃ err,
          runScript tree scriptName (Text.encode script) [request] =
            { status := some 2, out := [], err, tree }
    refused {} "\x7b\x7b a | if \x7d\x7d" ∧
      ∃ s, Settings.ofFields [("filters", .mapping [(.text "set", .text "echo")])] = .ok s ∧
        refused { extra := s.extraFilters } "\x7b\x7b a | set \x7d\x7d" := by
  intro refused
  have hparse (f : String) (hf : f = "if" ∨ f = "set") :
      Template.parse ("\x7b\x7b a | " ++ f ++ " \x7d\x7d") = .ok
      { source := "\x7b\x7b a | " ++ f ++ " \x7d\x7d"
        skeleton := "$\x7ba_" ++ f ++ "\x7d"
        vars := [{ name := "a" }, { name := "name" }]
        chains := [Chain.of "a" [f]]
        usesName := false } := by
    rcases hf with rfl | rfl <;> decide +kernel
  have hnone : FilterLibrary.Legible {} ["if"] := by
    intro f _ _ body hbody
    cases hbody
  have hset : FilterLibrary.Legible { extra := [("set", "echo")] } ["set"] := by
    intro f hf hcallable
    rw [List.mem_singleton.mp hf] at hcallable
    exact absurd hcallable (by decide)
  refine ⟨⟨_, hparse "if" (.inl rfl), ?_⟩, { filters := some [("set", "echo")] }, rfl, _,
    hparse "set" (.inr rfl), ?_⟩
  · intro name scriptName defaults descriptions tree request
    exact runScript_of_not_callable (hparse "if" (.inl rfl)) (by decide) hnone name scriptName
      defaults descriptions
      tree (by decide +kernel) request
  · intro name scriptName defaults descriptions tree request
    exact runScript_of_not_callable (hparse "set" (.inr rfl)) (by decide) hset name scriptName
      defaults descriptions
      tree (by decide +kernel) request

end Script

end Stencil
