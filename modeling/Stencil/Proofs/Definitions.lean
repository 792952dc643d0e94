import Stencil.Proofs.FirstUse
import Stencil.Script

/-!
# Definitions of filters

A script defines the filters that its template calls. `FilterLibrary.Needed` says which definitions
a row of filters calls for: one for each filter that is known, by first mention, with the project's
own body if there is one. A library renders these and no others (`FilterLibrary.render_eq`). The
first line of a definition stands at the margin, while the lines of a body are blank or indented, so
the definitions can be counted in the text (`FilterLibrary.count_heading_render`).
`Script.defines_needed` puts this together for the script of a template that was read.
-/

namespace Stencil

namespace FilterLibrary

variable {lib lib' : FilterLibrary} {f g body : String} {fs : List String}

/-! ## Which filters are defined -/

/-- What a row of filters calls for: a definition for each of them that is known, by first mention.
The bodies of the project win. -/
structure Needed (lib : FilterLibrary) (fs : List String) (defs : List (String × String)) :
    Prop where
  names : FirstUse (fs.filter fun f => f ∈ lib.extra.map Prod.fst ∨ f ∈ builtinFilters.map Prod.fst)
    (defs.map Prod.fst)
  bodies : ∀ d ∈ defs, lib.extra.lookup d.1 = some d.2 ∨
    d.1 ∉ lib.extra.map Prod.fst ∧ builtinFilters.lookup d.1 = some d.2

/-- The names and bodies of the known ones among the filters. -/
def definitions (lib : FilterLibrary) (fs : List String) : List (String × String) :=
  fs.eraseDups.filterMap fun f => (lib.body? f).map (f, ·)

/-- A library renders its definitions, one after the other. -/
lemma render_eq (lib : FilterLibrary) (fs : List String) :
    lib.render fs = String.join ((lib.definitions fs).map fun d => define d.1 d.2) := by
  rw [render, definitions, List.map_filterMap]
  simp only [Option.map_map]
  rfl

/-- A name is looked up with success exactly if it is in the list. -/
lemma isSome_lookup {xs : List (String × String)} :
    (xs.lookup f).isSome = true ↔ f ∈ xs.map Prod.fst := by
  rw [List.lookup_isSome_iff, List.mem_map]
  exact exists_congr fun x => and_congr_right fun _ => beq_iff_eq.trans eq_comm

/-- A library knows its own filters and the builtin ones. -/
lemma contains_iff :
    lib.contains f = true ↔ f ∈ lib.extra.map Prod.fst ∨ f ∈ builtinFilters.map Prod.fst := by
  rw [contains, body?, Option.isSome_or, Bool.or_eq_true, isSome_lookup, isSome_lookup]

/-- A filter of the library comes before a builtin one of its name. -/
lemma body?_eq_some : lib.body? f = some body ↔ lib.extra.lookup f = some body ∨
    f ∉ lib.extra.map Prod.fst ∧ builtinFilters.lookup f = some body := by
  rw [body?, Option.or_eq_some_iff, ← isSome_lookup, Option.not_isSome_iff_eq_none]

/-- The names of the definitions are the known filters. -/
lemma names_definitions (lib : FilterLibrary) (fs : List String) :
    (lib.definitions fs).map Prod.fst = fs.eraseDups.filter lib.contains := by
  rw [definitions, List.map_filterMap, ← List.filterMap_eq_filter]
  refine List.filterMap_congr fun f _ => ?_
  cases hbody : lib.body? f <;> simp [Option.guard, contains, hbody]

/-- The definitions of a library are those that are needed. -/
lemma needed_definitions (lib : FilterLibrary) (fs : List String) :
    lib.Needed fs (lib.definitions fs) where
  names := by
    have hknown : (fun f => decide (f ∈ lib.extra.map Prod.fst ∨ f ∈ builtinFilters.map Prod.fst)) =
        lib.contains := by
      funext f
      rw [Bool.eq_iff_iff, decide_eq_true_iff, contains_iff]
    rw [hknown, names_definitions]
    exact (firstUse_eraseDups fs).filter lib.contains
  bodies := by
    intro d hd
    obtain ⟨f, -, hf⟩ := List.mem_filterMap.mp hd
    obtain ⟨body, hbody, rfl⟩ := Option.map_eq_some_iff.mp hf
    exact body?_eq_some.mp hbody

/-- What is rendered for filters hangs on their own bodies only. -/
lemma render_congr (h : ∀ f ∈ fs, lib.body? f = lib'.body? f) : lib.render fs = lib'.render fs := by
  have hfunctions :
      fs.eraseDups.filterMap lib.function? = fs.eraseDups.filterMap lib'.function? := by
    refine List.filterMap_congr fun f hf => ?_
    rw [function?, function?, h f (List.mem_eraseDups.mp hf)]
  rw [render, render, hfunctions]

/-! ## Definitions in a text -/

/-- The first line of a definition. -/
def heading (f : String) : String :=
  f ++ "() \x7b"

/-- The lines of a body in a definition. -/
def inside (body : String) : List String :=
  (Text.cutAt '\n' (String.ofList (Text.trimWhile (· == '\n') body.toList))).map indentLine

/-- A line of a body has no newline. -/
lemma notMem_of_mem_inside {line : String} (h : line ∈ inside body) : '\n' ∉ line.toList := by
  obtain ⟨piece, hpiece, rfl⟩ := List.mem_map.mp h
  obtain ⟨chars, hchars, rfl⟩ := List.mem_map.mp hpiece
  have hpieces := Text.notMem_of_mem_splitOn hchars
  unfold indentLine
  split
  · exact List.not_mem_nil
  · simpa using hpieces

/-- A name may not stand at the margin inside a definition. -/
lemma heading_notMem_inside (hf : Name.Valid f) : heading f ∉ inside body := by
  intro h
  obtain ⟨c, cs, hcs, hstart, -, -⟩ := Name.faultOf_eq_none.mp hf
  have hchars : (heading f).toList = c :: (cs ++ "() \x7b".toList) := by
    rw [heading, String.toList_append, hcs, List.cons_append]
  obtain ⟨piece, -, hline⟩ := List.mem_map.mp h
  rw [← hline] at hchars
  unfold indentLine at hchars
  split at hchars
  · cases hchars
  · rw [String.toList_append] at hchars
    obtain ⟨rfl, -⟩ := List.cons.inj hchars
    cases hstart

/-- A definition is a heading, the lines of its body and a brace. -/
lemma cutAt_define (hf : '\n' ∉ f.toList) (body rest : String) :
    Text.cutAt '\n' (define f body ++ rest) =
      heading f :: (inside body ++ "\x7d" :: Text.cutAt '\n' rest) := by
  have hlines : define f body ++ rest =
      heading f ++ "\n" ++
        (Text.joinWith "\n" (inside body) ++ "\n" ++ ("\x7d" ++ "\n" ++ rest)) := by
    simp [← String.toList_inj, define, heading, inside]
  have hheading : '\n' ∉ (heading f).toList := by
    rw [heading, String.toList_append, List.mem_append, not_or]
    exact ⟨hf, by decide⟩
  have hclose : '\n' ∉ "\x7d".toList := by decide
  have hsome : inside body ≠ [] := by simp [inside, Text.cutAt]
  rw [hlines, Text.cutAt_line, Text.cutAt_line, Text.cutAt_line, Text.cutAt_of_notMem hheading,
    Text.cutAt_joinWith hsome fun _ => notMem_of_mem_inside, Text.cutAt_of_notMem hclose,
    List.singleton_append, List.singleton_append]

/-- Different filters have different headings. -/
lemma heading_inj : heading f = heading g ↔ f = g :=
  String.append_left_inj _

/-- A definition adds one heading, which is its own. -/
lemma count_heading_define (hf : Name.Valid f) (hg : Name.Valid g) (body rest : String) :
    (Text.cutAt '\n' (define g body ++ rest)).count (heading f) =
      (if g = f then 1 else 0) + (Text.cutAt '\n' rest).count (heading f) := by
  have hline : '\n' ∉ g.toList := fun h => absurd (Name.isPart_of_mem hg h) (by decide)
  have hclose : "\x7d" ≠ heading f := by
    intro h
    have hlength := congrArg String.length h
    rw [heading, String.length_append, show "() \x7b".length = 4 from rfl,
      show "\x7d".length = 1 from rfl] at hlength
    omega
  rw [cutAt_define hline, List.count_cons, List.count_append,
    List.count_eq_zero.mpr (heading_notMem_inside hf), List.count_cons_of_ne hclose]
  simp only [beq_iff_eq, heading_inj]
  omega

/-- Among rendered definitions each heading stands as often as its filter. -/
lemma count_heading_join (hf : Name.Valid f) {defs : List (String × String)}
    (hdefs : ∀ d ∈ defs, Name.Valid d.1) :
    (Text.cutAt '\n' (String.join (defs.map fun d => define d.1 d.2))).count (heading f) =
      (defs.map Prod.fst).count f := by
  induction defs with
  | nil =>
    have hempty : Text.cutAt '\n' "" = [""] := Text.cutAt_of_notMem List.not_mem_nil
    have hne : "" ≠ heading f := by simp [heading]
    rw [List.map_nil, String.join_nil, hempty, List.count_cons_of_ne hne]
    rfl
  | cons d defs ih =>
    have hrest := ih fun e he => hdefs e (List.mem_cons_of_mem d he)
    rw [List.map_cons, String.join_cons, count_heading_define hf (hdefs d List.mem_cons_self),
      hrest, List.map_cons, List.count_cons, Nat.add_comm]
    simp only [beq_iff_eq]

/-- A filter that is called and known is defined once, and no other is. -/
lemma count_heading_render (lib : FilterLibrary) (hf : Name.Valid f)
    (hfs : ∀ g ∈ fs, Name.Valid g) :
    (Text.cutAt '\n' (lib.render fs)).count (heading f) = if f ∈ fs ∧
    lib.contains f = true then 1 else 0 := by
  have hmem : ∀ g, g ∈ (lib.definitions fs).map Prod.fst ↔ g ∈ fs ∧ lib.contains g = true := by
    intro g
    rw [names_definitions, List.mem_filter, List.mem_eraseDups]
  have hdefs : ∀ d ∈ lib.definitions fs, Name.Valid d.1 :=
    fun d hd => hfs d.1 ((hmem d.1).mp (List.mem_map_of_mem hd)).1
  rw [render_eq, count_heading_join hf hdefs, (needed_definitions lib fs).names.nodup.count]
  simp only [hmem]

end FilterLibrary

namespace Script

variable {lib lib' : FilterLibrary} {t : Template} {source : String}

/-! ## The filters of a script -/

/-- What stands in a script before the filters. -/
def beforeFilters (name : String) (t : Template) (path : Option String) : String :=
  preamble ++ guardOpen ++ declarations t ++ arguments name t path ++ defaults t ++ checks t

/-- What stands in a script behind the filters. -/
def afterFilters (t : Template) (path : Option String) : String :=
  output t path ++ guardClose ++ editing t path

/-- A script is a part before the filters, the filters and a part behind them. -/
lemma compile_eq (lib : FilterLibrary) (name : String) (t : Template) (path : Option String) :
    compile lib name t path =
      beforeFilters name t path ++ filters lib t ++ afterFilters t path := by
  simp only [compile, beforeFilters, afterFilters, String.append_assoc]

/-- Where there are chains, the definitions are written before them. -/
lemma compile_of_chains (h : t.chains ≠ []) (lib : FilterLibrary) (name : String)
    (path : Option String) :
    compile lib name t path = beforeFilters name t path ++
      ("\n# filters\n" ++ lib.render t.usedFilters ++ "\n# filtered variables\n" ++
        String.join (t.chains.map fun c => c.name ++ "=" ++ chainExpression c ++ "\n")) ++
          afterFilters t path := by
  have hsome : t.chains.isEmpty = false := List.isEmpty_eq_false_iff.mpr h
  rw [compile_eq, filters, hsome, if_neg Bool.false_ne_true]

/-- The part with the filters depends on the filters that are used. -/
lemma filters_congr (h : ∀ f ∈ t.usedFilters, lib.body? f = lib'.body? f) :
    filters lib t = filters lib' t := by
  rw [filters, filters, FilterLibrary.render_congr h]

/-- A script depends on the filters that its template uses. -/
lemma compile_congr (h : ∀ f ∈ t.usedFilters, lib.body? f = lib'.body? f) (name : String)
    (path : Option String) :
    compile lib name t path = compile lib' name t path := by
  rw [compile_eq, compile_eq, filters_congr h]

/-- Chains are not spoken of anywhere else. -/
lemma compile_without_chains (lib : FilterLibrary) (name : String) (t : Template)
    (path : Option String) :
    compile lib name { t with chains := [] } path =
      beforeFilters name t path ++ afterFilters t path := by
  have hnone : filters lib { t with chains := [] } = "" := rfl
  have hbefore : beforeFilters name { t with chains := [] } path = beforeFilters name t path := rfl
  have hafter : afterFilters { t with chains := [] } path = afterFilters t path := rfl
  rw [compile_eq, hnone, hbefore, hafter, String.append_empty]

/-- A library renders a definition for each known filter of a row, by first mention, and nothing for
the others. So the script of a template that was read hangs on the bodies of the template's own
filters only. It defines each of these that is known once, and no other, and the definitions stand
before all that is written for the chains. -/
theorem defines_needed :
    (∀ (lib : FilterLibrary) (fs : List String), ∃ defs, lib.Needed fs defs ∧
      lib.render fs = String.join (defs.map fun d => FilterLibrary.define d.1 d.2)) ∧
    ∀ {source : String} {t : Template}, Template.parse source = .ok t →
      ∀ (vars : List Variable) (name : String) (path : Option String),
        let script := fun lib => compile lib name { t with vars } path
        (∀ lib lib' : FilterLibrary, (∀ f ∈ t.usedFilters, lib.body? f = lib'.body? f) →
          script lib = script lib') ∧
        (t.chains ≠ [] → ∀ lib : FilterLibrary,
          let headings :=
            fun f => (Text.cutAt '\n' (lib.render t.usedFilters)).count (FilterLibrary.heading f)
          (∃ before after,
            script lib =
              before ++ ("\n# filters\n" ++ lib.render t.usedFilters ++
                "\n# filtered variables\n" ++
              String.join (t.chains.map fun c => c.name ++ "=" ++ chainExpression c ++ "\n")) ++
                after ∧
            compile lib name { t with vars, chains := [] } path = before ++ after) ∧
          (∀ c ∈ t.chains, ∀ f ∈ c.filters, lib.contains f = true → headings f = 1) ∧
          ∀ f, Name.Valid f → ¬((∃ c ∈ t.chains, f ∈ c.filters) ∧ lib.contains f = true) →
            headings f = 0) := by
  refine ⟨fun lib fs => ⟨_, lib.needed_definitions fs, lib.render_eq fs⟩, ?_⟩
  intro source t hparse vars name path script
  have hvalid : ∀ f ∈ t.usedFilters, Name.Valid f := by
    intro f hf
    obtain ⟨c, hc, hfc⟩ := Template.mem_usedFilters.mp hf
    exact ((Template.wellNamed_of_parse hparse).chains c hc).2.2 f hfc
  constructor
  · intro lib lib' h
    exact compile_congr (t := { t with vars }) h name path
  · intro hchains lib headings
    refine ⟨?_, ?_, ?_⟩
    · have hchains' : { t with vars }.chains ≠ [] := hchains
      exact ⟨_, _, compile_of_chains hchains' lib name path,
        compile_without_chains lib name { t with vars } path⟩
    · intro c hc f hf hknown
      have hused : f ∈ t.usedFilters := Template.mem_usedFilters.mpr ⟨c, hc, hf⟩
      exact (lib.count_heading_render (hvalid f hused) hvalid).trans (if_pos ⟨hused, hknown⟩)
    · intro f hf hno
      rw [← Template.mem_usedFilters] at hno
      exact (lib.count_heading_render hf hvalid).trans (if_neg hno)

/-- A body of the project in place of a built-in one, a body that holds the heading of another
filter, a filter that is not known and one that is not used. -/
theorem defines_needed_of_nested_heading :
    let source := "\x7b\x7b a | upper | nope \x7d\x7d\x7b\x7b b | twice | upper \x7d\x7d"
    let lib : FilterLibrary :=
      { extra :=
        [("twice", "upper() \x7b\n:\n\x7d\necho \"$1$1\"\n"), ("upper", "echo UP"),
          ("spare", "cat")] }
    ∃ t, Template.parse source = .ok t ∧ t.chains ≠ [] ∧
      let headings :=
        fun f => (Text.cutAt '\n' (lib.render t.usedFilters)).count (FilterLibrary.heading f)
      headings "upper" = 1 ∧ headings "twice" = 1 ∧ headings "nope" = 0 ∧ headings "spare" = 0 ∧
        compile lib "t" t none = compile { extra := lib.extra.take 2 } "t" t none := by
  intro source lib
  have hparse : Template.parse source = .ok
      { source
        skeleton := "$\x7ba_upper_nope\x7d$\x7bb_twice_upper\x7d"
        vars := [{ name := "a" }, { name := "b" }, { name := "name" }]
        chains := [Chain.of "a" ["upper", "nope"], Chain.of "b" ["twice", "upper"]]
        usesName := false } := by decide +kernel
  refine ⟨_, hparse, List.cons_ne_nil _ _, ?_⟩
  obtain ⟨hagree, hplaced⟩ :=
    defines_needed.2 hparse [{ name := "a" }, { name := "b" }, { name := "name" }] "t" none
  obtain ⟨-, honce, hnone⟩ := hplaced (List.cons_ne_nil _ _) lib
  refine ⟨?_, ?_, ?_, ?_, ?_⟩
  · exact honce _ List.mem_cons_self "upper" List.mem_cons_self (by decide)
  · exact honce _ (List.mem_cons_of_mem _ List.mem_cons_self) "twice" List.mem_cons_self (by decide)
  · exact hnone "nope" (by decide) (by decide)
  · exact hnone "spare" (by decide) (by decide)
  · exact hagree lib { extra := lib.extra.take 2 } (by decide)

end Script

end Stencil
