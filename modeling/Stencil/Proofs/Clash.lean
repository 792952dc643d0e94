import Stencil.Proofs.Template

/-!
# Clashes of names

The result of a chain is a variable of the script, so its name must be free: no variable of the
template has it and no chain before it. The first chain whose name is taken is reported, with what
it is taken by (`findClash_eq_some`). A template that was read has no such chain, and whether a
source has one is decided by its placeholders, in whatever order they stand (`Source.clashes_iff`).
-/

namespace Stencil

/-- Every chain has a name of its own. -/
structure Unclashed (vars : VariableSet) (cs : List Chain) : Prop where
  free : ∀ c ∈ cs, c.name ∉ vars
  distinct : (cs.map Chain.name).Nodup

/-- The name of a chain is taken, and this is how it is reported. A variable comes before the
chains, and of the chains with the name the first one counts. -/
inductive Taken (vars : VariableSet) (before : List Chain) (c : Chain) : ParseError → Prop
  | byVariable : c.name ∈ vars → Taken vars before c (.clash c.name ("variable " ++ c.name))
  | byChain {earlier : List Chain} {other : Chain} {later : List Chain} :
    c.name ∉ vars → before = earlier ++ other :: later → other.name = c.name →
    (∀ b ∈ earlier, b.name ≠ c.name) → Taken vars before c (.clash c.name other.written)

section

variable {vars : VariableSet} {before cs post : List Chain} {c : Chain} {e : ParseError}

/-- The check passes exactly if every chain has a name of its own. -/
lemma unclashed_iff : Unclashed vars cs ↔ clash? vars cs = none := by
  unfold clash?
  rw [findClash_eq_none]
  constructor
  · rintro ⟨hfree, hnodup⟩
    exact ⟨fun c hc => ⟨hfree c hc, by simp⟩, hnodup⟩
  · rintro ⟨hfree, hnodup⟩
    exact ⟨fun c hc => (hfree c hc).1, hnodup⟩

/-- The search stops at a name that is taken. -/
lemma Taken.findClash_cons (h : Taken vars before c e) :
    findClash vars before (c :: post) = some e := by
  cases h with
  | byVariable hv => rw [findClash, if_pos hv]
  | @byChain earlier other later hv hbefore hname hfirst =>
    have hfind : before.find? (·.name == c.name) = some other := by
      rw [List.find?_eq_some_iff_append]
      exact ⟨by simpa using hname, earlier, later, hbefore, fun b hb => by simpa using hfirst b hb⟩
    rw [findClash, if_neg hv, hfind]

/-- The search stops at a chain or goes on behind it. -/
lemma findClash_cons_cases (vars : VariableSet) (before : List Chain) (c : Chain) :
    (∃ e, Taken vars before c e) ∨
      ∀ cs, findClash vars before (c :: cs) = findClash vars (before ++ [c]) cs := by
  by_cases hv : c.name ∈ vars
  · exact .inl ⟨_, .byVariable hv⟩
  cases hfind : before.find? (·.name == c.name) with
  | none =>
    refine .inr fun cs => ?_
    rw [findClash, if_neg hv, hfind]
  | some other =>
    obtain ⟨hname, earlier, later, hbefore, hfirst⟩ := List.find?_eq_some_iff_append.mp hfind
    refine .inl ⟨_, .byChain hv hbefore (by simpa using hname) fun b hb => ?_⟩
    simpa using hfirst b hb

/-- A clash is reported exactly for the first chain whose name is taken. -/
lemma findClash_eq_some :
    findClash vars before cs = some e ↔ ∃ pre c post, cs = pre ++ c :: post ∧
      findClash vars before pre = none ∧ Taken vars (before ++ pre) c e := by
  induction cs generalizing before with
  | nil => simp [findClash]
  | cons c cs ih =>
    rcases findClash_cons_cases vars before c with ⟨e', htaken⟩ | hnext
    · -- nothing behind a name that is taken is looked at
      constructor
      · intro h
        obtain rfl : e' = e := Option.some.inj (htaken.findClash_cons.symm.trans h)
        exact ⟨[], c, cs, rfl, rfl, by simpa using htaken⟩
      · rintro ⟨pre, d, post, hcs, hpre, hd⟩
        cases pre with
        | nil =>
          obtain ⟨rfl, rfl⟩ := List.cons.inj hcs
          simpa using hd.findClash_cons
        | cons p pre =>
          obtain ⟨rfl, -⟩ := List.cons.inj hcs
          rw [htaken.findClash_cons] at hpre
          cases hpre
    · rw [hnext, ih]
      constructor
      · rintro ⟨pre, d, post, rfl, hpre, hd⟩
        exact ⟨c :: pre, d, post, rfl, (hnext pre).trans hpre, by simpa using hd⟩
      · rintro ⟨pre, d, post, hcs, hpre, hd⟩
        cases pre with
        | nil =>
          obtain ⟨rfl, rfl⟩ := List.cons.inj hcs
          have hstop : findClash vars (before ++ []) [c] = some e := hd.findClash_cons
          rw [List.append_nil, hnext] at hstop
          cases hstop
        | cons p pre =>
          obtain ⟨rfl, rfl⟩ := List.cons.inj hcs
          exact ⟨pre, d, post, rfl, (hnext pre).symm.trans hpre, by simpa using hd⟩

/-- A clash is reported exactly for the first chain whose name is taken, behind some that have names
of their own. -/
lemma clash?_eq_some :
    clash? vars cs = some e ↔ ∃ before c after, cs = before ++ c :: after ∧
      Unclashed vars before ∧ Taken vars before c e := by
  have hpre (pre : List Chain) : findClash vars [] pre = none ↔ Unclashed vars pre :=
    unclashed_iff.symm
  unfold clash?
  simp only [findClash_eq_some, hpre, List.nil_append]

end

namespace Segment

/-- What is wrong with a placeholder is not that its name is taken. -/
lemma readChain_ne_clash {body : List Char} {n by' : String} :
    readChain body ≠ .error (.clash n by') := by
  intro h
  unfold readChain at h
  split at h
  · rename_i e hbad
    obtain ⟨p, -, hp⟩ := List.exists_of_findSome?_eq_some hbad
    obtain ⟨f, -, rfl⟩ := Option.map_eq_some_iff.mp hp
    cases h
  · split at h
    · cases h
    · cases h

/-- Names are compared after the whole source is cut into segments. -/
lemma read_ne_clash {source : List Char} {n by' : String} :
    read source ≠ .error (.clash n by') := by
  intro h
  fun_induction read source with
  | case4 source text inside _ body rest _ e hchain =>
    rw [Except.error.inj h] at hchain
    exact readChain_ne_clash hchain
  | case5 source text inside _ body rest _ base filters hchain e hread ih =>
    rw [Except.error.inj h] at hread
    exact ih hread
  | _ => cases h

end Segment

namespace Source

/-- The source can be cut into placeholders, but a derived name is taken. -/
def Clashes (source : String) : Prop :=
  ∃ n by', Template.parse source = .error (.clash n by')

/-- A row of pieces clashes exactly if a derived name is taken. -/
lemma Row.clashes_iff {ps : List Piece} (h : Row ps) {source : String}
    (hw : written ps = source.toList) :
    Clashes source ↔ ¬ Clashless ps := by
  rw [clashless_iff, Clashes, Template.parse_eq_read, ← hw, h.read]
  dsimp only
  cases hclash : clash? (Template.variablesOf _) (Template.chainsOf
    (ps.map Piece.segment)).items with
  | none => simp
  | some e =>
    obtain ⟨_, c, _, _, _, htaken⟩ := clash?_eq_some.mp hclash
    cases htaken <;> simp

/-- A source clashes exactly if it is a row of pieces in which a derived name is taken. -/
theorem clashes_iff {source : String} :
    Clashes source ↔ ∃ ps, Row ps ∧ ¬ Clashless ps ∧ written ps = source.toList := by
  constructor
  · rintro ⟨n, by', h⟩
    cases hread : Segment.read source.toList with
    | error e =>
      rw [Template.parse_eq_read, hread] at h
      exact absurd (Except.error.inj h ▸ hread) Segment.read_ne_clash
    | ok segs =>
      obtain ⟨ps, hrow, hw, -⟩ := exists_row hread
      exact ⟨ps, hrow, (hrow.clashes_iff hw).mp ⟨n, by', h⟩, hw⟩
  · rintro ⟨ps, hrow, hclash, hw⟩
    exact (hrow.clashes_iff hw).mpr hclash

/-- Only the set of placeholders matters. -/
lemma Clashless.of_chains {ps qs : List Piece} (h : Clashless ps) (hsub : chains qs ⊆ chains ps) :
    Clashless qs where
  free x hx hf y hy := h.free x (hsub hx) hf y (hsub hy)
  distinct x hx y hy hxf hyf := h.distinct x (hsub hx) y (hsub hy) hxf hyf

end Source

/-- The variables that every script sets for itself: the text of the file and the answer to whether
one that exists is to be overwritten. -/
def Script.ownVariables : List String :=
  ["out", "response"]

namespace Template

/-- All variables that the script of a template sets. -/
def scriptVariables (t : Template) : List String :=
  t.variableNames ++ t.chains.map Chain.name ++ Script.ownVariables

/-- An underscore stands in the name of every chain. -/
lemma underscore_mem_of_parse {source : String} {t : Template} (h : parse source = .ok t)
    {c : Chain} (hc : c ∈ t.chains) : '_' ∈ c.name.toList := by
  obtain ⟨segs, -, -, rfl⟩ := parse_eq_ok.mp h
  obtain ⟨seg, -, hseg⟩ := List.mem_filterMap.mp (mem_chainsOf.mp hc)
  cases seg with
  | literal text => cases hseg
  | placeholder base filters =>
    cases filters with
    | nil => cases hseg
    | cons f fs =>
      obtain rfl := Option.some.inj hseg
      exact underscore_mem_derivedName base f fs

/-- All variables of a script have valid names. -/
lemma valid_of_mem_scriptVariables {t : Template} (h : t.WellNamed) {n : String}
    (hn : n ∈ t.scriptVariables) :
    Name.Valid n := by
  rcases List.mem_append.mp hn with hn | hn
  · rcases List.mem_append.mp hn with hn | hn
    · exact h.vars n hn
    · obtain ⟨c, hc, rfl⟩ := List.mem_map.mp hn
      exact (h.chains c hc).1
  · have hown : ∀ m ∈ Script.ownVariables, Name.Valid m := by decide
    exact hown n hn

/-- The name of a chain is used for its result only. -/
lemma count_scriptVariables {source : String} {t : Template} (h : parse source = .ok t) {c : Chain}
    (hc : c ∈ t.chains) : t.scriptVariables.count c.name = 1 := by
  have hnamed := wellNamed_of_parse h
  have hvars : t.variableNames.count c.name = 0 := List.count_eq_zero.mpr (hnamed.free c hc)
  have hchains : (t.chains.map Chain.name).count c.name = 1 :=
    List.count_eq_one_of_mem hnamed.distinct (List.mem_map_of_mem hc)
  have hown : Script.ownVariables.count c.name = 0 := by
    refine List.count_eq_zero.mpr fun hmem => ?_
    have hnone : ∀ n ∈ Script.ownVariables, '_' ∉ n.toList := by decide
    exact hnone _ hmem (underscore_mem_of_parse h hc)
  rw [scriptVariables, List.count_append, List.count_append, hvars, hchains, hown]

/-- The check of derived names passes exactly if each is free, and else it reports the first that is
not. So in a template that was read the name of a chain is that of no other variable of the script,
and all of these are names of the shell. Whether a source clashes does not depend on the order of
its placeholders. -/
theorem derived_names_fresh :
    (∀ (vars : VariableSet) (cs : ChainSet),
      (clash? vars cs.items = none ↔
        (∀ c ∈ cs.items, c.name ∉ vars) ∧ (cs.items.map Chain.name).Nodup) ∧
      ∀ e, clash? vars cs.items = some e ↔ ∃ before c after, cs.items = before ++ c :: after ∧
        Unclashed vars before ∧ Taken vars before c e) ∧
    (∀ source t, parse source = .ok t →
      (∀ n ∈ t.scriptVariables, Name.Valid n) ∧
      ∀ c ∈ t.chains, t.scriptVariables.count c.name = 1) ∧
    ∀ source source' ps qs, Source.Row ps → Source.Row qs →
      Source.written ps = source.toList → Source.written qs = source'.toList →
      (Source.chains ps).Perm (Source.chains qs) →
        (Source.Clashes source ↔ Source.Clashes source') := by
  refine ⟨fun vars cs => ⟨?_, fun e => clash?_eq_some⟩, fun source t h => ?_, ?_⟩
  · rw [← unclashed_iff]
    exact ⟨fun h => ⟨h.free, h.distinct⟩, fun h => ⟨h.1, h.2⟩⟩
  · exact ⟨fun n hn => valid_of_mem_scriptVariables (wellNamed_of_parse h) hn,
      fun c hc => count_scriptVariables h hc⟩
  · intro source source' ps qs hps hqs hw hw' hperm
    rw [hps.clashes_iff hw, hqs.clashes_iff hw']
    exact not_congr ⟨fun h => h.of_chains hperm.symm.subset, fun h => h.of_chains hperm.subset⟩

/-- Two chains whose parts are joined to one name clash in either order, and a derived name may well
contain the name of a variable. -/
theorem derived_names_fresh_of_joined :
    let clear :=
      "\x7b\x7b a_b | c \x7d\x7d\x7b\x7b a | b_d \x7d\x7d" ++
        "\x7b\x7b out \x7d\x7d\x7b\x7b name|d \x7d\x7d"
    let ps : List Source.Piece :=
      [.placeholder " a_b | c ".toList, .literal "-".toList, .placeholder "a|b_c".toList]
    let qs : List Source.Piece := [.placeholder "a|b_c".toList, .placeholder "a_b|c".toList]
    (∃ t, parse clear = .ok t ∧ t.chains ≠ [] ∧
      (∀ n ∈ t.scriptVariables, Name.Valid n) ∧
      ∀ c ∈ t.chains, t.scriptVariables.count c.name = 1) ∧
    Source.Row ps ∧ Source.Row qs ∧ (Source.chains ps).Perm (Source.chains qs) ∧
    Source.Clashes (String.ofList (Source.written ps)) ∧
    Source.Clashes (String.ofList (Source.written qs)) := by
  intro clear ps qs
  have h : parse clear = .ok
      { source := clear
        skeleton := "$\x7ba_b_c\x7d$\x7ba_b_d\x7d$\x7bout\x7d$\x7bname_d\x7d"
        vars := [{ name := "a_b" }, { name := "a" }, { name := "out" }, { name := "name" }]
        chains := [Chain.of "a_b" ["c"], Chain.of "a" ["b_d"], Chain.of "name" ["d"]]
        usesName := true } := by decide +kernel
  have hps : Source.Row ps := by decide +kernel
  have hqs : Source.Row qs := by decide +kernel
  have hperm : (Source.chains ps).Perm (Source.chains qs) := by decide +kernel
  have hclash : Source.Clashes (String.ofList (Source.written ps)) :=
    ⟨"a_b_c", "\x7b\x7b a_b | c \x7d\x7d", by decide +kernel⟩
  refine ⟨⟨_, h, by simp, derived_names_fresh.2.1 clear _ h⟩, hps, hqs, hperm, hclash, ?_⟩
  exact (derived_names_fresh.2.2 _ _ ps qs hps hqs (by simp) (by simp) hperm).mp hclash

end Template

end Stencil
