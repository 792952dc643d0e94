import Stencil.Proofs.Parse

/-!
# Templates that were read

What is known of every template that was read from a source (`Template.wellNamed_of_parse`): its
names are names of the shell, no variable occurs twice, and the results of its chains have names of
their own. A template is given defaults and descriptions by `Template.annotate`, which keeps all
that.
-/

namespace Stencil

/-- The variable with its default and description, which are stored escaped. -/
def Variable.annotate (v : Variable) (defaults descriptions : String → Option String) : Variable :=
  { v with
    default := (defaults v.name).map Escape.escape
    description := (descriptions v.name).map Escape.escape }

namespace Template

/-- The names in a template are valid, and none of them is used for two things. -/
structure WellNamed (t : Template) : Prop where
  vars : ∀ n ∈ t.variableNames, Name.Valid n
  nodup : t.variableNames.Nodup
  hasName : nameVariable ∈ t.variableNames
  /-- The names of a chain: that of its result, that of its base and those of its filters. -/
  chains : ∀ c ∈ t.chains, Name.Valid c.name ∧ Name.Valid c.base ∧ ∀ f ∈ c.filters, Name.Valid f
  base : ∀ c ∈ t.chains, c.base ∈ t.variableNames
  free : ∀ c ∈ t.chains, c.name ∉ t.variableNames
  distinct : (t.chains.map Chain.name).Nodup
  /-- An underscore joins the names of a base and its filters. -/
  joined : ∀ c ∈ t.chains, '_' ∈ c.name.toList

/-- The variables of a well named template have valid names. -/
lemma WellNamed.valid {t : Template} (h : t.WellNamed) : ∀ v ∈ t.vars, Name.Valid v.name :=
  fun _ hv => h.vars _ (List.mem_map_of_mem hv)

/-- An underscore stands between the parts of a derived name. -/
lemma underscore_mem_derivedName (base f : String) (fs : List String) :
    '_' ∈ (derivedName base (f :: fs)).toList := by
  simp [derivedName, Text.joinWith, String.toList_append]

/-- The result of a chain with filters is not called `name`: an underscore stands in its name. -/
lemma derivedName_ne_nameVariable (base f : String) (fs : List String) :
    derivedName base (f :: fs) ≠ nameVariable := by
  intro h
  have hmem := underscore_mem_derivedName base f fs
  rw [h] at hmem
  exact absurd hmem (by decide)

/-- The variables of a template are those of its segments, and the name if it is not among them. -/
lemma variableNames_ofSegments (source : String) (segs : List Segment) :
    (ofSegments source segs).variableNames =
      if nameVariable ∈ variablesOf segs then (variablesOf segs).names
      else (variablesOf segs).names ++ [nameVariable] := by
  rw [variableNames, ofSegments, apply_ite (List.map Variable.name), List.map_append]
  rfl

/-- A variable of a template is one of its segments or the name. -/
lemma mem_variableNames_ofSegments {source : String} {segs : List Segment} {n : String} :
    n ∈ (ofSegments source segs).variableNames ↔ n ∈ variablesOf segs ∨ n = nameVariable := by
  rw [variableNames_ofSegments]
  split
  · rename_i h
    exact VariableSet.mem_names.trans ⟨.inl, fun h' => h'.elim id fun e => e ▸ h⟩
  · rw [List.mem_append, List.mem_singleton, VariableSet.mem_names]

/-- The variables that are read have no texts yet. -/
lemma exists_ofName_of_mem_vars {source : String} {segs : List Segment} {v : Variable}
    (h : v ∈ (ofSegments source segs).vars) : ∃ n, v = .ofName n := by
  have hitems {v : Variable} (hv : v ∈ (variablesOf segs).items) : ∃ n, v = .ofName n := by
    rw [variablesOf, VariableSet.items_foldl_insert] at hv
    obtain ⟨n, -, rfl⟩ := List.mem_map.mp hv
    exact ⟨n, rfl⟩
  rw [ofSegments] at h
  split at h
  · exact hitems h
  · rcases List.mem_append.mp h with hv | hv
    · exact hitems hv
    · exact ⟨_, List.mem_singleton.mp hv⟩

/-- Every name of a template that was read is valid and stands for one thing. -/
lemma wellNamed_of_parse {source : String} {t : Template} (h : parse source = .ok t) :
    t.WellNamed := by
  obtain ⟨ps, hrow, hclash, -, rfl⟩ := Source.parse_eq_ok.mp h
  have hclash' := clash?_eq_none.mp (Source.clashless_iff.mp hclash)
  have hvalid {x : String × List String} (hx : x ∈ Source.chains ps) : ∀ n ∈ x.1 :: x.2,
      Name.Valid n := by
    obtain ⟨p, hp, hpx⟩ := List.mem_filterMap.mp hx
    cases p with
    | literal text => cases hpx
    | placeholder body =>
      obtain rfl := Option.some.inj hpx
      rw [← Source.names_eq_cons]
      exact Source.body_iff.mp (hrow.wellFormed _ hp)
  have hchain {c : Chain} (hc : c ∈ (chainsOf (ps.map Source.Piece.segment)).items) :
      ∃ x ∈ Source.chains ps, x.2 ≠ [] ∧ c = Chain.of x.1 x.2 :=
    Source.mem_filtered.mp (mem_chainsOf.mp hc)
  have hname : nameVariable ∈ (ofSegments source (ps.map Source.Piece.segment)).variableNames :=
    mem_variableNames_ofSegments.mpr (.inr rfl)
  refine ⟨?_, ?_, hname, ?_, ?_, ?_, ?_, ?_⟩
  · intro n hn
    rcases mem_variableNames_ofSegments.mp hn with hn | rfl
    · obtain ⟨x, hx, rfl⟩ := Source.mem_bases.mp (mem_variablesOf.mp hn)
      exact hvalid hx _ (by simp)
    · decide
  · rw [variableNames_ofSegments]
    split
    · exact (variablesOf _).nodup
    · rename_i hno
      refine List.nodup_append.mpr ⟨(variablesOf _).nodup, by simp, ?_⟩
      rintro a ha _ hb rfl
      exact hno (List.mem_singleton.mp hb ▸ VariableSet.mem_names.mp ha)
  · intro c hc
    obtain ⟨x, hx, -, rfl⟩ := hchain hc
    exact ⟨Name.valid_joinWith (hvalid hx), hvalid hx x.1 (by simp),
      fun f hf => hvalid hx f (List.mem_cons_of_mem _ hf)⟩
  · intro c hc
    obtain ⟨x, hx, -, rfl⟩ := hchain hc
    exact mem_variableNames_ofSegments.mpr
      (.inl (mem_variablesOf.mpr (Source.mem_bases.mpr ⟨x, hx, rfl⟩)))
  · intro c hc hn
    rcases mem_variableNames_ofSegments.mp hn with hn | hn
    · exact hclash'.1 c hc hn
    · obtain ⟨x, -, hf, rfl⟩ := hchain hc
      obtain ⟨f, fs, e⟩ := List.exists_cons_of_ne_nil hf
      rw [e] at hn
      exact derivedName_ne_nameVariable x.1 f fs hn
  · exact (List.nodup_map_iff_inj_on (List.Nodup.of_map _ (chainsOf _).nodup)).mpr hclash'.2
  · intro c hc
    obtain ⟨x, -, hf, rfl⟩ := hchain hc
    obtain ⟨f, fs, e⟩ := List.exists_cons_of_ne_nil hf
    rw [e]
    exact underscore_mem_derivedName x.1 f fs

/-! ## Defaults and descriptions -/

/-- The template with defaults and descriptions for its variables. -/
def annotate (t : Template) (defaults descriptions : String → Option String) : Template :=
  { t with vars := t.vars.map (·.annotate defaults descriptions) }

variable {t : Template} {defaults descriptions : String → Option String}

/-- What variables are told does not change the chains. -/
@[simp]
lemma chains_annotate : (t.annotate defaults descriptions).chains = t.chains :=
  rfl

/-- What variables are told does not change their names. -/
@[simp]
lemma variableNames_annotate :
    (t.annotate defaults descriptions).variableNames = t.variableNames := by
  simp [annotate, variableNames, Variable.annotate, Function.comp_def]

/-- What variables are told leaves a template well named. -/
lemma WellNamed.annotate (h : t.WellNamed) (defaults descriptions : String → Option String) :
    (t.annotate defaults descriptions).WellNamed where
  vars := by simpa using h.vars
  nodup := by simpa using h.nodup
  hasName := by simpa using h.hasName
  chains := h.chains
  base := by simpa using h.base
  free := by simpa using h.free
  distinct := h.distinct
  joined := h.joined

/-- Variables hold what they were told, with special characters escaped. -/
lemma texts_of_mem_annotate {v : Variable} (hv : v ∈ (t.annotate defaults descriptions).vars) :
    v.default = (defaults v.name).map Escape.escape ∧
    v.description = (descriptions v.name).map Escape.escape := by
  obtain ⟨u, -, rfl⟩ := List.mem_map.mp hv
  exact ⟨rfl, rfl⟩

end Template

end Stencil
