import Stencil.Proofs.Prompt

/-!
# What a template lists

A template lists the variables, chains and filters that the placeholders of its source mention, each
once and in the order of its first mention (`FirstUse`). All three lists grow in the same way: a new
member is put at the end, and one that is there already changes nothing (`putNew`). One such step
keeps the order (`FirstUse.step`), hence a whole run does (`firstUse_foldl`), that of an ordered set
among them (`OrderedSet.firstUse_keys`). `Template.lists_of_parse` puts the lists together.
-/

namespace Stencil

section

variable {α : Type} [DecidableEq α]

/-- `ys` lists the members of `xs` by first occurrence, each once. -/
structure FirstUse (xs ys : List α) : Prop where
  mem : ∀ a, a ∈ ys ↔ a ∈ xs
  nodup : ys.Nodup
  order : ys.Pairwise fun a b => xs.idxOf a < xs.idxOf b

/-- The list with a member at its end, unless it has that member already. -/
def putNew (ys : List α) (a : α) : List α :=
  if a ∈ ys then ys else ys ++ [a]

variable {xs ys zs : List α} {a : α}

/-- What is there is not put again. -/
lemma putNew_of_mem (h : a ∈ ys) : putNew ys a = ys :=
  if_pos h

/-- What is new is put at the end. -/
lemma putNew_of_notMem (h : a ∉ ys) : putNew ys a = ys ++ [a] :=
  if_neg h

namespace FirstUse

/-- Nothing has no first uses. -/
lemma nil : FirstUse ([] : List α) [] :=
  ⟨fun _ => Iff.rfl, .nil, .nil⟩

/-- What occurs later changes nothing in the order of what occurred before. -/
lemma order_append (h : FirstUse xs ys) (zs : List α) :
    ys.Pairwise fun a b => (xs ++ zs).idxOf a < (xs ++ zs).idxOf b := by
  apply h.order.imp_of_mem
  intro a b ha hb hab
  rw [List.idxOf_append_of_mem ((h.mem a).mp ha), List.idxOf_append_of_mem ((h.mem b).mp hb)]
  exact hab

/-- One more use adds to the first uses if it is new. -/
lemma step (h : FirstUse xs ys) (a : α) : FirstUse (xs ++ [a]) (putNew ys a) := by
  by_cases ha : a ∈ ys
  · rw [putNew_of_mem ha]
    refine ⟨fun b => ?_, h.nodup, h.order_append [a]⟩
    rw [List.mem_append, List.mem_singleton, h.mem b]
    constructor
    · exact .inl
    · rintro (hb | rfl)
      · exact hb
      · exact (h.mem b).mp ha
  · have hnew : a ∉ xs := fun hx => ha ((h.mem a).mpr hx)
    rw [putNew_of_notMem ha]
    refine ⟨fun b => ?_, ?_, ?_⟩
    · rw [List.mem_append, List.mem_append, h.mem b]
    · exact List.nodup_append.mpr ⟨h.nodup, List.nodup_singleton a, fun b hb c hc =>
        List.mem_singleton.mp hc ▸ fun hba => ha (hba ▸ hb)⟩
    · apply List.pairwise_append.mpr
      refine ⟨h.order_append [a], List.pairwise_singleton _ a, fun b hb c hc => ?_⟩
      -- what was there occurs among the first members, and `a` behind them
      obtain rfl := List.mem_singleton.mp hc
      have hbx := (h.mem b).mp hb
      rw [List.idxOf_append_of_mem hbx, List.idxOf_append_of_notMem hnew]
      exact Nat.lt_of_lt_of_le (List.idxOf_lt_length_iff.mpr hbx) (Nat.le_add_right _ _)

/-- Further uses add those that are new, in their order. -/
lemma foldl (h : FirstUse xs ys) (zs : List α) : FirstUse (xs ++ zs) (zs.foldl putNew ys) := by
  induction zs generalizing xs ys with
  | nil => rwa [List.append_nil]
  | cons a zs ih =>
    have := ih (h.step a)
    rwa [List.append_assoc, List.singleton_append] at this

end FirstUse

/-- A list that members are put in one by one has them by first occurrence. -/
lemma firstUse_foldl (xs : List α) : FirstUse xs (xs.foldl putNew []) :=
  FirstUse.nil.foldl xs

/-- Taking repetitions away is putting the members in one by one. -/
lemma eraseDups_eq_foldl (xs : List α) : xs.eraseDups = xs.foldl putNew [] := by
  induction xs using List.reverseRecOn with
  | nil => rfl
  | append_singleton xs a ih =>
    rw [List.foldl_append, List.foldl_cons, List.foldl_nil, ← ih, List.eraseDups_append]
    by_cases ha : a ∈ xs
    · rw [putNew_of_mem (List.mem_eraseDups.mpr ha)]
      simp [List.removeAll, ha]
    · rw [putNew_of_notMem fun h => ha (List.mem_eraseDups.mp h)]
      simp [List.removeAll, ha, List.eraseDups_cons]

/-- Erasing duplicates keeps the first uses. -/
lemma firstUse_eraseDups (xs : List α) : FirstUse xs xs.eraseDups :=
  eraseDups_eq_foldl xs ▸ firstUse_foldl xs

/-- Members that are kept stay in the order of their first occurrences. -/
lemma idxOf_filter_lt {keep : α → Bool} {a b : α} (ha : keep a = true) (hb : keep b = true)
    (h : xs.idxOf a < xs.idxOf b) : (xs.filter keep).idxOf a < (xs.filter keep).idxOf b := by
  induction xs with
  | nil => cases h
  | cons x xs ih =>
    have hxb : x ≠ b := by
      rintro rfl
      rw [List.idxOf_cons_self] at h
      cases h
    by_cases hxa : x = a
    · subst hxa
      rw [List.filter_cons_of_pos ha, List.idxOf_cons_self, List.idxOf_cons_ne _ hxb]
      exact Nat.succ_pos _
    · rw [List.idxOf_cons_ne _ hxa, List.idxOf_cons_ne _ hxb] at h
      have hrest := ih (Nat.lt_of_succ_lt_succ h)
      by_cases hx : keep x = true
      · rw [List.filter_cons_of_pos hx, List.idxOf_cons_ne _ hxa, List.idxOf_cons_ne _ hxb]
        exact Nat.succ_lt_succ hrest
      · rw [List.filter_cons_of_neg hx]
        exact hrest

/-- First uses are still so among those that are kept. -/
lemma FirstUse.filter (h : FirstUse xs ys) (keep : α → Bool) :
    FirstUse (xs.filter keep) (ys.filter keep) where
  mem a := by rw [List.mem_filter, List.mem_filter, h.mem a]
  nodup := h.nodup.filter keep
  order := by
    refine (h.order.filter keep).imp_of_mem fun ha hb hab => ?_
    exact idxOf_filter_lt (List.mem_filter.mp ha).2 (List.mem_filter.mp hb).2 hab

end

/-- An ordered set has the keys of its items by first occurrence. -/
lemma OrderedSet.firstUse_keys {α κ : Type} [DecidableEq κ] {key : α → κ} (as : List α) :
    FirstUse (as.map key) ((as.foldl insert (empty : OrderedSet key)).items.map key) := by
  rw [keys_foldl_insert_empty]
  exact firstUse_eraseDups _

/-! ## Placeholders in the order of the source -/

namespace Source

/-- The bases of a source are those of its chains. -/
lemma filterMap_base? (ps : List Piece) :
    (ps.map Piece.segment).filterMap Segment.base? = (chains ps).map Prod.fst := by
  induction ps with
  | nil => rfl
  | cons p ps ih =>
    cases p with
    | literal text => exact ih
    | placeholder body => exact congrArg ((chainOf body).1 :: ·) ih

/-- The chains of a row are its placeholders with filters. -/
lemma keys_filterMap_chain? (ps : List Piece) :
    ((ps.map Piece.segment).filterMap Segment.chain?).map Chain.key =
      (chains ps).filter (·.2 ≠ []) := by
  induction ps with
  | nil => rfl
  | cons p ps ih =>
    cases p with
    | literal text => exact ih
    | placeholder body =>
      have hchains : chains (.placeholder body :: ps) = chainOf body :: chains ps := rfl
      rw [hchains, List.map_cons, Piece.segment]
      cases hfilters : (chainOf body).2 with
      | nil =>
        rw [List.filter_cons_of_neg (by simp [hfilters])]
        exact ih
      | cons f fs =>
        rw [List.filter_cons_of_pos (by simp [hfilters]), ← ih]
        exact congrArg (· :: _) (Prod.ext rfl hfilters.symm)

end Source

namespace Template

/-- A template uses the filters of its chains. -/
lemma mem_usedFilters {t : Template} {f : String} :
    f ∈ t.usedFilters ↔ ∃ c ∈ t.chains, f ∈ c.filters :=
  ((firstUse_foldl (t.chains.flatMap Chain.filters)).mem f).trans List.mem_flatMap

/-- The template lists what its placeholders mention. Each of these is given as a base and filters,
in the order of the source. -/
structure Lists (t : Template) (placed : List (String × List String)) : Prop where
  distinct : t.variableNames.Nodup
  name_once : t.variableNames.count nameVariable = 1
  usesName : t.usesName = true ↔ ∃ x ∈ placed, x.1 = nameVariable
  explicit : t.usesName = true → FirstUse (placed.map Prod.fst) t.variableNames
  implicit : t.usesName = false →
    ∃ names, FirstUse (placed.map Prod.fst) names ∧ t.variableNames = names ++ [nameVariable]
  chains : FirstUse (placed.filter (·.2 ≠ [])) (t.chains.map Chain.key)
  base : ∀ c ∈ t.chains, c.base ∈ t.variableNames
  name : ∀ c ∈ t.chains, c.name = Text.joinWith "_" (c.base :: c.filters)
  filters : FirstUse (t.chains.flatMap Chain.filters) t.usedFilters
  fresh : ∀ v ∈ t.vars, v.default = none ∧ v.description = none

/-- The variables of a template stand in the order of their first uses. -/
lemma firstUse_variablesOf (ps : List Source.Piece) :
    FirstUse ((Source.chains ps).map Prod.fst)
      (variablesOf (ps.map Source.Piece.segment)).names := by
  rw [variablesOf, VariableSet.names_foldl_insert, Source.filterMap_base?]
  exact firstUse_eraseDups _

/-- The chains of a template stand in the order of their first uses. -/
lemma firstUse_chainsOf (ps : List Source.Piece) :
    FirstUse ((Source.chains ps).filter (·.2 ≠ []))
      ((chainsOf (ps.map Source.Piece.segment)).items.map Chain.key) := by
  rw [← Source.keys_filterMap_chain?]
  exact OrderedSet.firstUse_keys _

/-- The variables of a template are the bases of its chains. -/
lemma mem_variablesOf_iff_chains {ps : List Source.Piece} {n : String} :
    n ∈ variablesOf (ps.map Source.Piece.segment) ↔ ∃ x ∈ Source.chains ps, x.1 = n :=
  mem_variablesOf.trans Source.mem_bases

/-- A template that was read lists what the placeholders of its source mention, each thing once and
in order of first mention. These are the placeholders of the only row of pieces that the source
consists of. -/
theorem lists_of_parse {source : String} {t : Template} (h : parse source = .ok t) :
    ∃ ps, Source.Row ps ∧ Source.written ps = source.toList ∧
      (∀ qs, Source.Row qs → Source.written qs = source.toList → qs = ps) ∧
      t.Lists (Source.chains ps) := by
  have hnamed := wellNamed_of_parse h
  have hfresh := fresh_of_parse h
  obtain ⟨ps, hrow, -, hwritten, rfl⟩ := Source.parse_eq_ok.mp h
  refine ⟨ps, hrow, hwritten, fun qs hqs hw => hqs.unique hrow (hw.trans hwritten.symm), ?_⟩
  have hnames := variableNames_ofSegments source (ps.map Source.Piece.segment)
  constructor
  case distinct => exact hnamed.nodup
  case name_once => exact List.count_eq_one_of_mem hnamed.nodup hnamed.hasName
  case usesName => exact decide_eq_true_iff.trans mem_variablesOf_iff_chains
  case explicit =>
    intro huses
    rw [hnames, if_pos (of_decide_eq_true huses)]
    exact firstUse_variablesOf ps
  case implicit =>
    intro huses
    rw [hnames, if_neg (of_decide_eq_false huses)]
    exact ⟨_, firstUse_variablesOf ps, rfl⟩
  case chains => exact firstUse_chainsOf ps
  case base => exact hnamed.base
  case name =>
    intro c hc
    have hcanonical := Segment.canonical_chains _ c (mem_chainsOf.mp hc)
    exact congrArg Chain.name hcanonical
  case filters => exact firstUse_foldl _
  case fresh => exact hfresh

/-- A filtered variable before a bare one, a chain that is repeated, and filters that two chains
share. -/
theorem lists_of_parse_repeated :
    let source :=
      "\x7b\x7b b | f \x7d\x7d\x7b\x7b a \x7d\x7d-\x7b\x7b b|f \x7d\x7d\x7b\x7b a | g | f \x7d\x7d"
    ∃ t, parse source = .ok t ∧ t.variableNames = ["b", "a", "name"] ∧
      t.chains.map Chain.key = [("b", ["f"]), ("a", ["g", "f"])] ∧ t.usedFilters = ["f", "g"] ∧
      ∃ ps, Source.Row ps ∧ Source.written ps = source.toList ∧
        (∀ qs, Source.Row qs → Source.written qs = source.toList → qs = ps) ∧
        t.Lists (Source.chains ps) := by
  intro source
  have h : parse source = .ok
      { source
        skeleton := "$\x7bb_f\x7d$\x7ba\x7d-$\x7bb_f\x7d$\x7ba_g_f\x7d"
        vars := [{ name := "b" }, { name := "a" }, { name := "name" }]
        chains := [Chain.of "b" ["f"], Chain.of "a" ["g", "f"]]
        usesName := false } := by decide +kernel
  exact ⟨_, h, rfl, rfl, by decide, lists_of_parse h⟩

end Template

end Stencil
