import Mathlib.Data.List.Nodup
import Stencil.Proofs.Grammar
import Stencil.Proofs.OrderedSet
import Stencil.Proofs.Quotation

/-!
# What is read from a source

The variables and chains of a template are those of the row of its source, and it has a template
exactly if no derived name is taken. Together with the grammar of rows this tells for every source
whether it is a template and which one (`Source.parse_iff_row`).
-/

namespace Stencil

namespace ChainSet

/-- Chains that are named after their base and filters. -/
def Canonical (cs : List Chain) : Prop :=
  ∀ c ∈ cs, c = Chain.of c.base c.filters

/-- Two canonical chains with one key are the same. -/
lemma eq_of_key {c d : Chain} (hc : c = Chain.of c.base c.filters)
    (hd : d = Chain.of d.base d.filters) (h : c.key = d.key) : c = d := by
  obtain ⟨hb, hf⟩ := Prod.mk.inj h
  rw [hc, hd, hb, hf]

/-- Among canonical chains a set holds what it held before and the chain that was put in. -/
lemma mem_insert {s : ChainSet} {c d : Chain} (hs : Canonical (c :: s.items)) :
    d ∈ (s.insert c).items ↔ d ∈ s.items ∨ d = c := by
  unfold insert
  by_cases h : c.key ∈ s
  · obtain ⟨e, he, hk⟩ := List.mem_map.mp (OrderedSet.mem_iff_mem_keys.mp h)
    have hec : e = c := eq_of_key (hs e (by simp [he])) (hs c (by simp)) hk
    rw [OrderedSet.insert_of_mem h]
    exact ⟨.inl, fun h' => h'.elim id fun hd => hd ▸ hec ▸ he⟩
  · rw [OrderedSet.insert_of_notMem h, OrderedSet.items_push, List.mem_append, List.mem_singleton]

/-- A set that canonical chains are put in one by one. -/
lemma mem_foldl_insert {cs : List Chain} {s : ChainSet} (hs : Canonical s.items) (hc : Canonical cs)
    {d : Chain} : d ∈ (cs.foldl insert s).items ↔ d ∈ s.items ∨ d ∈ cs := by
  induction cs generalizing s with
  | nil => simp
  | cons c cs ih =>
    have hcs : Canonical (c :: s.items) := by
      intro e he
      rcases List.mem_cons.mp he with rfl | he
      · exact hc e (by simp)
      · exact hs e he
    have hs' : Canonical (s.insert c).items := by
      intro e he
      rcases (mem_insert hcs).mp he with he | rfl
      · exact hs e he
      · exact hc e (by simp)
    rw [List.foldl_cons, ih hs' fun e he => hc e (by simp [he]), mem_insert hcs, List.mem_cons,
      or_assoc]

end ChainSet

/-! ## Clashes -/

/-- The chain before that has the name of the next one. -/
lemma find?_name_eq_none {before : List Chain} {c : Chain} :
    before.find? (·.name == c.name) = none ↔ ∀ b ∈ before, b.name ≠ c.name := by
  rw [List.find?_eq_none]
  simp

/-- There is no clash if all names are different from each other and from the variables. -/
lemma findClash_eq_none {vars : VariableSet} {before cs : List Chain} :
    findClash vars before cs = none ↔
      (∀ c ∈ cs, c.name ∉ vars ∧ ∀ b ∈ before, b.name ≠ c.name) ∧ (cs.map Chain.name).Nodup := by
  induction cs generalizing before with
  | nil => simp [findClash]
  | cons c cs ih =>
    rw [findClash]
    by_cases hv : c.name ∈ vars
    · simp [hv]
    rw [if_neg hv]
    cases hf : before.find? (·.name == c.name) with
    | some other =>
      simp only [reduceCtorEq, false_iff]
      intro h
      rw [find?_name_eq_none.mpr (h.1 c (by simp)).2] at hf
      simp at hf
    | none =>
      have hb := find?_name_eq_none.mp hf
      simp only [ih, List.mem_cons, List.mem_append, List.map_cons, List.nodup_cons, List.mem_map,
        List.not_mem_nil, or_false]
      refine ⟨fun ⟨h, hn⟩ => ⟨?_, ?_, hn⟩, fun ⟨h, hc, hn⟩ => ⟨?_, hn⟩⟩
      · rintro d (rfl | hd)
        · exact ⟨hv, hb⟩
        · exact ⟨(h d hd).1, fun b hb' => (h d hd).2 b (.inl hb')⟩
      · rintro ⟨d, hd, e⟩
        exact (h d hd).2 c (.inr rfl) e.symm
      · intro d hd
        refine ⟨(h d (.inr hd)).1, ?_⟩
        rintro b (hb' | rfl)
        · exact (h d (.inr hd)).2 b hb'
        · exact fun e => hc ⟨d, hd, e.symm⟩

/-- The chains of a set have no clash if no name is taken twice. -/
lemma clash?_eq_none {vars : VariableSet} {chains : ChainSet} :
    clash? vars chains.items = none ↔
      (∀ c ∈ chains.items, c.name ∉ vars) ∧
        ∀ c ∈ chains.items, ∀ d ∈ chains.items, c.name = d.name → c = d := by
  have hnd : chains.items.Nodup := List.Nodup.of_map _ chains.nodup
  unfold clash?
  rw [findClash_eq_none, List.nodup_map_iff_inj_on hnd]
  simp

/-- The chain of a placeholder is named after its base and filters. -/
lemma Segment.canonical_chains (segs : List Segment) :
    ChainSet.Canonical (segs.filterMap Segment.chain?) := by
  intro c hc
  obtain ⟨seg, _, h⟩ := List.mem_filterMap.mp hc
  unfold Segment.chain? at h
  split at h
  · simp at h
  · simp at h
  · obtain rfl := Option.some.inj h
    rfl

namespace Template

/-- The variables of segments are their bases. -/
lemma mem_variablesOf {segs : List Segment} {n : String} :
    n ∈ variablesOf segs ↔ n ∈ segs.filterMap Segment.base? :=
  VariableSet.mem_foldl_insert

/-- The chains of segments are those that they ask for. -/
lemma mem_chainsOf {segs : List Segment} {c : Chain} :
    c ∈ (chainsOf segs).items ↔ c ∈ segs.filterMap Segment.chain? := by
  unfold chainsOf
  rw [ChainSet.mem_foldl_insert (by simp [ChainSet.Canonical, ChainSet.empty])
    (Segment.canonical_chains _)]
  simp [ChainSet.empty]

/-- A source is a template if it can be cut into segments without a clash. -/
lemma parse_eq_ok {source : String} {t : Template} :
    parse source = .ok t ↔ ∃ segs, Segment.read source.toList = .ok segs ∧
      clash? (variablesOf segs) (chainsOf segs).items = none ∧ t = ofSegments source segs := by
  rw [parse_eq_read]
  cases Segment.read source.toList with
  | error e => simp
  | ok segs =>
    cases hclash : clash? (variablesOf segs) (chainsOf segs).items with
    | some e => simp [hclash]
    | none => simp [hclash, eq_comm]

end Template

namespace Source

/-- The base and filters of every placeholder of a row. -/
def chains (ps : List Piece) : List (String × List String) :=
  ps.filterMap fun p =>
    match p with
    | .literal _ => none
    | .placeholder body => some (chainOf body)

/-- No derived name is taken: by a variable, or by a chain with another base or other filters. -/
structure Clashless (ps : List Piece) : Prop where
  free : ∀ x ∈ chains ps, x.2 ≠ [] → ∀ y ∈ chains ps, derivedName x.1 x.2 ≠ y.1
  distinct : ∀ x ∈ chains ps, ∀ y ∈ chains ps, x.2 ≠ [] → y.2 ≠ [] →
    derivedName x.1 x.2 = derivedName y.1 y.2 → x = y

/-- The variables of a row are the bases of its placeholders. -/
lemma mem_bases {ps : List Piece} {n : String} :
    n ∈ (ps.map Piece.segment).filterMap Segment.base? ↔ ∃ x ∈ chains ps, x.1 = n := by
  induction ps with
  | nil => simp [chains]
  | cons p ps ih =>
    cases p with
    | literal text => simpa [chains, Piece.segment, Segment.base?] using ih
    | placeholder body =>
      simp only [List.map_cons, Piece.segment, List.filterMap_cons, Segment.base?, List.mem_cons,
        ih, chains, exists_eq_or_imp]
      exact or_congr eq_comm Iff.rfl

/-- The chains of a row are those of its placeholders that have filters. -/
lemma mem_filtered {ps : List Piece} {c : Chain} :
    c ∈ (ps.map Piece.segment).filterMap Segment.chain? ↔
      ∃ x ∈ chains ps, x.2 ≠ [] ∧ c = Chain.of x.1 x.2 := by
  induction ps with
  | nil => simp [chains]
  | cons p ps ih =>
    cases p with
    | literal text => simpa [chains, Piece.segment, Segment.chain?] using ih
    | placeholder body =>
      simp only [List.map_cons, Piece.segment, List.filterMap_cons, chains, List.mem_cons,
        exists_eq_or_imp]
      cases (chainOf body).2 with
      | nil => simpa [Segment.chain?, chains] using ih
      | cons f fs => simpa [Segment.chain?, chains] using or_congr Iff.rfl ih

/-- There is a clash in a row exactly if one is found among its segments. -/
lemma clashless_iff {ps : List Piece} :
    Clashless ps ↔ clash? (Template.variablesOf (ps.map Piece.segment))
      (Template.chainsOf (ps.map Piece.segment)).items = none := by
  rw [clash?_eq_none]
  simp only [Template.mem_chainsOf, Template.mem_variablesOf, mem_filtered, mem_bases]
  constructor
  · rintro ⟨hv, hd⟩
    refine ⟨?_, ?_⟩
    · rintro c ⟨x, hx, hf, rfl⟩ ⟨y, hy, e⟩
      exact hv x hx hf y hy e.symm
    · rintro c ⟨x, hx, hxf, rfl⟩ d ⟨y, hy, hyf, rfl⟩ e
      rw [hd x hx y hy hxf hyf e]
  · rintro ⟨hv, hd⟩
    refine ⟨?_, ?_⟩
    · intro x hx hf y hy e
      exact hv (Chain.of x.1 x.2) ⟨x, hx, hf, rfl⟩ ⟨y, hy, e.symm⟩
    · intro x hx y hy hxf hyf e
      have h := hd _ ⟨x, hx, hxf, rfl⟩ _ ⟨y, hy, hyf, rfl⟩ e
      exact Prod.ext (congrArg Chain.base h) (congrArg Chain.filters h)

/-- A source with a template is a row without a clash, and its template is that of the row. -/
lemma parse_eq_ok {source : String} {t : Template} :
    Template.parse source = .ok t ↔ ∃ ps, Row ps ∧ Clashless ps ∧ written ps = source.toList ∧
      t = Template.ofSegments source (ps.map Piece.segment) := by
  rw [Template.parse_eq_ok]
  constructor
  · rintro ⟨segs, hread, hclash, rfl⟩
    obtain ⟨ps, hrow, hw, rfl⟩ := exists_row hread
    exact ⟨ps, hrow, clashless_iff.mpr hclash, hw, rfl⟩
  · rintro ⟨ps, hrow, hclash, hw, rfl⟩
    exact ⟨_, hw ▸ hrow.read, clashless_iff.mp hclash, rfl⟩

/-- A piece as it stands between double quotes in a script. -/
def Piece.rendered : Piece → String
  | .literal text => Escape.escape (String.ofList text)
  | .placeholder body => "$\x7b" ++ Text.joinWith "_" (names body) ++ "\x7d"

/-- A piece is rendered as its segment. -/
lemma Piece.toList_rendered (p : Piece) : p.rendered.toList = p.segment.render := by
  cases p with
  | literal text => simp [rendered, segment, Segment.render, Escape.escape]
  | placeholder body =>
    simp [rendered, segment, Segment.render, derivedName, names_eq_cons, String.toList_append]

/-- The text of a row as it stands between double quotes in a script. -/
lemma skeleton_eq (source : String) (ps : List Piece) :
    (Template.ofSegments source (ps.map Piece.segment)).skeleton =
      String.join (ps.map Piece.rendered) := by
  rw [← String.toList_inj, String.toList_join]
  simp [Template.ofSegments, List.flatMap_map, Piece.toList_rendered]

/-- A source has a template exactly if it is a row of pieces without a clash. There is only one such
row. The template keeps the source, and its text is that of the pieces in order. -/
theorem parse_iff_row (source : String) :
    ((∃ t, Template.parse source = .ok t) ↔
      ∃ ps, Row ps ∧ Clashless ps ∧ written ps = source.toList) ∧
    ∀ ps, Row ps → Clashless ps → written ps = source.toList →
      (∀ qs, Row qs → written qs = source.toList → qs = ps) ∧
      ∃ t, Template.parse source = .ok t ∧ t.source = source ∧
        t.skeleton = String.join (ps.map Piece.rendered) := by
  refine ⟨⟨?_, ?_⟩, ?_⟩
  · rintro ⟨t, ht⟩
    obtain ⟨ps, hrow, hclash, hw, _⟩ := parse_eq_ok.mp ht
    exact ⟨ps, hrow, hclash, hw⟩
  · rintro ⟨ps, hrow, hclash, hw⟩
    exact ⟨_, parse_eq_ok.mpr ⟨ps, hrow, hclash, hw, rfl⟩⟩
  · intro ps hrow hclash hw
    refine ⟨fun qs hq hqw => hq.unique hrow (hqw.trans hw.symm), ?_⟩
    exact ⟨_, parse_eq_ok.mpr ⟨ps, hrow, hclash, hw, rfl⟩, rfl, skeleton_eq source ps⟩

end Source

end Stencil
