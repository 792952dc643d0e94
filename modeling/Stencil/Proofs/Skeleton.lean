import Stencil.Proofs.Template

/-!
# The text of a template

A template's text stands between double quotes in its script. There it is read without a surprise:
each literal gives itself, each placeholder looks up one variable, and nothing else is looked up
(`Template.skeleton_expands`).
-/

namespace Stencil

namespace Source

open Quotation

/-- The script's variable that holds the value of a placeholder. -/
def holder (body : List Char) : String :=
  match chainOf body with
  | (base, []) => base
  | (base, f :: fs) => derivedName base (f :: fs)

/-- A piece with the value of its variable in place of a placeholder. -/
def Piece.filled (env : String → String) : Piece → String
  | .literal text => String.ofList text
  | .placeholder body => env (holder body)

/-- What a piece of a source reads as between double quotes. -/
def Piece.quoted : Piece → List Quotation.Piece
  | .literal text => text.map .char
  | .placeholder body => [.ref (holder body).toList]

/-- The variable of a placeholder is named after all names of its body. -/
lemma holder_eq (body : List Char) :
    holder body = derivedName (chainOf body).1 (chainOf body).2 := by
  unfold holder
  split
  · rename_i h
    rw [h]
    rfl
  · rename_i h
    rw [h]

/-- The variable of a placeholder is a name. -/
lemma Body.valid_holder {body : List Char} (h : Body body) : Name.Valid (holder body) := by
  rw [holder_eq]
  apply Name.valid_joinWith
  rw [← names_eq_cons]
  exact body_iff.mp h

/-- One piece before others reads as what it stands for. -/
lemma Piece.WellFormed.read {p : Piece} (h : p.WellFormed) (rest : List Char) :
    Quotation.read (p.segment.render ++ rest) = (Quotation.read rest).map (p.quoted ++ ·) := by
  cases p with
  | literal text => exact read_escapeChars_append text rest
  | placeholder body =>
    have hn : Name.faultOf (holder body).toList = none := Body.valid_holder h
    rw [holder_eq] at hn
    simp only [segment, Segment.render, quoted, holder_eq]
    exact read_reference_append hn rest

/-- A row of pieces reads as what the pieces stand for. -/
lemma Row.read_render {ps : List Piece} (h : ∀ p ∈ ps, p.WellFormed) :
    Quotation.read ((ps.map Piece.segment).flatMap Segment.render) =
      some (ps.flatMap Piece.quoted) := by
  induction ps with
  | nil => rw [List.map_nil, List.flatMap_nil, Quotation.read, List.flatMap_nil]
  | cons p ps ih =>
    rw [List.map_cons, List.flatMap_cons, (h p (by simp)).read, ih fun q hq => h q (by simp [hq])]
    rfl

/-- The value of what a piece reads as. -/
lemma Piece.flatMap_value_quoted (env : String → String) (p : Piece) :
    p.quoted.flatMap (Quotation.Piece.value env) = (p.filled env).toList := by
  cases p with
  | literal text => simp [quoted, filled, List.flatMap_map, Quotation.Piece.value]
  | placeholder body => simp [quoted, filled, Quotation.Piece.value]

/-- The variable of a placeholder is a variable of the template or holds the result of one of its
chains. -/
lemma holder_mem {source : String} {ps : List Piece} {body : List Char}
    (h : .placeholder body ∈ ps) :
    holder body ∈ (Template.ofSegments source (ps.map Piece.segment)).variableNames ∨
      holder body ∈ (Template.ofSegments source (ps.map Piece.segment)).chains.map Chain.name := by
  have hx : chainOf body ∈ chains ps := List.mem_filterMap.mpr ⟨_, h, rfl⟩
  unfold holder
  split
  · rename_i base e
    have hb : base ∈ Template.variablesOf (ps.map Piece.segment) :=
      Template.mem_variablesOf.mpr (mem_bases.mpr ⟨_, hx, by rw [e]⟩)
    refine .inl ?_
    exact Template.mem_variableNames_ofSegments.mpr (.inl hb)
  · rename_i base f fs e
    refine .inr (List.mem_map.mpr ⟨Chain.of base (f :: fs), ?_, rfl⟩)
    exact Template.mem_chainsOf.mpr (mem_filtered.mpr ⟨_, hx, by rw [e]; simp, by rw [e]⟩)

end Source

namespace Template

/-- The text of a template reads as what the pieces of its source stand for. -/
lemma read_skeleton (source : String) {ps : List Source.Piece} (h : Source.Row ps) :
    Quotation.read (ofSegments source (ps.map Source.Piece.segment)).skeleton.toList =
      some (ps.flatMap Source.Piece.quoted) := by
  rw [ofSegments, String.toList_ofList]
  exact Source.Row.read_render h.wellFormed

/-- Only variables of a template and results of its chains are looked up in its text. -/
lemma mem_of_mem_references {source : String} {t : Template} (h : parse source = .ok t) {n : String}
    (hn : n ∈ Quotation.references t.skeleton) :
    n ∈ t.variableNames ∨ n ∈ t.chains.map Chain.name := by
  obtain ⟨ps, hrow, -, -, rfl⟩ := Source.parse_eq_ok.mp h
  rw [Quotation.references, read_skeleton source hrow, Option.getD_some, List.mem_filterMap] at hn
  obtain ⟨q, hq, hqn⟩ := hn
  obtain ⟨p, hp, hqp⟩ := List.mem_flatMap.mp hq
  cases p with
  | literal text =>
    obtain ⟨c, -, rfl⟩ := List.mem_map.mp hqp
    cases hqn
  | placeholder body =>
    obtain rfl := List.mem_singleton.mp hqp
    obtain rfl := Option.some.inj hqn
    rw [String.ofList_toList]
    exact Source.holder_mem hp

/-- The text of a template, expanded between double quotes, is its source with the value of a
variable in place of each placeholder. Only variables of the template and results of its chains are
looked up. -/
theorem skeleton_expands {source : String} {t : Template} (h : parse source = .ok t)
    (env : String → String) :
    ∃ ps, Source.Row ps ∧ Source.written ps = source.toList ∧
      Quotation.expand env t.skeleton = some (String.join (ps.map (Source.Piece.filled env))) ∧
      ∀ n ∈ Quotation.references t.skeleton, n ∈ t.variableNames ∨ n ∈ t.chains.map Chain.name := by
  obtain ⟨ps, hrow, -, hw, rfl⟩ := Source.parse_eq_ok.mp h
  refine ⟨ps, hrow, hw, ?_, fun n => mem_of_mem_references h⟩
  rw [Quotation.expand, read_skeleton source hrow, Option.map_some, List.flatMap_assoc]
  congr 1
  rw [← String.toList_inj, String.toList_join, String.toList_ofList, List.flatMap_map]
  exact congrArg ps.flatMap (funext fun p => p.flatMap_value_quoted env)

/-- A dollar and a backslash right before a placeholder, and a brace and a quote right after it. -/
theorem skeleton_expands_between_specials :
    let source := "$\\\x7b\x7b x | up \x7d\x7d\x7d\""
    let env := fun n => "<" ++ n ++ ">"
    ∃ t, parse source = .ok t ∧ ∃ ps, Source.Row ps ∧ Source.written ps = source.toList ∧
      Quotation.expand env t.skeleton = some (String.join (ps.map (Source.Piece.filled env))) ∧
      ∀ n ∈ Quotation.references t.skeleton, n ∈ t.variableNames ∨ n ∈ t.chains.map Chain.name := by
  intro source env
  have h : parse source = .ok
      { source
        skeleton := "\\$\\\\$\x7bx_up\x7d\x7d\\\""
        vars := [{ name := "x" }, { name := "name" }]
        chains := [Chain.of "x" ["up"]]
        usesName := false } := by decide +kernel
  exact ⟨_, h, skeleton_expands h env⟩

end Template

end Stencil
