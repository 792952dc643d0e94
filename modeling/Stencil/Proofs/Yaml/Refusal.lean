import Mathlib.Tactic.Common
import Stencil.Proofs.Yaml.Rows

/-!
# Refused scalars

A scalar must have the form that its tag asks for. One that has not is refused: a truth value, a
number or a date (`Node.Refused`). Any other fault of a part is that it does not fit its tag, and
makes the text malformed (`Node.refused_iff`).
-/

namespace Stencil.Yaml

/-- If the steps for a list fail, one of them does. -/
lemma exists_of_mapM_error {α β ε : Type} {g : α → Except ε β} {xs : List α} {e : ε}
    (h : xs.mapM g = .error e) :
    ∃ x ∈ xs, g x = .error e := by
  induction xs with
  | nil => cases h
  | cons x xs ih =>
    rw [List.mapM_cons] at h
    cases hx : g x with
    | error e' =>
      rw [hx] at h
      cases h
      exact ⟨x, List.mem_cons_self, hx⟩
    | ok y =>
      cases hxs : xs.mapM g with
      | error e' =>
        rw [hx, hxs] at h
        cases h
        obtain ⟨x', hx', hg⟩ := ih hxs
        exact ⟨x', List.mem_cons_of_mem x hx', hg⟩
      | ok ys =>
        rw [hx, hxs] at h
        cases h

namespace Node

/-- A node that is read as a scalar, and whose text the reader of its tag refuses. A mapping with a
value key has a text, but no date stands in a mapping. -/
inductive Refused (n : Node) (f : Fault) : Prop where
  | bool {s : String} : n.tag = coreTag "bool" → n.text? = some s → Scalar.bool s = .error f →
    Refused n f
  | int {s : String} : n.tag = coreTag "int" → n.text? = some s → Scalar.int s = .error f →
    Refused n f
  | float {s : String} : n.tag = coreTag "float" → n.text? = some s → Scalar.float s = .error f →
    Refused n f
  | timestamp {s : String} : n = .scalar (coreTag "timestamp") s → Scalar.timestamp s = .error f →
    Refused n f
  | notText {s : String} {es : List (Node × Node)} : n = .mapping (coreTag "timestamp") es →
    n.text? = some s → f = .notText → Refused n f

variable {n : Node} {f : Fault}

/-! ## Readers -/

/-- A failure stays the same if a function is applied to the value. -/
lemma error_of_map {α β ε : Type} {g : α → β} {x : Except ε α} {e : ε} (h : x.map g = .error e) :
    x = .error e := by
  cases x with
  | error e' =>
    cases h
    rfl
  | ok a => cases h

/-- What is wrong with a whole number does not make the text malformed. -/
lemma ne_malformed_of_wholeIn {base : Nat} {cs : List Char}
    (h : Scalar.wholeIn base cs = .error f) : f ≠ .malformed := by
  unfold Scalar.wholeIn at h
  dsimp only at h
  split at h
  · cases h
    nofun
  · split_ifs at h
    cases h
    nofun

/-- What is wrong with an integer does not make the text malformed. -/
lemma ne_malformed_of_int {s : String} (h : Scalar.int s = .error f) : f ≠ .malformed := by
  unfold Scalar.int at h
  dsimp only at h
  split at h
  · cases h
    nofun
  · rename_i c _ _
    generalize (if c == '-' then (-1 : Int) else 1) = sign at h
    split at h
    · cases h
    · exact ne_malformed_of_wholeIn (error_of_map h)
    · exact ne_malformed_of_wholeIn (error_of_map h)
    · exact ne_malformed_of_wholeIn (error_of_map h)
    · cases h
      nofun
    · split_ifs at h
      · obtain ⟨cs, -, hcs⟩ := exists_of_mapM_error (error_of_map h)
        exact ne_malformed_of_wholeIn hcs
      · exact ne_malformed_of_wholeIn (error_of_map h)

/-- What is wrong with a decimal fraction does not make the text malformed. -/
lemma ne_malformed_of_decimal {cs : List Char} (h : Scalar.decimal cs = .error f) :
    f ≠ .malformed := by
  unfold Scalar.decimal at h
  split at h
  · cases h
  · cases h
    nofun

/-- What is wrong with a fraction does not make the text malformed. -/
lemma ne_malformed_of_float {s : String} (h : Scalar.float s = .error f) : f ≠ .malformed := by
  unfold Scalar.float at h
  dsimp only at h
  split at h
  · cases h
    nofun
  · rename_i c _ _
    generalize (if c == '-' then (-1 : Float) else 1) = sign at h
    split_ifs at h
    · split at h
      · rename_i g hparts
        cases h
        obtain ⟨cs, -, hcs⟩ := exists_of_mapM_error hparts
        exact ne_malformed_of_decimal hcs
      · split_ifs at h
        cases h
        nofun
    · exact ne_malformed_of_decimal (error_of_map h)

/-- Bytes that cannot be decoded are malformed. -/
lemma malformed_of_bytes {s : String} (h : Scalar.bytes s = .error f) : f = .malformed := by
  unfold Scalar.bytes at h
  split at h
  · split at h
    · cases h
    · cases h
      rfl
  · cases h
    rfl

/-- What is wrong with a truth value does not make the text malformed. -/
lemma ne_malformed_of_bool {s : String} (h : Scalar.bool s = .error f) : f ≠ .malformed := by
  unfold Scalar.bool at h
  dsimp only at h
  split at h <;> cases h
  nofun

/-- What is wrong with a point in time does not make the text malformed. -/
lemma ne_malformed_of_timestamp {s : String} (h : Scalar.timestamp s = .error f) :
    f ≠ .malformed := by
  unfold Scalar.timestamp at h
  split at h
  · cases h
    nofun
  · split at h <;> cases h
    nofun

/-! ## Faults of nodes -/

/-- The fault of a node is that of its scalar. -/
lemma fault?_node : (Part.node n).fault? = some f ↔ n.content = .scalar (.error f) := by
  rw [Part.fault?]
  split
  · rename_i g hcontent
    simp [hcontent]
  · rename_i hcontent
    simp [hcontent]
  · rename_i hother _
    exact ⟨nofun, fun h => absurd h (hother f)⟩

/-- The fault of a node that is read as a scalar. -/
lemma fault?_eq_of_tag {name : String} (h : n.tag = coreTag name) (hname : name ∉ collections)
    (hvalue : n.scalarValue name = .error f) : (Part.node n).fault? = some f := by
  rw [fault?_node, content_eq_scalar h hname, hvalue]

/-- Away from dates, a node is read by its text alone. -/
lemma scalarValue_of_text {name s : String} (h : n.text? = some s) (hname : name ≠ "timestamp") :
    n.scalarValue name = Scalar.value name s := by
  rw [scalarValue, h]
  dsimp only
  split
  · rw [beq_eq_false_iff_ne.mpr hname, if_neg Bool.false_ne_true]
  · rfl

/-- A node that is refused has the fault that its reader finds. -/
lemma Refused.fault? (h : Refused n f) : (Part.node n).fault? = some f ∧ f ≠ .malformed := by
  cases h with
  | bool htag htext hread =>
    refine ⟨fault?_eq_of_tag htag (by decide) ?_, ne_malformed_of_bool hread⟩
    rw [scalarValue_of_text htext (by decide), Scalar.value, hread]
    rfl
  | int htag htext hread =>
    refine ⟨fault?_eq_of_tag htag (by decide) ?_, ne_malformed_of_int hread⟩
    rw [scalarValue_of_text htext (by decide), Scalar.value, hread]
    rfl
  | float htag htext hread =>
    refine ⟨fault?_eq_of_tag htag (by decide) ?_, ne_malformed_of_float hread⟩
    rw [scalarValue_of_text htext (by decide), Scalar.value, hread]
    rfl
  | @timestamp s hscalar hread =>
    subst hscalar
    refine ⟨fault?_eq_of_tag rfl (by decide) ?_, ne_malformed_of_timestamp hread⟩
    change Scalar.value "timestamp" s = _
    rw [Scalar.value, hread]
    rfl
  | notText hmapping htext hf =>
    subst hmapping hf
    refine ⟨fault?_eq_of_tag rfl (by decide) ?_, nofun⟩
    rw [scalarValue, htext]
    rfl

/-- A text that its reader refuses, by the name of the reader's tag. -/
lemma refused_of_value {name s : String} (htag : n.tag = coreTag name) (htext : n.text? = some s)
    (hdate : name = "timestamp" → n = .scalar (coreTag "timestamp") s)
    (h : Scalar.value name s = .error f) : f = .malformed ∨ Refused n f := by
  unfold Scalar.value at h
  split at h
  · cases h
  · exact .inr (.bool htag htext (error_of_map h))
  · exact .inr (.int htag htext (error_of_map h))
  · exact .inr (.float htag htext (error_of_map h))
  · exact .inl (malformed_of_bytes (error_of_map h))
  · exact .inr (.timestamp (hdate rfl) (error_of_map h))
  · cases h
  · cases h
    exact .inl rfl

/-- What is read as a sequence does not fail as a scalar. -/
lemma ofItems_ne_error {wrap : List Node → Content} (h : ∀ ns, wrap ns ≠ .scalar (.error f)) :
    n.ofItems wrap ≠ .scalar (.error f) := by
  unfold ofItems
  split
  · exact h _
  · simp

/-- What is read as a mapping does not fail as a scalar. -/
lemma ofEntries_ne_error {wrap : List (Node × Node) → Content}
    (h : ∀ es, wrap es ≠ .scalar (.error f)) : n.ofEntries wrap ≠ .scalar (.error f) := by
  unfold ofEntries
  split
  · split
    · exact h _
    · simp
  · simp

/-- A node with a fault is malformed, or is read as a scalar and fails. -/
lemma scalarValue_of_fault? (h : (Part.node n).fault? = some f) :
    f = .malformed ∨ ∃ name, n.tag = coreTag name ∧ n.scalarValue name = .error f := by
  rw [fault?_node] at h
  unfold content at h
  split at h
  · cases h
  · split at h
    · exact absurd h (ofItems_ne_error (by simp))
    · exact absurd h (ofEntries_ne_error (by simp))
    · exact absurd h (ofEntries_ne_error (by simp))
    · exact absurd h (ofItems_ne_error (by simp))
    · exact absurd h (ofItems_ne_error (by simp))
    · rename_i name _ _ _ _ _ htag
      injection h with h
      exact .inr ⟨name, tagName?_eq_some_iff.mp htag, h⟩
    · injection h with h
      injection h with h
      exact .inl h.symm

/-- A node that fails as a scalar is malformed or refused. -/
lemma refused_of_scalarValue {name : String} (htag : n.tag = coreTag name)
    (h : n.scalarValue name = .error f) : f = .malformed ∨ Refused n f := by
  unfold scalarValue at h
  split at h
  · injection h with hf
    exact .inl hf.symm
  · rename_i s htext
    cases n with
    | mapping tag es =>
      -- A mapping has the text of its value key, which is not read as a date.
      dsimp only at h
      split at h
      · rename_i hname
        rw [beq_iff_eq.mp hname] at htag
        injection h with hf
        exact .inr (.notText (by rw [← htag]; rfl) htext hf.symm)
      · rename_i hname
        exact refused_of_value htag htext (fun heq => absurd (beq_iff_eq.mpr heq) hname) h
    | scalar tag text =>
      refine refused_of_value htag htext (fun heq => ?_) h
      cases htext
      rw [← heq, ← htag]
      rfl
    | sequence | loop => cases htext

/-- A node with a fault is malformed or refused. -/
lemma refused_of_fault? (h : (Part.node n).fault? = some f) : f = .malformed ∨ Refused n f := by
  obtain hf | ⟨name, htag, hvalue⟩ := scalarValue_of_fault? h
  · exact .inl hf
  · exact refused_of_scalarValue htag hvalue

/-- The faults of nodes other than that they are malformed are those of refused ones. -/
lemma refused_iff : Refused n f ↔ (Part.node n).fault? = some f ∧ f ≠ .malformed :=
  ⟨Refused.fault?, fun ⟨h, hf⟩ => (refused_of_fault? h).resolve_left hf⟩

/-- A document has a fault that is reported otherwise than as malformed if the first part that has
one is a refused node. -/
lemma fault?_eq_some_of_ne_malformed (hf : f ≠ .malformed) :
    n.fault? = some f ↔ ∃ k m, Foremost [.node n] k (.node m) ∧ Refused m f := by
  rw [fault?_eq_some_iff]
  constructor
  · rintro ⟨k, p, hfirst, hp⟩
    cases p with
    | wrong =>
      cases hp
      exact absurd rfl hf
    | node m => exact ⟨k, m, hfirst, refused_iff.mpr ⟨hp, hf⟩⟩
  · rintro ⟨k, m, hfirst, hrefused⟩
    exact ⟨k, .node m, hfirst, (refused_iff.mp hrefused).1⟩

end Node

end Stencil.Yaml
