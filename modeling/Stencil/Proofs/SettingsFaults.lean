import Stencil.Proofs.Utf8
import Stencil.Proofs.Yaml.Continuation
import Stencil.Proofs.Yaml.Refusal
import Stencil.Settings

/-!
# Settings that cannot be read

A file gives settings or an error that names it, unless it is stray: its bytes are no text, a key at
its top is no text, a number in an escape or a directive is out of range, or a scalar is refused by
the reader of its tag. Then, and only then, the error is one that no command is prepared for
(`Settings.ofBytes_outcome`). Where several things are wrong, the order in which the file is read
decides: the bytes come first, then the tokens from left to right, then the nodes row by row.

The file is taken in as a whole. Three things lie outside: files of more than 8192 bytes in which
something else is wrong before bytes that are no text or characters that YAML forbids, since those
are taken in piece by piece; aliases that stand in the collection that they name, or in a document
with merge or value keys; and documents that are nested too deep for the machine.
-/

namespace Stencil

open Yaml

namespace Settings

/-- Contents of a file that are no text, or a document with a key at its top that is no text, or
tokens with a fault behind some that are not malformed whatever follows, or a document in which the
first part with a fault is a refused scalar. -/
inductive Stray (bs : List UInt8) : Prop where
  | bytes : (∀ text, Text.encode text ≠ bs) → Stray bs
  | key {text : String} {entries : List (Value × Value)} {e : Value × Value} :
    Text.decodeLines bs = .ok text → Yaml.read text = .ok (.mapping entries) → e ∈ entries →
    (∀ s, e.1 ≠ .text s) → Stray bs
  | token {text : String} {before after : List Token} {f : Fault} :
    Text.decodeLines bs = .ok text → Token.scan text = some (before ++ .fault f :: after) →
    f ≠ .malformed → ¬Node.Spoilt before → Stray bs
  | scalar {text : String} {node m : Node} {k : Nat} {f : Fault} :
    Text.decodeLines bs = .ok text → Node.root text = .ok (some node) →
    Node.Foremost [.node node] k (.node m) → Node.Refused m f → Stray bs

variable {bs : List UInt8} {path text : String} {entries : List (Value × Value)}

/-- A mapping has no fields exactly if a key of it is no text. -/
lemma fieldsOf?_eq_none_iff : fieldsOf? entries = none ↔ ∃ e ∈ entries, ∀ s, e.1 ≠ .text s := by
  induction entries with
  | nil => simp [fieldsOf?]
  | cons e entries ih =>
    obtain ⟨k, v⟩ := e
    cases k
    case text name =>
      have htail :
          fieldsOf? ((.text name, v) :: entries) = (fieldsOf? entries).map ((name, v) :: ·) := by
        rw [fieldsOf?, List.mapM_cons, ← fieldsOf?]
        cases fieldsOf? entries <;> rfl
      rw [htail, Option.map_eq_none_iff, ih]
      simp
    all_goals exact ⟨fun _ => ⟨_, List.mem_cons_self, nofun⟩, fun _ => rfl⟩

/-- What a document gives. -/
lemma ofValue_outcome (path : String) (v : Value) :
    (∃ s, ofValue path v = .ok s) ∨
    (∃ fault, ofValue path v = .error (.known (.invalidSettings path fault))) ∨
      ofValue path v = .error (.unexpected .keyNotText) ∧
        ∃ entries, v = .mapping entries ∧ ∃ e ∈ entries, ∀ s, e.1 ≠ .text s := by
  unfold ofValue
  split
  · exact .inl ⟨_, rfl⟩
  · split
    · split
      · exact .inr (.inr ⟨rfl, _, rfl, fieldsOf?_eq_none_iff.mp ‹_›⟩)
      · split
        · exact .inl ⟨_, rfl⟩
        · exact .inr (.inl ⟨_, rfl⟩)
    · exact .inr (.inl ⟨_, rfl⟩)

/-- A key that is no text is not expected. -/
lemma ofValue_oddKey {e : Value × Value} (he : e ∈ entries) (hkey : ∀ s, e.1 ≠ .text s)
    (path : String) :
    ofValue path (.mapping entries) = .error (.unexpected .keyNotText) := by
  have hvoid : (Value.mapping entries).isVoid = false := by
    cases entries with
    | nil => exact absurd he List.not_mem_nil
    | cons => rfl
  rw [ofValue, hvoid, if_neg Bool.false_ne_true, fieldsOf?_eq_none_iff.mpr ⟨e, he, hkey⟩]

/-- A fault that does not make the text malformed is not expected. -/
lemma ofBytes_fault {f : Fault} (htext : Text.decodeLines bs = .ok text)
    (hread : Yaml.read text = .error f) (hf : f ≠ .malformed) (path : String) :
    ofBytes path bs = .error (.unexpected (.badScalar f)) := by
  rw [ofBytes, htext]
  dsimp only
  rw [ofText, hread]
  cases f <;> first | rfl | exact absurd rfl hf

/-- Stray contents end in an error that no command is prepared for. -/
lemma Stray.unexpected (h : Stray bs) (path : String) :
    ∃ e, ofBytes path bs = .error (.unexpected e) := by
  cases h with
  | bytes hbytes =>
    cases hdecode : Text.decode bs with
    | ok s => exact absurd (Text.encode_of_decode hdecode) (hbytes s)
    | error e =>
      refine ⟨.undecodable e, ?_⟩
      rw [ofBytes, Text.decodeLines, hdecode]
      rfl
  | key htext hread he hkey =>
    refine ⟨.keyNotText, ?_⟩
    rw [ofBytes, htext]
    dsimp only
    rw [ofText, hread]
    exact ofValue_oddKey he hkey path
  | @token text before after f htext hscan hf hbefore =>
    obtain ⟨e, hroot, he⟩ := Node.strays_of_not_spoilt hbefore hf after
    have hread : Yaml.read text = .error e := by
      rw [Yaml.read, Node.root, hscan]
      dsimp only
      rw [hroot]
    exact ⟨.badScalar e, ofBytes_fault htext hread he path⟩
  | @scalar text node m k f htext hroot hfirst hrefused =>
    have hf := hrefused.fault?.2
    have hfault := (Node.fault?_eq_some_of_ne_malformed hf).mpr ⟨k, m, hfirst, hrefused⟩
    have hread : Yaml.read text = .error f := by
      rw [Yaml.read, hroot]
      dsimp only
      rw [hfault]
    exact ⟨.badScalar f, ofBytes_fault htext hread hf path⟩

/-- A text that stands for no value, and is not malformed, has a fault in its tokens that reading
comes to, or a refused scalar that is the first part with a fault. -/
lemma stray_of_read {f : Fault} (htext : Text.decodeLines bs = .ok text)
    (hread : Yaml.read text = .error f) (hf : f ≠ .malformed) : Stray bs := by
  unfold Yaml.read at hread
  split at hread
  · rename_i hroot
    cases hread
    unfold Node.root at hroot
    split at hroot
    · cases hroot
      exact absurd rfl hf
    · rename_i tokens hscan
      have hmem := (Node.malformed_or_mem_of_ofTokens hroot).resolve_left hf
      obtain ⟨before, after, rfl⟩ := List.append_of_mem hmem
      refine .token htext hscan hf fun hspoilt => hf ?_
      rw [hspoilt] at hroot
      exact (Except.error.inj hroot).symm
  · cases hread
  · rename_i node hroot
    split at hread
    · rename_i fault hfault
      cases hread
      obtain ⟨k, m, hfirst, hrefused⟩ := (Node.fault?_eq_some_of_ne_malformed hf).mp hfault
      exact .scalar htext hroot hfirst hrefused
    · cases hread

/-- Other contents give settings or an error that names the file. -/
lemma reported_or_stray (path : String) (bs : List UInt8) :
    ((∃ s, ofBytes path bs = .ok s) ∨
      ∃ fault, ofBytes path bs = .error (.known (.invalidSettings path fault))) ∨
      Stray bs := by
  cases htext : Text.decodeLines bs with
  | error e =>
    refine .inr (.bytes fun text hbytes => ?_)
    rw [Text.decodeLines, ← hbytes, Text.decode_encode] at htext
    cases htext
  | ok text =>
    rw [ofBytes, htext]
    dsimp only
    cases hread : Yaml.read text with
    | ok v =>
      rw [ofText, hread]
      rcases ofValue_outcome path v with h | h | ⟨-, entries, rfl, e, he, hkey⟩
      · exact .inl (.inl h)
      · exact .inl (.inr h)
      · exact .inr (.key htext hread he hkey)
    | error f =>
      by_cases hf : f = .malformed
      · rw [ofText, hread, hf]
        exact .inl (.inr ⟨_, rfl⟩)
      · exact .inr (stray_of_read htext hread hf)

end Settings

end Stencil
