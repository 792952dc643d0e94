import Mathlib.Data.List.Forall2
import Stencil.Proofs.Yaml.Lines
import Stencil.Proofs.Yaml.Rows

/-!
# Documents

Lines that are read as the entries of a mapping (`Block`), and the value of a document that consists
of them (`Block.read`): a mapping with the same keys in the same order, if the keys are texts that
differ.
-/

namespace Stencil.Yaml

/-! ## Nodes from tokens -/

namespace Node

section

variable {t t' : Reading} {ts us rest : List Token} {n k v : Node} {es es' : List (Node × Node)}
  {i : Bool} {f : Nat}
  {hs : List (String × String)} {as : List (String × Node)}

/-- What follows a step that succeeds runs on what it left. -/
lemma run_then {α β : Type} {x : ReadM α} {g : α → ReadM β} {a : α} (h : x.run t = .ok (a, t')) :
    (x >>= g).run t = (g a).run t' := by
  rw [StateT.run_bind, h]
  rfl

/-- A token that is no fault is seen and left. -/
lemma run_next? {first : Token} (h : ∀ f, first ≠ .fault f) :
    next?.run ⟨first :: ts, hs, as⟩ = .ok (some first, ⟨first :: ts, hs, as⟩) := by
  cases first with
  | fault f => exact absurd rfl (h f)
  | _ => rfl

/-- The tokens of a node, whatever follows them. -/
structure NodeTokens (ts : List Token) (n : Node) : Prop where
  starts : ∀ first ∈ ts.head?, first ∉ [Token.key, .value, .blockEnd] ∧ ∀ f, first ≠ .fault f
  ne_nil : ts ≠ []
  reads {i : Bool} {hs : List (String × String)} {as : List (String × Node)} {rest : List Token}
    {f : Nat} :
    ts.length ≤ f → (read true i f).run ⟨ts ++ rest, hs, as⟩ = .ok (n, ⟨rest, hs, as⟩)

/-- The tokens of entries of a block, before any others. -/
def EntryTokens (ts : List Token) (es : List (Node × Node)) : Prop :=
  ∀ {hs : List (String × String)} {as : List (String × Node)} {rest : List Token}
    {es' : List (Node × Node)} {t' : Reading} {fuel : Nat},
    (∀ f, fuel ≤ f → (blockEntries f).run ⟨rest, hs, as⟩ = .ok (es', t')) →
    ∀ f, ts.length + fuel ≤ f → (blockEntries f).run ⟨ts ++ rest, hs, as⟩ = .ok (es ++ es', t')

/-- A scalar is one token. -/
lemma nodeTokens_scalar (text : String) (isPlain : Bool) :
    NodeTokens [.scalar text isPlain] (.scalar (scalarTag none isPlain text) text) where
  starts := by simp
  ne_nil := by simp
  reads hf := by
    obtain ⟨f, rfl⟩ := Nat.exists_eq_add_of_le' hf
    rw [List.length_singleton, read]
    rfl

/-- An empty mapping is a pair of braces. -/
lemma nodeTokens_empty :
    NodeTokens [.flowMappingStart, .flowMappingEnd] (.mapping (coreTag "map") []) where
  starts := by simp
  ne_nil := by simp
  reads hf := by
    obtain ⟨f, rfl⟩ := Nat.exists_eq_add_of_le' hf
    rw [List.length_cons, List.length_singleton, read]
    rfl

/-- At the end of a block there are no entries. -/
lemma run_blockEntries_end (hf : 1 ≤ f) :
    (blockEntries f).run ⟨.blockEnd :: rest, hs, as⟩ = .ok ([], ⟨rest, hs, as⟩) := by
  obtain ⟨f, rfl⟩ := Nat.exists_eq_add_of_le' hf
  rw [blockEntries]
  rfl

/-- Entries between a start and an end are a mapping. -/
lemma EntryTokens.run_read (h : EntryTokens ts es) (hf : ts.length + 2 ≤ f) :
    (read true i f).run ⟨.blockMappingStart :: (ts ++ .blockEnd :: rest), hs, as⟩ =
      .ok (.mapping (coreTag "map") es, ⟨rest, hs, as⟩) := by
  obtain ⟨f, rfl⟩ := Nat.exists_eq_succ_of_ne_zero (by omega : f ≠ 0)
  have hend : ∀ f, 1 ≤ f →
      (blockEntries f).run ⟨.blockEnd :: rest, hs, as⟩ = .ok ([], ⟨rest, hs, as⟩) :=
    fun f hf => run_blockEntries_end hf
  have hentries := h hend f (by omega)
  have hread : (read true i (f + 1)).run ⟨.blockMappingStart :: (ts ++ .blockEnd :: rest), hs, as⟩ =
      (do
        let es ← blockEntries f
        return Node.mapping (coreTag "map") es : ReadM Node).run
          ⟨ts ++ .blockEnd :: rest, hs, as⟩ := by
    rw [read]
    rfl
  rw [hread, run_then hentries, List.append_nil]
  rfl

/-- The entries of a block are a mapping between its marks. -/
lemma EntryTokens.nodeTokens (h : EntryTokens ts es) :
    NodeTokens ([.blockMappingStart] ++ ts ++ [.blockEnd]) (.mapping (coreTag "map") es) where
  starts := by simp
  ne_nil := by simp
  reads hf := by
    simp only [List.append_assoc, List.cons_append, List.nil_append]
    rw [List.length_append, List.length_append, List.length_singleton, List.length_singleton] at hf
    exact h.run_read (by omega)

/-- A node that may be left out is read where it stands. -/
lemma NodeTokens.run_readUnless (h : NodeTokens ts n) (hf : ts.length < f) :
    (readUnless [.key, .value, .blockEnd] true true f).run ⟨ts ++ rest, hs, as⟩ =
      .ok (n, ⟨rest, hs, as⟩) := by
  obtain ⟨f, rfl⟩ := Nat.exists_eq_succ_of_ne_zero (Nat.ne_zero_of_lt hf)
  obtain ⟨first, more, rfl⟩ := List.exists_cons_of_ne_nil h.ne_nil
  have hnext : (nextIn [.key, .value, .blockEnd]).run ⟨first :: more ++ rest, hs, as⟩ =
      .ok (false, ⟨first :: more ++ rest, hs, as⟩) := by
    obtain ⟨hstops, hfault⟩ := h.starts first rfl
    have hcontains : [Token.key, .value, .blockEnd].contains first = false := by simpa using hstops
    rw [nextIn, List.cons_append, run_then (run_next? hfault)]
    dsimp only
    rw [hcontains]
    rfl
  rw [readUnless, run_then hnext]
  exact h.reads (Nat.le_of_lt_succ hf)

/-- The tokens of one entry. -/
lemma NodeTokens.entry (hk : NodeTokens ts k) (hv : NodeTokens us v) :
    EntryTokens (.key :: (ts ++ .value :: us)) [(k, v)] := by
  intro hs as rest es' t' fuel hrest f hf
  simp only [List.length_cons, List.length_append] at hf
  obtain ⟨f, rfl⟩ := Nat.exists_eq_succ_of_ne_zero (by omega : f ≠ 0)
  have hentry : (blockEntries (f + 1)).run ⟨.key :: (ts ++ .value :: (us ++ rest)), hs, as⟩ = (do
      let k ← readUnless [.key, .value, .blockEnd] true true f
      let v ← if ← accept .value then readUnless [.key, .value, .blockEnd] true true f
        else pure missing
      return (k, v) ::
        (← blockEntries f) : ReadM (List (Node × Node))).run
          ⟨ts ++ .value :: (us ++ rest), hs, as⟩ := by
    rw [blockEntries]
    rfl
  have haccept :
      (accept .value).run ⟨.value :: (us ++ rest), hs, as⟩ = .ok (true, ⟨us ++ rest, hs, as⟩) := rfl
  rw [List.cons_append, List.append_assoc, List.cons_append, hentry,
    run_then (hk.run_readUnless (by omega)), run_then haccept, if_pos rfl,
    run_then (hv.run_readUnless (by omega)), run_then (hrest f (by omega))]
  rfl

/-- Entries can be followed by entries. -/
lemma EntryTokens.append (h : EntryTokens ts es) (h' : EntryTokens us es') :
    EntryTokens (ts ++ us) (es ++ es') := by
  intro hs as rest es'' t' fuel hrest f hf
  rw [List.length_append] at hf
  rw [List.append_assoc, List.append_assoc]
  exact h (h' hrest) f (by omega)

/-- The entries of a block are a whole document. -/
lemma EntryTokens.ofTokens (h : EntryTokens ts es) :
    ofTokens ([.blockMappingStart] ++ ts ++ [.blockEnd]) =
      .ok (some (.mapping (coreTag "map") es)) := by
  rw [List.append_assoc, List.singleton_append]
  change document standardHandles _ = _
  rw [document, List.length_cons, List.length_append, List.length_singleton, h.run_read (by omega)]
  rfl

end

/-! ## Values of nodes -/

/-- The node of a text. -/
def ofText (s : String) : Node :=
  .scalar (coreTag "str") s

/-- The value of a node in which nothing is wrong. -/
structure HasValue (n : Node) (v : Value) : Prop where
  value {fuel : Nat} : n.depth ≤ fuel → n.value fuel = v
  right (fuel : Nat) : faultFrom fuel [.node n] = none

/-- Entries with texts as keys, and the fields that they stand for. -/
def Stands (es : List (Node × Node)) (fields : List (String × Value)) : Prop :=
  List.Forall₂ (fun e f => e.1 = ofText f.1 ∧ HasValue e.2 f.2) es fields

section

variable {fuel : Nat} {n : Node} {v : Value} {es : List (Node × Node)}
  {fields : List (String × Value)}

/-- A scalar has the value that it is read as. -/
lemma HasValue.of_scalar (h : n.content = .scalar (.ok v)) : HasValue n v where
  value {fuel} hfuel := by
    obtain ⟨fuel, rfl⟩ := Nat.exists_eq_add_of_lt (Nat.lt_of_lt_of_le n.depth_pos hfuel)
    rw [Nat.zero_add, Node.value, h]
  right fuel := by
    cases fuel with
    | zero => rfl
    | succ fuel =>
      have hfault : (Part.node n).fault? = none := by rw [Part.fault?, h]
      have hparts : (Part.node n).parts = [] := by rw [Part.parts, h]
      rw [faultFrom, List.findSome?_singleton, hfault, List.flatMap_singleton, hparts]
      exact faultFrom_nil fuel

/-- The content of a scalar is its value, unless its tag is that of a collection. -/
lemma content_scalar {name : String} (s : String) (hname : name ∉ collections) :
    (Node.scalar (coreTag name) s).content = .scalar (Scalar.value name s) :=
  content_eq_scalar rfl hname

/-- A text has itself as its value. -/
lemma hasValue_text (s : String) : HasValue (ofText s) (.text s) :=
  .of_scalar (content_scalar s (by decide))

/-- A scalar with the tag for nothing has no value. -/
lemma hasValue_null (s : String) : HasValue (.scalar (coreTag "null") s) .null :=
  .of_scalar (content_scalar s (by decide))

/-- A scalar with the tag of an integer has the integer as its value. -/
lemma hasValue_int {s : String} {i : Int} (h : Scalar.int s = .ok i) :
    HasValue (.scalar (coreTag "int") s) (.int i) := by
  refine .of_scalar ?_
  rw [content_scalar s (by decide), Scalar.value, h]
  rfl

/-- The entries of fields. -/
def entriesOf (fields : List (String × Value)) : List (Value × Value) :=
  fields.map fun f => (.text f.1, f.2)

/-- A new key comes last. -/
lemma setKey_entriesOf {name : String} (h : name ∉ fields.map Prod.fst) :
    Value.setKey (.text name) v (entriesOf fields) = entriesOf (fields ++ [(name, v)]) := by
  induction fields with
  | nil => rfl
  | cons f fields ih =>
    rw [List.map_cons, List.mem_cons, not_or] at h
    have hne : Value.sameKey (.text f.1) (.text name) = false :=
      beq_eq_false_iff_ne.mpr (Ne.symm h.1)
    rw [entriesOf, List.map_cons, Value.setKey, hne, if_neg Bool.false_ne_true]
    exact congrArg ((Value.text f.1, f.2) :: ·) (ih h.2)

/-- As a key, a text stays as it is. -/
lemma asKey_ofText (s : String) : (ofText s).asKey = ofText s := by
  have hne : ((ofText s).tag == coreTag "value") = false := by
    change (coreTag "str" == coreTag "value") = false
    decide +kernel
  rw [asKey, hne, if_neg Bool.false_ne_true]

/-- Entries with different names are filled in one by one. -/
lemma Stands.fill (h : Stands es fields) (hfuel : entriesDepth es ≤ fuel)
    (hnames : (fields.map Prod.fst).Nodup) : fill (value fuel) es = entriesOf fields := by
  -- The entries before those still to be filled in are `done`; no key of the latter is among them.
  suffices hall : ∀ done : List (String × Value), ((done ++ fields).map Prod.fst).Nodup →
      es.foldl (fun m e => Value.setKey (value fuel e.1.asKey) (value fuel e.2) m)
        (entriesOf done) =
        entriesOf (done ++ fields) from
    hall [] hnames
  clear hnames
  induction h with
  | nil =>
    intro done _
    rw [List.append_nil, List.foldl_nil]
  | @cons e f es fields hentry _ ih =>
    intro done hnames
    rw [entriesDepth, Nat.max_le] at hfuel
    have hnew : f.1 ∉ done.map Prod.fst := by
      rw [List.map_append, List.nodup_append] at hnames
      exact fun hmem => hnames.2.2 _ hmem _ (List.mem_map_of_mem List.mem_cons_self) rfl
    have hkey : value fuel e.1.asKey = .text f.1 := by
      rw [hentry.1, asKey_ofText]
      exact (hasValue_text f.1).value (hentry.1 ▸ Nat.le_trans (key_depth_le e) hfuel.1)
    have hvalue : value fuel e.2 = f.2 :=
      hentry.2.value (Nat.le_trans (value_depth_le e) hfuel.1)
    have hstep := ih hfuel.2 (done ++ [(f.1, f.2)]) (by rwa [List.append_assoc])
    rw [List.append_assoc, List.singleton_append, ← setKey_entriesOf hnew] at hstep
    rw [List.foldl_cons, hkey, hvalue]
    exact hstep

/-- Nothing is wrong with entries that stand for fields. -/
lemma Stands.right (h : Stands es fields) (fuel : Nat) :
    faultFrom fuel (es.flatMap entryParts) = none := by
  induction h with
  | nil => exact faultFrom_nil fuel
  | @cons e f es fields hentry _ ih =>
    have hkey : (ofText f.1).isKey = true := by
      rw [isKey, ofText, content_scalar f.1 (by decide)]
    have hparts : entryParts e = [.node (ofText f.1)] ++ [.node e.2] := by
      rw [entryParts, hentry.1, asKey_ofText, hkey]
      rfl
    rw [List.flatMap_cons, hparts]
    exact faultFrom_append_eq_none
      (faultFrom_append_eq_none ((hasValue_text f.1).right fuel) (hentry.2.right fuel)) ih

/-- No text is a merge key. -/
lemma Stands.flatten (h : Stands es fields) (fuel : Nat) : flatten fuel es = some es := by
  have hmerge : ∀ e ∈ es, (e.1.tag == coreTag "merge") = false := by
    have hne : (coreTag "str" == coreTag "merge") = false := by decide +kernel
    induction h with
    | nil => exact fun e he => absurd he List.not_mem_nil
    | cons hentry _ ih =>
      intro e he
      rcases List.mem_cons.mp he with rfl | he
      · rwa [hentry.1]
      · exact ih e he
  cases fuel with
  | zero => rfl
  | succ fuel =>
    have hnone : es.filter (fun e => e.1.tag == coreTag "merge") = [] :=
      List.filter_eq_nil_iff.mpr fun e he => by simp [hmerge e he]
    have hall : es.filter (fun e => !(e.1.tag == coreTag "merge")) = es :=
      List.filter_eq_self.mpr fun e he => by simp [hmerge e he]
    simp only [Node.flatten, hnone, hall]
    rfl

/-- A mapping with texts as keys that differ. -/
lemma Stands.hasValue (h : Stands es fields) (hnames : (fields.map Prod.fst).Nodup) :
    HasValue (.mapping (coreTag "map") es) (.mapping (entriesOf fields)) := by
  have hcontent : (Node.mapping (coreTag "map") es).content = .entries es := by
    have htag : (Node.mapping (coreTag "map") es).tagName? = some "map" :=
      tagName?_eq_some_iff.mpr rfl
    rw [content, htag]
    · rw [ofEntries, h.flatten]
      rfl
    · simp
  refine ⟨fun {fuel} hfuel => ?_, fun fuel => ?_⟩
  · rw [depth] at hfuel
    obtain ⟨fuel, rfl⟩ := Nat.exists_eq_succ_of_ne_zero (by omega : fuel ≠ 0)
    rw [Node.value, hcontent]
    exact congrArg Value.mapping (h.fill (Nat.le_of_succ_le_succ hfuel) hnames)
  · cases fuel with
    | zero => rfl
    | succ fuel =>
      have hfault : (Part.node (.mapping (coreTag "map") es)).fault? = none := by
        rw [Part.fault?, hcontent]
      have hparts : (Part.node (.mapping (coreTag "map") es)).parts = es.flatMap entryParts := by
        rw [Part.parts, hcontent]
      rw [faultFrom, List.findSome?_singleton, hfault, List.flatMap_singleton, hparts]
      exact h.right fuel

end

end Node

/-! ## Blocks -/

section

variable {n k : Nat} {a b out : List Char} {fields fields' : List (String × Value)}
  {key text : String} {isPlain : Bool} {v : Value}

/-- Lines that stand for fields. -/
def Block (n : Nat) (chars : List Char) (fields : List (String × Value)) : Prop :=
  ∃ ts es, Lines n chars ts ∧ Node.EntryTokens ts es ∧ Node.Stands es fields

/-- A block can be followed by a block. -/
lemma Block.append (h : Block n a fields) (h' : Block n b fields') :
    Block n (a ++ (List.replicate n ' ' ++ b)) (fields ++ fields') := by
  obtain ⟨ts, es, hlines, htokens, hstands⟩ := h
  obtain ⟨ts', es', hlines', htokens', hstands'⟩ := h'
  exact ⟨ts ++ ts', es ++ es', hlines.append hlines', htokens.append htokens',
    List.rel_append hstands hstands'⟩

/-- A text is written so that its spelling makes it a text again. -/
lemma scalarTag_style (s : String) :
    Node.scalarTag none (Style.of s == .plain) s = coreTag "str" := by
  by_cases hplain : Style.of s = .plain
  · rw [hplain, Node.scalarTag, beq_self_eq_true, if_pos rfl, (of_style_plain hplain).1]
  · rw [Node.scalarTag, beq_eq_false_iff_ne.mpr hplain, if_neg Bool.false_ne_true]

/-- A text is one token, quoted or not. -/
lemma nodeTokens_text (s : String) : Node.NodeTokens [textToken s] (Node.ofText s) := by
  have htokens := Node.nodeTokens_scalar s (Style.of s == .plain)
  rwa [scalarTag_style] at htokens

/-- A key with a scalar behind it is a block. -/
lemma block_scalar (hkey : KeyWord key) (hn : n + 2 < margin)
    (hw : Written (n + 2) text isPlain out)
    (hv : Node.HasValue (.scalar (Node.scalarTag none isPlain text) text) v) :
    Block n (keyText n key ++ ' ' :: (out ++ ['\n'])) [(key, v)] :=
  ⟨_, _, lines_scalar hkey hn hw, (nodeTokens_text key).entry (Node.nodeTokens_scalar text isPlain),
    .cons ⟨rfl, hv⟩ .nil⟩

/-- A key with an empty mapping behind it is a block. -/
lemma block_empty (hkey : KeyWord key) (hshort : key.length ≤ longestKey) :
    Block n (writeText false 0 n key ++ [':', ' ', '\x7b', '\x7d', '\n']) [(key, .mapping [])] :=
  ⟨_, _, lines_empty hkey hshort, (nodeTokens_text key).entry Node.nodeTokens_empty,
    .cons ⟨rfl, Node.Stands.hasValue .nil List.nodup_nil⟩ .nil⟩

/-- A block within a block. -/
lemma Block.nested (h : Block k b fields) (hnames : (fields.map Prod.fst).Nodup)
    (hkey : KeyWord key) (hshort : key.length ≤ longestKey) (hk : n < k) :
    Block n (writeText false 0 n key ++ ':' :: '\n' :: (List.replicate k ' ' ++ b))
      [(key, .mapping (Node.entriesOf fields))] := by
  obtain ⟨ts, es, hlines, htokens, hstands⟩ := h
  exact ⟨_, [(Node.ofText key, .mapping (coreTag "map") es)], lines_block hkey hshort hk hlines,
    (nodeTokens_text key).entry htokens.nodeTokens, .cons ⟨rfl, hstands.hasValue hnames⟩ .nil⟩

/-- An entry that is a text. -/
lemma block_entry (hkey : KeyWord key) (hn : n + 2 < margin) (value : String) :
    ∃ b, writeEntry n key value = List.replicate n ' ' ++ b ∧ Block n b [(key, .text value)] := by
  have hvalue : Node.HasValue (.scalar (Node.scalarTag none (Style.of value == .plain) value) value)
      (.text value) := by
    rw [scalarTag_style]
    exact Node.hasValue_text value
  refine ⟨_, ?_, block_scalar hkey hn (written_writeText hn (keyColumn n key + 1) value) hvalue⟩
  simp [writeEntry, writeKey_eq]

/-- Entries that are texts. -/
lemma block_entries {e : String × String} {es : List (String × String)}
    (hkeys : ∀ f ∈ e :: es, KeyWord f.1) (hn : n + 2 < margin) :
    ∃ b, (e :: es).flatMap (fun f => writeEntry n f.1 f.2) = List.replicate n ' ' ++ b ∧
      Block n b ((e :: es).map fun f => (f.1, .text f.2)) := by
  induction es generalizing e with
  | nil =>
    obtain ⟨b, hb, hblock⟩ := block_entry (hkeys e List.mem_cons_self) hn e.2
    exact ⟨b, by rw [List.flatMap_singleton, hb], hblock⟩
  | cons f es ih =>
    obtain ⟨b, hb, hblock⟩ := block_entry (hkeys e List.mem_cons_self) hn e.2
    obtain ⟨b', hb', hblock'⟩ := ih fun g hg => hkeys g (List.mem_cons_of_mem e hg)
    exact ⟨b ++ (List.replicate n ' ' ++ b'), by rw [List.flatMap_cons, hb, hb', List.append_assoc],
      hblock.append hblock'⟩

/-- A text that is a block is a mapping. -/
lemma Block.read (h : Block 0 a fields) (hnames : (fields.map Prod.fst).Nodup) :
    read (String.ofList a) = .ok (.mapping (Node.entriesOf fields)) := by
  obtain ⟨ts, es, hlines, htokens, hstands⟩ := h
  have hnode : Node.root (String.ofList a) = .ok (some (.mapping (coreTag "map") es)) := by
    rw [Node.root, hlines.scan]
    exact htokens.ofTokens
  have hvalue := hstands.hasValue hnames
  rw [Yaml.read, hnode]
  dsimp only
  rw [Node.fault?, hvalue.right]
  exact congrArg Except.ok (hvalue.value (Nat.le_refl _))

/-- A text that is a block holds no controls but line breaks. -/
lemma Block.printed (h : Block n a fields) : ∀ c ∈ a, Style.needsEscape c = false := by
  obtain ⟨ts, es, hlines, -, -⟩ := h
  exact hlines.printed

end

end Stencil.Yaml
