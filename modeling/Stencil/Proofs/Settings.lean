import Stencil.Proofs.Utf8
import Stencil.Proofs.Yaml.Document
import Stencil.Proofs.Yaml.Numeral
import Stencil.Settings

/-!
# Settings in a file

Settings that were accepted are read from the file that they were written to, with the same fields
given (`Settings.ofBytes_encode_text`). Accepted settings are sound (`Settings.sound_of_ofFields`),
what is written for sound ones is a block of their fields (`Settings.block_text`), and these fields
are accepted as the same settings (`Settings.ofFields_fields`).
-/

namespace Stencil

open Yaml

namespace Settings

variable {s : Settings} {fs : List (String × String)} {es : List (String × Value)}
  {path name body : String}

/-! ## Settings that are accepted -/

/-- The filters have names that differ. -/
structure Sound (s : Settings) : Prop where
  valid : ∀ f ∈ s.extraFilters, Name.Valid f.1
  nodup : (s.extraFilters.map Prod.fst).Nodup

/-- Setting a body keeps the names apart. -/
lemma nodup_setBody (h : (fs.map Prod.fst).Nodup) (name body : String) :
    ((setBody fs name body).map Prod.fst).Nodup := by
  rw [setBody]
  split_ifs with hany
  · have hnames : (fs.map fun f => if f.1 == name then (name, body) else f).map Prod.fst =
        fs.map Prod.fst := by
      rw [List.map_map]
      refine List.map_congr_left fun f _ => ?_
      by_cases hf : f.1 = name <;> simp [hf]
    rwa [hnames]
  · rw [List.map_append, List.nodup_append]
    refine ⟨h, by simp, ?_⟩
    rintro a ha b hb rfl
    obtain ⟨f, hf, rfl⟩ := List.mem_map.mp ha
    rw [List.map_cons, List.map_nil, List.mem_singleton] at hb
    exact hany (List.any_eq_true.mpr ⟨f, hf, beq_iff_eq.mpr hb⟩)

/-- A row of filters leaves each name once. -/
lemma nodup_foldl_setBody (h : (fs.map Prod.fst).Nodup) (gs : List (String × String)) :
    ((gs.foldl (fun fs f => setBody fs f.1 f.2) fs).map Prod.fst).Nodup := by
  induction gs generalizing fs with
  | nil => exact h
  | cons g gs ih => exact ih (nodup_setBody h g.1 g.2)

/-- Filters that were read have valid names, each once. -/
lemma of_readFilters {v : Value} (h : readFilters v = .ok fs) :
    (∀ f ∈ fs, Name.Valid f.1) ∧ (fs.map Prod.fst).Nodup := by
  unfold readFilters at h
  split at h
  · split at h
    · dsimp only at h
      split at h
      · cases h
      · rename_i hnone
        cases h
        have hnil : (([] : List (String × String)).map Prod.fst).Nodup := List.nodup_nil
        refine ⟨fun f hf => ?_, nodup_foldl_setBody hnil _⟩
        have hfault := List.findSome?_eq_none_iff.mp hnone f hf
        exact Option.map_eq_none_iff.mp hfault
    · cases h
  · cases h
  · cases h

/-- A field that was read was read from some value. -/
lemma readField_ok {α : Type} {read : Value → Except (List FieldFault) α} {a : Option α}
    (h : readField es name read = .ok a) : ∀ x ∈ a, ∃ v, read v = .ok x := by
  unfold readField at h
  split at h
  · cases h
    simp
  · rename_i v _
    rintro x rfl
    cases hread : read v <;> simp_all [Except.map]
    exact ⟨v, hread⟩

/-- Settings that are accepted are sound. -/
lemma sound_of_ofFields (h : ofFields es = .ok s) : s.Sound := by
  unfold ofFields at h
  split at h
  case h_2 => cases h
  case h_1 version editor filters _ _ hfilters =>
    cases h
    cases filters with
    | none => exact ⟨nofun, List.nodup_nil⟩
    | some fs =>
      obtain ⟨v, hread⟩ := readField_ok hfilters fs rfl
      obtain ⟨hvalid, hnodup⟩ := of_readFilters hread
      exact ⟨hvalid, hnodup⟩

/-- The mapping of filters. -/
def filtersValue (fs : List (String × String)) : Value :=
  .mapping (Node.entriesOf (fs.map fun f => (f.1, .text f.2)))

/-- The fields of settings as they are written. -/
def fields (s : Settings) : List (String × Value) :=
  (s.version.map fun n => ("version", .int n)).toList ++
    (s.editor.map fun e => ("editor", (e.map Value.text).getD .null)).toList ++
    (s.filters.map fun fs => ("filters", filtersValue fs)).toList

/-- A filter with a new name is put at the end. -/
lemma setBody_append (h : name ∉ fs.map Prod.fst) :
    setBody fs name body = fs ++ [(name, body)] := by
  refine if_neg fun hany => ?_
  obtain ⟨f, hf, hname⟩ := List.any_eq_true.mp hany
  exact h (List.mem_map.mpr ⟨f, hf, beq_iff_eq.mp hname⟩)

/-- Filters with new names are put at the end, in their order. -/
lemma foldl_setBody {gs : List (String × String)} (h : ((fs ++ gs).map Prod.fst).Nodup) :
    gs.foldl (fun fs f => setBody fs f.1 f.2) fs = fs ++ gs := by
  induction gs generalizing fs with
  | nil => rw [List.append_nil, List.foldl_nil]
  | cons g gs ih =>
    have hnew : g.1 ∉ fs.map Prod.fst := by
      rw [List.map_append, List.nodup_append] at h
      exact fun hmem => h.2.2 _ hmem _ (List.mem_map_of_mem List.mem_cons_self) rfl
    rw [List.foldl_cons, setBody_append hnew, ih (by rwa [List.append_assoc]), List.append_assoc]
    rfl

/-- Filters are read back from their value. -/
lemma readFilters_filtersValue (hvalid : ∀ f ∈ fs, Name.Valid f.1)
    (hnodup : (fs.map Prod.fst).Nodup) :
    readFilters (filtersValue fs) = .ok fs := by
  have hfaults :
      (Node.entriesOf (fs.map fun f => (f.1, .text f.2))).flatMap (fun e => entryFaults e.1 e.2) =
        [] := by
    refine List.flatMap_eq_nil_iff.mpr fun e he => ?_
    simp only [Node.entriesOf, List.map_map, List.mem_map] at he
    obtain ⟨f, -, rfl⟩ := he
    rfl
  have hentries :
      (Node.entriesOf (fs.map fun f => (f.1, .text f.2))).filterMap (fun e => entry? e.1 e.2) =
        fs := by
    simp [Node.entriesOf, entry?, readText, List.filterMap_map, Function.comp_def]
  have hnone : fs.findSome? (fun f => (Name.fault? f.1).map fun e => e.reason f.1) = none :=
    List.findSome?_eq_none_iff.mpr fun f hf => by rw [hvalid f hf]; rfl
  unfold readFilters filtersValue
  dsimp only
  rw [hfaults, hentries]
  dsimp only
  rw [foldl_setBody (by rwa [List.nil_append]), List.nil_append, hnone]

/-- Sound settings are accepted, field by field. -/
lemma ofFields_fields (h : s.Sound) : ofFields s.fields = .ok s := by
  obtain ⟨version, editor, filters⟩ := s
  have hversion :
      readField (fields ⟨version, editor, filters⟩) "version" (atField "version" readVersion) =
        .ok version := by
    cases version <;> cases editor <;> cases filters <;> rfl
  have heditor :
      readField (fields ⟨version, editor, filters⟩) "editor" (atField "editor" readEditor) =
        .ok editor := by
    rcases version with _ | n <;> rcases editor with _ | _ | e <;>
      rcases filters with _ | fs <;> rfl
  have hfilters :
      readField (fields ⟨version, editor, filters⟩) "filters" readFilters = .ok filters := by
    cases filters with
    | none => cases version <;> cases editor <;> rfl
    | some fs =>
      have hread : readFilters (filtersValue fs) = .ok fs :=
        readFilters_filtersValue h.valid h.nodup
      have hlookup :
          (fields ⟨version, editor, some fs⟩).lookup "filters" = some (filtersValue fs) := by
        cases version <;> cases editor <;> rfl
      rw [readField, hlookup]
      dsimp only
      rw [hread]
      rfl
  rw [ofFields, hversion, heditor, hfilters]

/-! ## The written text -/

/-- A name may stand as a key. -/
lemma keyWord_of_valid (h : Name.Valid name) : KeyWord name := by
  obtain ⟨c, r, hcons, hstart, -, -⟩ := Name.faultOf_eq_none.mp h
  have hpart : ∀ c ∈ name.toList, Name.isPart c = true := fun c hc => Name.isPart_of_mem h hc
  refine ⟨by rw [hcons]; exact List.cons_ne_nil c r, fun d hd => ?_, fun d hd => ?_⟩
  · have hrange := Name.isPart_iff.mp (hpart d hd)
    exact ⟨by omega, by omega⟩
  · have hd := hpart d (List.mem_of_mem_head? hd)
    exact ⟨Name.ne_of_isPart hd (by decide), Name.ne_of_isPart hd (by decide)⟩

/-- The line of the version is a block. -/
lemma block_version {n : Int} (h : (Nat.toDigits 10 n.natAbs).length ≤ Scalar.mostDigits) :
    Block 0 (versionText n).toList [("version", .int n)] := by
  obtain ⟨d, ds, hdigits, hnumeral⟩ := numeral_toString n
  have hint : Scalar.int (toString n) = .ok n := by
    rw [hnumeral.int (by rw [hdigits, List.length_cons] at h; omega), ← hdigits,
      Nat.ofDigitChars_ten_toDigits]
    split_ifs with hneg <;> simp at hneg <;> congr 1 <;> omega
  have hvalue :
      Node.HasValue (.scalar (Node.scalarTag none true (toString n)) (toString n)) (.int n) := by
    rw [Node.scalarTag, if_pos rfl, hnumeral.tagOf]
    exact Node.hasValue_int hint
  have hkey : keyText 0 "version" = "version:".toList := by decide +kernel
  have hblock :=
    block_scalar (keyWord_of_valid (by decide : Name.Valid "version")) (by decide)
      (hnumeral.written 2) hvalue
  rw [hkey] at hblock
  simpa [versionText] using hblock

/-- The line of the editor is a block. -/
lemma block_editor (e : Option String) :
    Block 0 (editorText e).toList [("editor", (e.map Value.text).getD .null)] := by
  have hkey : KeyWord "editor" := keyWord_of_valid (by decide)
  cases e with
  | none =>
    have hgap : ("null".toList.all fun c => !Style.isGap c) = true := by decide
    have hwritten : Written 2 "null" true "null".toList :=
      written_word (by decide) (by decide) fun c hc => by simpa using List.all_eq_true.mp hgap c hc
    have hvalue : Node.HasValue (.scalar (Node.scalarTag none true "null") "null") .null := by
      have htag : Node.scalarTag none true "null" = coreTag "null" := by decide +kernel
      rw [htag]
      exact Node.hasValue_null "null"
    have hchars : (editorText none).toList =
        keyText 0 "editor" ++ ' ' :: ("null".toList ++ ['\n']) := by decide +kernel
    rw [hchars]
    exact block_scalar hkey (by decide) hwritten hvalue
  | some text =>
    obtain ⟨b, hb, hblock⟩ := block_entry (n := 0) hkey (by decide) text
    rw [editorText, String.toList_ofList, hb]
    exact hblock

/-- The lines of the filters are a block. -/
lemma block_filters (hvalid : ∀ f ∈ fs, Name.Valid f.1) (hnodup : (fs.map Prod.fst).Nodup) :
    Block 0 (filtersText fs).toList [("filters", filtersValue fs)] := by
  have hkey : KeyWord "filters" := keyWord_of_valid (by decide)
  have hshort : "filters".length ≤ longestKey := by decide
  cases fs with
  | nil =>
    have hchars : (filtersText []).toList =
        writeText false 0 0 "filters" ++ [':', ' ', '\x7b', '\x7d', '\n'] := by
      decide +kernel
    rw [hchars]
    exact block_empty hkey hshort
  | cons f fs =>
    obtain ⟨b, hb, hblock⟩ :=
      block_entries (n := 2) (fun g hg => keyWord_of_valid (hvalid g hg)) (by decide)
    have hnames :
        ((f :: fs).map fun g => (g.1, Value.text g.2)).map Prod.fst = (f :: fs).map Prod.fst := by
      rw [List.map_map]
      rfl
    have hchars : (filtersText (f :: fs)).toList =
        writeText false 0 0 "filters" ++ ':' :: '\n' :: (List.replicate 2 ' ' ++ b) := by
      have hname : writeText false 0 0 "filters" = "filters".toList := by decide +kernel
      have htext : filtersText (f :: fs) =
        "filters:\n" ++
          String.join ((f :: fs).map fun g => String.ofList (writeEntry 2 g.1 g.2)) := rfl
      rw [← hb, hname, htext, String.toList_append, String.toList_join, List.flatMap_map]
      simp only [String.toList_ofList]
      rfl
    rw [hchars]
    exact hblock.nested (by rwa [hnames]) hkey hshort (by decide)

/-- Fields and their lines, if there are any. -/
def Piece (chars : List Char) (fields : List (String × Value)) : Prop :=
  chars = [] ∧ fields = [] ∨ Block 0 chars fields

/-- Fields can be followed by fields. -/
lemma Piece.append {a b : List Char} {es' : List (String × Value)} (h : Piece a es)
    (h' : Piece b es') :
    Piece (a ++ b) (es ++ es') := by
  rcases h with ⟨rfl, rfl⟩ | h
  · exact h'
  · rcases h' with ⟨rfl, rfl⟩ | h'
    · rw [List.append_nil, List.append_nil]
      exact .inr h
    · exact .inr (h.append h')

/-- The piece of a field that is given or not. -/
lemma piece_of_option {α : Type} (o : Option α) {write : α → String} {field : α → String × Value}
    (h : ∀ a ∈ o, Block 0 (write a).toList [field a]) :
    Piece ((o.map write).getD "").toList (o.map field).toList := by
  cases o with
  | none => exact .inl ⟨rfl, rfl⟩
  | some a => exact .inr (h a rfl)

/-- The text of settings that give a field is a block. -/
lemma block_text (h : s.Sound)
    (hversion : ∀ n ∈ s.version, (Nat.toDigits 10 n.natAbs).length ≤ Scalar.mostDigits)
    (hgiven : s.fields ≠ []) : Block 0 s.text.toList s.fields := by
  have hfilters : ∀ fs ∈ s.filters,
      Block 0 (filtersText fs).toList [("filters", filtersValue fs)] := by
    intro fs hfs
    have hextra : s.extraFilters = fs :=
      by rw [extraFilters, Option.mem_def.mp hfs, Option.getD_some]
    exact block_filters (hextra ▸ h.valid) (hextra ▸ h.nodup)
  have hpiece : Piece _ s.fields :=
    ((piece_of_option s.version fun n hn => block_version (hversion n hn)).append
    (piece_of_option s.editor fun e _ => block_editor e)).append
      (piece_of_option s.filters hfilters)
  rw [← String.toList_append, ← String.toList_append] at hpiece
  have htext : s.text = (s.version.map versionText).getD "" ++ (s.editor.map editorText).getD "" ++
      (s.filters.map filtersText).getD "" := by
    refine if_neg fun hnone => hgiven ?_
    simp only [Bool.and_eq_true, Option.isNone_iff_eq_none] at hnone
    simp [fields, hnone]
  rw [htext]
  exact hpiece.resolve_left fun hnone => hgiven hnone.2

/-! ## Reading the text -/

/-- The fields of a mapping are those it was made of. -/
lemma fieldsOf?_entriesOf (es : List (String × Value)) :
    fieldsOf? (Node.entriesOf es) = some es := by
  induction es with
  | nil => rfl
  | cons e es ih =>
    rw [fieldsOf?, Node.entriesOf] at ih ⊢
    rw [List.map_cons, List.mapM_cons, ih]
    rfl

/-- Settings give each field at most once. -/
lemma nodup_fields (s : Settings) : (s.fields.map Prod.fst).Nodup := by
  obtain ⟨version, editor, filters⟩ := s
  cases version <;> cases editor <;> cases filters <;> simp [fields]

/-- Settings are read back from their fields. -/
lemma ofValue_fields (h : s.Sound) (hgiven : s.fields ≠ []) (path : String) :
    ofValue path (.mapping (Node.entriesOf s.fields)) = .ok s := by
  have hvoid : (Value.mapping (Node.entriesOf s.fields)).isVoid = false := by
    simpa [Value.isVoid, Node.entriesOf] using hgiven
  rw [ofValue, hvoid, if_neg Bool.false_ne_true, fieldsOf?_entriesOf]
  dsimp only
  rw [ofFields_fields h]

/-- Where nothing is given, an empty mapping is written and read. -/
lemma read_text_empty : Yaml.read (text {}) = .ok (.mapping []) := by
  have hscan : Token.scan "\x7b\x7d\n" = some [.flowMappingStart, .flowMappingEnd] :=
    by decide +kernel
  have hnode : Node.root "\x7b\x7d\n" = .ok (some (.mapping (coreTag "map") [])) := by
    rw [Node.root, hscan]
    rfl
  have hvalue := Node.Stands.hasValue .nil List.nodup_nil
  change Yaml.read "\x7b\x7d\n" = _
  rw [Yaml.read, hnode]
  dsimp only
  rw [Node.fault?, hvalue.right]
  exact congrArg Except.ok (hvalue.value (Nat.le_refl _))

/-- Settings that were accepted are read from the file that they were written to. -/
theorem ofBytes_encode_text (haccepted : ofFields es = .ok s)
    (hversion : ∀ n ∈ s.version, (Nat.toDigits 10 n.natAbs).length ≤ Scalar.mostDigits)
    (path : String) :
    ofBytes path (Text.encode s.text) = .ok s := by
  have hsound := sound_of_ofFields haccepted
  by_cases hgiven : s.fields = []
  · obtain rfl : s = {} := by
      obtain ⟨version, editor, filters⟩ := s
      cases version <;> cases editor <;> cases filters <;> simp [fields] at hgiven ⊢
    rw [ofBytes, Text.decodeLines_encode (by decide)]
    dsimp only
    rw [ofText, read_text_empty]
    rfl
  · have hblock := block_text hsound hversion hgiven
    have hread : Yaml.read s.text = .ok (.mapping (Node.entriesOf s.fields)) := by
      have hread := hblock.read (nodup_fields s)
      rwa [String.ofList_toList] at hread
    have hreturn : '\r' ∉ s.text.toList := fun hmem => absurd (hblock.printed _ hmem) (by decide)
    rw [ofBytes, Text.decodeLines_encode hreturn]
    dsimp only
    rw [ofText, hread]
    dsimp only
    exact ofValue_fields hsound hgiven path

/-- Names that read as other values or are too long for one line, and bodies that are folded, quoted
or escaped. -/
def awkward : Settings where
  version := some (-12)
  editor := some (some "vim -c 'set ft=sh': # x")
  filters := some [("yes", "tr a-z A-Z\n\n# it's done: \"x\"\n"),
    (String.ofList (List.replicate 130 'k'),
      String.ofList (List.replicate 90 'w') ++ " folded at the margin"),
    ("null", "\ttab \u00e9 \\")]

/-- Settings of this kind are read back from the bytes of their text. -/
theorem ofBytes_encode_text_of_awkward :
    ofFields awkward.fields = .ok awkward ∧
    ofBytes ".moho/config.yaml" (Text.encode awkward.text) = .ok awkward := by
  have haccepted : ofFields awkward.fields = .ok awkward :=
    ofFields_fields ⟨by decide +kernel, by decide +kernel⟩
  exact ⟨haccepted, ofBytes_encode_text haccepted (by decide) ".moho/config.yaml"⟩

end Settings

end Stencil
