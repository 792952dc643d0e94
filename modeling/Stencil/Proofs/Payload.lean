import Stencil.Metadata
import Stencil.Proofs.Quotation
import Stencil.Proofs.Toml

/-!
# Payloads

A payload tells the default path, the defaults and the descriptions of a template, and reading it
gives exactly these (`Metadata.decode_payload`). On the way, a payload is shown to be a row of lines
(`Metadata.toList_payload`) without controls in them (`Metadata.plain_of_mem_payload`).
-/

namespace Stencil

namespace Toml

/-! ## Tables -/

/-- An entry at the end is found if no entry before it has its key. -/
lemma lookup_append_self {t : Table} {k : String} (v : Value) (h : t.lookup k = none) :
    (t ++ [(k, v)]).lookup k = some v := by
  rw [List.lookup_append, h]
  simp

/-- Setting the entry at the end. -/
lemma Table.set_append_self {t : Table} {k : String} (v w : Value) (h : t.lookup k = none) :
    Table.set k w (t ++ [(k, v)]) = t ++ [(k, w)] := by
  induction t with
  | nil => simp [Table.set]
  | cons e t ih =>
    obtain ⟨k', v'⟩ := e
    rw [List.lookup_cons] at h
    split at h
    · simp at h
    · rename_i hk
      have hk' : (k' == k) = false := by
        rw [beq_eq_false_iff_ne] at hk ⊢
        exact Ne.symm hk
      simp [Table.set, hk', ih h]

/-- Setting an entry that is missing puts it at the end. -/
lemma Table.set_of_lookup_none {t : Table} {k : String} (v : Value) (h : t.lookup k = none) :
    Table.set k v t = t ++ [(k, v)] := by
  induction t with
  | nil => rfl
  | cons e t ih =>
    obtain ⟨k', v'⟩ := e
    rw [List.lookup_cons] at h
    split at h
    · simp at h
    · rename_i hk
      have hk' : (k' == k) = false := by
        rw [beq_eq_false_iff_ne] at hk ⊢
        exact Ne.symm hk
      simp [Table.set, hk', ih h]

/-- The entries of names and texts. -/
def entries (es : List (String × String)) : Table :=
  es.map fun e => (e.1, .text e.2)

/-- A key that is no name of an entry is not found. -/
lemma lookup_entries {es : List (String × String)} {k : String} (h : k ∉ es.map Prod.fst) :
    (entries es).lookup k = none := by
  rw [List.lookup_eq_none_iff]
  intro e he
  obtain ⟨x, hx, rfl⟩ := List.mem_map.mp he
  have : k ≠ x.1 := fun e => h (e ▸ List.mem_map_of_mem hx)
  simpa using this

/-! ## Lines of entries -/

/-- The line that sets a name to a text. -/
def entryLine (e : String × String) : List Char :=
  e.1.toList ++ '=' :: (quoteChars e.2.toList ++ ['\n'])

/-- The line that declares a table. -/
def declarationLine (name : String) : List Char :=
  '[' :: (name.toList ++ [']', '\n'])

namespace Document

/-- A document in the section of a table that was declared last. -/
def inSection (t : Table) (name : String) (es : Table) (declared : List Key) : Document :=
  { table := t ++ [(name, .table es)], section_ := [name], declared }

/-- An entry before the first section goes to the document itself. -/
lemma addEntry_top {t : Table} {k : String} (v : String) (h : t.lookup k = none) :
    addEntry { table := t } [k] (.text v) = some { table := t ++ [(k, .text v)] } := by
  simp [addEntry, through, splitKey, covers, Table.modifyAt, Table.add, h, Value.isClosed]

/-- An entry in a section goes to the table of the section. -/
lemma addEntry_inSection {t : Table} {name k : String} {es : Table} (declared : List Key)
    (v : String) (ht : t.lookup name = none) (he : es.lookup k = none) :
    addEntry (inSection t name es declared) [k] (.text v) =
      some (inSection t name (es ++ [(k, .text v)]) declared) := by
  simp [addEntry, inSection, through, splitKey, covers, Table.modifyAt, Table.add, he,
    Value.isClosed, lookup_append_self _ ht, Table.set_append_self _ _ ht]

/-- Declaring a table that is missing. -/
lemma openTable_new {d : Document} {name : String} (hp : d.pending = []) (hc : d.closed = [])
    (hd : [name] ∉ d.declared) (ht : d.table.lookup name = none) :
    d.openTable [name] = some (inSection d.table name [] (d.declared ++ [[name]])) := by
  simp [openTable, inSection, covers, hp, hc, hd, Table.modifyAt, ht, Table.set_of_lookup_none _ ht]

/-- The lines of a section add its entries. -/
lemma Reads.entryLines {t : Table} {name : String} {declared : List Key} {rest : List Char}
    {d' : Document} (ht : t.lookup name = none) {done todo : List (String × String)}
    (hn : ∀ e ∈ todo, Name.Valid e.1) (hd : ((done ++ todo).map Prod.fst).Nodup)
    (h : Reads (inSection t name (entries (done ++ todo)) declared) rest d') :
    Reads (inSection t name (entries done) declared) (todo.flatMap entryLine ++ rest) d' := by
  induction todo generalizing done with
  | nil => simpa using h
  | cons e todo ih =>
    have hfresh : e.1 ∉ done.map Prod.fst := by
      rw [List.map_append, List.map_cons, List.nodup_append] at hd
      exact fun he => hd.2.2 e.1 he e.1 (by simp) rfl
    have hstep := addEntry_inSection declared e.2 ht (lookup_entries hfresh)
    have hsnoc : entries done ++ [(e.1, .text e.2)] = entries (done ++ [e]) := by
      simp [entries]
    rw [hsnoc] at hstep
    rw [List.flatMap_cons, List.append_assoc]
    have hrest : Reads (inSection t name (entries (done ++ [e])) declared)
        (todo.flatMap entryLine ++ rest) d' :=
      ih (fun x hx => hn x (by simp [hx])) (by simpa using hd) (by simpa using h)
    have hline : Name.faultOf e.1.toList = none := hn e (by simp)
    have hentry := Reads.entry (v := e.2.toList) hline (by simpa using hstep) hrest
    simpa [entryLine] using hentry

/-- A declaration and the lines of its section add a table. -/
lemma Reads.section_ {d d' : Document} {name : String} {es : List (String × String)}
    {rest : List Char} (hp : d.pending = []) (hc : d.closed = []) (hd : [name] ∉ d.declared)
    (ht : d.table.lookup name = none) (hname : Name.Valid name) (hn : ∀ e ∈ es, Name.Valid e.1)
    (hnodup : (es.map Prod.fst).Nodup)
    (h : Reads (inSection d.table name (entries es) (d.declared ++ [[name]])) rest d') :
    Reads d (declarationLine name ++ (es.flatMap entryLine ++ rest)) d' := by
  have hopen : d.openTable [String.ofList name.toList] =
      some (inSection d.table name (entries []) (d.declared ++ [[name]])) := by
    rw [String.ofList_toList]
    exact openTable_new hp hc hd ht
  have hlines : Reads (inSection d.table name (entries []) (d.declared ++ [[name]]))
      (es.flatMap entryLine ++ rest) d' := Reads.entryLines ht hn hnodup h
  have hdecl := Reads.declaration hname hopen hlines
  simpa [declarationLine] using hdecl

end Document

/-- A carriage return is nowhere, so none is dropped. -/
lemma joinBreaks_of_no_return {cs : List Char} (h : '\r' ∉ cs) : joinBreaks cs = cs := by
  induction cs with
  | nil => rfl
  | cons c cs ih =>
    rw [List.mem_cons, not_or] at h
    rw [joinBreaks, ih h.2]
    exact fun _ he => absurd he.symm h.1

/-- A character that may stand in a line: no control. -/
def Plain (c : Char) : Prop :=
  0x20 ≤ c.toNat ∧ c.toNat ≠ 0x7F

/-- A number is escaped with hexadecimal digits in upper case. -/
lemma digit_of_mem_upperHex {c : Char} {w n : Nat} (h : c ∈ upperHex w n) :
    ∃ d < 16, c = (Nat.digitChar d).toUpper := by
  induction w generalizing n with
  | zero => simp [upperHex] at h
  | succ w ih =>
    rcases List.mem_append.mp h with h | h
    · exact ih h
    · exact ⟨n % 16, Nat.mod_lt _ (by decide), List.mem_singleton.mp h⟩

/-- The digits of a number are letters and digits. -/
lemma plain_of_mem_upperHex {c : Char} {w n : Nat} (h : c ∈ upperHex w n) : Plain c := by
  have digits : ∀ d < 16, 0x20 ≤ (Nat.digitChar d).toUpper.toNat ∧
      (Nat.digitChar d).toUpper.toNat ≠ 0x7F := by decide
  obtain ⟨d, hd, rfl⟩ := digit_of_mem_upperHex h
  exact digits d hd

/-- What is written for a character holds no control. -/
lemma plain_of_mem_quoteChar {c d : Char} (h : d ∈ quoteChar c) : Plain d := by
  unfold quoteChar at h
  split at h
  · simp only [List.mem_cons, List.not_mem_nil, or_false] at h
    rcases h with rfl | rfl <;> exact ⟨by decide, by decide⟩
  · split at h
    · rcases List.mem_append.mp h with h | h
      · simp only [List.mem_cons, List.not_mem_nil, or_false] at h
        rcases h with rfl | rfl <;> exact ⟨by decide, by decide⟩
      · exact plain_of_mem_upperHex h
    · rename_i hc
      rw [List.mem_singleton.mp h]
      simp only [Bool.or_eq_true, beq_iff_eq, decide_eq_true_eq, not_or, Nat.not_lt] at hc
      exact ⟨hc.1.2, hc.2⟩

/-- A quoted text holds no control. -/
lemma plain_of_mem_quoteChars {c : Char} {cs : List Char} (h : c ∈ quoteChars cs) : Plain c := by
  simp only [quoteChars, List.mem_append, List.mem_singleton, List.mem_flatMap] at h
  rcases h with (rfl | ⟨d, _, hd⟩) | rfl
  · exact ⟨by decide, by decide⟩
  · exact plain_of_mem_quoteChar hd
  · exact ⟨by decide, by decide⟩

/-- The characters of names are no controls. -/
lemma plain_of_isPart {c : Char} (h : Name.isPart c = true) : Plain c := by
  have := Name.isPart_iff.mp h
  unfold Plain
  omega

/-- The lines of entries hold no control but the line feeds at their ends. -/
lemma plain_of_mem_entryLine {c : Char} {e : String × String} (hn : Name.Valid e.1)
    (h : c ∈ entryLine e) : c = '\n' ∨ Plain c := by
  simp only [entryLine, List.mem_append, List.mem_cons, List.not_mem_nil, or_false] at h
  rcases h with h | rfl | h | rfl
  · exact .inr (plain_of_isPart (Name.isPart_of_mem hn h))
  · exact .inr ⟨by decide, by decide⟩
  · exact .inr (plain_of_mem_quoteChars h)
  · exact .inl rfl

/-- The line of a declaration holds no control but the line feed at its end. -/
lemma plain_of_mem_declarationLine {c : Char} {name : String} (hn : Name.Valid name)
    (h : c ∈ declarationLine name) : c = '\n' ∨ Plain c := by
  simp only [declarationLine, List.mem_append, List.mem_cons, List.not_mem_nil, or_false] at h
  rcases h with rfl | h | rfl | rfl
  · exact .inr ⟨by decide, by decide⟩
  · exact .inr (plain_of_isPart (Name.isPart_of_mem hn h))
  · exact .inr ⟨by decide, by decide⟩
  · exact .inl rfl

end Toml

namespace Metadata

open Toml Toml.Document

/-- The names and unescaped texts of the variables that have one. -/
def texts (text : Variable → Option String) (vars : List Variable) : List (String × String) :=
  vars.filterMap fun v => (text v).map fun s => (v.name, Escape.unescape s)

/-- The entry of the default path. -/
def pathEntry (path : Option String) : List (String × String) :=
  path.toList.map fun p => ("default_path", p)

/-- The lines of variables are those of their entries. -/
lemma toList_lines (text : Variable → Option String) (vars : List Variable) :
    (lines text vars).toList = (texts text vars).flatMap entryLine := by
  unfold lines texts
  rw [String.toList_join]
  induction vars with
  | nil => rfl
  | cons v vars ih =>
    simp only [List.filterMap_cons]
    cases text v with
    | none => exact ih
    | some s =>
      simp only [Option.map_some, List.flatMap_cons, ih]
      simp [entryLine, String.toList_append, Toml.quote]

/-- The line of the path is that of its entry. -/
lemma toList_pathLine (path : Option String) :
    (pathLine path).toList = (pathEntry path).flatMap entryLine := by
  cases path with
  | none => rfl
  | some p =>
    simp only [pathLine, pathEntry, Option.toList_some, List.map_cons, List.map_nil,
      List.flatMap_cons, List.flatMap_nil, List.append_nil]
    simp [entryLine, String.toList_append, Toml.quote]

/-- A payload is a row of lines: the default path, then two tables. -/
lemma toList_payload (t : Template) (path : Option String) :
    (payload t path).toList =
      '\n' :: ((pathEntry path).flatMap entryLine ++
        '\n' :: (declarationLine "defaults" ++ ((texts Variable.default t.vars).flatMap entryLine ++
          '\n' :: (declarationLine "descriptions" ++
            ((texts Variable.description t.vars).flatMap entryLine ++ ['\n']))))) := by
  unfold payload
  simp only [String.toList_append, toList_lines, toList_pathLine, List.append_assoc]
  rfl

/-- The names of entries are those of variables. -/
lemma name_of_mem_texts {text : Variable → Option String} {vars : List Variable}
    {e : String × String} (h : e ∈ texts text vars) : ∃ v ∈ vars, v.name = e.1 := by
  obtain ⟨v, hv, he⟩ := List.mem_filterMap.mp h
  obtain ⟨s, _, rfl⟩ := Option.map_eq_some_iff.mp he
  exact ⟨v, hv, rfl⟩

/-- The names of entries are in the order of the variables. -/
lemma names_texts_sublist (text : Variable → Option String) (vars : List Variable) :
    ((texts text vars).map Prod.fst).Sublist (vars.map Variable.name) := by
  induction vars with
  | nil => simp [texts]
  | cons v vars ih =>
    unfold texts at ih ⊢
    rw [List.filterMap_cons]
    cases text v with
    | none => exact ih.cons _
    | some s => exact ih.cons_cons _

/-- A payload holds no controls but line feeds. -/
lemma plain_of_mem_payload {t : Template} (hvalid : ∀ v ∈ t.vars, Name.Valid v.name)
    {path : Option String} {c : Char} (h : c ∈ (payload t path).toList) : c = '\n' ∨ Plain c := by
  have hentries {text : Variable → Option String} (h : c ∈ (texts text t.vars).flatMap entryLine) :
      c = '\n' ∨ Plain c := by
    obtain ⟨e, he, hc⟩ := List.mem_flatMap.mp h
    obtain ⟨v, hv, hn⟩ := name_of_mem_texts he
    exact plain_of_mem_entryLine (hn ▸ hvalid v hv) hc
  have hpath (h : c ∈ (pathEntry path).flatMap entryLine) : c = '\n' ∨ Plain c := by
    obtain ⟨e, he, hc⟩ := List.mem_flatMap.mp h
    obtain ⟨p, _, rfl⟩ := List.mem_map.mp he
    exact plain_of_mem_entryLine (show Name.Valid "default_path" by decide) hc
  rw [toList_payload] at h
  simp only [List.mem_cons, List.mem_append, List.not_mem_nil, or_false] at h
  rcases h with h | h | h | h | h | h | h | h | h
  · exact .inl h
  · exact hpath h
  · exact .inl h
  · exact plain_of_mem_declarationLine (by decide) h
  · exact hentries h
  · exact .inl h
  · exact plain_of_mem_declarationLine (by decide) h
  · exact hentries h
  · exact .inl h

/-! ## Reading payloads -/

/-- The document that a payload describes. -/
def tableOf (path : Option String) (defaults descriptions : List (String × String)) : Table :=
  entries (pathEntry path) ++
    [("defaults", .table (entries defaults)), ("descriptions", .table (entries descriptions))]

/-- The tables are not there before they are declared. -/
lemma lookup_pathEntry (path : Option String) {k : String} (hk : k ≠ "default_path") :
    (entries (pathEntry path)).lookup k = none := by
  apply lookup_entries
  intro h
  obtain ⟨e, he, rfl⟩ := List.mem_map.mp h
  obtain ⟨p, _, rfl⟩ := List.mem_map.mp he
  exact hk rfl

/-- The line of the default path adds its entry. -/
lemma reads_pathEntry {path : Option String} {rest : List Char} {d' : Document}
    (h : Reads { table := entries (pathEntry path) } rest d') :
    Reads {} ((pathEntry path).flatMap entryLine ++ rest) d' := by
  cases path with
  | none => exact h
  | some p =>
    have hadd : addEntry {} ["default_path"] (.text p) =
        some { table := entries (pathEntry (some p)) } := addEntry_top p rfl
    have hn : Name.faultOf "default_path".toList = none := by decide
    have hentry := Reads.entry (v := p.toList) hn (by simpa using hadd) h
    simpa [pathEntry, entryLine] using hentry

/-- The lines of a payload make a document with the default path and two tables. -/
lemma reads_payload (path : Option String) {ds es : List (String × String)}
    (hds : ∀ e ∈ ds, Name.Valid e.1) (hes : ∀ e ∈ es, Name.Valid e.1)
    (hdn : (ds.map Prod.fst).Nodup) (hen : (es.map Prod.fst).Nodup) :
    ∃ d : Document, d.table = tableOf path ds es ∧
      Reads {} ('\n' :: ((pathEntry path).flatMap entryLine ++ '\n' ::
        (declarationLine "defaults" ++
        (ds.flatMap entryLine ++ '\n' :: (declarationLine "descriptions" ++
          (es.flatMap entryLine ++ ['\n'])))))) d := by
  have hdefaults := lookup_pathEntry path (k := "defaults") (by decide)
  have hdescriptions : (entries (pathEntry path) ++
      [("defaults", Value.table (entries ds))]).lookup "descriptions" = none := by
    rw [List.lookup_append, lookup_pathEntry path (by decide)]
    rfl
  refine ⟨_, ?_, Reads.blank <| reads_pathEntry <| Reads.blank <|
    Reads.section_ rfl rfl (by simp) hdefaults (by decide) hds hdn <| Reads.blank <|
    Reads.section_ rfl rfl (by simp [inSection]) hdescriptions (by decide) hes hen <| Reads.blank <|
      Reads.done _⟩
  simp [inSection, tableOf]

/-- A payload is a document with the default path and two tables. -/
lemma parse_payload {t : Template} (hvalid : ∀ v ∈ t.vars, Name.Valid v.name)
    (hnodup : t.variableNames.Nodup) (path : Option String) :
    Toml.parse (payload t path) =
      some (tableOf path (texts Variable.default t.vars) (texts Variable.description t.vars)) := by
  have hnames (text : Variable → Option String) : ∀ e ∈ texts text t.vars, Name.Valid e.1 := by
    intro e he
    obtain ⟨v, hv, hn⟩ := name_of_mem_texts he
    exact hn ▸ hvalid v hv
  have hdistinct (text : Variable → Option String) : ((texts text t.vars).map Prod.fst).Nodup :=
    (names_texts_sublist text t.vars).nodup hnodup
  have hreturn : '\r' ∉ (payload t path).toList := by
    intro h
    rcases plain_of_mem_payload hvalid h with h | h
    · exact absurd h (by decide)
    · exact absurd h.1 (by decide)
  obtain ⟨d, hd, hreads⟩ := reads_payload path (hnames Variable.default)
    (hnames Variable.description) (hdistinct Variable.default) (hdistinct Variable.description)
  rw [← toList_payload] at hreads
  simp only [Toml.parse, joinBreaks_of_no_return hreturn]
  rw [hreads _ (Nat.lt_succ_self _), Option.map_some, hd]

/-- A table of texts is read as it is. -/
lemma readTexts_entries (place : String) (es : List (String × String)) :
    readTexts place (entries es) = .ok es := by
  induction es with
  | nil => rfl
  | cons e es ih =>
    have h : readTexts place ((e.1, .text e.2) :: entries es) = .ok ((e.1, e.2) :: es) := by
      rw [readTexts, ih]
    exact h

/-- The two tables tell the defaults and the descriptions. -/
lemma readEntries_tables (m : Metadata) (ds es : List (String × String)) :
    readEntries m [("defaults", .table (entries ds)), ("descriptions", .table (entries es))] =
      .ok { m with defaults := ds, descriptions := es } := by
  simp [readEntries, readEntry, readTexts_entries, Except.map]

/-- A document with the default path and two tables tells these. -/
lemma readEntries_tableOf (path : Option String) (ds es : List (String × String)) :
    readEntries {} (tableOf path ds es) =
      .ok { defaultPath := path, defaults := ds, descriptions := es } := by
  cases path with
  | none => exact readEntries_tables {} ds es
  | some p => exact readEntries_tables { defaultPath := some p } ds es

/-- Reading a payload gives the default path and the unescaped texts of the variables. -/
lemma decode_payload_texts {t : Template} (hvalid : ∀ v ∈ t.vars, Name.Valid v.name)
    (hnodup : t.variableNames.Nodup) (path : Option String) :
    decode (payload t path) = .ok
      { defaultPath := path
        defaults := texts Variable.default t.vars
        descriptions := texts Variable.description t.vars } := by
  unfold decode
  rw [parse_payload hvalid hnodup path]
  exact readEntries_tableOf ..

/-- The unescaped texts of variables whose texts are stored escaped. -/
lemma texts_escaped {text : Variable → Option String} {raw : String → Option String}
    {vars : List Variable} (h : ∀ v ∈ vars, text v = (raw v.name).map Escape.escape) :
    texts text vars = (vars.map Variable.name).filterMap fun n => (raw n).map fun s => (n, s) := by
  induction vars with
  | nil => rfl
  | cons v vars ih =>
    have ih' := ih fun w hw => h w (by simp [hw])
    unfold texts at ih' ⊢
    rw [List.map_cons, List.filterMap_cons, List.filterMap_cons, h v (by simp), ih']
    cases raw v.name with
    | none => rfl
    | some s => simp [Escape.unescape_escape]

/-- Reading a payload gives the default path, and the defaults and descriptions of exactly the
variables that have them, as they were before they were escaped. -/
theorem decode_payload (t : Template) (path : Option String)
    (defaults descriptions : String → Option String) (hvalid : ∀ v ∈ t.vars, Name.Valid v.name)
    (hnodup : t.variableNames.Nodup)
    (hdefaults : ∀ v ∈ t.vars, v.default = (defaults v.name).map Escape.escape)
    (hdescriptions : ∀ v ∈ t.vars, v.description = (descriptions v.name).map Escape.escape) :
    decode (payload t path) = .ok
      { defaultPath := path
        defaults := t.variableNames.filterMap fun n => (defaults n).map fun s => (n, s)
        descriptions :=
          t.variableNames.filterMap fun n => (descriptions n).map fun s => (n, s) } := by
  rw [decode_payload_texts hvalid hnodup path, texts_escaped hdefaults, texts_escaped hdescriptions]
  rfl

/-- Texts that look like TOML themselves, and an empty default path. -/
theorem decode_payload_of_tricky_texts :
    let defaults := fun n : String => if n = "a" then some "\"\n[defaults]\na=\"\\" else none
    let descriptions := fun n : String => if n = "_b" then some "" else some "# \r\x7f"
    let t : Template :=
      { source := "", skeleton := "", chains := [], usesName := false
        vars := ["a", "_b"].map fun n =>
          { name := n
            default := (defaults n).map Escape.escape
            description := (descriptions n).map Escape.escape } }
    decode (payload t (some "")) = .ok
      { defaultPath := some ""
        defaults := t.variableNames.filterMap fun n => (defaults n).map fun s => (n, s)
        descriptions :=
          t.variableNames.filterMap fun n => (descriptions n).map fun s => (n, s) } := by
  intro defaults descriptions t
  refine decode_payload t (some "") defaults descriptions ?_ ?_ ?_ ?_
  · simp only [t, List.map_cons, List.map_nil, List.mem_cons, List.not_mem_nil, or_false]
    rintro v (rfl | rfl) <;> decide
  · decide
  · simp [t]
  · simp [t]

end Metadata

end Stencil
