import Stencil.Proofs.Payload
import Stencil.Proofs.SelfDescription

/-!
# Payloads on their way

A payload is written between double quotes, printed by `echo` and read as lines. It arrives with one
more line feed at its end (`Metadata.payload_arrives`). That rests on two facts: `echo` finds no
escape in a payload (`Metadata.inert_payload`), and a document reads line by line, so that an empty
line more does not count (`Toml.parse_lines`).
-/

namespace Stencil

open Shell

namespace Toml

/-! ## Documents line by line -/

/-- A line of a document. -/
inductive Line where
  | blank
  | entry (e : String × String)
  | declaration (name : String)
  deriving DecidableEq, Repr

namespace Line

/-- The characters of the line, with the newline at its end. -/
def text : Line → List Char
  | blank => ['\n']
  | entry e => entryLine e
  | declaration name => declarationLine name

/-- The name in a line is valid. -/
def Named : Line → Prop
  | blank => True
  | entry e => Name.Valid e.1
  | declaration name => Name.Valid name

/-- What a line makes of a document, if it can follow. -/
def read (d : Document) : Line → Option Document
  | blank => some d
  | entry e => d.addEntry [e.1] (.text e.2)
  | declaration name => d.openTable [name]

end Line

namespace Document

/-- Reading a statement and then the lines after it. -/
lemma lines_statement {d : Document} {c : Char} {cs rest : List Char} {r : Option Document}
    (hc : isSpace c = false) (hn : c ≠ '\n') (hh : c ≠ '#')
    (hs : d.statement (c :: cs) = r.map (·, '\n' :: rest)) (fuel : Nat) :
    lines (fuel + 1) d (c :: cs) = r.bind fun d' => lines fuel d' rest := by
  rw [lines, skipSpaces_cons hc]
  · have he : (c == '#') = false := beq_eq_false_iff_ne.mpr hh
    simp only [he, Bool.false_eq_true, if_false, hs]
    cases r with
    | none => rfl
    | some d' =>
      simp only [Option.map_some, skipSpaces_cons (c := '\n') (by decide), Option.bind_some]
      rw [skipComment]
      · rfl
      · simp

/-- A line before others. -/
lemma lines_cons {l : Line} (hl : l.Named) (d : Document) (rest : List Char) (fuel : Nat) :
    lines (fuel + 1) d (l.text ++ rest) = (l.read d).bind fun d' => lines fuel d' rest := by
  cases l with
  | blank =>
    rw [Line.text, List.singleton_append, lines, skipSpaces_cons (by decide)]
    rfl
  | entry e =>
    have hstatement :=
      statement_entry d e.2.toList rest (show Name.faultOf e.1.toList = none from hl)
    obtain ⟨c, cs, hname, hs, _⟩ :=
      Name.faultOf_eq_none.mp (show Name.faultOf e.1.toList = none from hl)
    have hpart := Name.isPart_of_isStart hs
    -- A line that starts with a name is neither empty nor a comment.
    have hne {x : Char} (hx : Name.isPart x = false) : c ≠ x := Name.ne_of_isPart hpart hx
    have htext : (Line.entry e).text ++ rest =
        c :: (cs ++ '=' :: (quoteChars e.2.toList ++ '\n' :: rest)) := by
      simp [Line.text, entryLine, hname]
    rw [String.ofList_toList, String.ofList_toList, hname, List.cons_append] at hstatement
    rw [htext]
    exact lines_statement (isSpace_of_isPart hpart) (hne (by decide)) (hne (by decide)) hstatement
      fuel
  | declaration name =>
    have hstatement := statement_declaration d rest (show Name.faultOf name.toList = none from hl)
    have htext :
        (Line.declaration name).text ++ rest = '[' :: (name.toList ++ ']' :: '\n' :: rest) := by
      simp [Line.text, declarationLine]
    rw [String.ofList_toList] at hstatement
    rw [htext]
    exact lines_statement (by decide) (by decide) (by decide) hstatement fuel

/-- Lines are read one after the other. -/
lemma lines_flatMap {ls : List Line} (hls : ∀ l ∈ ls, l.Named) {d : Document} {fuel : Nat}
    (hfuel : ls.length < fuel) :
    lines fuel d (ls.flatMap Line.text) = ls.foldlM Line.read d := by
  induction ls generalizing d fuel with
  | nil =>
    obtain ⟨fuel, rfl⟩ := Nat.exists_eq_add_one_of_ne_zero (show fuel ≠ 0 by omega)
    rfl
  | cons l ls ih =>
    rw [List.length_cons] at hfuel
    obtain ⟨fuel, rfl⟩ := Nat.exists_eq_add_one_of_ne_zero (show fuel ≠ 0 by omega)
    rw [List.flatMap_cons, lines_cons (hls l (by simp)), List.foldlM_cons]
    exact congrArg _ (funext fun d' => ih (fun m hm => hls m (by simp [hm])) (by omega))

end Document

/-- There are no more lines than characters. -/
lemma length_le_length_flatMap_text (ls : List Line) :
    ls.length ≤ (ls.flatMap Line.text).length := by
  induction ls with
  | nil => exact Nat.le_refl 0
  | cons l ls ih =>
    have hpos : 0 < l.text.length := by
      refine List.length_pos_iff.mpr ?_
      cases l <;> simp [Line.text, entryLine, declarationLine]
    rw [List.flatMap_cons, List.length_append, List.length_cons]
    omega

/-- A document without carriage returns reads line by line. -/
lemma parse_lines {s : String} {ls : List Line} (hs : s.toList = ls.flatMap Line.text)
    (hls : ∀ l ∈ ls, l.Named) (hreturn : '\r' ∉ s.toList) :
    parse s = (ls.foldlM Line.read {}).map Document.table := by
  have hlength := length_le_length_flatMap_text ls
  simp only [parse, joinBreaks_of_no_return hreturn]
  rw [hs, Document.lines_flatMap hls (by omega)]

/-- An empty line at the end does not count. -/
lemma parse_append_blank {s : String} {ls : List Line} (hs : s.toList = ls.flatMap Line.text)
    (hls : ∀ l ∈ ls, l.Named) (hreturn : '\r' ∉ s.toList) : parse (s ++ "\n") = parse s := by
  have hs' : (s ++ "\n").toList = (ls ++ [Line.blank]).flatMap Line.text := by
    rw [String.toList_append, hs, List.flatMap_append]
    rfl
  have hls' : ∀ l ∈ ls ++ [.blank], l.Named := by
    intro l hl
    rcases List.mem_append.mp hl with hl | hl
    · exact hls l hl
    · obtain rfl := List.mem_singleton.mp hl
      trivial
  have hreturn' : '\r' ∉ (s ++ "\n").toList := by
    rw [String.toList_append, List.mem_append, not_or]
    exact ⟨hreturn, by decide⟩
  rw [parse_lines hs' hls' hreturn', parse_lines hs hls hreturn, List.foldlM_append]
  cases ls.foldlM Line.read {} <;> rfl

/-! ## Texts without escapes -/

/-- A backslash of a quoted text stands before a quote or a `u`. -/
lemma inert_quoteChar (c : Char) : Inert (quoteChar c) := by
  unfold quoteChar
  split
  · exact ⟨fun _ => rfl, fun h => absurd h (by decide), trivial⟩
  split
  · refine ⟨fun _ => rfl, fun h => absurd h (by decide), .of_no_backslash fun h => ?_⟩
    obtain ⟨d, hd, hdigit⟩ := digit_of_mem_upperHex h
    have digits : ∀ d < 16, '\\' ≠ (Nat.digitChar d).toUpper := by decide
    exact digits d hd hdigit
  · rename_i h
    refine .of_no_backslash fun hmem => h ?_
    rw [← List.mem_singleton.mp hmem]
    rfl

/-- The line of an entry is inert. -/
lemma inert_entryLine {e : String × String} (hn : Name.Valid e.1) : Inert (entryLine e) := by
  have hname : Inert e.1.toList := .of_no_backslash fun h =>
    Name.ne_of_isPart (Name.isPart_of_mem hn h) (by decide) rfl
  have hquoted : Inert (quoteChars e.2.toList) :=
    ((Inert.of_no_backslash (by decide)).append (.flatMap fun c _ => inert_quoteChar c)).append
      (.of_no_backslash (by decide))
  exact hname.append
    (⟨fun h => absurd h (by decide), hquoted.append (.of_no_backslash (by decide))⟩)

/-- Each line is inert. -/
lemma inert_text {l : Line} (hl : l.Named) : Inert l.text := by
  cases l with
  | blank => exact .of_no_backslash (by decide)
  | entry e => exact inert_entryLine hl
  | declaration name =>
    refine .of_no_backslash fun h => ?_
    simp only [Line.text, declarationLine, List.mem_cons, List.mem_append, List.not_mem_nil,
      or_false] at h
    rcases h with h | h | h | h
    · exact absurd h (by decide)
    · exact Name.ne_of_isPart (Name.isPart_of_mem hl h) (by decide) rfl
    · exact absurd h (by decide)
    · exact absurd h (by decide)

end Toml

namespace Metadata

open Toml

variable {t : Template}

/-- The lines of a payload. -/
def payloadLines (t : Template) (path : Option String) : List Line :=
  [.blank] ++ (pathEntry path).map .entry ++ [.blank, .declaration "defaults"] ++
    (texts Variable.default t.vars).map .entry ++ [.blank, .declaration "descriptions"] ++
    (texts Variable.description t.vars).map .entry ++ [.blank]

/-- The payload is made of lines. -/
lemma toList_payload_eq_lines (t : Template) (path : Option String) :
    (payload t path).toList = (payloadLines t path).flatMap Line.text := by
  have hentries (es : List (String × String)) :
      (es.map Line.entry).flatMap Line.text = es.flatMap entryLine :=
    List.flatMap_map ..
  simp only [toList_payload, payloadLines, List.flatMap_append, hentries]
  simp [Line.text]

/-- The lines of a payload have valid names. -/
lemma named_of_mem_payloadLines (hvalid : ∀ v ∈ t.vars, Name.Valid v.name) {path : Option String}
    {l : Line} (hl : l ∈ payloadLines t path) : l.Named := by
  have htexts {text : Variable → Option String} (h : l ∈ (texts text t.vars).map .entry) :
      l.Named := by
    obtain ⟨e, he, rfl⟩ := List.mem_map.mp h
    obtain ⟨v, hv, hn⟩ := name_of_mem_texts he
    show Name.Valid e.1
    exact hn ▸ hvalid v hv
  have hpath (h : l ∈ (pathEntry path).map .entry) : l.Named := by
    obtain ⟨e, he, rfl⟩ := List.mem_map.mp h
    obtain ⟨p, -, rfl⟩ := List.mem_map.mp he
    show Name.Valid "default_path"
    decide
  simp only [payloadLines, List.mem_append, List.mem_cons, List.not_mem_nil, or_false] at hl
  rcases hl with (((((rfl | h) | rfl | rfl) | h) | rfl | rfl) | h) | rfl
  · trivial
  · exact hpath h
  · trivial
  · show Name.Valid "defaults"
    decide
  · exact htexts h
  · trivial
  · show Name.Valid "descriptions"
    decide
  · exact htexts h
  · trivial

/-- Of the control characters only newlines stand in a payload. -/
lemma control_notMem_payload (hvalid : ∀ v ∈ t.vars, Name.Valid v.name) {path : Option String}
    {c : Char} (hc : c.toNat < 0x20) (hn : c ≠ '\n') : c ∉ (payload t path).toList := by
  intro h
  rcases plain_of_mem_payload hvalid h with rfl | h
  · exact hn rfl
  · exact absurd h.1 (by omega)

/-- `echo` finds no escape in a payload. -/
lemma inert_payload (hvalid : ∀ v ∈ t.vars, Name.Valid v.name) (path : Option String) :
    Inert (payload t path).toList := by
  rw [toList_payload_eq_lines]
  exact .flatMap fun l hl => inert_text (named_of_mem_payloadLines hvalid hl)

/-- A payload is printed as it is. -/
lemma echo_payload (hvalid : ∀ v ∈ t.vars, Name.Valid v.name) (path : Option String) :
    echo [scanned (payload t path)] = raw (payload t path ++ "\n").toList := by
  rw [scanned_eq_raw (control_notMem_payload hvalid (by decide) (by decide)),
    echo_of_inert (inert_payload hvalid path).raw, String.toList_append, raw_append]
  · rfl
  · -- A payload starts with a line feed, so it is no flag of `echo`.
    rw [toList_payload, raw_cons_ascii (by decide)]
    intro h
    exact absurd (List.cons.inj h).1 (by decide)

/-- A payload is decoded from its bytes. -/
lemma decodeLines_payload (hvalid : ∀ v ∈ t.vars, Name.Valid v.name) (path : Option String) :
    Text.decodeLines (Text.encode (payload t path ++ "\n")) = .ok (payload t path ++ "\n") := by
  refine Text.decodeLines_encode ?_
  rw [String.toList_append, List.mem_append, not_or]
  exact ⟨control_notMem_payload hvalid (by decide) (by decide), by decide⟩

/-- A line feed more at the end of a payload does not count. -/
lemma decode_append_newline (hvalid : ∀ v ∈ t.vars, Name.Valid v.name) (path : Option String) :
    decode (payload t path ++ "\n") = decode (payload t path) := by
  unfold decode
  rw [parse_append_blank (toList_payload_eq_lines t path) (fun _ =>
    named_of_mem_payloadLines hvalid)
    (control_notMem_payload hvalid (by decide) (by decide))]

/-- What arrives of a text that is expanded between double quotes, printed by `echo` and read as
lines. -/
def arrival (env : String → String) (quoted : String) : Option (Except Text.DecodeError String) :=
  (Quotation.expand env quoted).map fun text => Text.decodeLines (toBytes (echo [charsOf text]))

/-- The line of a script that prints a payload. -/
lemma finishes_echo_payload (hvalid : ∀ v ∈ t.vars, Name.Valid v.name) (path : Option String)
    (request : List Char) (tree : Files.Tree) :
    Finishes request tree (scanned (Script.echo "" (Escape.escape (payload t path)))) []
      (raw (payload t path ++ "\n").toList) := by
  have hecho : Finishes request tree _ [] _ :=
    Finishes.echo [] (Inside.escaped (scanned (payload t path))).quoted .nil
  rw [List.nil_append, echo_payload hvalid path] at hecho
  delta Script.echo
  simp (disch := first | with_reducible rfl | decide) only [scanned_append, scanned_literal,
    scanned_escape] at hecho ⊢
  simp (disch := with_reducible rfl) only [Text.toList_literal, Shell.line, Phrase.text_plain,
    Phrase.text_quoted, List.append_assoc, List.cons_append, List.nil_append] at hecho ⊢
  exact hecho

/-- A payload arrives with one line feed more, which does not change what is read from it. The line
of a script that prints it prints just that. -/
theorem payload_arrives (t : Template) (path : Option String)
    (hvalid : ∀ v ∈ t.vars, Name.Valid v.name) :
    (∀ env, arrival env (Escape.escape (payload t path)) = some (.ok (payload t path ++ "\n"))) ∧
      (∀ tree scriptName request,
        runScript tree scriptName (Text.encode (Script.echo "" (Escape.escape (payload t path))))
          [request] =
          { status := some 0, out := Text.encode (payload t path ++ "\n"), err := [], tree }) ∧
      decode (payload t path ++ "\n") = decode (payload t path) := by
  refine ⟨fun env => ?_, fun tree scriptName request => ?_, decode_append_newline hvalid path⟩
  · have hecho : echo [charsOf (payload t path)] = raw (payload t path ++ "\n").toList := by
      rw [← echo_payload hvalid path,
        scanned_eq_raw (control_notMem_payload hvalid (by decide) (by decide))]
      rfl
    rw [arrival, Quotation.expand_escape, Option.map_some, hecho, toBytes_raw]
    exact congrArg some (decodeLines_payload hvalid path)
  · exact runScript_of_finishes scriptName (finishes_echo_payload hvalid path _ tree)

/-- A name that occurs twice, texts with escapes of `echo`, and a path with a carriage return. -/
theorem payload_arrives_of_escapes :
    let t : Template :=
      { source := "", skeleton := "", chains := [], usesName := false
        vars :=
          [{ name := "a", default := some "\\c\\\\" }, { name := "a", default := some "\\\x22$" }] }
    let path := some "-n\r\\0"
    (∀ env, arrival env (Escape.escape (payload t path)) = some (.ok (payload t path ++ "\n"))) ∧
      (∀ tree scriptName request,
        runScript tree scriptName (Text.encode (Script.echo "" (Escape.escape (payload t path))))
          [request] =
          { status := some 0, out := Text.encode (payload t path ++ "\n"), err := [], tree }) ∧
      decode (payload t path ++ "\n") = decode (payload t path) := by
  intro t path
  exact payload_arrives t path (by decide)

end Metadata

end Stencil
