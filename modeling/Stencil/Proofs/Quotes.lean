import Stencil.Proofs.Sections
import Stencil.Proofs.Template

/-!
# Texts of users in scripts

A script holds texts that a user wrote: the name of the template, descriptions, defaults, the source
and the payload. Each of them stands between double quotes. `Script.chunks` cuts a script at these
texts (`Script.render_chunks`), and `Script.quotes_close` says that none of them can leave its
quotes: read from its opening quote, it ends at the closing quote that the script has for it,
nothing in it is expanded, and it stands for what the user wrote.
-/

namespace Stencil

open Shell

namespace Quotation

/-! ## Reading up to the closing quote -/

/-- Puts a character before what was read. -/
def keep (c : Char) (r : Option (List Char × List Char)) : Option (List Char × List Char) :=
  r.map fun x => (c :: x.1, x.2)

/-- Reads text behind a double quote up to the quote that closes it. Gives what it stands for and
what follows. There is no reading if a dollar or a backquote without a backslash comes first, or if
no quote closes the text. -/
def scan : List Char → Option (List Char × List Char)
  | [] => none
  | c :: rest =>
    if c == '\x22' then some ([], rest)
    else if c == '$' || c == '\x60' then none
    else if c == '\\' then
      match rest with
      | [] => none
      | d :: more =>
        if d == '\n' then scan more
        else if Escape.isSpecial d then keep d (scan more)
        else keep c (keep d (scan more))
    else keep c (scan rest)

/-- A quote ends the text. -/
lemma scan_quote (rest : List Char) : scan ('\x22' :: rest) = some ([], rest) := by
  rw [scan.eq_def]
  rfl

/-- A character that is not special stands for itself. -/
lemma scan_plain {c : Char} (hc : Escape.isSpecial c = false) (rest : List Char) :
    scan (c :: rest) = keep c (scan rest) := by
  simp only [Escape.isSpecial, Bool.or_eq_false_iff] at hc
  obtain ⟨⟨⟨hquote, hdollar⟩, hbackquote⟩, hbackslash⟩ := hc
  rw [scan.eq_def]
  simp [hquote, hdollar, hbackquote, hbackslash]

/-- Behind a backslash a special character stands for itself. -/
lemma scan_escaped {c : Char} (hc : Escape.isSpecial c = true) (rest : List Char) :
    scan ('\\' :: c :: rest) = keep c (scan rest) := by
  have hline : (c == '\n') = false := by
    refine beq_eq_false_iff_ne.mpr ?_
    rintro rfl
    exact absurd hc (by decide)
  rw [scan]
  simp [hline, hc]

/-- Between double quotes the text stands for the other, whatever follows. The shell's own reader
agrees. -/
structure Spells (inside text : String) : Prop where
  scan : ∀ rest, scan (inside.toList ++ rest) = (scan rest).map fun x => (text.toList ++ x.1, x.2)
  reads : Inside (scanned inside) (quotedChars (scanned text))

namespace Spells

variable {inside inside' text text' : String}

/-- Two spellings side by side spell the two texts. -/
lemma append (h : Spells inside text) (h' : Spells inside' text') :
    Spells (inside ++ inside') (text ++ text') where
  scan rest := by
    rw [String.toList_append, List.append_assoc, h.scan, h'.scan, Option.map_map,
      String.toList_append]
    simp only [Function.comp_def, List.append_assoc]
  reads := by
    have happend := h.reads.append h'.reads
    rw [quotedChars, quotedChars, ← List.map_append] at happend
    rwa [scanned_append, scanned_append]

/-- Escaped text stands for the text. -/
lemma escape (s : String) : Spells (Escape.escape s) s where
  scan rest := by
    rw [Escape.escape, String.toList_ofList]
    induction s.toList with
    | nil => simp
    | cons c cs ih =>
      rw [Escape.escapeChars_cons, List.append_assoc]
      cases hc : Escape.isSpecial c with
      | true =>
        rw [Escape.escapeChar_of_special hc, List.cons_append, List.singleton_append,
          scan_escaped hc, ih, keep, Option.map_map]
        rfl
      | false =>
        rw [Escape.escapeChar_of_plain hc, List.singleton_append, scan_plain hc, ih, keep,
          Option.map_map]
        rfl
  reads := by
    rw [scanned_escape]
    exact Inside.escaped (scanned s)

/-- Text without special characters stands for itself. -/
lemma plain {s : String} (h : ∀ c ∈ s.toList, Escape.isSpecial c = false) : Spells s s := by
  have hescape := escape s
  rwa [Escape.escape, Escape.escapeChars_of_plain h, String.ofList_toList] at hescape

/-- The quote behind the text closes it. -/
lemma close (h : Spells inside text) (rest : List Char) :
    Quotation.scan (inside.toList ++ '\x22' :: rest) = some (text.toList, rest) := by
  rw [h.scan, scan_quote, Option.map_some, List.append_nil]

end Spells

end Quotation

namespace Script

open Quotation

/-! ## Scripts cut at the texts of users -/

/-- A stretch of a script. -/
inductive Chunk where
  | code (text : String)
  /-- Text between double quotes, and what it stands for. -/
  | quoted (inside text : String)
  deriving DecidableEq, Repr

namespace Chunk

/-- The chunk as it stands in the script. -/
def written : Chunk → String
  | code text => text
  | quoted inside _ => "\x22" ++ inside ++ "\x22"

/-- The text that the user gave, if the chunk is one between quotes. -/
def text? : Chunk → Option String
  | code _ => none
  | quoted _ text => some text

/-- A text of a user stands for what it should. -/
def Sound : Chunk → Prop
  | code _ => True
  | quoted inside text => Spells inside text

end Chunk

/-- The chunks as they stand in the script, one after the other. -/
def render (cs : List Chunk) : String :=
  String.join (cs.map Chunk.written)

section

variable (lib : FilterLibrary) (name : String) (t : Template) (path : Option String)
  (defaults descriptions : String → Option String)

/-- A line that prints a text of the user. -/
def echoChunks (indent inside text : String) : List Chunk :=
  [.code (indent ++ "echo "), .quoted inside text, .code "\n"]

/-- The option line of a variable. -/
def optionChunks (v : Variable) : List Chunk :=
  match descriptions v.name with
  | none => [.code (echo "      " (flagOf v))]
  | some d =>
    echoChunks "      " (option (helpColumn t) (flagOf v) (Escape.escape d))
      (option (helpColumn t) (flagOf v) d)

/-- The help of the script. -/
def helpChunks : List Chunk :=
  [.code "    *)\n"] ++ echoChunks "      " (Escape.escape name ++ ":") (name ++ ":") ++
    [.code (echo "      " ("generates file at " ++ OutputPath.forHelp path) ++ echo "      " "" ++
      echo "      " "options:" ++
        echo "      " (option (helpColumn t) helpFlag "show brief help") ++
      echo "      " (option (helpColumn t) nameFlag "filename (without extension)"))] ++
    (t.vars.filter (·.name != nameVariable)).flatMap (optionChunks t descriptions) ++
    [.code "      exit 0\n      ;;\n"]

/-- The loop over the arguments of the script, with its help. -/
def argumentChunks : List Chunk :=
  [.code
    ("\n# parse arguments\nwhile test $# -gt 0; do\n  case \"$1\" in\n" ++
      String.join (t.vars.map optionBranch))] ++
    helpChunks name t path descriptions ++ [.code "  esac\ndone\n"]

/-- The names of variables and the texts that they have. -/
def textsOf (texts : String → Option String) : List (String × String) :=
  t.variableNames.filterMap fun n => (texts n).map fun d => (n, d)

/-- The line that sets a variable that is still empty. -/
def defaultChunks (e : String × String) : List Chunk :=
  [.code (e.1 ++ "=$\x7b" ++ e.1 ++ ":-"), .quoted (Escape.escape e.2) e.2, .code "\x7d\n"]

/-- The lines that give the variables their defaults. -/
def defaultsChunks : List Chunk :=
  match textsOf t defaults with
  | [] => []
  | e :: es => [.code "\n# set variable defaults\n"] ++ (e :: es).flatMap defaultChunks

/-- The lines that answer the requests of an editor. -/
def editingChunks : List Chunk :=
  [.code "\n# template editing section\n\nif [ \"$1\" = \"get-template\" ]; then\n"] ++
    echoChunks "" (Escape.escape t.source) t.source ++
      [.code "fi\n\nif [ \"$1\" = \"get-vars\" ]; then\n"] ++
    echoChunks "" (Escape.escape (Metadata.payload (t.annotate defaults descriptions) path))
      (Metadata.payload (t.annotate defaults descriptions) path) ++ [.code "fi\n"]

/-- The script of a template with its defaults and descriptions, cut at the texts of the user. -/
def chunks : List Chunk :=
  [.code (preamble ++ guardOpen ++ declarations t)] ++ argumentChunks name t path descriptions ++
    defaultsChunks t defaults ++
      [.code (checks t ++ filters lib t ++ output t path ++ guardClose)] ++
    editingChunks t path defaults descriptions

end

section

variable {lib : FilterLibrary} {name : String} {t : Template} {path : Option String}
  {defaults descriptions : String → Option String}

/-- Chunks are written one after the other. -/
lemma render_append (cs ds : List Chunk) : render (cs ++ ds) = render cs ++ render ds := by
  rw [render, List.map_append, String.join_append]
  rfl

/-- The first chunk is written first. -/
@[simp]
lemma render_cons (c : Chunk) (cs : List Chunk) : render (c :: cs) = c.written ++ render cs := by
  rw [render, List.map_cons, String.join_cons]
  rfl

/-- Without chunks nothing is written. -/
@[simp]
lemma render_nil : render [] = "" :=
  rfl

/-- Rows of chunks are rendered row by row. -/
lemma render_flatMap {α : Type} {xs : List α} {f : α → List Chunk} {g : α → String}
    (h : ∀ x ∈ xs, render (f x) = g x) :
    render (xs.flatMap f) = String.join (xs.map g) := by
  induction xs with
  | nil => rfl
  | cons x xs ih =>
    rw [List.flatMap_cons, render_append, h x (by simp), ih fun y hy => h y (by simp [hy]),
      List.map_cons, String.join_cons]

/-- The chunks of a printed line are written as the line. -/
lemma render_echoChunks (indent inside text : String) :
    render (echoChunks indent inside text) = echo indent inside := by
  -- The quotes are chunks of their own, so the literals are cut before and behind them.
  have hopen : "echo \"" = "echo " ++ "\"" := rfl
  have hclose : "\"\n" = "\"" ++ "\n" := rfl
  simp only [echoChunks, render_cons, render_nil, Chunk.written, echo, hopen, hclose,
    String.append_assoc, String.append_empty]

/-- The chunks of an option are written as its line in the help. -/
lemma render_optionChunks (v : Variable) :
    render (optionChunks t descriptions v) =
      variableOption (helpColumn t) (v.annotate defaults descriptions) := by
  have hflag : flagOf (v.annotate defaults descriptions) = flagOf v := rfl
  unfold optionChunks variableOption
  rw [hflag]
  cases hd : descriptions v.name with
  | none => simp [Variable.annotate, hd, Chunk.written]
  | some d => simp [Variable.annotate, hd, render_echoChunks]

/-- What is said about variables does not move the column of the help. -/
lemma helpColumn_annotate : helpColumn (t.annotate defaults descriptions) = helpColumn t := by
  simp [helpColumn, Template.annotate, Variable.annotate, Function.comp_def]

/-- The chunks of the help are written as the help. -/
lemma render_helpChunks :
    render (helpChunks name t path descriptions) =
      help name (t.annotate defaults descriptions) path := by
  have hoptions :
      render ((t.vars.filter (·.name != nameVariable)).flatMap (optionChunks t descriptions)) =
      String.join (((t.annotate defaults descriptions).vars.filter (·.name != nameVariable)).map
        (variableOption (helpColumn t))) := by
    rw [render_flatMap fun v _ => render_optionChunks v, Template.annotate, List.filter_map,
      List.map_map]
    rfl
  simp only [helpChunks, render_append, render_cons, render_nil, render_echoChunks, hoptions,
    Chunk.written, help, helpColumn_annotate, String.append_assoc, String.append_empty]

/-- The chunks of a default are written as its line. -/
lemma render_defaultChunks (e : String × String) :
    render (defaultChunks e) =
      e.1 ++ "=$\x7b" ++ e.1 ++ ":-\"" ++ Escape.escape e.2 ++ "\"\x7d\n" := by
  have hopen : ":-\"" = ":-" ++ "\"" := rfl
  have hclose : "\"\x7d\n" = "\"" ++ "\x7d\n" := rfl
  simp only [defaultChunks, render_cons, render_nil, Chunk.written, hopen, hclose,
    String.append_assoc, String.append_empty]

/-- The lines with defaults are those of the variables that have one. -/
lemma defaultLines_annotate :
    (t.annotate defaults descriptions).vars.filterMap defaultLine =
      (textsOf t defaults).map fun e => render (defaultChunks e) := by
  rw [textsOf, List.map_filterMap, Template.variableNames, List.filterMap_map, Template.annotate,
    List.filterMap_map]
  refine List.filterMap_congr fun v _ => ?_
  simp only [Function.comp_apply, render_defaultChunks, defaultLine, Variable.annotate,
    Option.map_map]
  rfl

/-- The chunks of the defaults are written as this part of the script. -/
lemma render_defaultsChunks :
    render (defaultsChunks t defaults) = Script.defaults (t.annotate defaults descriptions) := by
  unfold defaultsChunks Script.defaults
  rw [defaultLines_annotate]
  cases textsOf t defaults with
  | nil => rfl
  | cons e es =>
    rw [render_append, render_flatMap fun e _ => rfl]
    simp [Chunk.written]

/-- The chunks for an editor are written as this part of the script. -/
lemma render_editingChunks :
    render (editingChunks t path defaults descriptions) =
      editing (t.annotate defaults descriptions) path := by
  have hsource : (t.annotate defaults descriptions).source = t.source := rfl
  delta editing editingChunks
  simp only [render_append, render_cons, render_nil, render_echoChunks, Chunk.written, hsource,
    String.append_assoc, String.append_empty]

/-- What is made of the names of variables is the same with texts. -/
lemma map_annotate {α : Type} {f : Variable → α}
    (h : ∀ v, f (v.annotate defaults descriptions) = f v) (vs : List Variable) :
    (vs.map (·.annotate defaults descriptions)).map f = vs.map f := by
  rw [List.map_map]
  exact List.map_congr_left fun v _ => h v

/-- What is said about variables does not change their declarations. -/
lemma declarations_annotate : declarations (t.annotate defaults descriptions) = declarations t := by
  delta declarations Template.annotate
  dsimp only
  rw [map_annotate fun v => rfl]

/-- What is said about variables does not change their checks. -/
lemma checks_annotate : checks (t.annotate defaults descriptions) = checks t := by
  delta checks Template.annotate
  dsimp only
  rw [List.filter_map, map_annotate fun v => rfl]
  rfl

/-- The chunks of the loop over the arguments are written as this part of the script. -/
lemma render_argumentChunks :
    render (argumentChunks name t path descriptions) =
      arguments name (t.annotate defaults descriptions) path := by
  have hbranches :
      (t.annotate defaults descriptions).vars.map optionBranch = t.vars.map optionBranch :=
    map_annotate (fun v => rfl) t.vars
  have hhelp : render (helpChunks name t path descriptions) =
      help name (t.annotate defaults descriptions) path :=
    render_helpChunks
  delta arguments argumentChunks
  simp only [render_append, render_cons, render_nil, Chunk.written, hbranches, hhelp,
    String.append_assoc, String.append_empty]

/-- The chunks of a script make up the script. -/
lemma render_chunks :
    render (chunks lib name t path defaults descriptions) =
      compile lib name (t.annotate defaults descriptions) path := by
  have hfilters : filters lib (t.annotate defaults descriptions) = filters lib t := rfl
  have houtput : output (t.annotate defaults descriptions) path = output t path := rfl
  have harguments : render (argumentChunks name t path descriptions) =
      arguments name (t.annotate defaults descriptions) path := render_argumentChunks
  have hdefaults :
      render (defaultsChunks t defaults) = Script.defaults (t.annotate defaults descriptions) :=
    render_defaultsChunks
  delta compile chunks
  simp only [render_append, render_cons, render_nil, Chunk.written, declarations_annotate,
    checks_annotate, hfilters, houtput, harguments, hdefaults, render_editingChunks,
    String.append_assoc, String.append_empty]

/-! ## Reading the texts -/

/-- A flag needs no escape, so it spells itself. -/
lemma spells_flagOf {v : Variable} (hn : Name.Valid v.name) : Spells (flagOf v) (flagOf v) := by
  have hplain (s : String) (h : s.toList.all (Escape.isSpecial · = false) = true) :
      ∀ c ∈ s.toList, Escape.isSpecial c = false := List.all_iff_forall_prop.mp h
  refine .plain fun c hc => ?_
  rw [flagOf, String.toList_append, String.toList_append, String.toList_append, List.mem_append,
    List.mem_append, List.mem_append] at hc
  rcases hc with ((hc | hc) | hc) | hc
  · exact hplain "--" (by decide) c hc
  · exact isSpecial_of_mem_name hn hc
  · exact hplain " " (by decide) c hc
  · exact isSpecial_of_mem_upper hn hc

/-- An escaped description is read back behind its flag. -/
lemma spells_option {v : Variable} (hn : Name.Valid v.name) (column : Nat) (d : String) :
    Spells (option column (flagOf v) (Escape.escape d)) (option column (flagOf v) d) := by
  refine ((spells_flagOf hn).append (.plain fun c hc => ?_)).append (.escape d)
  rw [pad, String.toList_ofList, List.mem_replicate] at hc
  rw [hc.2]
  rfl

/-- The chunks of a printed line are sound if what stands in it spells its text. -/
lemma sound_echoChunks {indent inside text : String} (h : Spells inside text) :
    ∀ c ∈ echoChunks indent inside text, c.Sound := by
  simp only [echoChunks, List.forall_mem_cons]
  exact ⟨trivial, h, trivial, by simp⟩

/-- The chunks of an option are sound. -/
lemma sound_optionChunks {v : Variable} (hn : Name.Valid v.name) :
    ∀ c ∈ optionChunks t descriptions v, c.Sound := by
  unfold optionChunks
  cases descriptions v.name with
  | none =>
    rw [List.forall_mem_singleton]
    trivial
  | some d => exact sound_echoChunks (spells_option hn _ d)

/-- The chunks of the help are sound. -/
lemma sound_helpChunks (hvalid : ∀ v ∈ t.vars, Name.Valid v.name) :
    ∀ c ∈ helpChunks name t path descriptions, c.Sound := by
  delta helpChunks
  simp only [List.forall_mem_append, List.forall_mem_singleton]
  refine ⟨⟨⟨⟨trivial,
    sound_echoChunks
      ((Spells.escape name).append (.plain (List.all_iff_forall_prop.mp (by decide))))⟩,
    trivial⟩, ?_⟩, trivial⟩
  intro c hc
  obtain ⟨v, hv, hc⟩ := List.mem_flatMap.mp hc
  exact sound_optionChunks (hvalid v (List.mem_of_mem_filter hv)) c hc

/-- The chunks of the defaults are sound. -/
lemma sound_defaultsChunks : ∀ c ∈ defaultsChunks t defaults, c.Sound := by
  unfold defaultsChunks
  cases textsOf t defaults with
  | nil => simp
  | cons e es =>
    rw [List.forall_mem_append, List.forall_mem_singleton]
    refine ⟨trivial, fun c hc => ?_⟩
    obtain ⟨e', -, hc⟩ := List.mem_flatMap.mp hc
    simp only [defaultChunks, List.mem_cons, List.not_mem_nil, or_false] at hc
    rcases hc with rfl | rfl | rfl
    · trivial
    · exact Spells.escape e'.2
    · trivial

/-- Every text of the user stands for what it should. -/
lemma sound_chunks (hvalid : ∀ v ∈ t.vars, Name.Valid v.name) :
    ∀ c ∈ chunks lib name t path defaults descriptions, c.Sound := by
  delta chunks argumentChunks editingChunks
  simp only [List.forall_mem_append, List.forall_mem_singleton]
  exact ⟨⟨⟨⟨trivial, ⟨trivial, sound_helpChunks hvalid⟩, trivial⟩, sound_defaultsChunks⟩, trivial⟩,
    ⟨⟨⟨trivial, sound_echoChunks (.escape _)⟩, trivial⟩, sound_echoChunks (.escape _)⟩, trivial⟩

/-- The texts of the user in a script, in order: the title, the options with a description, the
defaults, the source and the payload. -/
def userTexts (name : String) (t : Template) (path : Option String)
    (defaults descriptions : String → Option String) :
    List String :=
  [name ++ ":"] ++ (t.vars.filter (·.name != nameVariable)).filterMap (fun v =>
      (descriptions v.name).map fun d => flagOf v ++ pad (helpColumn t) (flagOf v).length ++ d) ++
    t.variableNames.filterMap defaults ++
      [t.source, Metadata.payload (t.annotate defaults descriptions) path]

/-- The texts of a row of chunks are those of its parts. -/
lemma texts_flatMap {α : Type} {f : α → List Chunk} {g : α → Option String}
    (h : ∀ x, (f x).filterMap Chunk.text? = (g x).toList) (xs : List α) :
    (xs.flatMap f).filterMap Chunk.text? = xs.filterMap g := by
  induction xs with
  | nil => rfl
  | cons x xs ih =>
    rw [List.flatMap_cons, List.filterMap_append, h, ih, List.filterMap_cons]
    cases g x <;> rfl

/-- The text of an option is its flag and the description, if there is one. -/
lemma texts_optionChunks (v : Variable) :
    (optionChunks t descriptions v).filterMap Chunk.text? =
      ((descriptions v.name).map fun d => flagOf v ++ pad (helpColumn t) (flagOf v).length ++
        d).toList := by
  unfold optionChunks
  cases descriptions v.name <;> rfl

/-- The texts of the defaults are the defaults. -/
lemma texts_defaultsChunks :
    (defaultsChunks t defaults).filterMap Chunk.text? = t.variableNames.filterMap defaults := by
  have htexts :
      t.variableNames.filterMap defaults = (textsOf t defaults).filterMap fun e => some e.2 := by
    rw [textsOf, List.filterMap_filterMap]
    refine List.filterMap_congr fun n _ => ?_
    cases defaults n <;> rfl
  rw [htexts]
  unfold defaultsChunks
  cases textsOf t defaults with
  | nil => rfl
  | cons e es =>
    rw [List.filterMap_append, texts_flatMap (g := fun e => some e.2) fun e => rfl]
    rfl

/-- The texts of all chunks are those that the user gave. -/
lemma texts_chunks :
    (chunks lib name t path defaults descriptions).filterMap Chunk.text? =
      userTexts name t path defaults descriptions := by
  have hcode (text : String) : [Chunk.code text].filterMap Chunk.text? = [] := rfl
  have hecho (indent inside text : String) :
      (echoChunks indent inside text).filterMap Chunk.text? = [text] := rfl
  delta chunks argumentChunks helpChunks editingChunks userTexts
  simp only [List.filterMap_append, hcode, hecho, texts_flatMap texts_optionChunks,
    texts_defaultsChunks, List.nil_append, List.append_nil]
  simp only [List.append_assoc, List.singleton_append]

/-- The texts of a user stay between their quotes. A script is a row of chunks, in which the texts
of the user are those that it should have. Wherever one of them stands, the first quote behind it
that has no backslash is the quote that closes it, no dollar or backquote is expanded before that,
and it stands for the text that the user gave. -/
theorem quotes_close {source : String} (h : Template.parse source = .ok t) (lib : FilterLibrary)
    (name : String) (path : Option String) (defaults descriptions : String → Option String) :
    render (chunks lib name t path defaults descriptions) =
      compile lib name (t.annotate defaults descriptions) path ∧
      (chunks lib name t path defaults descriptions).filterMap Chunk.text? =
        userTexts name t path defaults descriptions ∧
      ∀ before inside text after,
        chunks lib name t path defaults descriptions = before ++ .quoted inside text :: after →
        scan (inside ++ "\x22" ++ render after).toList = some (text.toList, (render after).toList) ∧
          Quoted (scanned inside) (quotedChars (scanned text)) := by
  refine ⟨render_chunks, texts_chunks, fun before inside text after hchunks => ?_⟩
  have hspells : Spells inside text :=
    sound_chunks (Template.wellNamed_of_parse h).valid (.quoted inside text) (by rw [hchunks]; simp)
  refine ⟨?_, hspells.reads.quoted⟩
  rw [String.toList_append, String.toList_append, List.append_assoc]
  exact hspells.close _

/-- A name, a default and a description that try to leave their quotes, and a path that is not
escaped. -/
theorem quotes_close_hostile :
    let source := "\\\x22; $(rm x) \x7b\x7b a \x7d\x7d\\"
    let name := "\x22\nrm x\n\\"
    let path := some "$\x60\x22"
    let texts := fun n => if n = "a" then some "\\\x22\x7d\n\x60rm x\x60 $\x7bb\\" else none
    ∃ t, Template.parse source = .ok t ∧
      render (chunks {} name t path texts texts) = compile {} name (t.annotate texts texts) path ∧
      (chunks {} name t path texts texts).filterMap Chunk.text? =
        userTexts name t path texts texts ∧
      ∀ before inside text after,
        chunks {} name t path texts texts = before ++ .quoted inside text :: after →
        scan (inside ++ "\x22" ++ render after).toList = some (text.toList, (render after).toList) ∧
          Quoted (scanned inside) (quotedChars (scanned text)) := by
  intro source name path texts
  have h : Template.parse source = .ok
      { source
        skeleton := "\\\\\\\x22; \\$(rm x) $\x7ba\x7d\\\\"
        vars := [{ name := "a" }, { name := "name" }]
        chains := []
        usesName := false } := by decide +kernel
  exact ⟨_, h, quotes_close h {} name path texts texts⟩

end

end Script

end Stencil
