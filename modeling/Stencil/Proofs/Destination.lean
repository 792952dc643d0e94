import Stencil.Proofs.Assignment
import Stencil.Proofs.OutputPath
import Stencil.Proofs.Quotes

/-!
# Where a script writes

The path of the file stands in a script five times between double quotes, and in three of them the
name of the file is looked up. The path is put there as it is. If its directory and its extension
have no special characters, then each of these texts stands for what it should
(`Script.destination_literal`), and else it need not (`Script.destination_expanded`).
-/

namespace Stencil

open Shell

/-- Between double quotes the text stands for the other when the variable for the name of the file
holds `n`. The shell's own reader and its expansion agree. -/
structure Spliced (n inside text : String) : Prop where
  expands : ∀ env : String → String, env nameVariable = n → Quotation.expand env inside = some text
  reads : ∃ word, Quoted (scanned inside) word ∧
    ∀ w : World, w.vars.lookup nameVariable.toList = some (scanned n) →
    Joins w (word.length + 2) (.quote :: word) (scanned text)

namespace Spliced

/-- Text without special characters stands for itself. -/
lemma plain {n s : String} (h : ∀ c ∈ s.toList, Escape.isSpecial c = false) : Spliced n s s where
  expands env _ := by
    have := Quotation.expand_escape env s
    rwa [Escape.escape, Escape.escapeChars_of_plain h, String.ofList_toList] at this
  reads := by
    refine ⟨quotedChars (scanned s), (Quotation.Spells.plain h).reads.quoted, fun w _ => ?_⟩
    simpa [quotedChars] using Joins.quoted (w := w) (scanned s)

/-- The name stands where it is referred to. -/
lemma reference {n a b : String} (ha : ∀ c ∈ a.toList, Escape.isSpecial c = false)
    (hb : ∀ c ∈ b.toList, Escape.isSpecial c = false) :
    Spliced n (a ++ "$\x7bname\x7d" ++ b) (a ++ n ++ b) where
  expands env henv := by
    have hname : Name.faultOf nameVariable.toList = none := by decide
    have hread : Quotation.read (a ++ "$\x7bname\x7d" ++ b).toList =
        some (a.toList.map .char ++ .ref nameVariable.toList :: b.toList.map .char) := by
      have hrest : Quotation.read b.toList = some (b.toList.map .char) := by
        simpa [Escape.escapeChars_of_plain hb,
          Quotation.read] using Quotation.read_escapeChars_append b.toList []
      have hplain :=
        Quotation.read_escapeChars_append a.toList
          (['$', '{'] ++ nameVariable.toList ++ ['}'] ++ b.toList)
      rw [Escape.escapeChars_of_plain ha, Quotation.read_reference_append hname, hrest] at hplain
      simpa [String.toList_append, nameVariable] using hplain
    rw [Quotation.expand, hread, Option.map_some, List.flatMap_append, List.flatMap_cons,
      List.flatMap_map, List.flatMap_map]
    simp [Quotation.Piece.value, ← henv, ← String.toList_inj, String.toList_append]
  reads := by
    have hscanned : scanned "$\x7bname\x7d" = '$' :: '{' :: (nameVariable.toList ++ ['}']) :=
      scanned_literal rfl (by decide)
    have hinside := ((Quotation.Spells.plain ha).reads.append
      (Inside.reference (n := nameVariable.toList) (by decide))).append
        (Quotation.Spells.plain hb).reads
    rw [← hscanned, ← scanned_append, ← scanned_append] at hinside
    refine ⟨_, hinside.quoted, fun w hw => ?_⟩
    have h := Joins.of_expands (w := w) fun w' _ hvars =>
      (((Expands.chars (scanned b) true).variable (by decide) (hvars ▸ hw)).chars_append (scanned a)
        true).quote
    rw [← List.map_append, ← List.map_append, List.singleton_append, joinedText_quoted,
      ← List.append_assoc, ← scanned_append, ← scanned_append] at h
    simpa [quotedChars] using h

end Spliced

namespace Script

variable (lib : FilterLibrary) (name : String) (t : Template) (path : Option String) (n : String)

/-- The file that a script writes when its name is `n`. -/
def destination : String :=
  OutputPath.lead path ++ n ++ OutputPath.tail path

/-- The branch that prints the help text, cut at the path. -/
def helpSplices : List Chunk :=
  [.code ("    *)\n" ++ echo "      " (Escape.escape name ++ ":"))] ++
    echoChunks "      " ("generates file at " ++ OutputPath.forHelp path)
      ("generates file at " ++ OutputPath.substitute path "NAME") ++
    [.code (echo "      " "" ++ echo "      " "options:" ++
      echo "      " (option (helpColumn t) helpFlag "show brief help") ++
      echo "      " (option (helpColumn t) nameFlag "filename (without extension)") ++
      String.join ((t.vars.filter (·.name != nameVariable)).map (variableOption (helpColumn t))) ++
      "      exit 0\n      ;;\n")]

/-- The lines that make the directory. -/
def directorySplices : List Chunk :=
  match OutputPath.directory? path with
  | none => []
  | some d => [.code "  mkdir -p ", .quoted d d, .code "\n"]

/-- The lines that print the text or write it to the file, cut at the path. -/
def outputSplices : List Chunk :=
  let file := OutputPath.forScript path
  [.code ("\nout=\"" ++ t.skeleton ++ "\"\nif [ -t 1 ] ; then\n")] ++ directorySplices path ++
    [.code "\n  # check if file exists\n  if [ -f ", .quoted file (destination path n),
      .code (" ] ; then\n" ++
        "     read -r -p \"File already exists, overwrite? [y/N] \" response\n" ++
        "     case \"$response\" in\n       [yY][eE][sS]|[yY])\n         ;;\n       *)\n" ++
        "         echo \"Stopping\"\n         exit 1\n         ;;\n     esac\n  fi\n\n" ++
          "  echo \"$out\" > "),
      .quoted file (destination path n), .code "\n  echo ",
      .quoted ("created file at " ++ file) ("created file at " ++ destination path n),
      .code (";\nelse\n" ++ "  echo \"$out\"\nfi\n")]

/-- The script of a template, cut at the path of the file. -/
def splices : List Chunk :=
  [.code (preamble ++ guardOpen ++ declarations t ++
    "\n# parse arguments\nwhile test $# -gt 0; do\n  case \"$1\" in\n" ++
      String.join (t.vars.map optionBranch))] ++
    helpSplices name t path ++
      [.code ("  esac\ndone\n" ++ defaults t ++ checks t ++ filters lib t)] ++
    outputSplices t path n ++ [.code (guardClose ++ editing t path)]

variable {lib name t path n}

/-- The chunks of the help are written as the help. -/
lemma render_helpSplices : render (helpSplices name t path) = help name t path := by
  simp only [helpSplices, render_append, render_cons, render_nil, render_echoChunks, Chunk.written,
    help, String.append_assoc, String.append_empty]

/-- The chunks for the directory are written as these lines. -/
lemma render_directorySplices : render (directorySplices path) = makeDirectory path := by
  have hopen : "  mkdir -p \"" = "  mkdir -p " ++ "\"" := rfl
  have hclose : "\"\n" = "\"" ++ "\n" := rfl
  unfold directorySplices makeDirectory
  cases OutputPath.directory? path with
  | none => rfl
  | some d =>
    simp only [render_cons, render_nil, Chunk.written, hopen, hclose, String.append_assoc,
      String.append_empty]

/-- The chunks of the output are written as the output. -/
lemma render_outputSplices : render (outputSplices t path n) = output t path := by
  -- The literals of the section are cut at the quotes.
  have htest : "\n  # check if file exists\n  if [ -f \"" =
      "\n  # check if file exists\n  if [ -f " ++ "\"" := rfl
  have hthen : "\" ] ; then\n" = "\"" ++ " ] ; then\n" := rfl
  have hwrite : "  echo \"$out\" > \"" = "  echo \"$out\" > " ++ "\"" := rfl
  have hcreated :
      "\"\n  echo \"created file at " = "\"" ++ ("\n  echo " ++ ("\"" ++ "created file at ")) := rfl
  have helse : "\";\nelse\n" = "\"" ++ ";\nelse\n" := rfl
  delta outputSplices output
  simp only [render_append, render_cons, render_nil, render_directorySplices, Chunk.written, htest,
    hthen, hwrite, hcreated, helse, String.append_assoc, String.append_empty]

/-- Cut at the path, a script is the script. -/
lemma render_splices : render (splices lib name t path n) = compile lib name t path := by
  delta splices compile arguments
  simp only [render_append, render_cons, render_nil, render_helpSplices, render_outputSplices,
    Chunk.written, String.append_assoc, String.append_empty]

/-- The texts of all chunks are those that tell the destination. -/
lemma texts_splices :
    (splices lib name t path n).filterMap Chunk.text? =
      ["generates file at " ++ OutputPath.substitute path "NAME"] ++
        (OutputPath.directory? path).toList ++
        [destination path n, destination path n, "created file at " ++ destination path n] := by
  have hdirectory :
      (directorySplices path).filterMap Chunk.text? = (OutputPath.directory? path).toList := by
    unfold directorySplices
    cases OutputPath.directory? path <;> rfl
  have hcode (text : String) : [Chunk.code text].filterMap Chunk.text? = [] := rfl
  have hecho (indent inside text : String) :
      (echoChunks indent inside text).filterMap Chunk.text? = [text] := rfl
  delta splices helpSplices outputSplices
  simp only [List.filterMap_append, hcode, hecho, hdirectory, List.nil_append, List.append_nil]
  rfl

/-- Every text with the path stands for what it should. -/
lemma spliced_of_mem (h : OutputPath.Plain path) {inside text : String}
    (hmem : .quoted inside text ∈ splices lib name t path n) : Spliced n inside text := by
  have hliteral {s : String} (hs : s.toList.all (Escape.isSpecial · = false) = true) :
      ∀ c ∈ s.toList, Escape.isSpecial c = false := List.all_iff_forall_prop.mp hs
  have happend {s u : String} (hs : ∀ c ∈ s.toList, Escape.isSpecial c = false)
      (hu : ∀ c ∈ u.toList, Escape.isSpecial c = false) : ∀ c ∈ (s ++ u).toList,
        Escape.isSpecial c = false := by
    intro c hc
    rw [String.toList_append] at hc
    exact (List.mem_append.mp hc).elim (hs c) (hu c)
  have hfile :
      OutputPath.forScript path = OutputPath.lead path ++ "$\x7bname\x7d" ++ OutputPath.tail path :=
    OutputPath.substitute_eq (.inl (by decide))
  have hhelp : ∀ c ∈ (OutputPath.forHelp path).toList, Escape.isSpecial c = false := by
    rw [OutputPath.forHelp, OutputPath.substitute_eq (.inl (by decide))]
    exact happend (happend h.lead (hliteral (by decide))) h.tail
  have hdirectory : .quoted inside text ∈ directorySplices path → Spliced n inside text := by
    unfold directorySplices
    cases hd : OutputPath.directory? path with
    | none => simp
    | some d =>
      simp only [List.mem_cons, Chunk.quoted.injEq, reduceCtorEq, List.not_mem_nil, or_false,
        false_or]
      rintro ⟨rfl, rfl⟩
      exact .plain (h.directory? hd)
  simp only [splices, helpSplices, outputSplices, echoChunks, List.mem_append, List.mem_cons,
    Chunk.quoted.injEq, reduceCtorEq, List.not_mem_nil, or_false, false_or] at hmem
  rcases hmem with ⟨rfl, rfl⟩ | hmem | ⟨rfl, rfl⟩ | ⟨rfl, rfl⟩ | ⟨rfl, rfl⟩
  · exact .plain (happend (hliteral (by decide)) hhelp)
  · exact hdirectory hmem
  · rw [hfile, destination]
    exact .reference h.lead h.tail
  · rw [hfile, destination]
    exact .reference h.lead h.tail
  · rw [hfile, destination, ← String.append_assoc, ← String.append_assoc, ← String.append_assoc,
      ← String.append_assoc]
    exact .reference (happend (hliteral (by decide)) h.lead) h.tail

/-- The path of the file is taken literally where it has no special characters. Cut at the path, a
script has five texts, or four if there is no directory to make. Each of them stands for the path of
the help text, for the directory or for the file. That is the default path with its name replaced,
but a name that starts with a slash stays below the directory. -/
theorem destination_literal (lib : FilterLibrary) (name : String) (t : Template)
    {path : Option String} (h : OutputPath.Plain path) (n : String) :
    render (splices lib name t path n) = compile lib name t path ∧
      (splices lib name t path n).filterMap Chunk.text? =
        ["generates file at " ++ OutputPath.substitute path "NAME"] ++
          (OutputPath.directory? path).toList ++
          [destination path n, destination path n, "created file at " ++ destination path n] ∧
      (∀ inside text, .quoted inside text ∈ splices lib name t path n → Spliced n inside text) ∧
      (n.toList.head? ≠ some '/' ∨ OutputPath.directory? path = none →
        destination path n = OutputPath.substitute path n) :=
  ⟨render_splices, texts_splices, fun _ _ => spliced_of_mem h,
    fun hn => (OutputPath.substitute_eq hn).symm⟩

/-- A dollar in the part of the path that is replaced does no harm, nor do blanks, a quote in the
name or dots. -/
theorem destination_literal_of_dollar_stem :
    let path := some "./a b/$x.tar.gz"
    let n := "c\x22d"
    let t : Template :=
      { source := "", skeleton := "", vars := [{ name := "name" }], chains := [],
        usesName := false }
    OutputPath.Plain path ∧ destination path n = "./a b/c\x22d.gz" ∧
      (∀ inside text, .quoted inside text ∈ splices {} "t" t path n → Spliced n inside text) ∧
      destination path n = OutputPath.substitute path n := by
  intro path n t
  have hpath : OutputPath.Plain path := by decide +kernel
  obtain ⟨-, -, hspliced, hsame⟩ := destination_literal {} "t" t hpath n
  exact ⟨hpath, by decide +kernel, hspliced, hsame (by decide)⟩

/-- A dollar in the directory is expanded, and a quote there ends the text. And a name that starts
with a slash stays below the directory. -/
theorem destination_expanded :
    let env := fun v => if v = "HOME" then "/root" else "x"
    Quotation.expand env (OutputPath.forScript (some "$\x7bHOME\x7d/a.rs")) = some "/root/x.rs" ∧
      OutputPath.substitute (some "$\x7bHOME\x7d/a.rs") "x" = "$\x7bHOME\x7d/x.rs" ∧
      Quotation.expand env (OutputPath.forScript (some "a\x22b/c.rs")) = none ∧
      Quotation.expand (fun _ => "/b") (OutputPath.forScript (some "a/x.rs")) = some "a//b.rs" ∧
      OutputPath.substitute (some "a/x.rs") "/b" = "/b.rs" := by
  decide +kernel

end Script

end Stencil
