import Mathlib.Data.List.Forall2
import Mathlib.Order.Bounds.Basic
import Stencil.Proofs.Text
import Stencil.Script

/-!
# The help text

The help text of a script lists the options: a flag on each line and, if there is something to say
about it, a text behind it. `Script.helpRows` says which lines these are, and `Script.PrintsRow`
what a line looks like whose text starts at a given column. The column of a script leaves five
blanks behind the longest flag (`Script.helpColumn_le_iff`), so all texts start there, and they
could not start earlier (`Script.help_aligned`).
-/

namespace Stencil

/-- Names are written with as many capitals. -/
lemma Text.length_upper {n : String} (h : Name.Valid n) : (Text.upper n).length = n.length := by
  have hchar : ∀ c ∈ n.toList, Text.upperChar c = [c.toUpper] := by
    intro c hc
    have hrange := Name.isPart_iff.mp (Name.isPart_of_mem h hc)
    exact if_pos (by omega)
  rw [Text.upper, List.flatMap_congr hchar, ← List.map_eq_flatMap, String.length_ofList,
    List.length_map, String.length_toList]

namespace Script

variable {t : Template} {column : Nat}

/-! ## What is listed -/

/-- The options in the order of their lines: a flag and what is said about it. The variable that
names the file has a line of its own before those of the others. -/
def helpRows (t : Template) : List (String × Option String) :=
  ("-h, --help", some "show brief help") :: ("--name NAME", some "filename (without extension)") ::
    (t.vars.filter (·.name != nameVariable)).map fun v =>
      ("--" ++ v.name ++ " " ++ Text.upper v.name, v.description)

/-- The line prints the flag. What is said about it starts at the column, counted from the quote
that opens the text, with nothing but blanks between them. -/
inductive PrintsRow (column : Nat) : String × Option String → String → Prop
  | flag (flag : String) : PrintsRow column (flag, none) ("      echo \"" ++ flag ++ "\"\n")
  | text (flag gap text : String) : (∀ c ∈ gap.toList, c = ' ') → (flag ++ gap).length = column →
      PrintsRow column (flag, some text) ("      echo \"" ++ (flag ++ gap ++ text) ++ "\"\n")

/-- A printed line stands between double quotes. -/
lemma echo_eq (quoted : String) : echo "      " quoted = "      echo \"" ++ quoted ++ "\"\n" := by
  simp only [echo, String.reduceAppend]

/-- The line of an option prints its row. -/
lemma printsRow_option {flag : String} (h : flag.length ≤ column) (text : String) :
    PrintsRow column (flag, some text) (echo "      " (option column flag text)) := by
  rw [echo_eq, option]
  refine .text flag (pad column flag.length) text (fun c hc => ?_) ?_
  · rw [pad, String.toList_ofList] at hc
    exact List.eq_of_mem_replicate hc
  · rw [pad, String.length_append, String.length_ofList, List.length_replicate]
    omega

/-- The line of a variable prints its row. -/
lemma printsRow_variable {v : Variable} (h : (flagOf v).length ≤ column) :
    PrintsRow column (flagOf v, v.description) (variableOption column v) := by
  unfold variableOption
  cases v.description with
  | none =>
    rw [echo_eq]
    exact .flag (flagOf v)
  | some d => exact printsRow_option h d

/-! ## The column -/

/-- The flag of a variable has its name twice. -/
lemma length_flagOf {v : Variable} (h : Name.Valid v.name) :
    (flagOf v).length = 2 * v.name.length + 3 := by
  rw [flagOf, String.length_append, String.length_append, String.length_append, Text.length_upper h,
    show "--".length = 2 from rfl, show " ".length = 1 from rfl]
  omega

/-- The largest of some numbers is at most a bound exactly if all are. -/
lemma foldl_max_le_iff {ns : List Nat} {n k : Nat} :
    ns.foldl max n ≤ k ↔ n ≤ k ∧ ∀ m ∈ ns, m ≤ k := by
  induction ns generalizing n with
  | nil => simp
  | cons m ns ih =>
    rw [List.foldl_cons, ih, Nat.max_le, List.forall_mem_cons, and_assoc]

/-- The rows of the help are those for the help itself, the name and the other variables. -/
lemma forall_mem_helpRows {P : String × Option String → Prop} : (∀ row ∈ helpRows t, P row) ↔
    P (helpFlag, some "show brief help") ∧ P (nameFlag, some "filename (without extension)") ∧
      ∀ v ∈ t.vars, v.name ≠ nameVariable → P (flagOf v, v.description) := by
  rw [helpRows, List.forall_mem_cons, List.forall_mem_cons, List.forall_mem_map]
  simp only [List.mem_filter, bne_iff_ne, and_imp]
  rfl

/-- The column leaves five blanks behind the longest flag. -/
lemma helpColumn_le_iff (hvalid : ∀ v ∈ t.vars, Name.Valid v.name) {k : Nat} :
    helpColumn t ≤ k ↔ ∀ row ∈ helpRows t, row.1.length + 5 ≤ k := by
  have hwidest (m : Nat) : (t.vars.map fun v => 2 * v.name.length + 3).foldl max 0 ≤ m ↔
      ∀ v ∈ t.vars, 2 * v.name.length + 3 ≤ m := by
    rw [foldl_max_le_iff, List.forall_mem_map]
    exact and_iff_right (Nat.zero_le m)
  have hhelp : helpFlag.length = 10 := rfl
  have hname : nameFlag.length = 11 := rfl
  rw [forall_mem_helpRows]
  unfold helpColumn
  dsimp only
  rw [hhelp, hname]
  constructor
  · intro h
    refine ⟨by omega, by omega, fun v hv _ => ?_⟩
    have hwide := (hwidest (k - 5)).mp (by omega) v hv
    rw [length_flagOf (hvalid v hv)]
    omega
  · rintro ⟨-, hfile, hvars⟩
    have hwide := (hwidest (k - 5)).mpr fun v hv => by
      by_cases hn : v.name = nameVariable
      · -- its flag is the one that has a line of its own
        rw [hn, show nameVariable.length = 4 from rfl]
        omega
      · have hflag := hvars v hv hn
        rw [length_flagOf (hvalid v hv)] at hflag
        omega
    omega

/-! ## The text -/

/-- The lines of the help text before the options. -/
def helpIntro (name : String) (path : Option String) : String :=
  "    *)\n" ++ echo "      " (Escape.escape name ++ ":") ++
    echo "      " ("generates file at " ++ OutputPath.forHelp path) ++ echo "      " "" ++
      echo "      " "options:"

/-- The lines of the options. -/
def helpLines (t : Template) : List String :=
  echo "      " (option (helpColumn t) helpFlag "show brief help") ::
    echo "      " (option (helpColumn t) nameFlag "filename (without extension)") ::
      (t.vars.filter (·.name != nameVariable)).map (variableOption (helpColumn t))

/-- The help is an introduction, its rows and an exit. -/
lemma help_eq (name : String) (t : Template) (path : Option String) :
    help name t path =
      helpIntro name path ++ String.join (helpLines t) ++ "      exit 0\n      ;;\n" := by
  delta help helpIntro helpLines
  simp only [String.join_cons, String.append_assoc]

/-- The lines of the help print its rows. -/
lemma printsRow_helpLines (hvalid : ∀ v ∈ t.vars, Name.Valid v.name) :
    List.Forall₂ (PrintsRow (helpColumn t)) (helpRows t) (helpLines t) := by
  have hfits : ∀ row ∈ helpRows t, row.1.length ≤ helpColumn t := fun row hrow =>
    Nat.le_of_add_right_le ((helpColumn_le_iff hvalid).mp (Nat.le_refl _) row hrow)
  obtain ⟨hhelp, hname, hvars⟩ := forall_mem_helpRows.mp hfits
  apply List.Forall₂.cons (printsRow_option hhelp _)
  apply List.Forall₂.cons (printsRow_option hname _)
  rw [List.forall₂_map_left_iff, List.forall₂_map_right_iff, List.forall₂_same]
  intro v hv
  obtain ⟨hmem, hn⟩ := List.mem_filter.mp hv
  exact printsRow_variable (hvars v hmem (bne_iff_ne.mp hn))

/-- The help text stands in the loop over the arguments. -/
lemma exists_compile_help (lib : FilterLibrary) (name : String) (t : Template)
    (path : Option String) :
    ∃ before after, compile lib name t path = before ++ help name t path ++ after := by
  refine ⟨preamble ++ guardOpen ++ declarations t ++
      ("\n# parse arguments\nwhile test $# -gt 0; do\n  case \"$1\" in\n" ++
        String.join (t.vars.map optionBranch)),
    "  esac\ndone\n" ++ defaults t ++ checks t ++ filters lib t ++ output t path ++ guardClose ++
      editing t path, ?_⟩
  delta compile arguments
  simp only [String.append_assoc]

/-- If its variables have valid names, the help text of a template has a line for each option, and
what is said about the options starts at one column. This is the first column that leaves at least
five blanks behind every flag. -/
theorem help_aligned (hvalid : ∀ v ∈ t.vars, Name.Valid v.name) (lib : FilterLibrary)
    (name : String) (path : Option String) :
    ∃ column lines, List.Forall₂ (PrintsRow column) (helpRows t) lines ∧
      IsLeast {k | ∀ row ∈ helpRows t, row.1.length + 5 ≤ k} column ∧
      help name t path = helpIntro name path ++ String.join lines ++ "      exit 0\n      ;;\n" ∧
      ∃ before after, compile lib name t path = before ++ help name t path ++ after := by
  refine ⟨helpColumn t, helpLines t, printsRow_helpLines hvalid, ⟨?_, ?_⟩, help_eq name t path, ?_⟩
  · exact (helpColumn_le_iff hvalid).mp (Nat.le_refl _)
  · exact fun k hk => (helpColumn_le_iff hvalid).mpr hk
  · exact exists_compile_help lib name t path

/-- A long name without a description moves the descriptions of the others. -/
theorem help_aligned_of_long_name :
    let t : Template :=
      { source := "", skeleton := "", chains := [], usesName := false
        vars :=
          [{ name := "a", description := some "say \\\"a\\\"" }, { name := "a_long_variable" },
          { name := "name", description := some "a file" }] }
    (∀ v ∈ t.vars, Name.Valid v.name) ∧
      ∃ lines, List.Forall₂ (PrintsRow 38) (helpRows t) lines ∧
        help "t" t none =
          helpIntro "t" none ++ String.join lines ++ "      exit 0\n      ;;\n" := by
  intro t
  have hvalid : ∀ v ∈ t.vars, Name.Valid v.name := by decide
  obtain ⟨column, lines, hrows, ⟨hpast, hleast⟩, hhelp, -⟩ := help_aligned hvalid {} "t" none
  have hfits : ∀ row ∈ helpRows t, row.1.length + 5 ≤ 38 := by decide +kernel
  have hlong : ("--a_long_variable A_LONG_VARIABLE", none) ∈ helpRows t := by decide +kernel
  obtain rfl : column = 38 := Nat.le_antisymm (hleast hfits) (hpast _ hlong)
  exact ⟨hvalid, lines, hrows, hhelp⟩

end Script

end Stencil
