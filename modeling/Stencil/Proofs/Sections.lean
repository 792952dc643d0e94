import Stencil.Proofs.Shell.Layout
import Stencil.Proofs.Skeleton
import Stencil.Proofs.Utf8
import Stencil.Script

/-!
# Reading the sections of a script

What the shell's reader makes of the script of a template.
-/

namespace Stencil

namespace Shell

/-- A name of a template is a name of the shell. -/
lemma isName_of_valid {n : String} (h : Name.Valid n) : isName n.toList = true := by
  obtain ⟨c, cs, hcs, hc, hall, -⟩ := Name.faultOf_eq_none.mp h
  rw [hcs, isName, Bool.and_eq_true]
  exact ⟨hc, hall⟩

/-- The shell sees a name as it is written. -/
lemma scanned_of_valid {n : String} (h : Name.Valid n) : scanned n = n.toList := by
  have hzero : '\x00' ∉ n.toList := fun hmem => absurd (Name.isPart_of_mem h hmem) (by decide)
  rw [scanned_eq_raw hzero]
  refine raw_ascii fun c hc => ?_
  have := Name.isPart_iff.mp (Name.isPart_of_mem h hc)
  omega

/-- A character without quotes adds itself to the plain text of a word. -/
lemma plainText?_char (c : Char) (w : Word) :
    plainText? (.char c false :: w) = (plainText? w).map (c :: ·) := by
  rw [plainText?, List.mapM_cons, Option.map_eq_bind]
  rfl

/-- The plain text of a word has all its characters without quotes. -/
lemma mem_of_plainText? {w : Word} {cs : List Char} {c : Char} (h : plainText? w = some cs)
    (hc : .char c false ∈ w) : c ∈ cs := by
  induction w generalizing cs with
  | nil => cases hc
  | cons p w ih =>
    rcases List.mem_cons.mp hc with rfl | hmem
    · rw [plainText?_char, Option.map_eq_some_iff] at h
      obtain ⟨ds, -, rfl⟩ := h
      exact List.mem_cons_self
    · cases p with
      | char d q =>
        cases q with
        | false =>
          rw [plainText?_char, Option.map_eq_some_iff] at h
          obtain ⟨ds, hds, rfl⟩ := h
          exact List.mem_cons_of_mem d (ih hds hmem)
        | true => cases h
      | _ => cases h

/-- A word with an equals sign outside of quotes is not reserved. -/
lemma free_assign {n cs : List Char} {W : Word → Prop} (hn : isName n = true) (h : Ending cs W) :
    Free (Phrase.assign hn h).means := by
  rintro w ⟨v, -, rfl⟩
  unfold Lexeme.tokenOf
  split
  · rename_i ds hds
    have hmem : '=' ∈ ds := mem_of_plainText? hds (by simp)
    have hres : reservedWords.contains (String.ofList ds) = false := by
      rw [List.contains_eq_mem, decide_eq_false_iff_not]
      intro hw
      have hno : ∀ w ∈ reservedWords, '=' ∉ w.toList := by decide
      exact hno _ hw (by simpa using hmem)
    rw [hres, if_neg (by decide)]
  · rfl

/-- Words can be gathered, whatever they are. -/
lemma gathers_words (q : Simple) (ps : List Phrase) :
    q.Gathers (fun _ => True) (ps.map Phrase.lexeme) := by
  induction ps generalizing q with
  | nil => trivial
  | cons p ps ih => exact fun w _ => ih (q.add w)

/-- Words that do not start with a reserved one are a command. -/
lemma CommandText.words (p : Phrase) (ps : List Phrase) (hp : Free p.means) :
    CommandText (line p ps) fun _ => True :=
  (CommandText.simple hp (gathers_words {} (p :: ps))).mono fun _ _ => trivial

/-- A name before an equals sign is what is assigned to. -/
lemma assignment?_assign {n : List Char} (hn : isName n = true) (v : Word) :
    assignment? (plainWord n ++ .char '=' false :: v) = some (n, v) := by
  have hall : ∀ c ∈ n, isNameChar c = true := by
    obtain ⟨_, _, rfl, -, hall⟩ := exists_of_isName hn
    exact hall
  rw [assignment?_append hall _ (by rintro _ ⟨⟩; decide)]
  exact if_pos hn

/-- A name with a value behind it makes an assignment. -/
lemma CommandText.assign {n cs : List Char} {W : Word → Prop} (hn : isName n = true)
    (h : Ending cs W) :
    CommandText (n ++ '=' :: cs) fun c => ∃ k v, W v ∧ c = .simple k [(n, v)] [] [] := by
  have hgathers : Simple.Gathers {} (fun q => ∃ v, W v ∧ q = { assignments := [(n, v)] })
      [(Phrase.assign hn h).lexeme] := by
    rintro _ ⟨v, hv, rfl⟩
    refine ⟨v, hv, ?_⟩
    show Simple.add {} _ = _
    simp [Simple.add, assignment?_assign hn]
  have hcommand : CommandText (line (.assign hn h) []) _ := .simple (free_assign hn h) hgathers
  refine hcommand.mono ?_
  rintro _ ⟨k, _, ⟨v, hv, rfl⟩, rfl⟩
  exact ⟨k, v, hv, rfl⟩

/-- Words behind others are taken as they are. -/
lemma gathers_behind {q : Simple} (hq : q.words ≠ []) {R : Simple → Prop} (ps : List Phrase)
    (hR : ∀ ws, List.Forall₂ Phrase.means ps ws → R { q with words := q.words ++ ws }) :
    q.Gathers R (ps.map Phrase.lexeme) := by
  induction ps generalizing q with
  | nil =>
    have h := hR [] .nil
    rwa [List.append_nil] at h
  | cons p ps ih =>
    intro w hw
    have hadd : q.add w = { q with words := q.words ++ [w] } := by
      rw [Simple.add, if_neg (by simpa using hq)]
    rw [hadd]
    refine ih (by simp) fun ws hws => ?_
    simpa using hR (w :: ws) (.cons hw hws)

/-- Words that start with one that is not reserved and assigns nothing are a call. -/
lemma CommandText.call {p : Phrase} (ps : List Phrase) (hp : Free p.means)
    (hname : ∀ w, p.means w → assignment? w = none) :
    CommandText (line p ps) fun c =>
      ∃ k ws, List.Forall₂ Phrase.means (p :: ps) ws ∧ c = .simple k [] ws [] := by
  have hgathers : Simple.Gathers {}
      (fun q => ∃ ws, List.Forall₂ Phrase.means (p :: ps) ws ∧ q = { words := ws })
      ((p :: ps).map Phrase.lexeme) := by
    intro w hw
    have hadd : Simple.add {} w = { words := [w] } := by
      simp [Simple.add, hname w hw]
    rw [hadd]
    exact gathers_behind (by simp) ps fun ws hws => ⟨w :: ws, .cons hw hws, rfl⟩
  refine (CommandText.simple hp hgathers).mono ?_
  rintro _ ⟨k, _, ⟨ws, hws, rfl⟩, rfl⟩
  exact ⟨k, ws, hws, rfl⟩

/-- No character of a name is special in double quotes. -/
lemma isSpecial_of_mem_name {n : String} (hn : Name.Valid n) {c : Char} (hc : c ∈ n.toList) :
    Escape.isSpecial c = false := by
  cases hspecial : Escape.isSpecial c with
  | false => rfl
  | true =>
    simp only [Escape.isSpecial, Bool.or_eq_true, beq_iff_eq] at hspecial
    have hne {d : Char} := Name.ne_of_isPart (d := d) (Name.isPart_of_mem hn hc)
    refine absurd hspecial ?_
    simp [hne (show Name.isPart '\x22' = false by decide),
      hne (show Name.isPart '$' = false by decide),
      hne (show Name.isPart '\x60' = false by decide),
      hne (show Name.isPart '\\' = false by decide)]

/-- No character of a name in upper case is special in double quotes. -/
lemma isSpecial_of_mem_upper {n : String} (hn : Name.Valid n) {c : Char}
    (hc : c ∈ (Text.upper n).toList) :
    Escape.isSpecial c = false := by
  rw [Text.upper, String.toList_ofList, List.mem_flatMap] at hc
  obtain ⟨d, hd, hc⟩ := hc
  have hpart := Name.isPart_of_mem hn hd
  have hd : d.toNat < 0x80 := by
    have := Name.isPart_iff.mp hpart
    omega
  have hall : ∀ n < 0x80, Name.isPart (Char.ofNat n) = true →
      Escape.isSpecial (Char.ofNat n).toUpper = false := by
    decide
  simp only [Text.upperChar, hd, if_true, List.mem_singleton] at hc
  rw [hc, ← Char.ofNat_toNat d]
  exact hall d.toNat hd (by rwa [Char.ofNat_toNat])

/-- The text can stand between double quotes. -/
def Quotable (s : String) : Prop :=
  ∃ v, Inside (scanned s) v

namespace Quotable

variable {s t : String}

/-- Texts that may stand in double quotes may do so one after the other. -/
lemma append (hs : Quotable s) (ht : Quotable t) : Quotable (s ++ t) := by
  obtain ⟨v, hv⟩ := hs
  obtain ⟨w, hw⟩ := ht
  refine ⟨v ++ w, ?_⟩
  rw [scanned_append]
  exact hv.append hw

/-- Text without special characters means nothing in particular. -/
lemma plain (h : ∀ c ∈ s.toList, Escape.isSpecial c = false) : Quotable s := by
  refine ⟨_, Inside.plain fun c hc => ?_⟩
  cases hspecial : Escape.isSpecial c with
  | false => rfl
  | true =>
    rcases mem_scanned hc with hmem | hbig
    · rw [h c hmem] at hspecial
      cases hspecial
    · have := ascii_of_isSpecial hspecial
      omega

/-- A text without special characters may stand in double quotes. -/
lemma literal {cs : List Char} (hs : s = String.ofList cs)
    (h : cs.all (fun c => !Escape.isSpecial c) = true) :
    Quotable s := by
  refine plain ?_
  rw [hs, String.toList_ofList]
  simpa using h

/-- A name may stand in double quotes. -/
lemma name (h : Name.Valid s) : Quotable s :=
  plain fun _ => isSpecial_of_mem_name h

/-- An escaped text may stand in double quotes. -/
lemma escape (s : String) : Quotable (Escape.escape s) := by
  refine ⟨quotedChars (scanned s), ?_⟩
  rw [scanned_escape]
  exact Inside.escaped (scanned s)

/-- A name in upper case may stand in double quotes. -/
lemma upper {n : String} (hn : Name.Valid n) : Quotable (Text.upper n) :=
  plain fun _ => isSpecial_of_mem_upper hn

end Quotable

/-! ## Sections -/

/-- The lines read as some row of commands. -/
def Readable (canEnd : Bool) (text : List Char) : Prop :=
  RowsText canEnd text fun _ => True

namespace Readable

variable {canEnd : Bool} {text t : List Char}

/-- The end of a script can be read. -/
lemma nil : Readable true [] :=
  RowsText.nil.mono fun _ _ => trivial

/-- A line with a list. -/
lemma line {P : Command → Prop} (h : ListText t P) (hrows : Readable true text) :
    Readable canEnd (t ++ '\n' :: text) :=
  (RowsText.cons h hrows).mono fun _ _ => trivial

end Readable

/-- Lines can be put before the texts that satisfy `R`, whose first argument tells whether the text
may be without a command. -/
structure Lays (R : Bool → List Char → Prop) : Prop where
  empty : ∀ {e : Bool} {text : List Char}, R e text → R e ('\n' :: text)
  comment : ∀ {e : Bool} {text : List Char} (k : Nat) (cs : List Char), '\n' ∉ cs → R e text →
    R e (List.replicate k ' ' ++ '#' :: (cs ++ '\n' :: text))
  line : ∀ {e : Bool} {t text : List Char} {P : Command → Prop}, ListText t P → R true text →
    R e (t ++ '\n' :: text)
  semicolon : ∀ {e : Bool} {t text : List Char} {P : Command → Prop}, ListText t P → R true text →
    R e (t ++ ';' :: '\n' :: text)

/-- Lines can be put before a text that can be read. -/
lemma lays_readable : Lays Readable where
  empty := RowsText.empty
  comment := RowsText.comment
  line := Readable.line
  semicolon h hrows := (RowsText.cons_semicolon h hrows).mono fun _ _ => trivial

/-- The text is lines before others. -/
def Section (s : String) : Prop :=
  ∀ ⦃R : Bool → List Char → Prop⦄, Lays R → ∀ ⦃text : List Char⦄, (∀ e, R e text) →
    ∀ e, R e (scanned s ++ text)

/-- The text is lines before others, and there is a command in them. -/
def FullSection (s : String) : Prop :=
  ∀ ⦃R : Bool → List Char → Prop⦄, Lays R → ∀ ⦃text : List Char⦄, R true text →
    ∀ e, R e (scanned s ++ text)

namespace Section

variable {s t : String}

/-- No text is a section. -/
lemma empty : Section "" :=
  fun _ _ _ h => h

/-- Sections can stand one after the other. -/
lemma append (hs : Section s) (ht : Section t) : Section (s ++ t) := by
  intro R hR text h e
  rw [scanned_append, List.append_assoc]
  exact hs hR (ht hR h) e

/-- A section before a full one makes a full one. -/
lemma append_full (hs : Section s) (ht : FullSection t) : FullSection (s ++ t) := by
  intro R hR text h e
  rw [scanned_append, List.append_assoc]
  exact hs hR (ht hR h) e

/-- A row of sections is a section. -/
lemma join {ss : List String} (h : ∀ s ∈ ss, Section s) : Section (String.join ss) := by
  induction ss with
  | nil => exact empty
  | cons s ss ih =>
    rw [String.join_cons]
    exact (h s (by simp)).append (ih fun t ht => h t (by simp [ht]))

/-- A comment behind an empty line. -/
lemma heading {cs : List Char} (hs : s = String.ofList ('\n' :: '#' :: cs))
    (hcs : (cs.all (fun c => 0 < c.toNat && c.toNat < 0x80) && !cs.dropLast.contains '\n' &&
      cs.getLast? == some '\n') = true) :
    Section s := by
  intro R hR text htext e
  simp only [Bool.and_eq_true, Bool.not_eq_true', List.contains_eq_mem, decide_eq_false_iff_not,
    beq_iff_eq] at hcs
  obtain ⟨⟨hascii, hno⟩, hlast⟩ := hcs
  have hsplit : cs = cs.dropLast ++ ['\n'] := (List.dropLast_append_getLast? _ hlast).symm
  have hscanned : scanned s = '\n' :: '#' :: cs := scanned_literal hs (by simpa using hascii)
  rw [hscanned, hsplit, List.cons_append, List.cons_append, List.append_assoc]
  exact hR.empty (hR.comment 0 _ hno (htext e))

end Section

namespace FullSection

variable {s : String}

/-- A full section is a section. -/
lemma toSection (h : FullSection s) : Section s :=
  fun _ hR _ ht => h hR (ht true)

/-- A line with a list. -/
lemma line {t : List Char} {P : Command → Prop} (h : ListText t P) (hs : scanned s = t ++ ['\n']) :
    FullSection s := by
  intro R hR text htext e
  rw [hs, List.append_assoc]
  exact hR.line h htext

/-- A line with a list, behind an empty line and a comment. -/
lemma headed {t : List Char} {P : Command → Prop} (cs : List Char) (hcs : '\n' ∉ cs)
    (h : ListText t P) (hs : scanned s = '\n' :: '#' :: (cs ++ '\n' :: (t ++ ['\n']))) :
    FullSection s := by
  intro R hR text htext e
  rw [hs]
  simp only [List.cons_append, List.append_assoc, List.nil_append]
  exact hR.empty (hR.comment 0 cs hcs (hR.line h htext))

end FullSection

end Shell

namespace Script

open Shell

/-! ## Declarations, defaults and checks -/

/-- The line that declares a variable is a section of its own. -/
lemma section_declaration {n : String} (hn : Name.Valid n) : FullSection (n ++ "=''\n") := by
  refine .line (CommandText.words (.assign (isName_of_valid hn) (Phrase.apostrophes []).ending) []
    (free_assign _ _)).list ?_
  simp (disch := first | with_reducible rfl | decide) only [scanned_append, scanned_literal,
    scanned_of_valid hn, Shell.line, Phrase.text_assign, Phrase.text_apostrophes, List.append_assoc,
    List.cons_append, List.nil_append]

/-- The declarations of a template are a section. -/
lemma section_declarations {t : Template} (h : ∀ v ∈ t.vars, Name.Valid v.name) :
    Section (declarations t) := by
  refine (Section.heading rfl (by decide)).append (.join ?_)
  simp only [List.mem_map]
  rintro _ ⟨v, hv, rfl⟩
  exact (section_declaration (h v hv)).toSection

/-- The line that gives a variable its default is a section of its own. -/
lemma section_default {n d : String} (hn : Name.Valid n) (hd : Quotable d) :
    FullSection (n ++ "=$\x7b" ++ n ++ ":-\"" ++ d ++ "\"\x7d\n") := by
  obtain ⟨v, hv⟩ := hd
  have hname := isName_of_valid hn
  have hdefault := Shell.Ending.default (Q := fun _ => True) hname hv.quoted (.nil trivial)
  refine .line (CommandText.words (.assign hname hdefault) [] (free_assign _ _)).list ?_
  simp (disch := first | with_reducible rfl | decide) only [scanned_append, scanned_literal,
    scanned_of_valid hn, Shell.line, Phrase.text_assign, List.append_assoc, List.cons_append,
    List.nil_append]

/-- A command that prints what stands between double quotes. -/
lemma commandText_echo {cs : List Char} {v : Word} (h : Quoted cs v) :
    CommandText (Shell.line (.plain "echo") [.quoted h]) fun _ => True :=
  CommandText.words _ _ (free_plain (by decide))

/-- An `exit` with a word is a command. -/
lemma commandText_exit (w : String) (hw : Phrase.isPlain w.toList = true) :
    CommandText (Shell.line (.plain "exit") [.plain w hw]) fun _ => True :=
  CommandText.words _ _ (free_plain (by decide))

/-- A test in brackets. -/
lemma commandText_test (ps : List Phrase) :
    CommandText (Shell.line (.plain "[") ps) fun _ => True :=
  CommandText.words _ _ (free_plain (by decide))

/-- The check of a variable is a section, whatever command its condition is. -/
lemma section_check {n condition : String} {t : List Char} {P : Command → Prop} (hn : Name.Valid n)
    (ht : ListText t P) (hs : scanned ("[ -z \"$" ++ n ++ "\" ]" ++ condition) = t) :
    FullSection (check n condition) := by
  have hmessage : Quotable ("Error: No value provided for " ++ n) :=
    .append (.literal rfl (by decide)) (.name hn)
  obtain ⟨v, hv⟩ := hmessage
  have hrows : Readable false _ := .line ((commandText_echo hv.quoted).list.indent 2)
    (.line ((commandText_exit "1" (by decide)).list.indent 2) .nil)
  refine .line (CommandText.ifThen 0 0 ht hrows).list ?_
  rw [← hs]
  delta check
  simp (disch := first | with_reducible rfl | decide) only [scanned_append, scanned_literal,
    scanned_of_valid hn]
  simp (disch := with_reducible rfl) only [Text.toList_literal, List.reduceReplicate, Shell.line,
    Phrase.text_plain, Phrase.text_quoted, List.append_assoc, List.cons_append, List.nil_append]

/-- The checks of a template are a section. -/
lemma section_checks {t : Template} (h : ∀ v ∈ t.vars, Name.Valid v.name) : Section (checks t) := by
  have htest {n : String} (hn : Name.Valid n) :=
    commandText_test [.plain "-z", .quoted (.dollar (isName_of_valid hn)), .plain "]"]
  have hcheck {n : String} (hn : Name.Valid n) : Section (check n "") := by
    refine (section_check hn (htest hn).list ?_).toSection
    simp (disch := first | with_reducible rfl | decide) only [scanned_append, scanned_literal,
      scanned_of_valid hn]
    simp (disch := with_reducible rfl) only [Text.toList_literal, Shell.line, Phrase.text_plain,
      Phrase.text_quoted, List.append_assoc, List.cons_append, List.nil_append]
  have hname : Name.Valid nameVariable := by decide
  refine (Section.append (.heading rfl (by decide)) (.join ?_)).append ?_
  · simp only [List.mem_map, List.mem_filter]
    rintro _ ⟨v, ⟨hv, -⟩, rfl⟩
    exact hcheck (h v hv)
  · split
    · exact hcheck hname
    · refine (section_check hname
        ((htest hname).and (commandText_test [.plain "-t", .plain "1", .plain "]"])) ?_).toSection
      simp (disch := first | with_reducible rfl | decide) only [scanned_append, scanned_literal,
        scanned_of_valid hname]
      simp (disch := with_reducible rfl) only [Text.toList_literal, Shell.line, Phrase.text_plain,
        Phrase.text_quoted, List.append_assoc, List.cons_append, List.nil_append]

/-! ## The loop over the arguments -/

/-- A line that prints a text is a section. -/
lemma section_echo {q : String} (hq : Quotable q) : FullSection (echo "      " q) := by
  obtain ⟨v, hv⟩ := hq
  refine .line ((commandText_echo hv.quoted).list.indent 6) ?_
  delta echo
  simp (disch := first | with_reducible rfl | decide) only [scanned_append, scanned_literal]
  simp (disch := with_reducible rfl) only [Text.toList_literal, List.reduceReplicate, Shell.line,
    Phrase.text_plain, Phrase.text_quoted, List.append_assoc, List.cons_append, List.nil_append]

/-- The line of an option may stand in double quotes if its parts may. -/
lemma quotable_option (column : Nat) {flag description : String} (hf : Quotable flag)
    (hd : Quotable description) :
    Quotable (option column flag description) := by
  refine (hf.append (.plain fun c hc => ?_)).append hd
  rw [pad, String.toList_ofList, List.mem_replicate] at hc
  rw [hc.2]
  rfl

/-- The flag of a variable may stand in double quotes. -/
lemma quotable_flagOf {v : Variable} (hn : Name.Valid v.name) : Quotable (flagOf v) :=
  (Quotable.append (.append (.literal rfl (by decide)) (.name hn))
    (.literal rfl (by decide))).append (.upper hn)

/-- The text reads as cases before others. -/
def Branch (s : String) : Prop :=
  ∀ ⦃text : List Char⦄, (CasesText text fun _ => True) → CasesText (scanned s ++ text) fun _ => True

/-- A case before others. -/
lemma Branch.case {s : String} (p : Phrase) (ps : List Phrase) {b : List Char} (j k : Nat)
    (hp : Free p.means)
    (hb : Readable true b)
    (hs : scanned s =
      List.replicate j ' ' ++ (p.text ++ ((ps.flatMap fun p => '|' :: p.text) ++ ')' :: '\n' ::
      (b ++ (List.replicate k ' ' ++ [';', ';', '\n']))))) : Branch s := by
  intro text h
  have hcase := CasesText.cons j k ps hp hb h
  rw [hs]
  simp only [List.append_assoc, List.cons_append, List.nil_append] at hcase ⊢
  exact hcase.mono fun _ _ => trivial

/-- The case that takes a variable: the name of the option is taken away, the argument behind it is
taken over, and then it is taken away too. -/
def IsOptionCase (n : List Char) (x : List Word × List Command) : Prop :=
  ∃ i j k, x = ([plainWord ('-' :: '-' :: n)],
    [.simple i [] [plainWord "shift".toList] [],
      .simple j [(n, [.quote, .param ['1'] .value [] true])] [] [],
      .simple k [] [plainWord "shift".toList] []])

/-- A command of one plain word. -/
lemma commandText_plain (f : String) (hf : Phrase.isPlain f.toList = true)
    (hres : reservedWords.contains f = false) (hname : assignment? (plainWord f.toList) = none) :
    CommandText f.toList fun c => ∃ k, c = .simple k [] [plainWord f.toList] [] := by
  refine (CommandText.call (p := .plain f hf) [] (free_plain hres) ?_).mono ?_
  · rintro _ rfl
    exact hname
  · rintro _ ⟨k, _, hws, rfl⟩
    rcases hws with _ | ⟨rfl, _ | _⟩
    exact ⟨k, rfl⟩

/-- The branch of a variable is the case that takes it. -/
lemma casesText_option {v : Variable} (hn : Name.Valid v.name) {text : List Char}
    {Q : List (List Word × List Command) → Prop} (h : CasesText text Q) :
    CasesText (scanned (optionBranch v) ++ text) fun r =>
      ∃ x r', IsOptionCase v.name.toList x ∧ Q r' ∧ r = x :: r' := by
  have hplain : Phrase.isPlain ("--" ++ v.name).toList = true := by
    rw [String.toList_append, Text.toList_literal (s := "--") rfl, Phrase.isPlain, List.cons_append,
      List.all_cons, List.cons_append, List.all_cons, List.nil_append]
    have hall : v.name.toList.all Mode.bare.isOrdinary = true :=
      List.all_eq_true.mpr fun c hc => isOrdinary_of_isNameChar (Name.isPart_of_mem hn hc)
    rw [hall, List.head?_cons]
    decide
  have hres : reservedWords.contains ("--" ++ v.name) = false := by
    rw [List.contains_eq_mem, decide_eq_false_iff_not]
    intro hmem
    have hno : ∀ w ∈ reservedWords, '-' ∉ w.toList := by decide
    exact hno _ hmem (by simp)
  have hshift := commandText_plain "shift" (by decide) (by decide) (by decide)
  let value := Phrase.quoted (Quoted.argument (d := '1') (by decide) (by decide))
  have hassign := CommandText.assign (isName_of_valid hn) value.ending
  have hcase := CasesText.cons (p := .plain ("--" ++ v.name) hplain) 4 6 [] (free_plain hres)
    (.cons (hshift.list.indent 6)
      (.cons (hassign.list.indent 6) (.cons (hshift.list.indent 6) .nil))) h
  have htext :
      scanned (optionBranch v) ++ text = List.replicate 4 ' ' ++ (("--" ++ v.name).toList ++
      (([] : List Phrase).flatMap (fun p => '|' :: p.text) ++ ')' :: '\n' ::
        ((List.replicate 6 ' ' ++ "shift".toList ++ '\n' :: (List.replicate 6 ' ' ++
          (v.name.toList ++ '=' :: value.text) ++
          '\n' :: (List.replicate 6 ' ' ++ "shift".toList ++ '\n' :: []))) ++
            (List.replicate 6 ' ' ++ ';' :: ';' :: '\n' :: text)))) := by
    delta optionBranch
    simp (disch := first | with_reducible rfl | decide) only [scanned_append, scanned_literal,
      scanned_of_valid hn]
    simp (disch := with_reducible rfl) only [Text.toList_literal, String.toList_append,
      List.reduceReplicate, value, Phrase.text_quoted, List.flatMap_nil, List.append_assoc,
      List.cons_append, List.nil_append]
  rw [htext]
  refine hcase.mono ?_
  rintro _ ⟨ws, cs, r', hws,
    ⟨_, _, ⟨i, rfl⟩, ⟨_, _, ⟨j, _, rfl, rfl⟩, ⟨_, _, ⟨k, rfl⟩, rfl, rfl⟩, rfl⟩, rfl⟩, hQ, rfl⟩
  rcases hws with _ | ⟨rfl, _ | _⟩
  exact ⟨_, r', ⟨i, j, k, by simp⟩, hQ, rfl⟩

/-- The help of a script is a branch of the loop over its arguments. -/
lemma branch_help (name : String) {t : Template} {path : Option String}
    (hvars : ∀ v ∈ t.vars, Name.Valid v.name)
    (htexts : ∀ v ∈ t.vars, ∀ d, v.description = some d → Quotable d)
    (hpath : Quotable (OutputPath.forHelp path)) :
    Branch (help name t path) := by
  have hlines :
      Section
        (String.join
          ((t.vars.filter (·.name != nameVariable)).map (variableOption (helpColumn t)))) := by
    refine .join ?_
    simp only [List.mem_map, List.mem_filter]
    rintro _ ⟨v, ⟨hv, -⟩, rfl⟩
    have hflag := quotable_flagOf (hvars v hv)
    refine (section_echo ?_).toSection
    cases hd : v.description with
    | none => exact hflag
    | some d => exact quotable_option _ hflag (htexts v hv d hd)
  have hhead : Section (echo "      " (Escape.escape name ++ ":") ++
    echo "      " ("generates file at " ++ OutputPath.forHelp path) ++
      echo "      " "" ++ echo "      " "options:" ++
        echo "      " (option (helpColumn t) helpFlag "show brief help") ++
      echo "      " (option (helpColumn t) nameFlag "filename (without extension)")) := by
    refine Section.append (.append (.append (.append (.append ?_ ?_) ?_) ?_) ?_) ?_
    · exact (section_echo (.append (.escape name) (.literal rfl (by decide)))).toSection
    · exact (section_echo (.append (.literal rfl (by decide)) hpath)).toSection
    · exact (section_echo (.literal rfl (by decide))).toSection
    · exact (section_echo (.literal rfl (by decide))).toSection
    · exact (section_echo
        (quotable_option _ (.literal rfl (by decide)) (.literal rfl (by decide)))).toSection
    · exact (section_echo
        (quotable_option _ (.literal rfl (by decide)) (.literal rfl (by decide)))).toSection
  have hexit : FullSection "      exit 0\n" := by
    refine .line ((commandText_exit "0" (by decide)).list.indent 6) ?_
    simp (disch := first | with_reducible rfl | decide) only [scanned_literal]
    simp (disch := with_reducible rfl) only [Text.toList_literal, List.reduceReplicate, Shell.line,
      Phrase.text_plain, List.cons_append, List.nil_append]
  have hrows := ((hhead.append hlines).append_full hexit) lays_readable .nil true
  refine .case (.plain "*") [] 4 6 (free_plain (by decide)) hrows ?_
  delta help
  simp (disch := first | with_reducible rfl | decide) only [scanned_append, scanned_literal,
    List.append_nil]
  simp (disch := with_reducible rfl) only [Text.toList_literal, List.reduceReplicate,
    Phrase.text_plain, List.flatMap_nil, List.append_assoc, List.cons_append, List.nil_append]

/-- The branches of variables are the cases that take them, in this order. -/
lemma casesText_options {vs : List Variable} (hvs : ∀ v ∈ vs, Name.Valid v.name) {text : List Char}
    {Q : List (List Word × List Command) → Prop} (h : CasesText text Q) :
    CasesText (scanned (String.join (vs.map optionBranch)) ++ text) fun r =>
      ∃ xs r', List.Forall₂ (fun v x => IsOptionCase v.name.toList x) vs xs ∧ Q r' ∧
        r = xs ++ r' := by
  induction vs with
  | nil => exact h.mono fun r hr => ⟨[], r, .nil, hr, rfl⟩
  | cons v vs ih =>
    rw [List.map_cons, String.join_cons, scanned_append, List.append_assoc]
    refine (casesText_option (hvs v (by simp)) (ih fun u hu => hvs u (by simp [hu]))).mono ?_
    rintro _ ⟨x, _, hx, ⟨xs, r', hxs, hQ, rfl⟩, rfl⟩
    exact ⟨x :: xs, r', .cons hx hxs, hQ, rfl⟩

/-- The loop over the arguments, from its first word to its last. -/
def argumentLoop (name : String) (t : Template) (path : Option String) : String :=
  "while test $# -gt 0; do\n  case \"$1\" in\n" ++ String.join (t.vars.map optionBranch) ++
    help name t path ++
    "  esac\ndone"

/-- The part on arguments is the loop with a line before it and one behind it. -/
lemma arguments_eq (name : String) (t : Template) (path : Option String) :
    arguments name t path = "\n# parse arguments\n" ++ argumentLoop name t path ++ "\n" := by
  have hopen : "\n# parse arguments\nwhile test $# -gt 0; do\n  case \"$1\" in\n" =
      "\n# parse arguments\n" ++ "while test $# -gt 0; do\n  case \"$1\" in\n" := rfl
  have hclose : "  esac\ndone\n" = "  esac\ndone" ++ "\n" := rfl
  delta arguments argumentLoop
  rw [hopen, hclose]
  simp only [String.append_assoc]

/-- A loop that goes on as long as there are arguments, and looks at the first of them each time.
Its first cases take the variables. -/
def IsArgumentLoop (vs : List Variable) (c : Command) : Prop :=
  ∃ i j xs r, List.Forall₂ (fun v x => IsOptionCase v.name.toList x) vs xs ∧
    c = .loop false
      [.simple i [] [plainWord "test".toList, [.param ['#'] .value [] false],
        plainWord "-gt".toList,
        plainWord "0".toList] []]
      [.select j [.quote, .param ['1'] .value [] true] (xs ++ r) []] []

/-- The loop over the arguments is read as one. -/
lemma commandText_argumentLoop (name : String) {t : Template} {path : Option String}
    (hvars : ∀ v ∈ t.vars, Name.Valid v.name)
    (htexts : ∀ v ∈ t.vars, ∀ d, v.description = some d → Quotable d)
    (hpath : Quotable (OutputPath.forHelp path)) :
    CommandText (scanned (argumentLoop name t path)) (IsArgumentLoop t.vars) := by
  have hhelp := branch_help name hvars htexts hpath ((CasesText.esac 2).mono fun _ _ => trivial)
  have hselect :=
    CommandText.select (p := .quoted (Quoted.argument (d := '1') (by decide) (by decide)))
    (casesText_options hvars hhelp)
  have htest :=
    CommandText.call (p := .plain "test") [.count, .plain "-gt", .plain "0"]
      (free_plain (by decide))
    (by rintro _ rfl; decide)
  have hloop := CommandText.whileDo htest.list (.cons (hselect.list.indent 2) .nil)
  have htext : scanned (argumentLoop name t path) = "while".toList ++ ' ' ::
      (Shell.line (.plain "test") [.count, .plain "-gt", .plain "0"] ++ ';' :: ' ' ::
        ("do".toList ++ '\n' ::
        (List.replicate 2 ' ' ++ ("case".toList ++ ' ' ::
          ((Phrase.quoted (Quoted.argument (d := '1') (by decide) (by decide))).text ++ ' ' ::
            ("in".toList ++ '\n' ::
            (scanned (String.join (t.vars.map optionBranch)) ++ (scanned (help name t path) ++
              (List.replicate 2 ' ' ++ "esac".toList)))))) ++ '\n' :: [] ++ "done".toList))) := by
    delta argumentLoop
    simp (disch := first | with_reducible rfl | decide) only [scanned_append, scanned_literal]
    simp (disch := with_reducible rfl) only [Text.toList_literal, List.reduceReplicate, Shell.line,
      Phrase.text_plain, Phrase.text_quoted, Phrase.text_count, List.append_assoc, List.cons_append,
      List.nil_append]
  rw [htext]
  refine hloop.mono ?_
  rintro _ ⟨_, _, ⟨i, ws, hws, rfl⟩, ⟨_, _, ⟨j, _, _, rfl, ⟨xs, r, hxs, -, rfl⟩, rfl⟩, rfl, rfl⟩,
    rfl⟩
  rcases hws with _ | ⟨rfl, _ | ⟨rfl, _ | ⟨rfl, _ | ⟨rfl, _ | _⟩⟩⟩⟩
  exact ⟨i, j, xs, r, hxs, rfl⟩

/-- The part on arguments is a section. -/
lemma section_arguments (name : String) {t : Template} {path : Option String}
    (hvars : ∀ v ∈ t.vars, Name.Valid v.name)
    (htexts : ∀ v ∈ t.vars, ∀ d, v.description = some d → Quotable d)
    (hpath : Quotable (OutputPath.forHelp path)) :
    FullSection (arguments name t path) := by
  refine .headed " parse arguments".toList (by decide)
    (commandText_argumentLoop name hvars htexts hpath).list ?_
  rw [arguments_eq]
  simp (disch := first | with_reducible rfl | decide) only [scanned_append, scanned_literal]
  simp (disch := with_reducible rfl) only [Text.toList_literal, List.cons_append, List.nil_append]

/-! ## Defaults -/

/-- The defaults of a template are a section. -/
lemma section_defaults {t : Template} (hvars : ∀ v ∈ t.vars, Name.Valid v.name)
    (htexts : ∀ v ∈ t.vars, ∀ d, v.default = some d → Quotable d) : Section (defaults t) := by
  have hlines : ∀ s ∈ t.vars.filterMap defaultLine, Section s := by
    simp only [List.mem_filterMap, defaultLine, Option.map_eq_some_iff]
    rintro _ ⟨v, hv, d, hd, rfl⟩
    exact (section_default (hvars v hv) (htexts v hv d hd)).toSection
  unfold defaults
  split
  · exact .empty
  · exact (Section.heading rfl (by decide)).append (.join hlines)

/-! ## Filters -/

/-- A name with a word behind it is a call with one argument. -/
lemma commandText_apply {f : String} (hf : isName f.toList = true)
    (hres : reservedWords.contains f = false) (p : Phrase) :
    CommandText (Shell.line (.plain f (Phrase.isPlain_of_isName hf)) [p]) fun c =>
      ∃ k v, p.means v ∧ c = .simple k [] [plainWord f.toList, v] [] := by
  have hname (w : Word) (hw : w = plainWord f.toList) : assignment? w = none := by
    obtain ⟨_, _, hcs, -, hall⟩ := exists_of_isName hf
    rw [hw, assignment?_plainWord (by rwa [hcs])]
  refine (CommandText.call [p] (free_plain hres) hname).mono ?_
  rintro _ ⟨k, _, hws, rfl⟩
  rcases hws with _ | ⟨rfl, _ | ⟨hv, _ | _⟩⟩
  exact ⟨k, _, hv, rfl⟩

/-- A word for what the command prints when its argument is a word of the given kind. -/
def Applied (f : String) (W : Word → Prop) (word : Word) : Prop :=
  ∃ k v, W v ∧ word = [.command [.simple k [] [plainWord f.toList, v] []] false]

/-- A word for the value of a variable, to which the filters are applied one after the other. -/
def ChainWord (c : Chain) : Word → Prop :=
  c.filters.foldl (fun W f => Applied f W) (· = [.quote, .param c.base.toList .value [] true])

/-- The shell sees the call of a filter as it is written, apart from its argument. -/
lemma scanned_apply {f : String} (hf : Name.Valid f) (e : String) :
    scanned ("$(" ++ f ++ " " ++ e ++ ")") =
      '$' :: '(' :: (f.toList ++ ' ' :: (scanned e ++ [')'])) := by
  simp (disch := first | with_reducible rfl | decide) only [scanned_append, scanned_literal,
    scanned_of_valid hf]
  simp only [List.append_assoc, List.cons_append, List.nil_append]

/-- A call of a filter is a word if its argument is one. -/
lemma exists_phrase_apply {f e : String} {W : Word → Prop} (hf : Name.Valid f)
    (hres : reservedWords.contains f = false)
    (he : ∃ p : Phrase, scanned e = p.text ∧ ∀ word, p.means word → W word) :
    ∃ p : Phrase, scanned ("$(" ++ f ++ " " ++ e ++ ")") = p.text ∧
      ∀ word, p.means word → Applied f W word := by
  obtain ⟨p, hp, hmeans⟩ := he
  have hname := isName_of_valid hf
  have hstart : (Shell.line (.plain f (Phrase.isPlain_of_isName hname)) [p]).head?.any
      (fun c => c != '(' && c != '\\') = true := by
    obtain ⟨c, cs, hcs, -, hall⟩ := exists_of_isName hname
    have hc := ne_of_isNameChar (hall c (by simp)) (show isNameChar '(' = false by decide)
    have hc' := ne_of_isNameChar (hall c (by simp)) (show isNameChar '\\' = false by decide)
    simp [Shell.line, hcs, hc, hc']
  refine ⟨.substitution (commandText_apply hname hres p).list hstart, ?_, ?_⟩
  · rw [scanned_apply hf, hp]
    simp only [Shell.line, Phrase.text_substitution, Phrase.text_plain, List.append_assoc,
      List.cons_append]
  · rintro _ ⟨_, ⟨k, v, hv, rfl⟩, rfl⟩
    exact ⟨k, v, hmeans v hv, rfl⟩

/-- The value of a variable is a word. -/
lemma exists_phrase_value {n : String} (hn : Name.Valid n) :
    ∃ p : Phrase, scanned ("\"$" ++ n ++ "\"") = p.text ∧
      ∀ word, p.means word → word = [.quote, .param n.toList .value [] true] := by
  refine ⟨.quoted (.dollar (isName_of_valid hn)), ?_, fun _ => id⟩
  simp (disch := first | with_reducible rfl | decide) only [scanned_append, scanned_literal,
    scanned_of_valid hn]
  simp only [Phrase.text_quoted, List.cons_append, List.nil_append]

/-- The expression of a chain is a word. -/
lemma exists_phrase_chainExpression {c : Chain} (hbase : Name.Valid c.base)
    (hfilters : ∀ f ∈ c.filters, Name.Valid f ∧ reservedWords.contains f = false) :
    ∃ p : Phrase, scanned (chainExpression c) = p.text ∧
      ∀ word, p.means word → ChainWord c word := by
  -- Each filter makes a word of a word, the first filter innermost.
  have hfold (fs : List String) (hfs : ∀ f ∈ fs, Name.Valid f ∧ reservedWords.contains f = false)
    (e : String)
      (W : Word → Prop) (he : ∃ p : Phrase, scanned e = p.text ∧ ∀ word, p.means word → W word) :
      ∃ p : Phrase, scanned (fs.foldl (fun e f => "$(" ++ f ++ " " ++ e ++ ")") e) = p.text ∧
        ∀ word, p.means word → fs.foldl (fun W f => Applied f W) W word := by
    induction fs generalizing e W with
    | nil => exact he
    | cons f fs ih =>
      obtain ⟨hf, hres⟩ := hfs f (by simp)
      exact ih (fun g hg => hfs g (by simp [hg])) _ _ (exists_phrase_apply hf hres he)
  exact hfold c.filters hfilters _ _ (exists_phrase_value hbase)

/-- The line that computes a chain is a section of its own. -/
lemma section_chain {c : Chain} (hname : Name.Valid c.name) (hbase : Name.Valid c.base)
    (hfilters : ∀ f ∈ c.filters, Name.Valid f ∧ reservedWords.contains f = false) :
    FullSection (c.name ++ "=" ++ chainExpression c ++ "\n") := by
  obtain ⟨p, hp, -⟩ := exists_phrase_chainExpression hbase hfilters
  refine .line
    (CommandText.words (.assign (isName_of_valid hname) p.ending) [] (free_assign _ _)).list ?_
  simp (disch := first | with_reducible rfl | decide) only [scanned_append, scanned_literal,
    scanned_of_valid hname, hp]
  simp only [Shell.line, Phrase.text_assign, List.append_assoc, List.cons_append, List.nil_append]

/-- The lines of a body as they stand between the braces of a definition. -/
def bodyLines (body : String) : String :=
  Text.joinWith "\n" ((Text.cutAt '\n' (String.ofList (Text.trimWhile (· == '\n') body.toList))).map
    FilterLibrary.indentLine) ++ "\n"

/-- The definition of a filter is its name, a brace and the lines of its body. -/
lemma define_eq (f body : String) :
    FilterLibrary.define f body = f ++ "() \x7b\n" ++ bodyLines body ++ "\x7d\n" := by
  simp only [FilterLibrary.define, bodyLines, String.append_assoc, String.reduceAppend]

/-- A body of a single line stands in braces as it is. -/
lemma bodyLines_of_line {body : String} (hline : '\n' ∉ body.toList)
    (hblank : Text.isAllBlank body = false) :
    bodyLines body = "  " ++ body ++ "\n" := by
  have hkeep {cs : List Char} (hcs : '\n' ∉ cs) : cs.dropWhile (· == '\n') = cs := by
    cases cs with
    | nil => rfl
    | cons c cs =>
      have hc : (c == '\n') = false := beq_eq_false_iff_ne.mpr fun e => hcs (by simp [e])
      rw [List.dropWhile_cons, hc]
      rfl
  have htrim : Text.trimWhile (· == '\n') body.toList = body.toList := by
    rw [Text.trimWhile, Text.dropEndWhile, hkeep hline, hkeep (by simpa using hline),
      List.reverse_reverse]
  simp only [bodyLines, htrim, String.ofList_toList, Text.cutAt_of_notMem hline, List.map_cons,
    List.map_nil, Text.joinWith, FilterLibrary.indentLine, hblank, Bool.false_eq_true, if_false]

/-- A filter is a function if its body reads as commands and its name may be given to one. -/
lemma section_body {f body : String} (hf : Name.Valid f)
    (hspecial : specialBuiltins.contains f = false) (hres : reservedWords.contains f = false)
    (hbody : Readable false (scanned (bodyLines body))) :
    FullSection (FilterLibrary.define f body) := by
  refine .line (CommandText.define (isName_of_valid hf) hspecial hres hbody).list ?_
  rw [define_eq]
  simp (disch := first | with_reducible rfl | decide) only [scanned_append, scanned_literal,
    scanned_of_valid hf]
  simp (disch := with_reducible rfl) only [Text.toList_literal, List.append_assoc, List.cons_append,
    List.nil_append]

/-- A filter that prints what a list prints. -/
lemma section_define {f body : String} {t : List Char} {P : Command → Prop} (hf : Name.Valid f)
    (hspecial : specialBuiltins.contains f = false) (hres : reservedWords.contains f = false)
    (ht : ListText t P) (hstart : t.head?.any (fun c => c != '(' && c != '\\') = true)
    (hbody : scanned body = "echo $(".toList ++ (t ++ [')'])) (hline : '\n' ∉ body.toList)
    (hblank : Text.isAllBlank body = false) : FullSection (FilterLibrary.define f body) := by
  have hecho := CommandText.words (.plain "echo") [.substitution ht hstart] (free_plain (by decide))
  have hrows : Readable false _ := .line (hecho.list.indent 2) .nil
  refine section_body hf hspecial hres ?_
  rw [bodyLines_of_line hline hblank]
  simp (disch := first | with_reducible rfl | decide) only [scanned_append, scanned_literal,
    hbody] at hrows ⊢
  simp (disch := with_reducible rfl) only [Text.toList_literal, List.reduceReplicate, Shell.line,
    Phrase.text_plain, Phrase.text_substitution, List.append_assoc, List.cons_append,
    List.nil_append] at hrows ⊢
  exact hrows

/-- A filter that prints its argument as other commands change it. -/
lemma section_pipe {f body : String} {cs bs : List Char} {Q : List Command → Prop}
    (hf : Name.Valid f) (hspecial : specialBuiltins.contains f = false)
    (hres : reservedWords.contains f = false) (hbs : BarsText bs Q) (hlit : body = String.ofList cs)
    (hline : (!cs.contains '\n' && !cs.all Text.isBlank) = true)
    (hbody : scanned body = "echo $(echo \"$1\"".toList ++ (bs ++ [')'])) :
    FullSection (FilterLibrary.define f body) := by
  have hfirst :=
    CommandText.words (.plain "echo") [.quoted (Quoted.argument (d := '1') (by decide) (by decide))]
    (free_plain (by decide))
  rw [← Text.toList_literal hlit, Bool.and_eq_true, List.contains_eq_mem] at hline
  refine section_define hf hspecial hres (hfirst.bars hbs) (by rfl) ?_ (by simpa using hline.1)
    (by simpa only [Text.isAllBlank, Bool.not_eq_true'] using hline.2)
  rw [hbody]
  simp (disch := with_reducible rfl) only [Text.toList_literal, Shell.line, Phrase.text_plain,
    Phrase.text_quoted, List.cons_append, List.nil_append]

/-- A command that turns some characters into others. -/
lemma commandText_tr (p q : Phrase) : CommandText (Shell.line (.plain "tr") [p, q]) fun _ => True :=
  CommandText.words _ _ (free_plain (by decide))

/-- A command that rewrites twice. -/
lemma commandText_sed (p q : Phrase) :
    CommandText (Shell.line (.plain "sed") [.plain "-e", p, .plain "-e", q]) fun _ => True :=
  CommandText.words _ _ (free_plain (by decide))

/-- The built-in filters are functions. -/
lemma section_filter {f s : String} (h : FilterLibrary.function? {} f = some s) :
    FullSection s := by
  rw [FilterLibrary.function?, Option.map_eq_some_iff] at h
  obtain ⟨body, hbody, rfl⟩ := h
  -- There are five bodies, and each is a pipe of one or two commands.
  have hmem : (f, body) ∈ builtinFilters := by
    have hlookup : builtinFilters.lookup f = some body := hbody
    obtain ⟨l₁, l₂, hsplit, -⟩ := List.lookup_eq_some_iff.mp hlookup
    simp [hsplit]
  simp only [builtinFilters, String.reduceAppend, List.mem_cons, Prod.mk.injEq, List.not_mem_nil,
    or_false] at hmem
  have hlower := commandText_tr (.apostrophes "[:upper:]".toList) (.apostrophes "[:lower:]".toList)
  have hupper := commandText_tr (.apostrophes "[:lower:]".toList) (.apostrophes "[:upper:]".toList)
  have hcapitalize := CommandText.words (.plain "awk")
    [.apostrophes "\x7b print toupper(substr($0, 1, 1)) substr($0, 2) \x7d".toList]
    (free_plain (by decide))
  have hsnake := commandText_sed (.apostrophes "s/\\([a-z0-9]\\)\\([A-Z]\\)/\\1_\\2/g".toList)
    (.apostrophes "s/[ -]/_/g".toList)
  have hkebab := commandText_sed (.apostrophes "s/\\([a-z0-9]\\)\\([A-Z]\\)/\\1-\\2/g".toList)
    (.apostrophes "s/[ _]/-/g".toList)
  rcases hmem with ⟨rfl, rfl⟩ | ⟨rfl, rfl⟩ | ⟨rfl, rfl⟩ | ⟨rfl, rfl⟩ | ⟨rfl, rfl⟩
  on_goal 1 =>
    refine section_pipe (by decide) (by decide) (by decide) (.cons hupper .nil) rfl (by decide) ?_
  on_goal 2 =>
    refine section_pipe (by decide) (by decide) (by decide) (.cons hlower .nil) rfl (by decide) ?_
  on_goal 3 =>
    refine section_pipe (by decide) (by decide) (by decide) (.cons hcapitalize .nil) rfl
      (by decide) ?_
  on_goal 4 =>
    refine section_pipe (by decide) (by decide) (by decide) (.cons hsnake (.cons hlower .nil)) rfl
      (by decide) ?_
  on_goal 5 =>
    refine section_pipe (by decide) (by decide) (by decide) (.cons hkebab (.cons hlower .nil)) rfl
      (by decide) ?_
  all_goals
    simp (disch := first | with_reducible rfl | decide) only [scanned_literal]
    simp (disch := with_reducible rfl) only [Text.toList_literal, Shell.line, Phrase.text_plain,
      Phrase.text_apostrophes, List.cons_append, List.nil_append]

/-- The filters and chains of a template are a section if the definitions are. -/
lemma section_filters {lib : FilterLibrary} {t : Template}
    (hlib : ∀ f ∈ t.usedFilters, ∀ s, lib.function? f = some s → FullSection s)
    (hchains : ∀ c ∈ t.chains, Name.Valid c.name ∧ Name.Valid c.base ∧
      ∀ f ∈ c.filters, Name.Valid f ∧
        reservedWords.contains f = false) : Section (filters lib t) := by
  unfold filters
  split
  · exact .empty
  · refine Section.append
      (.append (.append (.heading rfl (by decide)) (.join ?_)) (.heading rfl (by decide)))
        (.join ?_)
    · simp only [List.mem_filterMap, List.mem_eraseDups]
      rintro s ⟨f, hf, hs⟩
      exact (hlib f hf s hs).toSection
    · simp only [List.mem_map]
      rintro _ ⟨c, hc, rfl⟩
      obtain ⟨hname, hbase, hfilters⟩ := hchains c hc
      exact (section_chain hname hbase hfilters).toSection

/-! ## The output -/

/-- The lines that make the directory are a section. -/
lemma section_makeDirectory {path : Option String}
    (hdir : ∀ d, OutputPath.directory? path = some d → Quotable d) :
    Section (makeDirectory path) := by
  unfold makeDirectory
  split
  · exact .empty
  · rename_i d hd
    obtain ⟨v, hv⟩ := hdir d hd
    have hmkdir :=
      CommandText.words (.plain "mkdir") [.plain "-p", .quoted hv.quoted] (free_plain (by decide))
    refine FullSection.toSection (.line (hmkdir.list.indent 2) ?_)
    simp (disch := first | with_reducible rfl | decide) only [scanned_append, scanned_literal]
    simp (disch := with_reducible rfl) only [Text.toList_literal, List.reduceReplicate, Shell.line,
      Phrase.text_plain, Phrase.text_quoted, List.append_assoc, List.cons_append, List.nil_append]

set_option maxRecDepth 4000 in
/-- The question whether a file that exists is to be written over. -/
lemma section_overwrite {file : String} (hfile : Quotable file) :
    FullSection ("\n  # check if file exists\n  if [ -f \"" ++ file ++ "\" ] ; then\n" ++
      "     read -r -p \"File already exists, overwrite? [y/N] \" response\n" ++
      "     case \"$response\" in\n       [yY][eE][sS]|[yY])\n         ;;\n       *)\n" ++
      "         echo \"Stopping\"\n         exit 1\n         ;;\n     esac\n  fi\n") := by
  obtain ⟨w, hw⟩ := hfile
  obtain ⟨p, hp⟩ := Quotable.literal (s := "File already exists, overwrite? [y/N] ") rfl (by decide)
  obtain ⟨q, hq⟩ := Quotable.literal (s := "Stopping") rfl (by decide)
  have hread :=
    CommandText.words (.plain "read")
      [.plain "-r", .plain "-p", .quoted hp.quoted, .plain "response"]
    (free_plain (by decide))
  have hstop : Readable true _ := .line ((commandText_echo hq.quoted).list.indent 9)
    (.line ((commandText_exit "1" (by decide)).list.indent 9) .nil)
  have hno := CasesText.cons (p := .plain "*") 7 9 [] (free_plain (by decide)) hstop (.esac 5)
  have hyes :=
    CasesText.cons (p := .plain "[yY][eE][sS]") 7 9 [.plain "[yY]"] (free_plain (by decide))
      .nil hno
  have hselect :=
    CommandText.select (p := .quoted (Quoted.dollar (n := "response".toList) (by decide))) hyes
  have hrows : Readable false _ := .line (hread.list.indent 5) (.line (hselect.list.indent 5) .nil)
  have hif :=
    CommandText.ifThen 1 2 (commandText_test [.plain "-f", .quoted hw.quoted, .plain "]"]).list
      hrows
  intro R hR text htext e
  have h : R e _ := hR.empty (hR.comment 2 " check if file exists".toList (by decide)
    (hR.line (hif.list.indent 2) htext))
  simp (disch := first | with_reducible rfl | decide) only [scanned_append, scanned_literal] at h ⊢
  simp (disch := with_reducible rfl) only [Text.toList_literal, List.reduceReplicate, Shell.line,
    Phrase.text_plain, Phrase.text_quoted, List.flatMap_cons, List.flatMap_nil, List.append_assoc,
    List.cons_append, List.nil_append] at h ⊢
  exact h

/-- The lines that write the file and tell so. -/
lemma section_write {file : String} (hfile : Quotable file) :
    FullSection
      ("\n  echo \"$out\" > \"" ++ file ++ "\"\n  echo \"created file at " ++ file ++ "\";\n") := by
  have hcreated := (Quotable.literal (s := "created file at ") rfl (by decide)).append hfile
  obtain ⟨w, hw⟩ := hfile
  obtain ⟨v, hv⟩ := hcreated
  have hwrite := CommandText.into (p := .plain "echo") (q := .quoted hw.quoted) (Q := fun _ => True)
    [.quoted (Quoted.dollar (n := "out".toList) (by decide))] (free_plain (by decide)) (by
      intro _ _ _ _ _ _
      trivial)
  intro R hR text htext e
  have hecho : R true _ := hR.semicolon ((commandText_echo hv.quoted).list.indent 2) htext
  have h : R e _ := hR.empty (hR.line (hwrite.list.indent 2) hecho)
  simp (disch := first | with_reducible rfl | decide) only [scanned_append, scanned_literal] at h ⊢
  simp (disch := with_reducible rfl) only [Text.toList_literal, List.reduceReplicate, Shell.line,
    Phrase.text_plain, Phrase.text_quoted, List.append_assoc, List.cons_append,
    List.nil_append] at h ⊢
  exact h

set_option maxRecDepth 4000 in
/-- The output of a script is a section. -/
lemma section_output {t : Template} {path : Option String} (hskeleton : Quotable t.skeleton)
    (hfile : Quotable (OutputPath.forScript path))
    (hdir : ∀ d, OutputPath.directory? path = some d → Quotable d) :
    FullSection (output t path) := by
  have hthen :=
    ((section_makeDirectory hdir).append (section_overwrite hfile).toSection).append_full
      (section_write hfile)
  obtain ⟨v, hv⟩ := hskeleton
  have hassign :=
    CommandText.words (.assign (n := "out".toList) (by decide) (Phrase.quoted hv.quoted).ending) []
    (free_assign _ _)
  have helse : Readable false _ :=
    .line ((commandText_echo (Quoted.dollar (n := "out".toList) (by decide))).list.indent 2) .nil
  have hif := CommandText.ifThenElse 1 (commandText_test [.plain "-t", .plain "1", .plain "]"]).list
    (hthen lays_readable .nil false) helse
  intro R hR text htext e
  have h : R e _ := hR.empty (hR.line hassign.list (hR.line hif.list htext))
  delta output
  simp (disch := first | with_reducible rfl | decide) only [scanned_append, scanned_literal] at h ⊢
  simp (disch := with_reducible rfl) only [Text.toList_literal, List.reduceReplicate, Shell.line,
    Phrase.text_plain, Phrase.text_quoted, Phrase.text_assign, List.append_assoc, List.cons_append,
    List.nil_append, List.append_nil] at h ⊢
  exact h

end Script

end Stencil
