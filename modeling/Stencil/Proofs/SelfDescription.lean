import Stencil.Proofs.OutputPath
import Stencil.Proofs.Sections
import Stencil.Proofs.Shell.Run
import Stencil.Proofs.Template

/-!
# Scripts that describe themselves

What the script of a template does when it is asked for its source or its payload: it passes over
the block that makes a file and prints the one text (`Script.finishes_compile_of_section`).
-/

namespace Stencil

namespace Shell

/-! ## Commands of known words -/

/-- The phrase reads as one word only. -/
def Phrase.Is (p : Phrase) (w : Word) : Prop :=
  ∀ v, p.means v → v = w

/-- Behind a first word, words are gathered in order. -/
lemma gathers_is {ps : List Phrase} {ws : List Word} (h : List.Forall₂ Phrase.Is ps ws) {q : Simple}
    (hq : q.words ≠ []) :
    q.Gathers (fun r => r = { q with words := q.words ++ ws }) (ps.map Phrase.lexeme) := by
  induction h generalizing q with
  | nil =>
    show q = { q with words := q.words ++ [] }
    rw [List.append_nil]
  | cons hp _ ih =>
    rename_i p w ps ws _
    intro v hv
    obtain rfl := hp v hv
    have hadd : q.add v = { q with words := q.words ++ [v] } := by
      have hempty : q.words.isEmpty = false := by simpa using hq
      simp [Simple.add, hempty]
    have ih := ih (q := q.add v) (by simp [hadd])
    simpa [hadd] using ih

/-- Words that are known make a command that is known but for its line. -/
lemma CommandText.is {p : Phrase} {ps : List Phrase} {w : Word} {ws : List Word}
    (hfree : Free p.means) (hassign : assignment? w = none) (hp : p.Is w)
    (hps : List.Forall₂ Phrase.Is ps ws) :
    CommandText (line p ps) fun c => ∃ n, c = .simple n [] (w :: ws) [] := by
  have hgathers :
      Simple.Gathers {} (fun r => r = { words := w :: ws }) ((p :: ps).map Phrase.lexeme) := by
    intro v hv
    obtain rfl := hp v hv
    have hadd : Simple.add {} v = { words := [v] } := by simp [Simple.add, hassign]
    simpa [hadd] using gathers_is hps (q := { words := [v] }) (by simp)
  refine (CommandText.simple hfree hgathers).mono ?_
  rintro _ ⟨n, _, rfl, rfl⟩
  exact ⟨n, rfl⟩

/-- The first argument as a word. -/
abbrev argumentWord : Word :=
  [.quote, .param ['1'] .value [] true]

/-- A bracket before words and a bracket. -/
lemma commandText_bracket {ps : List Phrase} {ws : List Word} (h : List.Forall₂ Phrase.Is ps ws) :
    CommandText (line (.plain "[") ps) fun c => ∃ n, c = .simple n [] (plainWord ['['] :: ws) [] :=
  CommandText.is (free_plain (by decide)) (by decide) (fun _ => id) h

/-- A plain word is the word of its characters. -/
lemma is_plain {w : String} {cs : List Char} (hw : Phrase.isPlain w.toList = true)
    (hs : w = String.ofList cs) :
    (Phrase.plain w hw).Is (plainWord cs) := by
  rintro _ rfl
  rw [Text.toList_literal hs]

/-- A quoted text is the word of its parts behind a quote. -/
lemma is_quoted {cs : List Char} {v : Word} (h : Quoted cs v) :
    (Phrase.quoted h).Is (.quote :: v) :=
  fun _ => id

/-- The first argument between double quotes. -/
abbrev argumentPhrase : Phrase :=
  .quoted (Quoted.argument (d := '1') (by decide) (by decide))

/-- The first argument is compared with a text. -/
lemma commandText_equal {asked : List Char} (h : Quoted asked (quotedChars asked)) :
    CommandText (line (.plain "[") [argumentPhrase, .plain "=", .quoted h, .plain "]"]) fun c =>
      ∃ n, c = .simple n []
      [plainWord ['['], argumentWord, plainWord ['='], .quote :: quotedChars asked, plainWord [']']]
        [] :=
  commandText_bracket
    (.cons (is_quoted _)
      (.cons (is_plain _ rfl) (.cons (is_quoted h) (.cons (is_plain _ rfl) .nil))))

/-- The first argument is compared with a text that it should not be. -/
lemma commandText_differ {asked : List Char} (h : Quoted asked (quotedChars asked)) :
    CommandText (line (.plain "[") [.plain "!", argumentPhrase, .plain "=", .quoted h, .plain "]"])
      fun c => ∃ n, c = .simple n []
      [plainWord ['['], plainWord ['!'], argumentWord, plainWord ['='], .quote :: quotedChars asked,
        plainWord [']']] [] :=
  commandText_bracket (.cons (is_plain _ rfl) (.cons (is_quoted _) (.cons (is_plain _ rfl) (.cons
    (is_quoted h)
    (.cons (is_plain _ rfl) .nil)))))

/-- A text that is written out between double quotes is printed. -/
lemma commandText_echo {cs : List Char} (h : Quoted (Escape.escapeChars cs) (quotedChars cs)) :
    CommandText (line (.plain "echo") [.quoted h]) fun c => ∃ n, c = .simple n []
      [plainWord ['e', 'c', 'h', 'o'], .quote :: quotedChars cs] [] :=
  CommandText.is (free_plain (by decide)) (by decide) (is_plain _ rfl) (.cons (is_quoted h) .nil)

/-! ## Runs of these commands -/

section

variable {request printed printed' asked : List Char} {tree : Files.Tree}
  {status status' n fuel : Nat} {w : World}

/-- Words that stand for texts call what the first of them names. -/
lemma run_words {ws : List Word} {name : List Char} {args : List (List Char)} {tested : Bool}
    (hw : Idle request tree printed status w)
    (hws : List.Forall₂ (Stands request tree) ws (name :: args))
    (hfuel : ws.length + ws.flatten.length + 1 < fuel) (hexec : name ≠ "exec".toList)
    (hcall : ∀ w k, Idle request tree printed status w →
      Does (call name args tested (k + 1)) w fun _ w' => Idle request tree printed' status' w')
    (htested : tested = true ∨ status' = 0) :
    Does (run (.simple n [] ws []) tested (fuel + 1)) w fun _ w' =>
      Idle request tree printed' status' w' := by
  have hlength : ∀ word ∈ ws, word.length ≤ ws.flatten.length :=
    fun word hword => (List.sublist_flatten_of_mem hword).length_le
  obtain ⟨k, rfl⟩ := Nat.exists_eq_add_one_of_ne_zero (show fuel ≠ 0 by omega)
  exact run_simple hw hws hlength hfuel hexec (fun w' hw' => hcall w' k hw') htested

/-- A test for equality compares the request with what is asked. -/
lemma run_equal (hrequest : request ≠ ['!'] ∧ request ≠ ['('])
    (hw : Idle request tree printed status w) (hfuel : asked.length + 15 < fuel) :
    Does (run (.simple n []
      [plainWord ['['], argumentWord, plainWord ['='], .quote :: quotedChars asked, plainWord [']']]
      []) true (fuel + 1)) w fun _ w' =>
        Idle request tree printed (if request == asked then 0 else 1) w' := by
  refine run_words hw (.cons .bracket (.cons .argument (.cons (.plain (by decide)) (.cons
    (.quoted asked)
    (.cons (.plain (by decide)) .nil))))) ?_ (by decide) (fun w' k hw' => ?_) (.inl rfl)
  · simp [plainWord, quotedChars]
    omega
  · show Does (call ['['] ([request, ['='], asked] ++ [[']']]) true (k + 1)) w' _
    exact call_test hw' fun facts => Condition.eval_equal facts hrequest.1 hrequest.2 asked

/-- A test for difference compares the request with what is asked. -/
lemma run_differ (hrequest : request ≠ ['!'] ∧ isBinary request = false)
    (hw : Idle request tree printed status w) (hfuel : asked.length + 15 < fuel) :
    Does (run (.simple n [] [plainWord ['['], plainWord ['!'], argumentWord, plainWord ['='],
      .quote :: quotedChars asked,
      plainWord [']']] []) true (fuel + 1)) w
      fun _ w' => Idle request tree printed (if request != asked then 0 else 1) w' := by
  refine run_words hw (.cons .bracket (.cons (.plain (by decide)) (.cons .argument (.cons
    (.plain (by decide))
    (.cons (.quoted asked) (.cons (.plain (by decide)) .nil)))))) ?_ (by decide)
    (fun w' k hw' => ?_) (.inl rfl)
  · simp [plainWord, quotedChars]
    omega
  · show Does (call ['['] ([['!'], request, ['='], asked] ++ [[']']]) true (k + 1)) w' _
    exact call_test hw' fun facts => Condition.eval_differ facts hrequest.2 hrequest.1 asked

/-- Prints a text that is written out between double quotes. -/
lemma run_echo {cs : List Char} (hw : Idle request tree printed status w)
    (hfuel : cs.length + 10 < fuel) :
    Does (run (.simple n [] [plainWord ['e', 'c', 'h', 'o'], .quote :: quotedChars cs] []) false
        (fuel + 1)) w
      fun _ w' => Idle request tree (printed ++ echo [cs]) 0 w' := by
  refine run_words hw (.cons (.plain (by decide)) (.cons (.quoted cs) .nil)) ?_ (by decide)
    (fun w' k hw' => ?_) (.inr rfl)
  · simp [plainWord, quotedChars]
    omega
  · exact call_echo hw'

/-- Lets failures end the run. -/
lemma run_set (hw : Idle request tree printed status w) (hfuel : 10 < fuel) :
    Does (run (.simple n [] [plainWord ['s', 'e', 't'], plainWord ['-', 'e']] []) false
        (fuel + 1)) w
      fun _ w' => Idle request tree printed 0 w' := by
  refine run_words hw (.cons (.plain (by decide)) (.cons (.plain (by decide)) .nil)) ?_ (by decide)
    (fun w' k hw' => ?_)
    (.inr rfl)
  · simp [plainWord]
    omega
  · exact call_set hw'

/-! ## Scripts with these commands -/

/-- A line that lets failures end the run. -/
lemma Runs.set {rest : List Char} {Q : Except Jump Unit → World → Prop}
    (h : Runs request tree rest printed Q) :
    Runs request tree (line (.plain "set") [.plain "-e"] ++ '\n' :: rest) printed Q := by
  have htext : CommandText (line (.plain "set") [.plain "-e"]) fun c => ∃ n, c = .simple n []
      [plainWord ['s', 'e', 't'], plainWord ['-', 'e']] [] :=
    CommandText.is (free_plain (by decide)) (by decide) (is_plain _ rfl)
      (.cons (is_plain _ rfl) .nil)
  refine list htext.list ?_ h
  rintro _ w fuel ⟨n, rfl⟩ hw hfuel
  obtain ⟨fuel, rfl⟩ := Nat.exists_eq_add_one_of_ne_zero (show fuel ≠ 0 by omega)
  exact run_set hw (by omega)

namespace Finishes

variable {rest printed₁ : List Char}

/-- A line that prints a text. -/
lemma echo (printed : List Char) {cs : List Char}
    (hcs : Quoted (Escape.escapeChars cs) (quotedChars cs))
    (h : Finishes request tree rest (printed ++ Shell.echo [cs]) printed') :
    Finishes request tree (line (.plain "echo") [.quoted hcs] ++ '\n' :: rest) printed
      printed' := by
  refine Runs.list (commandText_echo hcs).list ?_ h
  rintro _ w fuel ⟨n, rfl⟩ hw hfuel
  obtain ⟨fuel, rfl⟩ := Nat.exists_eq_add_one_of_ne_zero (show fuel ≠ 0 by omega)
  have hlength := Escape.length_le_length_escapeChars cs
  simp only [line, Phrase.text_quoted, List.length_append, List.length_cons] at hfuel
  exact run_echo hw (by omega)

/-- A conditional prints what its body prints, or nothing. -/
lemma ifThen (status : Nat) {t b : List Char} {P : Command → Prop} {Q : List Command → Prop}
    (ht : ListText t P)
    (hb : RowsText false b Q)
    (htest : ∀ a w fuel, P a → Idle request tree printed 0 w → 2 * t.length + 40 ≤ fuel →
      Does (run a true fuel) w fun _ w' => Idle request tree printed status w')
    (hthen : status = 0 → ∀ cs w fuel, Q cs → Idle request tree printed 0 w →
      2 * b.length + 40 ≤ fuel →
      Does (runAll cs false fuel) w fun _ w' => Idle request tree printed₁ 0 w')
    (helse : status ≠ 0 → printed₁ = printed) (h : Finishes request tree rest printed₁ printed') :
    Finishes request tree ("if".toList ++ ' ' ::
      (t ++ ';' :: ' ' :: ("then".toList ++ '\n' :: (b ++ "fi".toList))) ++
      '\n' :: rest) printed printed' := by
  refine Runs.list (CommandText.ifThen 0 0 ht hb).list ?_ h
  rintro _ w fuel ⟨a, cs, ha, hcs, rfl⟩ hw hfuel
  simp only [List.length_append, List.length_cons] at hfuel
  obtain ⟨fuel, rfl⟩ := Nat.exists_eq_add_of_le' (show 5 ≤ fuel by omega)
  refine run_ifThen (htest a w _ ha hw (by omega)) (fun w' hstatus hw' => ?_) helse
  exact hthen hstatus cs w' _ hcs hw' (by omega)

/-- A text is printed if it is asked for. -/
lemma onRequest (printed : List Char) {cs : List Char} (hasked : Quoted asked (quotedChars asked))
    (hcs : Quoted (Escape.escapeChars cs) (quotedChars cs))
    (hrequest : request ≠ ['!'] ∧ request ≠ ['('])
    (h : Finishes request tree rest
      (if request == asked then printed ++ Shell.echo [cs] else printed) printed') :
    Finishes request tree ("if".toList ++ ' ' ::
      (line (.plain "[") [argumentPhrase, .plain "=", .quoted hasked, .plain "]"] ++
      ';' :: ' ' ::
        ("then".toList ++ '\n' :: (line (.plain "echo") [.quoted hcs] ++ ['\n'] ++ "fi".toList))) ++
      '\n' :: rest) printed printed' := by
  refine ifThen (if request == asked then 0 else 1) (commandText_equal hasked).list
    (.cons (commandText_echo hcs).list .nil) ?_ ?_ ?_ h
  · rintro _ w fuel ⟨n, rfl⟩ hw hfuel
    obtain ⟨fuel, rfl⟩ := Nat.exists_eq_add_one_of_ne_zero (show fuel ≠ 0 by omega)
    refine run_equal hrequest hw ?_
    simp only [line, Phrase.text_quoted, List.length_append, List.length_cons] at hfuel
    omega
  · rintro hstatus _ w fuel ⟨_, _, ⟨n, rfl⟩, rfl, rfl⟩ hw hfuel
    have heq : (request == asked) = true := by
      by_contra hne
      rw [if_neg hne] at hstatus
      cases hstatus
    rw [if_pos heq]
    obtain ⟨fuel, rfl⟩ := Nat.exists_eq_add_of_le' (show 2 ≤ fuel by omega)
    refine runAll_singleton (run_echo hw ?_)
    have hlength := Escape.length_le_length_escapeChars cs
    simp only [line, Phrase.text_quoted, List.length_append, List.length_cons] at hfuel
    omega
  · intro hstatus
    rw [if_neg fun heq => hstatus (if_pos heq)]

/-- A block that is not for the two requests is passed over. -/
lemma guard {a b body : List Char} (ha : Quoted a (quotedChars a)) (hb : Quoted b (quotedChars b))
    (hbody : Readable false body) (hrequest : request ≠ ['!'] ∧ isBinary request = false)
    (hasked : request = a ∨ request = b) (h : Finishes request tree rest printed printed') :
    Finishes request tree ("if".toList ++ ' ' ::
      ((line (.plain "[") [.plain "!", argumentPhrase, .plain "=", .quoted ha, .plain "]"] ++
      ' ' :: '&' :: '&' :: ' ' ::
        line (.plain "[") [.plain "!", argumentPhrase, .plain "=", .quoted hb, .plain "]"]) ++
      ';' :: ' ' :: ("then".toList ++ '\n' :: (body ++ "fi".toList))) ++ '\n' ::
        rest) printed printed' := by
  refine ifThen 1 ((commandText_differ ha).and (commandText_differ hb)) hbody ?_
    (fun h => by cases h)
    (fun _ => rfl) h
  rintro _ w fuel ⟨_, _, ⟨m, rfl⟩, ⟨n, rfl⟩, rfl⟩ hw hfuel
  simp only [line, Phrase.text_quoted, List.length_append, List.length_cons] at hfuel
  obtain ⟨fuel, rfl⟩ := Nat.exists_eq_add_of_le' (show 2 ≤ fuel by omega)
  refine run_andThen (run_differ hrequest hw (by omega)) (fun w' hstatus hw' => ?_) ?_
  · -- The first test succeeds only for the second request, which fails the second test.
    have hne : request ≠ a := by
      rintro rfl
      simp at hstatus
    have hlast := run_differ (n := n) hrequest hw' (show b.length + 15 < fuel by omega)
    simpa [hasked.resolve_left hne] using hlast
  · intro hstatus
    split
    · rename_i hne
      exact absurd (if_pos hne) hstatus
    · rfl

end Finishes

end

end Shell

namespace Script

open Shell

/-! ## The script of a template -/

/-- The texts of a template can stand where the script has them. -/
structure Fitting (t : Template) (path : Option String) : Prop where
  vars : ∀ v ∈ t.vars, Name.Valid v.name
  defaults : ∀ v ∈ t.vars, ∀ d, v.default = some d → Quotable d
  descriptions : ∀ v ∈ t.vars, ∀ d, v.description = some d → Quotable d
  chains : ∀ c ∈ t.chains, Name.Valid c.name ∧ Name.Valid c.base ∧ ∀ f ∈ c.filters, Name.Valid f
  skeleton : Quotable t.skeleton
  forHelp : Quotable (OutputPath.forHelp path)
  forScript : Quotable (OutputPath.forScript path)
  directory : ∀ d, OutputPath.directory? path = some d → Quotable d

/-- The texts of a template can stand where the script has them, and its filters can be called. -/
structure Presentable (t : Template) (path : Option String) : Prop extends Fitting t path where
  filters : ∀ c ∈ t.chains, ∀ f ∈ c.filters, reservedWords.contains f = false

variable {lib : FilterLibrary} {t : Template} {path : Option String}

/-- The part of the block before the filters reads as commands. -/
lemma Fitting.head (h : Fitting t path) (name : String) :
    Section (declarations t ++ arguments name t path ++ Script.defaults t ++ checks t) := by
  have harguments : Section (declarations t ++ arguments name t path) :=
    (section_declarations h.vars).append
      (section_arguments name h.vars h.descriptions h.forHelp).toSection
  exact (harguments.append (section_defaults h.vars h.defaults)).append (section_checks h.vars)

/-- The filters of a template read as commands, if their definitions do. -/
lemma Presentable.section_filters (h : Presentable t path)
    (hlib : ∀ f ∈ t.usedFilters, ∀ s, lib.function? f = some s → FullSection s) :
    Section (Script.filters lib t) := by
  refine Script.section_filters hlib fun c hc => ?_
  obtain ⟨hname, hbase, hvalid⟩ := h.chains c hc
  exact ⟨hname, hbase, fun f hf => ⟨hvalid f hf, h.filters c hc f hf⟩⟩

/-- A reference between double quotes. -/
lemma quotable_reference {n : String} (hn : Name.Valid n) : Quotable ("$\x7b" ++ n ++ "\x7d") := by
  have hscanned : scanned ("$\x7b" ++ n ++ "\x7d") = '$' :: '{' :: (n.toList ++ ['}']) := by
    simp (disch := first | with_reducible rfl | decide) only [scanned_append, scanned_literal,
      scanned_of_valid hn, List.cons_append, List.nil_append]
  exact ⟨_, hscanned ▸ Inside.reference (isName_of_valid hn)⟩

/-- A row of texts that may stand in double quotes may do so. -/
lemma quotable_join {ss : List String} (h : ∀ s ∈ ss, Quotable s) : Quotable (String.join ss) := by
  induction ss with
  | nil => exact .literal rfl rfl
  | cons s ss ih =>
    rw [String.join_cons]
    exact (h s (by simp)).append (ih fun u hu => h u (by simp [hu]))

/-- The text of a template that was read can stand between double quotes. -/
lemma quotable_skeleton {source : String} (h : Template.parse source = .ok t) :
    Quotable t.skeleton := by
  obtain ⟨ps, hrow, -, -, rfl⟩ := Source.parse_eq_ok.mp h
  rw [Source.skeleton_eq]
  refine quotable_join ?_
  simp only [List.mem_map]
  rintro _ ⟨p, hp, rfl⟩
  have hwell := hrow.wellFormed p hp
  cases p with
  | literal text => exact .escape _
  | placeholder body =>
    refine quotable_reference ?_
    rw [Source.names_eq_cons]
    exact Name.valid_joinWith (Source.names_eq_cons body ▸ Source.body_iff.mp hwell)

/-- A path without special characters stays without them when its name is replaced. -/
lemma quotable_substitute {placeholder : String} (hpath : OutputPath.Plain path)
    (hstart : placeholder.toList.head? ≠ some '/') (h : Quotable placeholder) :
    Quotable (OutputPath.substitute path placeholder) := by
  rw [OutputPath.substitute_eq (.inl hstart)]
  exact (Quotable.append (.plain hpath.lead) h).append (.plain hpath.tail)

/-- A template that was read can stand in a script, if the path has no special characters. -/
lemma fitting_of_parse {source : String} (h : Template.parse source = .ok t)
    (hpath : OutputPath.Plain path) (defaults descriptions : String → Option String) :
    Fitting (t.annotate defaults descriptions) path := by
  have hnamed := (Template.wellNamed_of_parse h).annotate defaults descriptions
  -- All texts of an annotated template were escaped, but for the path, which has nothing to escape.
  have hescaped {text : Option String} {d : String} (hd : text.map Escape.escape = some d) :
      Quotable d := by
    obtain ⟨s, -, rfl⟩ := Option.map_eq_some_iff.mp hd
    exact .escape s
  constructor
  · exact hnamed.valid
  · intro v hv d hd
    exact hescaped ((Template.texts_of_mem_annotate hv).1 ▸ hd)
  · intro v hv d hd
    exact hescaped ((Template.texts_of_mem_annotate hv).2 ▸ hd)
  · exact hnamed.chains
  · exact (quotable_skeleton h : Quotable t.skeleton)
  · exact quotable_substitute hpath (by decide) (.literal rfl (by decide))
  · exact quotable_substitute hpath (by decide) (quotable_reference (n := "name") (by decide))
  · intro d hd
    exact .plain (hpath.directory? hd)

/-- Its filters can be called, if none of them is a reserved word. -/
lemma presentable_of_parse {source : String} (h : Template.parse source = .ok t)
    (hfilters : ∀ c ∈ t.chains, ∀ f ∈ c.filters, f ∉ reservedWords)
    (hpath : OutputPath.Plain path) (defaults descriptions : String → Option String) :
    Presentable (t.annotate defaults descriptions) path := by
  refine ⟨fitting_of_parse h hpath defaults descriptions, fun c hc f hf => ?_⟩
  simpa using hfilters c hc f hf

/-- A request is told apart from other arguments of a test. -/
lemma plain_request {request : List Char}
    (h : request = "get-template".toList ∨ request = "get-vars".toList) :
    request ≠ ['!'] ∧ request ≠ ['('] ∧ isBinary request = false := by
  rcases h with rfl | rfl <;> decide

/-- The texts of the two requests between double quotes. -/
lemma quoted_requests : Quoted "get-template".toList (quotedChars "get-template".toList) ∧
    Quoted "get-vars".toList (quotedChars "get-vars".toList) := by
  have hplain (s : String) (hs : s.toList.all (Escape.isSpecial · = false) = true) :=
    (Inside.plain (List.all_iff_forall_prop.mp hs)).quoted
  exact ⟨hplain "get-template" (by decide), hplain "get-vars" (by decide)⟩

set_option maxRecDepth 4000 in
/-- Asked for its source or its payload, the script of a template prints that text and nothing else,
if its filters read as commands. -/
lemma finishes_compile_of_section (h : Fitting t path) (hfilters : Section (filters lib t))
    (name : String) (tree : Files.Tree) {request : List Char}
    (hrequest : request = "get-template".toList ∨ request = "get-vars".toList) :
    Finishes request tree (scanned (compile lib name t path)) []
      (Shell.echo
        [scanned
          (if request = "get-template".toList then t.source else Metadata.payload t path)]) := by
  obtain ⟨hbang, hparen, hbinary⟩ := plain_request hrequest
  have hquoted (s : String) := (Inside.escaped (scanned s)).quoted
  obtain ⟨htemplate, hvars⟩ := quoted_requests
  have hinside :=
    ((h.head name).append hfilters).append_full (section_output h.skeleton h.forScript h.directory)
  have hblock : Readable false _ :=
    RowsText.empty (RowsText.comment 0 " normal template-outputing block".toList (by decide)
    (hinside lays_readable
      (RowsText.empty (RowsText.comment 0 " end normal block".toList (by decide) Readable.nil))
        false))
  -- The script from its end: the two requests, the block that is passed over, the first lines.
  have hpayload (printed : List Char) :=
    Finishes.onRequest printed hvars (hquoted (Metadata.payload t path))
    ⟨hbang, hparen⟩ (.nil (t := tree))
  have hsource :=
    Finishes.onRequest [] htemplate (hquoted t.source) ⟨hbang, hparen⟩ (.empty (hpayload _))
  have hediting :=
    Runs.empty (.comment " template editing section".toList (by decide) (.empty hsource))
  have hguard := Finishes.guard htemplate hvars hblock ⟨hbang, hbinary⟩ hrequest hediting
  have hscript := Runs.comment "!/bin/sh".toList (by decide) (.set (.empty hguard))
  have hprinted : (if (request == "get-vars".toList) = true
      then (if (request == "get-template".toList) = true
        then [] ++ Shell.echo [scanned t.source] else []) ++
        Shell.echo [scanned (Metadata.payload t path)]
      else if (request == "get-template".toList) = true
        then [] ++ Shell.echo [scanned t.source] else []) =
      Shell.echo
        [scanned
          (if request = "get-template".toList then t.source else Metadata.payload t path)] := by
    rcases hrequest with rfl | rfl
    · rw [if_neg (by decide), if_pos (by decide), if_pos rfl, List.nil_append]
    · rw [if_pos (by decide), if_neg (by decide), if_neg (by decide), List.nil_append]
  rw [hprinted] at hscript
  delta compile preamble guardOpen guardClose editing Script.echo
  simp (disch := first | with_reducible rfl | decide) only [scanned_append, scanned_literal,
    scanned_escape] at hscript ⊢
  simp (disch := with_reducible rfl) only [Text.toList_literal, List.reduceReplicate, Shell.line,
    Phrase.text_plain, Phrase.text_quoted, List.append_assoc, List.cons_append,
    List.nil_append] at hscript ⊢
  exact hscript

/-- With the built-in filters, the script of a template answers both requests. -/
lemma finishes_compile (h : Presentable t path) (name : String) (tree : Files.Tree)
    {request : List Char}
    (hrequest : request = "get-template".toList ∨ request = "get-vars".toList) :
    Finishes request tree (scanned (compile {} name t path)) []
      (Shell.echo
        [scanned
          (if request = "get-template".toList then t.source else Metadata.payload t path)]) :=
  finishes_compile_of_section h.toFitting (h.section_filters fun _ _ _ => section_filter) name tree
    hrequest

end Script

end Stencil
