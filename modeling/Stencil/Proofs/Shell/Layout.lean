import Stencil.Proofs.Shell.Arguments

/-!
# Reading laid out text

What the reader makes of text that is laid out as scripts are: words with single blanks between
them, and a command, the head of a compound command or a comment on each line. The statements say of
a text what those on lexemes say of its lexemes, and follow how texts are put together.
-/

namespace Stencil.Shell

namespace Lexes

variable {text mid rest : List Char} {l : Lexeme} {ls ls' : List Lexeme}

/-- What falls into lexemes can be followed by more that does. -/
lemma append (h : Lexes text ls mid) (h' : Lexes mid ls' rest) : Lexes text (ls ++ ls') rest := by
  induction h with
  | nil => exact h'
  | cons hl _ ih => exact .cons hl (ih h')

/-- A blank before a lexeme is skipped. -/
lemma blank (h : Lexes text (l :: ls) rest) : Lexes (' ' :: text) (l :: ls) rest := by
  cases h with
  | cons hl hls => exact .cons hl.blank hls

/-- An indentation does not count. -/
lemma indent (k : Nat) (h : Lexes text (l :: ls) rest) :
    Lexes (List.replicate k ' ' ++ text) (l :: ls) rest := by
  induction k with
  | zero => exact h
  | succ k ih => exact ih.blank

end Lexes

/-- The text falls into the lexemes, if a word may end behind it. -/
def Spells (text : List Char) (ls : List Lexeme) : Prop :=
  ∀ ⦃mid : List Char⦄, Breaks mid → Lexes (text ++ mid) ls mid

/-- The text falls into the lexemes, whatever follows. -/
def Lines (text : List Char) (ls : List Lexeme) : Prop :=
  ∀ mid : List Char, Lexes (text ++ mid) ls mid

/-! ## Words -/

/-- The characters of names are no marks. -/
lemma not_mem_of_isNameChar {c : Char} {marks : List Char}
    (hm : marks.all (fun d => !isNameChar d) = true) (hc : isNameChar c = true) :
    marks.contains c = false := by
  rw [List.contains_eq_mem, decide_eq_false_iff_not]
  intro hmem
  have := List.all_eq_true.mp hm c hmem
  simp [hc] at this

/-- A character of a name can start a word. -/
lemma startsWord_of_isNameChar {c : Char} (hc : isNameChar c = true) : Lex.startsWord c = true := by
  rw [Lex.startsWord, not_mem_of_isNameChar (by decide) hc]
  rfl

/-- A character of a name is ordinary in a word. -/
lemma isOrdinary_of_isNameChar {c : Char} (hc : isNameChar c = true) :
    Mode.bare.isOrdinary c = true := by
  simp only [Mode.isOrdinary]
  rw [not_mem_of_isNameChar (by decide) hc]
  rfl

/-- The text of a word, with what is known of the word. -/
structure Phrase where
  text : List Char
  means : Word → Prop
  starts : text.head?.any Lex.startsWord = true
  ending : Ending text means

namespace Phrase

/-- The lexeme that the phrase is read as. -/
def lexeme (p : Phrase) : Lexeme :=
  .word p.means

/-- Up to where it breaks off, the text of a phrase is read as its lexeme. -/
lemma lex (p : Phrase) {rest : List Char} (hb : Breaks rest) :
    Lex (p.text ++ rest) p.lexeme rest := by
  obtain ⟨text, means, starts, ending⟩ := p
  cases text with
  | nil => cases starts
  | cons c cs => exact Lex.word starts ending hb

/-- The text of a phrase spells its lexeme. -/
lemma spells (p : Phrase) : Spells p.text [p.lexeme] :=
  fun mid hb => .cons (p.lex hb) (.nil mid)

/-- Are the characters those of a word without quotes? -/
def isPlain (cs : List Char) : Bool :=
  cs.head?.any Lex.startsWord && cs.all Mode.bare.isOrdinary

/-- A name is a plain word. -/
lemma isPlain_of_isName {n : List Char} (hn : isName n = true) : isPlain n = true := by
  obtain ⟨c, cs, rfl, -, hall⟩ := exists_of_isName hn
  rw [isPlain, Bool.and_eq_true, List.all_eq_true]
  exact ⟨startsWord_of_isNameChar (hall c (by simp)),
    fun d hd => isOrdinary_of_isNameChar (hall d hd)⟩

/-- A word of ordinary characters. -/
def plain (w : String) (h : isPlain w.toList = true := by decide) : Phrase where
  text := w.toList
  means := (· = plainWord w.toList)
  starts := (Bool.and_eq_true _ _ ▸ h).1
  ending := by
    have hall : ∀ c ∈ w.toList, Mode.bare.isOrdinary c = true := by
      rw [isPlain, Bool.and_eq_true, List.all_eq_true] at h
      exact h.2
    have hend : Ending [] fun v => w.toList.map (.char · false) ++ v = plainWord w.toList :=
      .nil (List.append_nil _)
    simpa using Ending.chars (Q := (· = plainWord w.toList)) hall hend

/-- A word between double quotes. -/
def quoted {cs : List Char} {v : Word} (h : Quoted cs v) : Phrase where
  text := '\x22' :: (cs ++ ['\x22'])
  means := (· = .quote :: v)
  starts := rfl
  ending := .quotes h (.nil (by simp))

/-- A word between single quotes. -/
def apostrophes (cs : List Char) (h : '\x27' ∉ cs := by decide) : Phrase where
  text := '\x27' :: (cs ++ ['\x27'])
  means := (· = .quote :: quotedChars cs)
  starts := rfl
  ending := .apostrophes h (.nil (by simp))

/-- The number of arguments. -/
def count : Phrase where
  text := ['$', '#']
  means := (· = [.param ['#'] .value [] false])
  starts := rfl
  ending := .count (.nil rfl)

/-- A name with a value behind it. -/
def assign {n cs : List Char} {W : Word → Prop} (hn : isName n = true) (h : Ending cs W) :
    Phrase where
  text := n ++ '=' :: cs
  means := fun w => ∃ v, W v ∧ w = plainWord n ++ .char '=' false :: v
  starts := by
    obtain ⟨c, n, rfl, -, hall⟩ := exists_of_isName hn
    exact startsWord_of_isNameChar (hall c (by simp))
  ending := by
    have hall : ∀ c ∈ n ++ ['='], Mode.bare.isOrdinary c = true := by
      intro c hc
      rcases List.mem_append.mp hc with hc | hc
      · obtain ⟨_, _, rfl, -, hall⟩ := exists_of_isName hn
        exact isOrdinary_of_isNameChar (hall c hc)
      · rw [List.mem_singleton.mp hc]
        decide
    have := Ending.chars (Q := fun w => ∃ v, W v ∧ w = plainWord n ++ .char '=' false :: v) hall
      (h.mono fun v hv => ⟨v, hv, by simp [plainWord]⟩)
    rwa [List.append_assoc] at this

/-- A plain word is written as it is. -/
@[simp]
lemma text_plain {w : String} (h : isPlain w.toList = true) : (plain w h).text = w.toList :=
  rfl

/-- A quoted text is written between double quotes. -/
@[simp]
lemma text_quoted {cs : List Char} {v : Word} (h : Quoted cs v) :
    (quoted h).text = '\x22' :: (cs ++ ['\x22']) :=
  rfl

/-- A text between apostrophes is written with them. -/
@[simp]
lemma text_apostrophes {cs : List Char} (h : '\x27' ∉ cs) :
    (apostrophes cs h).text = '\x27' :: (cs ++ ['\x27']) :=
  rfl

/-- The number of arguments is written with a dollar. -/
@[simp]
lemma text_count : count.text = ['$', '#'] :=
  rfl

/-- An assignment is written with an equality sign. -/
@[simp]
lemma text_assign {n cs : List Char} {W : Word → Prop} (hn : isName n = true) (h : Ending cs W) :
    (assign hn h).text = n ++ '=' :: cs :=
  rfl

end Phrase

/-- Words with a blank between them. -/
def line (p : Phrase) : List Phrase → List Char
  | [] => p.text
  | q :: ps => p.text ++ ' ' :: line q ps

/-- The phrases of a line are its words. -/
lemma spells_line (p : Phrase) (ps : List Phrase) :
    Spells (line p ps) ((p :: ps).map Phrase.lexeme) := by
  induction ps generalizing p with
  | nil => exact p.spells
  | cons q ps ih =>
    intro mid hb
    rw [line, List.append_assoc]
    exact .cons (p.lex rfl) (ih q hb).blank

/-! ## Commands -/

/-- The text reads as a command that satisfies `Q`, in the sense of `G`. -/
def Spelled (G : List Lexeme → (Command → Prop) → Prop) (text : List Char) (Q : Command → Prop) :
    Prop :=
  ∃ ls, G ls Q ∧ Spells text ls

/-- The text is a command. -/
abbrev CommandText := Spelled IsCommand

/-- The text is a list of commands. -/
abbrev ListText := Spelled IsList

/-- The lines read as a row of commands that satisfies `Q`. Unless the row can end at once, it holds
a command. -/
def RowsText (canEnd : Bool) (text : List Char) (Q : List Command → Prop) : Prop :=
  ∃ ls, IsRows canEnd ls Q ∧ Lines text ls

/-- The command of a text may be described by less. -/
lemma CommandText.mono {text : List Char} {P Q : Command → Prop} (h : CommandText text P)
    (hPQ : ∀ c, P c → Q c) :
    CommandText text Q := by
  obtain ⟨ls, hls, hs⟩ := h
  exact ⟨ls, hls.mono hPQ, hs⟩

/-- A list indented. -/
lemma ListText.indent {text : List Char} {P : Command → Prop} (k : Nat) (h : ListText text P) :
    ListText (List.replicate k ' ' ++ text) P := by
  obtain ⟨ls, hls, hs⟩ := h
  obtain ⟨l, ls', rfl, -⟩ := hls.begins
  refine ⟨_, hls, fun mid hb => ?_⟩
  rw [List.append_assoc]
  exact (hs hb).indent k

/-- A command alone is a list. -/
lemma CommandText.list {text : List Char} {P : Command → Prop} (h : CommandText text P) :
    ListText text P := by
  obtain ⟨ls, hls, hs⟩ := h
  exact ⟨ls, hls.pipeline.list, hs⟩

/-- Two commands joined by `&&`. -/
lemma CommandText.and {t u : List Char} {P Q : Command → Prop} (h₁ : CommandText t P)
    (h₂ : CommandText u Q) :
    ListText (t ++ ' ' :: '&' :: '&' :: ' ' :: u) fun c => ∃ a b, P a ∧ Q b ∧ c = .andThen a b := by
  obtain ⟨ls₁, hls₁, hs₁⟩ := h₁
  obtain ⟨ls₂, hls₂, hs₂⟩ := h₂
  obtain ⟨l, ls₂, rfl, -⟩ := hls₂.begins
  refine ⟨_, hls₁.pipeline.and hls₂.pipeline, fun mid hb => ?_⟩
  rw [List.append_assoc]
  exact (hs₁ (by rfl)).append (Lexes.blank (.cons (.and _) (hs₂ hb).blank))

/-- The text reads as the commands behind a first one, each behind a bar. -/
def BarsText (text : List Char) (Q : List Command → Prop) : Prop :=
  ∃ ls, IsBars ls Q ∧ ∀ ⦃mid : List Char⦄, Breaks mid → Breaks (text ++ mid) ∧
    Lexes (text ++ mid) ls mid

/-- After the last command no bar follows. -/
lemma BarsText.nil : BarsText [] (· = []) :=
  ⟨[], .nil, fun mid hb => ⟨hb, .nil mid⟩⟩

/-- A bar is followed by a command and by further bars. -/
lemma BarsText.cons {t bs : List Char} {P : Command → Prop} {Q : List Command → Prop}
    (h : CommandText t P) (hbs : BarsText bs Q) :
    BarsText (' ' :: '|' :: ' ' :: (t ++ bs)) fun cs => ∃ c cs', P c ∧ Q cs' ∧ cs = c :: cs' := by
  obtain ⟨ls, hls, hs⟩ := h
  obtain ⟨ls', hls', hs'⟩ := hbs
  obtain ⟨l, ls, rfl, -⟩ := hls.begins
  refine ⟨_, .cons hls hls', fun mid hb => ⟨rfl, ?_⟩⟩
  obtain ⟨hbreaks, hlex⟩ := hs' hb
  simp only [List.cons_append, List.append_assoc]
  exact Lexes.blank (.cons (.pipe (by decide) (by decide) _) (((hs hbreaks).append hlex).blank))

/-- Commands joined by bars. -/
lemma CommandText.bars {t bs : List Char} {P : Command → Prop} {Q : List Command → Prop}
    (h : CommandText t P) (hbs : BarsText bs Q) :
    ListText (t ++ bs) fun p => ∃ c cs, P c ∧ Q cs ∧
      p = if cs.isEmpty then c else .pipeline false (c :: cs) := by
  obtain ⟨ls, hls, hs⟩ := h
  obtain ⟨ls', hls', hs'⟩ := hbs
  refine ⟨_, (hls.bars hls').list, fun mid hb => ?_⟩
  rw [List.append_assoc]
  exact (hs (hs' hb).1).append (hs' hb).2

/-- Words that do not start with a reserved one are a simple command. -/
lemma CommandText.simple {p : Phrase} {ps : List Phrase} {Q : Simple → Prop} (hp : Free p.means)
    (h : Simple.Gathers {} Q ((p :: ps).map Phrase.lexeme)) :
    CommandText (line p ps) fun c => ∃ line q, Q q ∧
      c = .simple line q.assignments q.words q.redirects :=
  ⟨_, .simple hp h, spells_line p ps⟩

/-- Words before a greater-than sign, with the file to write behind it, are a simple command. -/
lemma CommandText.into {p q : Phrase} (ps : List Phrase) {Q : Simple → Prop} (hp : Free p.means)
    (h : Simple.Gathers {} Q ((p :: ps).map Phrase.lexeme ++ [.redirect 1 .write, q.lexeme])) :
    CommandText (line p ps ++ ' ' :: '>' :: ' ' :: q.text)
      fun c => ∃ line q, Q q ∧ c = .simple line q.assignments q.words q.redirects := by
  refine ⟨_, .simple hp h, fun mid hb => ?_⟩
  rw [List.append_assoc]
  exact (spells_line p ps (by rfl)).append (Lexes.blank (.cons (.output _) (q.spells hb).blank))

/-! ## Lines -/

namespace RowsText

variable {canEnd : Bool} {text t : List Char} {P : Command → Prop} {Q : List Command → Prop}

/-- The commands of some lines may be described by less. -/
lemma mono {R : List Command → Prop} (h : RowsText canEnd text Q) (hQR : ∀ cs, Q cs → R cs) :
    RowsText canEnd text R := by
  obtain ⟨ls, hls, hs⟩ := h
  exact ⟨ls, hls.mono hQR, hs⟩

/-- No line is a row of no commands. -/
lemma nil : RowsText true [] (· = []) :=
  ⟨[], .nil, .nil⟩

/-- An empty line does not count. -/
lemma empty (h : RowsText canEnd text Q) : RowsText canEnd ('\n' :: text) Q := by
  obtain ⟨ls, hls, hs⟩ := h
  exact ⟨_, hls.newline, fun mid => .cons (.newline _) (hs mid)⟩

/-- A comment does not count. -/
lemma comment (k : Nat) (cs : List Char) (hcs : '\n' ∉ cs) (h : RowsText canEnd text Q) :
    RowsText canEnd (List.replicate k ' ' ++ '#' :: (cs ++ '\n' :: text)) Q := by
  obtain ⟨ls, hls, hs⟩ := h
  refine ⟨_, hls.newline, fun mid => ?_⟩
  simp only [List.append_assoc, List.cons_append]
  exact Lexes.indent k (.cons (.comment hcs (.newline _)) (hs mid))

/-- A line with a list. -/
lemma cons (h : ListText t P) (hrows : RowsText true text Q) :
    RowsText canEnd (t ++ '\n' :: text) fun cs => ∃ c cs', P c ∧ Q cs' ∧ cs = c :: cs' := by
  obtain ⟨ls, hls, hs⟩ := h
  obtain ⟨ls', hls', hs'⟩ := hrows
  refine ⟨_, .cons hls (.inl rfl) hls', fun mid => ?_⟩
  rw [List.append_assoc]
  exact (hs (by rfl)).append (.cons (.newline _) (hs' mid))

/-- A line with a list and a semicolon. -/
lemma cons_semicolon (h : ListText t P) (hrows : RowsText true text Q) :
    RowsText canEnd (t ++ ';' :: '\n' :: text) fun cs => ∃ c cs', P c ∧ Q cs' ∧ cs = c :: cs' := by
  obtain ⟨ls, hls, hs⟩ := h
  obtain ⟨ls', hls', hs'⟩ := hrows
  refine ⟨_, .cons hls (.inr rfl) hls'.newline, fun mid => ?_⟩
  rw [List.append_assoc]
  exact (hs (by rfl)).append
    (.cons (.semicolon (by decide) (by decide) _) (.cons (.newline _) (hs' mid)))

end RowsText

/-! ## Compound commands -/

/-- A reserved word stands by itself. -/
lemma Lexes.keyword {w : String} (hw : Phrase.isPlain w.toList = true) {mid rest : List Char}
    {ls : List Lexeme} (hb : Breaks mid) (h : Lexes mid ls rest) :
    Lexes (w.toList ++ mid) (.plain w :: ls) rest :=
  .cons ((Phrase.plain w hw).lex hb) h

/-- A list with a semicolon before a word. -/
lemma Lexes.semicolon {t mid rest : List Char} {ls ls' : List Lexeme} {l : Lexeme} (j : Nat)
    (h : Spells t ls) (h' : Lexes mid (l :: ls') rest) :
    Lexes (t ++ (List.replicate j ' ' ++ ';' :: ' ' :: mid)) (ls ++ .mark .semicolon :: l :: ls')
      rest := by
  have hmark := Lexes.indent j (.cons (.semicolon (by decide) (by decide) mid) h'.blank)
  refine (h ?_).append hmark
  cases j <;> rfl

section

variable {t b d : List Char} {P : Command → Prop} {Q R : List Command → Prop}

/-- A conditional without an `else`. -/
lemma CommandText.ifThen (j k : Nat) (ht : ListText t P) (hb : RowsText false b Q) :
    CommandText ("if".toList ++ ' ' :: (t ++ (List.replicate j ' ' ++ ';' :: ' ' ::
      ("then".toList ++
        '\n' :: (b ++ (List.replicate k ' ' ++ "fi".toList))))))
      fun c => ∃ a cs, P a ∧ Q cs ∧ c = .conditional [([a], cs)] [] [] := by
  obtain ⟨ls, hls, hs⟩ := ht
  obtain ⟨ls', hls', hs'⟩ := hb
  obtain ⟨l, ls, rfl, -⟩ := hls.begins
  have hif := IsCommand.ifThen (.cons hls (.inr rfl) .nil) hls'.newline
  refine ⟨_, hif.mono ?_, fun mid hmid => ?_⟩
  · rintro _ ⟨_, cs, ⟨a, _, ha, rfl, rfl⟩, hcs, rfl⟩
    exact ⟨a, cs, ha, hcs, rfl⟩
  · simp only [List.append_assoc, List.cons_append, List.nil_append]
    refine .keyword (by decide) (by rfl) (Lexes.blank (.semicolon j hs ?_))
    refine .keyword (by decide) (by rfl) (.cons (.newline _) ?_)
    exact (hs' _).append (Lexes.indent k (.keyword (by decide) hmid (.nil mid)))

/-- A conditional with an `else`. -/
lemma CommandText.ifThenElse (j : Nat) (ht : ListText t P) (hb : RowsText false b Q)
    (hd : RowsText false d R) :
    CommandText ("if".toList ++ ' ' :: (t ++ (List.replicate j ' ' ++ ';' :: ' ' ::
      ("then".toList ++
        '\n' :: (b ++ ("else".toList ++ '\n' :: (d ++ "fi".toList)))))))
      fun c => ∃ a cs os, P a ∧ Q cs ∧ R os ∧ c = .conditional [([a], cs)] os [] := by
  obtain ⟨ls, hls, hs⟩ := ht
  obtain ⟨ls₁, hls₁, hs₁⟩ := hb
  obtain ⟨ls₂, hls₂, hs₂⟩ := hd
  obtain ⟨l, ls, rfl, -⟩ := hls.begins
  have hif := IsCommand.ifThenElse (.cons hls (.inr rfl) .nil) hls₁.newline hls₂.newline
  refine ⟨_, hif.mono ?_, fun mid hmid => ?_⟩
  · rintro _ ⟨_, cs, os, ⟨a, _, ha, rfl, rfl⟩, hcs, hos, rfl⟩
    exact ⟨a, cs, os, ha, hcs, hos, rfl⟩
  · simp only [List.append_assoc, List.cons_append, List.nil_append]
    refine .keyword (by decide) (by rfl) (Lexes.blank (.semicolon j hs ?_))
    refine .keyword (by decide) (by rfl) (.cons (.newline _) ?_)
    refine (hs₁ _).append (.keyword (by decide) (by rfl) (.cons (.newline _) ?_))
    exact (hs₂ _).append (.keyword (by decide) hmid (.nil mid))

/-- A loop. -/
lemma CommandText.whileDo (ht : ListText t P) (hb : RowsText false b Q) :
    CommandText
      ("while".toList ++ ' ' :: (t ++ ';' :: ' ' :: ("do".toList ++ '\n' :: (b ++ "done".toList))))
      fun c => ∃ a cs, P a ∧ Q cs ∧ c = .loop false [a] cs [] := by
  obtain ⟨ls, hls, hs⟩ := ht
  obtain ⟨ls', hls', hs'⟩ := hb
  obtain ⟨l, ls, rfl, -⟩ := hls.begins
  have hwhile := IsCommand.whileDo (.cons hls (.inr rfl) .nil) hls'.newline
  refine ⟨_, hwhile.mono ?_, fun mid hmid => ?_⟩
  · rintro _ ⟨_, cs, ⟨a, _, ha, rfl, rfl⟩, hcs, rfl⟩
    exact ⟨a, cs, ha, hcs, rfl⟩
  · simp only [List.append_assoc, List.cons_append, List.nil_append]
    refine .keyword (by decide) (by rfl) (Lexes.blank (.semicolon 0 hs ?_))
    refine .keyword (by decide) (by rfl) (.cons (.newline _) ?_)
    exact (hs' _).append (.keyword (by decide) hmid (.nil mid))

/-- Commands between braces that a name is given to. -/
lemma CommandText.define {n : String} (hn : isName n.toList = true)
    (hspecial : specialBuiltins.contains n = false) (hres : reservedWords.contains n = false)
    (hb : RowsText false b Q) :
    CommandText (n.toList ++ '(' :: ')' :: ' ' :: ("\x7b".toList ++ '\n' :: (b ++ "\x7d".toList)))
      fun c => ∃ cs, Q cs ∧ c = .define n.toList (.group cs []) := by
  obtain ⟨ls, hls, hs⟩ := hb
  refine ⟨_, (IsCommand.define hn hspecial hres (.group hls.newline)).mono ?_, fun mid hmid => ?_⟩
  · rintro _ ⟨_, ⟨cs, hcs, rfl⟩, rfl⟩
    exact ⟨cs, hcs, rfl⟩
  · simp only [List.append_assoc, List.cons_append]
    refine .keyword (Phrase.isPlain_of_isName hn) (by rfl)
      (.cons (.openParen _) (.cons (.closeParen _) (Lexes.blank ?_)))
    refine .keyword (by decide) (by rfl) (.cons (.newline _) ?_)
    exact (hs _).append (.keyword (by decide) hmid (.nil mid))

end

/-! ## Selections -/

/-- The text reads as the cases of a selection, with the word that ends it. -/
def CasesText (text : List Char) (Q : List (List Word × List Command) → Prop) : Prop :=
  ∃ ls, IsCases ls Q ∧ Spells text ls

/-- The cases of a text may be described by less. -/
lemma CasesText.mono {text : List Char} {P Q : List (List Word × List Command) → Prop}
    (h : CasesText text P) (hPQ : ∀ r, P r → Q r) : CasesText text Q := by
  obtain ⟨ls, hls, hs⟩ := h
  exact ⟨ls, hls.mono hPQ, hs⟩

/-- After the last case comes `esac`. -/
lemma CasesText.esac (k : Nat) : CasesText (List.replicate k ' ' ++ "esac".toList) (· = []) := by
  refine ⟨_, .esac, fun mid hmid => ?_⟩
  rw [List.append_assoc]
  exact Lexes.indent k (.keyword (by decide) hmid (.nil mid))

/-- Further patterns, each behind a bar. -/
lemma lexes_patterns (ps : List Phrase) {mid rest : List Char} {ls : List Lexeme} (hb : Breaks mid)
    (h : Lexes mid ls rest) :
    Breaks ((ps.flatMap fun p => '|' :: p.text) ++ mid) ∧
      Lexes ((ps.flatMap fun p => '|' :: p.text) ++ mid)
        (((ps.map Phrase.means).flatMap fun W => [.mark .pipe, .word W]) ++ ls) rest := by
  induction ps with
  | nil => exact ⟨hb, h⟩
  | cons p ps ih =>
    simp only [List.map_cons, List.flatMap_cons, List.cons_append, List.append_assoc,
      List.nil_append]
    refine ⟨rfl, ?_⟩
    refine .cons ?_ (.cons (p.lex ih.1) ih.2)
    obtain ⟨text, means, starts, ending⟩ := p
    cases text with
    | nil => cases starts
    | cons c cs =>
      have hc : Lex.startsWord c = true := starts
      refine .pipe ?_ ?_ _ <;> rintro rfl <;> revert hc <;> decide

/-- A case is its patterns and the lines up to two semicolons. -/
lemma CasesText.cons {p : Phrase} {b text : List Char} {P : List Command → Prop}
    {Q : List (List Word × List Command) → Prop} (j k : Nat) (ps : List Phrase) (hp : Free p.means)
    (hb : RowsText true b P) (h : CasesText text Q) :
    CasesText (List.replicate j ' ' ++ (p.text ++ ((ps.flatMap fun p => '|' :: p.text) ++ ')' ::
      '\n' ::
        (b ++ (List.replicate k ' ' ++ ';' :: ';' :: '\n' :: text)))))
      fun r => ∃ ws cs r', List.Forall₂ (fun W w => W w) ((p :: ps).map Phrase.means) ws ∧ P cs ∧
        Q r' ∧
        r = (ws, cs) :: r' := by
  obtain ⟨ls, hls, hs⟩ := hb
  obtain ⟨ls', hls', hs'⟩ := h
  refine ⟨_, .cons hp hls.newline hls'.newline, fun mid hmid => ?_⟩
  simp only [List.append_assoc, List.cons_append, patternLexemes]
  have hend := Lexes.indent k (.cons (.endCase _) (.cons (.newline _) (hs' hmid)))
  have hbody := Lexes.cons (.closeParen _) (.cons (.newline _) ((hs _).append hend))
  obtain ⟨hbreaks, hpatterns⟩ := lexes_patterns ps (by rfl) hbody
  exact Lexes.indent j (.cons (p.lex hbreaks) hpatterns)

/-- A selection. -/
lemma CommandText.select {p : Phrase} {text : List Char}
    {Q : List (List Word × List Command) → Prop} (h : CasesText text Q) :
    CommandText ("case".toList ++ ' ' :: (p.text ++ ' ' :: ("in".toList ++ '\n' :: text)))
      fun c => ∃ line w r, p.means w ∧ Q r ∧ c = .select line w r [] := by
  obtain ⟨ls, hls, hs⟩ := h
  refine ⟨_, .select hls.newline, fun mid hmid => ?_⟩
  simp only [List.append_assoc, List.cons_append]
  refine .keyword (by decide) (by rfl) (Lexes.blank (.cons (p.lex (by rfl)) (Lexes.blank ?_)))
  exact .keyword (by decide) (by rfl) (.cons (.newline _) (hs hmid))

/-! ## Substitutions -/

/-- A list between parentheses behind a dollar, which is replaced by what it prints. -/
def Phrase.substitution {t : List Char} {P : Command → Prop} (h : ListText t P)
    (ht : t.head?.any (fun c => c != '(' && c != '\\') = true) : Phrase where
  text := '$' :: '(' :: (t ++ [')'])
  means := fun w => ∃ c, P c ∧ w = [.command [c] false]
  starts := rfl
  ending := by
    obtain ⟨ls, hls, hs⟩ := h
    cases t with
    | nil => cases ht
    | cons c t =>
      have hc : c ≠ '(' ∧ c ≠ '\\' := by simpa using ht
      refine Ending.substitution (fun rest => ?_) hc.2 hc.1 hls fun d hd => .nil ⟨d, hd, rfl⟩
      exact (hs (by rfl)).append (.cons (.closeParen rest) (.nil rest))

/-- A substitution is written between parentheses behind a dollar. -/
@[simp]
lemma Phrase.text_substitution {t : List Char} {P : Command → Prop} (h : ListText t P)
    (ht : t.head?.any (fun c => c != '(' && c != '\\') = true) :
    (substitution h ht).text = '$' :: '(' :: (t ++ [')']) :=
  rfl

end Stencil.Shell
