import Stencil.Proofs.Yaml.Fold
import Stencil.Proofs.Yaml.Scanner

/-!
# Plain texts

A text that may stand plain is a sentence: words with gaps between them, none of which reads as
anything else. However its lines are folded, it is read back as it was (`run_plainFrom`).
-/

namespace Stencil.Yaml

open Style

/-! ## Sentences -/

/-- A row of characters that show, which begins no comment and ends in no colon. -/
structure Word (w : List Char) : Prop where
  ne_nil : w ≠ []
  visible : ∀ c ∈ w, Visible c
  head : w.head? ≠ some '#'
  last : w.getLast? ≠ some ':'

/-- Ways to lay out words with gaps between them. A single blank may become a line break. -/
inductive Sentence (indent : Nat) : List Char → List Char → Prop where
  | word {w : List Char} : Word w → Sentence indent w w
  | blanks {k : Nat} {w cs out : List Char} : Word w → Sentence indent cs out →
    Sentence indent (w ++ (List.replicate (k + 1) ' ' ++ cs))
      (w ++ (List.replicate (k + 1) ' ' ++ out))
  | fold {w cs out : List Char} : Word w → Sentence indent cs out →
    Sentence indent (w ++ ' ' :: cs) (w ++ '\n' :: (List.replicate indent ' ' ++ out))

/-- A text in which nothing has a meaning of its own. -/
structure Bland (cs : List Char) : Prop where
  printed : ∀ c ∈ cs, needsEscape c = false ∧ c ≠ '\n'
  indicator : hasIndicator cs = false
  last : cs.getLast? ≠ some ' '

section

variable {cs ds w out : List Char} {c : Char} {indent : Nat}

/-- A text without indicators has none at its end. -/
lemma hasIndicator_of_append (h : hasIndicator (cs ++ ds) = false) : hasIndicator ds = false := by
  induction cs with
  | nil => exact h
  | cons c cs ih =>
    refine ih ?_
    rw [List.cons_append] at h
    cases hrest : cs ++ ds with
    | nil => rfl
    | cons d rest =>
      rw [hrest, hasIndicator, Bool.or_eq_false_iff] at h
      exact h.2

/-- The end of a bland text is bland. -/
lemma Bland.of_append {p : List Char} (h : Bland (p ++ cs)) : Bland cs where
  printed c hc := h.printed c (by simp [hc])
  indicator := hasIndicator_of_append h.indicator
  last hlast := h.last (by simp [List.getLast?_append, hlast])

/-- No colon stands at the end or before a gap. -/
lemma getLast?_ne_colon (h : hasIndicator (w ++ cs) = false)
    (hcs : ∀ c ∈ cs.head?, isGap c = true) :
    w.getLast? ≠ some ':' := by
  intro hlast
  obtain ⟨w, rfl⟩ : ∃ v, w = v ++ [':'] := List.getLast?_eq_some_iff.mp hlast
  rw [List.append_assoc] at h
  have hcolon := hasIndicator_of_append h
  cases cs with
  | nil => cases hcolon
  | cons c cs =>
    rw [List.singleton_append, hasIndicator, hcs c rfl] at hcolon
    cases hcolon

/-- No comment begins after a gap. -/
lemma head?_ne_sign {k : Nat} {g : Char}
    (h : hasIndicator (cs ++ (List.replicate (k + 1) g ++ ds)) = false) (hg : isGap g = true) :
    ds.head? ≠ some '#' := by
  intro hhead
  obtain ⟨ds, rfl⟩ := List.head?_eq_some_iff.mp hhead
  rw [List.replicate_succ', List.append_assoc, ← List.append_assoc] at h
  have hsign := hasIndicator_of_append h
  rw [List.singleton_append, hasIndicator, hg] at hsign
  simp at hsign

/-- A run of visible characters in a bland text is a word. -/
lemma Bland.word (h : Bland (w ++ cs)) (hne : w ≠ []) (hw : ∀ c ∈ w, isGap c = false)
    (hcs : ∀ c ∈ cs.head?, isGap c = true) (hhead : w.head? ≠ some '#') : Word w where
  ne_nil := hne
  visible c hc := visible_of_needsEscape (h.printed c (by simp [hc])).1 (hw c hc)
  head := hhead
  last := getLast?_ne_colon h.indicator hcs

/-- Laying out a bland text makes a sentence. The second part is about what follows a word. -/
lemma sentence_of_laid_aux (h : Laid indent id cs out) :
    (Bland cs → cs ≠ [] → (∀ c ∈ cs.head?, isGap c = false ∧ c ≠ '#') → Sentence indent cs out) ∧
      ∀ w, Word w → Bland (w ++ cs) → (∀ c ∈ cs.head?, isGap c = true) →
        Sentence indent (w ++ cs) (w ++ out) := by
  induction h with
  | nil =>
    refine ⟨fun _ hne => absurd rfl hne, fun w hw _ _ => ?_⟩
    rw [List.append_nil]
    exact .word hw
  | @word w cs out hne hw hnext _ ih =>
    refine ⟨fun hbland _ hhead => ?_, fun v hv _ hgap => ?_⟩
    · refine ih.2 w (hbland.word hne hw hnext fun h => ?_) hbland hnext
      exact (hhead '#' (by simp [h])).2 rfl
    · obtain ⟨c, w, rfl⟩ := List.exists_cons_of_ne_nil hne
      have hc := hgap c rfl
      rw [hw c (by simp)] at hc
      cases hc
  | @blanks k cs out hnext _ ih =>
    refine ⟨fun _ _ hhead => absurd (hhead ' ' rfl).1 (by decide), fun w hw hbland _ => ?_⟩
    refine .blanks hw (ih.1 hbland.of_append.of_append ?_ fun c hc => ⟨hnext c hc, ?_⟩)
    · rintro rfl
      refine hbland.last ?_
      simp [List.replicate_succ']
    · rintro rfl
      exact head?_ne_sign hbland.indicator rfl hc
  | @fold cs out hnext _ ih =>
    refine ⟨fun _ _ hhead => absurd (hhead ' ' rfl).1 (by decide), fun w hw hbland _ => ?_⟩
    refine .fold hw (ih.1 (hbland.of_append.of_append (p := [' '])) ?_ fun c hc => ⟨hnext c hc, ?_⟩)
    · rintro rfl
      refine hbland.last ?_
      simp
    · rintro rfl
      exact head?_ne_sign (k := 0) hbland.indicator rfl hc
  | @breaks k cs out _ _ ih =>
    refine ⟨fun _ _ hhead => absurd (hhead '\n' rfl).1 (by decide), fun w hw hbland _ => ?_⟩
    exact absurd rfl (hbland.printed '\n' (by simp)).2

/-- A text that may be plain is bland. -/
lemma bland_of_allowsPlain (h : allowsPlain cs = true) : Bland cs := by
  simp only [allowsPlain, allowsSingle, Bool.and_eq_true, Bool.not_eq_true', Bool.or_eq_false_iff,
    List.any_eq_false, bne_iff_ne, List.contains_eq_mem, decide_eq_false_iff_not] at h
  obtain ⟨⟨⟨⟨⟨hsingle, hbreak⟩, -⟩, hlast⟩, -⟩, hindicator⟩ := h
  refine ⟨fun c hc => ⟨by simpa using hsingle.1 c hc, ?_⟩, hindicator, hlast⟩
  rintro rfl
  exact hbreak hc

/-- A text that may be plain starts like one, and not with a blank. -/
lemma startsOtherwise_of_allowsPlain (h : allowsPlain cs = true) :
    startsOtherwise cs = false ∧ cs.head? ≠ some ' ' := by
  simp only [allowsPlain, Bool.and_eq_true, Bool.not_eq_true', bne_iff_ne] at h
  exact ⟨h.1.2, h.1.1.1.2⟩

/-- A text that may be plain does not start with a comment. -/
lemma head?_ne_sign_of_allowsPlain (h : allowsPlain cs = true) : cs.head? ≠ some '#' := by
  intro hhead
  obtain ⟨cs, rfl⟩ := List.head?_eq_some_iff.mp hhead
  have hstart := (startsOtherwise_of_allowsPlain h).1
  simp [startsOtherwise, isOneOf] at hstart

/-- A plain text that is laid out is a sentence. -/
lemma sentence_of_laid (h : Laid indent id cs out) (hplain : allowsPlain cs = true)
    (hne : cs ≠ []) :
    Sentence indent cs out := by
  have hbland := bland_of_allowsPlain hplain
  obtain ⟨-, hblank⟩ := startsOtherwise_of_allowsPlain hplain
  refine (sentence_of_laid_aux h).1 hbland hne fun c hc => ⟨?_, ?_⟩
  · have hprinted := hbland.printed c (List.mem_of_mem_head? hc)
    have hne : c ≠ ' ' := fun h => hblank (h ▸ hc)
    simp [isGap, hne, hprinted.2]
  · rintro rfl
    exact head?_ne_sign_of_allowsPlain hplain hc

end

/-! ## Reading -/

section

variable {s s' : Scanner} {r w cs out tail : List Char} {c : Char} {indent fuel : Nat}

/-- A visible character breaks no line. -/
lemma inline_of_visible (h : Visible c) : Scanner.Inline c :=
  ⟨isBreak_of_isBlankOrEnd (isBlankOrEnd_of_visible h), fun hc => absurd h.2 (by rw [hc]; decide)⟩

/-- A plain text ends before what follows. -/
def Stops (tail : List Char) : Prop :=
  endsPlain false (tail.head?.getD endMark) ((tail.drop 1).head?.getD endMark) = true

/-- A visible character does not end a plain text, unless it is a colon before a blank. -/
lemma endsPlain_of_visible (h : Visible c) {next : Char}
    (hnext : c = ':' → isBlankOrEnd next = false) :
    endsPlain false c next = false := by
  by_cases hc : c = ':'
  · simp [endsPlain, isBlankOrEnd_of_visible h, hnext hc]
  · simp [endsPlain, isBlankOrEnd_of_visible h, hc]

/-- A word is one run of a plain text. -/
lemma plainRun_word (hw : ∀ c ∈ w, Visible c) (hlast : w.getLast? ≠ some ':') (htail : Stops tail) :
    plainRun false (w ++ tail) = w := by
  induction w with
  | nil =>
    cases tail with
    | nil => rfl
    | cons c tail =>
      have hstop : endsPlain false c (tail.head?.getD endMark) = true := htail
      rw [List.nil_append, plainRun, if_pos hstop]
  | cons c w ih =>
    have hrest : plainRun false (w ++ tail) = w := by
      refine ih (fun d hd => hw d (by simp [hd])) fun h => hlast ?_
      rw [List.getLast?_cons, h]
      rfl
    have hnext : c = ':' → isBlankOrEnd ((w ++ tail).head?.getD endMark) = false := by
      rintro rfl
      cases w with
      | nil => exact absurd rfl hlast
      | cons d w => exact isBlankOrEnd_of_visible (hw d (by simp))
    rw [List.cons_append, plainRun, endsPlain_of_visible (hw c (by simp)) hnext, hrest]
    rfl

/-- Blanks stop a run. -/
lemma stops_blanks (k : Nat) (r : List Char) : Stops (List.replicate (k + 1) ' ' ++ r) :=
  rfl

/-- A newline stops a run. -/
lemma stops_newline (r : List Char) : Stops ('\n' :: r) :=
  rfl

/-- A colon before a blank or a line break ends a plain text. -/
lemma stops_colon (hc : isBlankOrEnd c = true) (r : List Char) : Stops (':' :: c :: r) := by
  simp [Stops, endsPlain, hc]

/-- The blanks between two words of a line are read as they are. -/
lemma run_plainSpace_blanks {k : Nat} (h : s.rest = List.replicate k ' ' ++ r) (hr : Starts r) :
    plainSpace.run s = .ok (List.replicate k ' ', s.advanceBy k) := by
  obtain ⟨-, -, hbreak⟩ := hr.peekAt (Scanner.rest_after_replicate h)
  have hrun := run_takeRun (s := s) (· == ' ')
  rw [h, hr.takeWhile_blanks, List.length_replicate] at hrun
  rw [plainSpace, run_then hrun, run_then (run_peek 0), hbreak]
  rfl

/-- The blanks at the start of a line are skipped. -/
lemma run_plainBreaks {k : Nat} (h : s.rest = List.replicate k ' ' ++ r) (hr : Starts r)
    (hfuel : k < fuel) :
    (plainBreaks fuel).run s = .ok (some [], s.advanceBy k) := by
  induction k generalizing s fuel with
  | zero =>
    obtain ⟨fuel, rfl⟩ := Nat.exists_eq_succ_of_ne_zero (Nat.ne_zero_of_lt hfuel)
    obtain ⟨hblank, -, hbreak⟩ := hr.peekAt h
    rw [plainBreaks, run_then (run_peek 0), if_neg (by simpa using hblank), hbreak]
    rfl
  | succ k ih =>
    obtain ⟨fuel, rfl⟩ := Nat.exists_eq_succ_of_ne_zero (Nat.ne_zero_of_lt hfuel)
    rw [plainBreaks, run_then (run_peek 0), peekAt_zero h, if_pos (by decide),
      run_then (run_forward 1), Nat.add_comm k, Scanner.advanceBy_add]
    exact ih (Scanner.rest_after (p := [' ']) h) (by omega)

/-- A line of `m` blanks and `r`, which is neither a comment nor a document mark. -/
structure Line (m : Nat) (r : List Char) : Prop where
  starts : Starts r
  unmarked : m = 0 → ∀ c ∈ r.head?, c ≠ '-' ∧ c ≠ '.'

/-- No mark of a document stands at the start of an indented line. -/
lemma Line.peekAt {m : Nat} (h : Line m r) (hs : s.rest = List.replicate m ' ' ++ r) :
    s.peekAt 0 ≠ '-' ∧ s.peekAt 0 ≠ '.' := by
  cases m with
  | zero =>
    cases r with
    | nil => simp [Scanner.peekAt, hs, endMark]
    | cons c r =>
      rw [peekAt_zero hs]
      exact h.unmarked rfl c rfl
  | succ m =>
    rw [peekAt_zero hs]
    decide

/-- A line break within a plain text counts as a blank, and a key may follow. -/
lemma run_plainSpace_newline {m : Nat} (h : s.rest = '\n' :: (List.replicate m ' ' ++ r))
    (hr : Line m r) :
    plainSpace.run s = .ok ([' '], { s.advanceBy (1 + m) with keyAllowed := true }) := by
  have hrun : (takeRun (· == ' ')).run s = .ok ([], s) := by
    rw [run_takeRun, h]
    rfl
  have hrest : (s.advanceBy 1).rest = List.replicate m ' ' ++ r :=
    Scanner.rest_after (p := ['\n']) h
  obtain ⟨hhyphen, hpoint⟩ := hr.peekAt hrest
  have hmark : atAnyMark.run { s.advanceBy 1 with keyAllowed := true } =
      .ok (false, { s.advanceBy 1 with keyAllowed := true }) := run_atAnyMark hhyphen hpoint
  have hbreaks :
      (plainBreaks ((s.advanceBy 1).rest.length + 1)).run
        { s.advanceBy 1 with keyAllowed := true } =
      .ok (some [], Scanner.advanceBy m { s.advanceBy 1 with keyAllowed := true }) :=
    run_plainBreaks hrest hr.starts
      (by rw [hrest, List.length_append, List.length_replicate]; omega)
  rw [Scanner.advanceBy_mk m (s.advanceBy 1), ← Scanner.advanceBy_add] at hbreaks
  rw [plainSpace, run_then hrun, run_then (run_peek 0), peekAt_zero h, if_pos (by decide),
    run_then (run_lineBreak_newline h), run_then (run_allowKey true), run_then hmark,
    if_neg (by decide), run_get_then, run_then hbreaks]
  simp

/-- One step of reading a plain text takes a run and what stands behind it. -/
lemma plainFrom_succ (space : List Char) (fuel : Nat) : plainFrom space (fuel + 1) = (do
    if (← peek) == '#' then return []
    let s ← get
    let run := plainRun (s.depth != 0) s.rest
    if run.isEmpty then return []
    allowKey false
    forward run.length
    let more ← plainSpace
    let s' ← get
    if more.isEmpty || s'.peekAt 0 == '#' ||
      (s'.depth == 0 && (s'.column : Int) < s'.indent + 1) then
      return space ++ run
    else return space ++ run ++ (← plainFrom more fuel)) :=
  rfl

/-- The scanner behind `n` characters of a scalar, where no key may begin. -/
def Scanner.behind (s : Scanner) (n : Nat) : Scanner :=
  { s.advanceBy n with keyAllowed := false }

/-- Moving behind a text does not change how deep the brackets are nested. -/
@[simp]
lemma Scanner.depth_behind (s : Scanner) (n : Nat) : (s.behind n).depth = s.depth :=
  s.depth_advanceBy n

/-- Moving behind a text does not change the indentation. -/
@[simp]
lemma Scanner.indent_behind (s : Scanner) (n : Nat) : (s.behind n).indent = s.indent :=
  s.indent_advanceBy n

/-- Whether a key is allowed is settled anew behind a text. -/
lemma Scanner.behind_mk (s : Scanner) (b : Bool) (n : Nat) :
    ({ s with keyAllowed := b } : Scanner).behind n = s.behind n := by
  rw [behind, advanceBy_mk]
  simp [behind]

/-- Moving on before is part of moving behind. -/
lemma Scanner.behind_advanceBy (s : Scanner) (m n : Nat) :
    (s.advanceBy m).behind n = s.behind (m + n) := by
  rw [behind, behind, advanceBy_add]

/-- Moving behind two texts is moving behind both. -/
lemma Scanner.behind_behind (s : Scanner) (m n : Nat) :
    (s.behind m).behind n = s.behind (m + n) := by
  rw [behind.eq_1 s m, behind_mk, behind_advanceBy]

/-- Moving on afterwards is part of moving behind. -/
lemma Scanner.advanceBy_behind (s : Scanner) (m n : Nat) :
    (s.behind m).advanceBy n = s.behind (m + n) := by
  rw [behind, advanceBy_mk, behind, advanceBy_add]
  simp

/-- A word, and the gap after it. -/
lemma run_plainFrom_word {space more : List Char} (hw : Word w) (htail : Stops tail)
    (h : s.rest = w ++ tail) (hdepth : s.depth = 0)
    (hmore : plainSpace.run (s.behind w.length) = .ok (more, s')) :
    (plainFrom space (fuel + 1)).run s =
      (if more.isEmpty || s'.peekAt 0 == '#' ||
        (s'.depth == 0 && (s'.column : Int) < s'.indent + 1) then
        return space ++ w
      else return space ++ w ++ (← plainFrom more fuel) : ScanM (List Char)).run s' := by
  obtain ⟨c, v, hcons⟩ := List.exists_cons_of_ne_nil hw.ne_nil
  have hsign : s.peekAt 0 ≠ '#' := by
    rw [peekAt_zero (h.trans (by rw [hcons, List.cons_append]))]
    rintro rfl
    exact hw.head (by rw [hcons]; rfl)
  have hrun : plainRun (s.depth != 0) s.rest = w := by
    rw [h, hdepth]
    exact plainRun_word hw.visible hw.last htail
  have hempty : ¬ w.isEmpty = true := by simp [hcons]
  have hbehind : Scanner.advanceBy w.length { s with keyAllowed := false } = s.behind w.length := by
    rw [Scanner.advanceBy_mk]
    simp [Scanner.behind]
  rw [plainFrom_succ, run_then (run_peek 0), if_neg (by simpa using hsign), run_get_then]
  simp only [hrun]
  rw [if_neg hempty, run_then (run_allowKey false), run_then (run_forward _), hbehind,
    run_then hmore, run_get_then]

/-- A word before a colon. -/
lemma run_plainFrom_colon {space : List Char} (hw : Word w) (h : s.rest = w ++ ':' :: c :: r)
    (hc : isBlankOrEnd c = true) (hdepth : s.depth = 0) :
    (plainFrom space (fuel + 1)).run s = .ok (space ++ w, s.behind w.length) := by
  have hstarts : Starts (':' :: c :: r) := by
    rintro _ ⟨⟩
    decide
  have hmore :=
    run_plainSpace_blanks (s := s.behind w.length) (k := 0) (Scanner.rest_after h) hstarts
  rw [run_plainFrom_word hw (stops_colon hc r) h hdepth hmore, if_pos (by simp)]
  rfl

/-- A word before a line that is not indented enough to go on. -/
lemma run_plainFrom_last {space : List Char} {m : Nat} (hw : Word w)
    (h : s.rest = w ++ '\n' :: (List.replicate m ' ' ++ r)) (hr : Line m r) (hdepth : s.depth = 0)
    (hm : m ≤ s.indent) :
    (plainFrom space (fuel + 1)).run s =
      .ok (space ++ w, { (s.behind w.length).advanceBy (1 + m) with keyAllowed := true }) := by
  have hbehind : (s.behind w.length).rest = '\n' :: (List.replicate m ' ' ++ r) :=
    Scanner.rest_after h
  have hcolumn := Scanner.column_advanceBy_newline (s := s.behind w.length) (p := []) hbehind
  rw [List.length_nil, Nat.zero_add] at hcolumn
  rw [run_plainFrom_word hw (stops_newline _) h hdepth (run_plainSpace_newline hbehind hr), if_pos]
  · rfl
  · simp [hcolumn, hdepth]
    omega

/-- A sentence begins with a word, and so does what is laid out. -/
lemma Sentence.exists_word (h : Sentence indent cs out) :
    ∃ w more more', Word w ∧ cs = w ++ more ∧ out = w ++ more' ∧
      ∀ c ∈ more.head?, isGap c = true := by
  cases h with
  | word hw => exact ⟨_, [], [], hw, (List.append_nil _).symm, (List.append_nil _).symm, by simp⟩
  | blanks hw _ => exact ⟨_, _, _, hw, rfl, rfl, by rintro _ ⟨⟩; rfl⟩
  | fold hw _ => exact ⟨_, _, _, hw, rfl, rfl, by rintro _ ⟨⟩; rfl⟩

/-- A sentence starts like a token. -/
lemma Sentence.starts (h : Sentence indent cs out) (tail : List Char) : Starts (out ++ tail) := by
  obtain ⟨w, -, more, hw, -, rfl, -⟩ := h.exists_word
  obtain ⟨c, v, rfl⟩ := List.exists_cons_of_ne_nil hw.ne_nil
  have hvisible := isBlankOrEnd_of_visible (hw.visible c (by simp))
  rintro _ ⟨⟩
  refine ⟨?_, ?_, isBreak_of_isBlankOrEnd hvisible⟩
  · rintro rfl
    cases hvisible
  · rintro rfl
    exact hw.head rfl

/-- A word that others follow. -/
lemma run_plainFrom_step {t : Scanner} {space more : List Char} (hw : Word w) (htail : Stops tail)
    (h : s.rest = w ++ tail) (hdepth : s.depth = 0)
    (hmore : plainSpace.run (s.behind w.length) = .ok (more, t)) (hne : more ≠ [])
    (hsign : t.peekAt 0 ≠ '#') (hcolumn : t.indent < t.column)
    (hrest : (plainFrom more fuel).run t = .ok (more ++ cs, s')) :
    (plainFrom space (fuel + 1)).run s = .ok (space ++ (w ++ (more ++ cs)), s') := by
  rw [run_plainFrom_word hw htail h hdepth hmore, if_neg (by simp [hne, hsign]; omega),
    run_then hrest]
  simp

/-- A plain text at the end of a line is read back, however its lines are folded, if they are
indented enough. -/
lemma run_plainFrom {i : Int} {space : List Char} {m : Nat} (h : Sentence indent cs out)
    (hpos : 0 < indent) (hindent : i < indent) (htail : tail = '\n' :: (List.replicate m ' ' ++ r))
    (hr : Line m r) (hm : m ≤ i) (hs : s.rest = out ++ tail) (hdepth : s.depth = 0)
    (hi : s.indent = i) (hcolumn : i < s.column) (hfuel : out.length < fuel) :
    (plainFrom space fuel).run s =
      .ok (space ++ cs, { (s.behind out.length).advanceBy (1 + m) with keyAllowed := true }) := by
  induction h generalizing s fuel space with
  | @word w hw =>
    obtain ⟨fuel, rfl⟩ := Nat.exists_eq_succ_of_ne_zero (Nat.ne_zero_of_lt hfuel)
    exact run_plainFrom_last hw (htail ▸ hs) hr hdepth (hi ▸ hm)
  | @blanks k w cs out hw hsentence ih =>
    obtain ⟨fuel, rfl⟩ := Nat.exists_eq_succ_of_ne_zero (Nat.ne_zero_of_lt hfuel)
    rw [List.append_assoc, List.append_assoc] at hs
    have hbehind : (s.behind w.length).rest = List.replicate (k + 1) ' ' ++ (out ++ tail) :=
      Scanner.rest_after hs
    have hrest := Scanner.rest_after_replicate hbehind
    obtain ⟨-, hsign, -⟩ := (hsentence.starts tail).peekAt hrest
    have hplace : i < ((s.behind w.length).advanceBy (k + 1)).column := by
      have hinline :=
        Scanner.advanceBy_inline (s := s) (p := w ++ List.replicate (k + 1) ' ') (r := out ++ tail)
        (by simp [hs]) fun c hc => ?_
      · rw [List.length_append, List.length_replicate] at hinline
        rw [Scanner.advanceBy_behind, Scanner.behind, hinline]
        dsimp only
        omega
      · rcases List.mem_append.mp hc with hc | hc
        · exact inline_of_visible (hw.visible c hc)
        · rw [List.eq_of_mem_replicate hc]
          exact ⟨by decide, by decide⟩
    refine run_plainFrom_step hw (stops_blanks k _) hs hdepth
      (run_plainSpace_blanks hbehind (hsentence.starts tail))
      (by simp) hsign (by simpa [hi] using hplace) ?_
    rw [List.length_append, List.length_append, List.length_replicate] at hfuel ⊢
    rw [← Scanner.behind_behind, ← Scanner.behind_advanceBy]
    exact ih hrest (by simpa using hdepth) (by simpa using hi) hplace (by omega)
  | @fold w cs out hw hsentence ih =>
    obtain ⟨fuel, rfl⟩ := Nat.exists_eq_succ_of_ne_zero (Nat.ne_zero_of_lt hfuel)
    rw [List.append_assoc, List.cons_append, List.append_assoc] at hs
    have hbehind : (s.behind w.length).rest =
        '\n' :: (List.replicate indent ' ' ++ (out ++ tail)) := Scanner.rest_after hs
    have hrest : ((s.behind w.length).advanceBy (1 + indent)).rest = out ++ tail := by
      rw [Scanner.advanceBy_behind]
      exact Scanner.rest_after_newline hs
    have hline : Line indent (out ++ tail) := ⟨hsentence.starts tail, fun h => absurd h hpos.ne'⟩
    obtain ⟨-, hsign, -⟩ := hline.starts.peekAt hrest
    have hplace : i < ((s.behind w.length).advanceBy (1 + indent)).column := by
      have hcolumn := Scanner.column_advanceBy_newline (s := s.behind w.length) (p := []) hbehind
      rw [List.length_nil, Nat.zero_add] at hcolumn
      rwa [hcolumn]
    refine run_plainFrom_step hw (stops_newline _) hs hdepth (run_plainSpace_newline hbehind hline)
      (by simp) hsign (by simpa [hi] using hplace) ?_
    rw [List.length_append, List.length_cons, List.length_append, List.length_replicate] at hfuel ⊢
    rw [Nat.add_comm _ 1, ← Nat.add_assoc 1, ← Scanner.behind_behind, ← Scanner.behind_advanceBy,
      ← Scanner.behind_mk ((s.behind w.length).advanceBy (1 + indent)) true]
    refine ih ?_ ?_ ?_ hplace (by omega)
    · exact hrest
    · simpa using hdepth
    · simpa using hi

end

end Stencil.Yaml
