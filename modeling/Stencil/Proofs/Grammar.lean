import Mathlib.Data.List.Chain
import Stencil.Proofs.Segments
import Stencil.Proofs.Text

/-!
# The grammar of sources

A source is a row of pieces: literals without a pair of opening braces, and placeholders. `Row` says
which rows there are, without saying how one is found. The main statements: the reader finds the row
of every source that has one (`Row.read`), it accepts nothing else (`exists_row`), and a source has
at most one row (`Row.unique`).
-/

namespace Stencil.Source

open Segment

/-- A piece of a source as it is written. -/
inductive Piece where
  | literal (text : List Char)
  /-- What stands between two opening and two closing braces. -/
  | placeholder (body : List Char)
  deriving DecidableEq, Repr

namespace Piece

/-- The characters of the piece in the source. -/
def written : Piece → List Char
  | .literal text => text
  | .placeholder body => ['{', '{'] ++ body ++ ['}', '}']

end Piece

/-- There is no pair of opening braces. -/
def NoOpening (cs : List Char) : Prop :=
  ¬ ['{', '{'] <:+: cs

/-- A name with any number of blanks around it. -/
def PaddedName (cs : List Char) : Prop :=
  ∃ l n r, Text.Blank l ∧ Text.Blank r ∧ Name.faultOf n = none ∧ cs = l ++ n ++ r

/-- The body of a placeholder: names with bars between them. -/
def Body (cs : List Char) : Prop :=
  ∀ p ∈ cs.splitOn '|', PaddedName p

/-- The names of a body: its parts without the blanks around them. -/
def names (body : List Char) : List String :=
  (body.splitOn '|').map fun p => String.ofList (Text.trimChars p)

/-- The base and the filters of a body. -/
def chainOf (body : List Char) : String × List String :=
  ((names body).headD "", (names body).tail)

namespace Piece

/-- A literal is not empty and opens no placeholder, and a placeholder has a body. -/
def WellFormed : Piece → Prop
  | .literal text => text ≠ [] ∧ NoOpening text
  | .placeholder body => Body body

/-- May the second piece follow the first? -/
def Fits : Piece → Piece → Prop
  | .literal _, .literal _ => False
  | .literal text, .placeholder _ => text.getLast? ≠ some '{'
  | .placeholder _, _ => True

/-- The segment that a piece stands for. -/
def segment : Piece → Segment
  | .literal text => .literal text
  | .placeholder body => .placeholder (chainOf body).1 (chainOf body).2

end Piece

/-- The characters of a row of pieces. -/
def written (ps : List Piece) : List Char :=
  ps.flatMap Piece.written

/-- A row of pieces that a source can consist of. -/
structure Row (ps : List Piece) : Prop where
  wellFormed : ∀ p ∈ ps, p.WellFormed
  fits : ps.IsChain Piece.Fits

/-- No pieces have no characters. -/
@[simp]
lemma written_nil : written [] = [] :=
  rfl

/-- The first piece is written first. -/
@[simp]
lemma written_cons (p : Piece) (ps : List Piece) : written (p :: ps) = p.written ++ written ps :=
  rfl

/-! ## Rows from the left -/

/-- A literal, left out when it is empty. -/
def ofText : List Char → List Piece
  | [] => []
  | c :: cs => [.literal (c :: cs)]

/-- A text before pieces is written before them. -/
lemma written_ofText_append (text : List Char) (ps : List Piece) :
    written (ofText text ++ ps) = text ++ written ps := by
  cases text <;> rfl

/-- A text is read as its literal, if it has any character. -/
lemma map_segment_ofText (text : List Char) :
    (ofText text).map Piece.segment = Segment.ofText text := by
  cases text <;> rfl

/-- A pair of braces is at the start or behind it. -/
lemma noOpening_cons {c : Char} {cs : List Char} :
    NoOpening (c :: cs) ↔ NoOpening cs ∧ ∀ r, ¬ (c = '{' ∧ cs = '{' :: r) := by
  unfold NoOpening
  rw [List.infix_cons_iff, not_or]
  refine ⟨fun ⟨hp, hi⟩ => ⟨hi, ?_⟩, fun ⟨hi, h⟩ => ⟨?_, hi⟩⟩
  · rintro r ⟨rfl, rfl⟩
    exact hp ⟨r, rfl⟩
  · rintro ⟨r, hr⟩
    rw [List.cons_append, List.singleton_append] at hr
    obtain ⟨rfl, rfl⟩ := List.cons.inj hr
    exact h r ⟨rfl, rfl⟩

/-- A text alone is a row. -/
lemma Row.last {text : List Char} (h : NoOpening text) : Row (ofText text) := by
  cases text with
  | nil => exact ⟨by simp [ofText], by simp [ofText]⟩
  | cons c cs => exact ⟨by simp [ofText, Piece.WellFormed, h], by simp [ofText]⟩

/-- A text and a placeholder before a row make a row. -/
lemma Row.next {text body : List Char} {ps : List Piece} (ht : NoOpening text)
    (he : text.getLast? ≠ some '{') (hb : Body body) (h : Row ps) :
    Row (ofText text ++ .placeholder body :: ps) := by
  have hrow : Row (.placeholder body :: ps) := by
    refine ⟨?_, ?_⟩
    · intro p hp
      rcases List.mem_cons.mp hp with rfl | hp
      · exact hb
      · exact h.wellFormed p hp
    · exact List.isChain_cons.mpr ⟨fun _ _ => trivial, h.fits⟩
  cases text with
  | nil => exact hrow
  | cons c cs =>
    refine ⟨?_, ?_⟩
    · intro p hp
      rcases List.mem_cons.mp hp with rfl | hp
      · exact ⟨by simp, ht⟩
      · exact hrow.wellFormed p hp
    · refine List.isChain_cons.mpr ⟨?_, hrow.fits⟩
      intro p hp
      obtain rfl : Piece.placeholder body = p := Option.mem_some_iff.mp hp
      exact he

/-- The end of a row is a row. -/
lemma Row.tail {p : Piece} {ps : List Piece} (h : Row (p :: ps)) : Row ps :=
  ⟨fun q hq => h.wellFormed q (List.mem_cons_of_mem _ hq), h.fits.tail⟩

/-- Every row is a text alone, or a text and a placeholder before a row. -/
lemma Row.cases {ps : List Piece} (h : Row ps) :
    (∃ text, NoOpening text ∧ ps = ofText text) ∨
      ∃ text body qs, NoOpening text ∧ text.getLast? ≠ some '{' ∧ Body body ∧ Row qs ∧
        ps = ofText text ++ .placeholder body :: qs := by
  match ps, h with
  | [], _ => exact .inl ⟨[], by simp [NoOpening], rfl⟩
  | .placeholder body :: qs, h =>
    have hb : Body body := h.wellFormed (.placeholder body) (by simp)
    exact .inr ⟨[], body, qs, by simp [NoOpening], by simp, hb, h.tail, rfl⟩
  | [.literal text], h =>
    obtain ⟨hne, hno⟩ := h.wellFormed (.literal text) (by simp)
    obtain ⟨c, cs, rfl⟩ := List.exists_cons_of_ne_nil hne
    exact .inl ⟨c :: cs, hno, rfl⟩
  | .literal _ :: .literal _ :: _, h =>
    exact ((List.isChain_cons_cons.mp h.fits).1).elim
  | .literal text :: .placeholder body :: qs, h =>
    obtain ⟨hne, hno⟩ := h.wellFormed (.literal text) (by simp)
    obtain ⟨c, cs, rfl⟩ := List.exists_cons_of_ne_nil hne
    have hb : Body body := h.wellFormed (.placeholder body) (by simp)
    exact .inr ⟨c :: cs, body, qs, hno, (List.isChain_cons_cons.mp h.fits).1, hb, h.tail.tail, rfl⟩

/-! ## Where pieces end -/

/-- A text without a pair of opening braces is read to its end. -/
lemma breakOpen_of_noOpening {text : List Char} (h : NoOpening text) :
    breakOpen text = (text, none) := by
  induction text with
  | nil => rfl
  | cons c cs ih =>
    obtain ⟨hcs, hpair⟩ := noOpening_cons.mp h
    rw [breakOpen]
    · rw [ih hcs]
    · exact fun r hc hr => hpair r ⟨hc, hr⟩

/-- A text is read up to the first pair of opening braces. -/
lemma breakOpen_append {text : List Char} (h : NoOpening text) (he : text.getLast? ≠ some '{')
    (rest : List Char) : breakOpen (text ++ '{' :: '{' :: rest) = (text, some rest) := by
  induction text with
  | nil => rfl
  | cons c cs ih =>
    obtain ⟨hcs, hpair⟩ := noOpening_cons.mp h
    rw [List.cons_append, breakOpen]
    · cases cs with
      | nil => rw [List.nil_append, breakOpen]
      | cons d ds => rw [ih hcs (by simpa using he)]
    · intro r hc hr
      cases cs with
      | nil => exact he (by simp [hc])
      | cons d ds =>
        obtain ⟨rfl, _⟩ := List.cons.inj hr
        exact hpair ds ⟨hc, rfl⟩

/-- What is read to the end holds no pair of opening braces. -/
lemma of_breakOpen_none {cs text : List Char} (h : breakOpen cs = (text, none)) :
    cs = text ∧ NoOpening text := by
  induction cs generalizing text with
  | nil =>
    obtain rfl : [] = text := congrArg Prod.fst h
    exact ⟨rfl, by simp [NoOpening]⟩
  | cons c cs ih =>
    unfold breakOpen at h
    split at h
    · simp at h
    · rename_i hpair
      obtain ⟨rfl, hnone⟩ := Prod.mk.inj h
      obtain ⟨e, hno⟩ := @ih (breakOpen cs).1 (Prod.ext rfl hnone)
      rw [← e]
      refine ⟨rfl, noOpening_cons.mpr ⟨e ▸ hno, ?_⟩⟩
      rintro r ⟨rfl, rfl⟩
      exact hpair r rfl rfl

/-- What is read up to a pair of opening braces holds none and does not end in a brace. -/
lemma of_breakOpen_some {cs text rest : List Char} (h : breakOpen cs = (text, some rest)) :
    cs = text ++ '{' :: '{' :: rest ∧ NoOpening text ∧ text.getLast? ≠ some '{' := by
  induction cs generalizing text with
  | nil => simp [breakOpen] at h
  | cons c cs ih =>
    unfold breakOpen at h
    split at h
    · obtain ⟨rfl, hr⟩ := Prod.mk.inj h
      obtain rfl := Option.some.inj hr
      exact ⟨rfl, by simp [NoOpening], by simp⟩
    · rename_i hpair
      obtain ⟨rfl, hsome⟩ := Prod.mk.inj h
      obtain ⟨e, hno, he⟩ := @ih (breakOpen cs).1 (Prod.ext rfl hsome)
      generalize (breakOpen cs).1 = t at e hno he
      refine ⟨by rw [e]; rfl, noOpening_cons.mpr ⟨hno, ?_⟩, ?_⟩
      · rintro r ⟨rfl, rfl⟩
        exact hpair _ rfl e
      · cases t with
        | nil =>
          simp only [List.getLast?_singleton, ne_eq, Option.some.injEq]
          rintro rfl
          exact hpair ('{' :: rest) rfl e
        | cons d ds => simpa using he

/-- A body without braces is read up to the pair that closes it. -/
lemma breakClose_append {body : List Char} (h : ∀ c ∈ body, c ≠ '{' ∧ c ≠ '}') (rest : List Char) :
    breakClose (body ++ '}' :: '}' :: rest) = .closed body rest := by
  induction body with
  | nil => rfl
  | cons c cs ih =>
    obtain ⟨ho, hc⟩ := h c (by simp)
    rw [List.cons_append, breakClose]
    · rw [ih fun d hd => h d (by simp [hd])]
    · exact fun r e => absurd e hc
    · exact fun r e => absurd e ho

/-- What is read as a body stands before a pair of closing braces. -/
lemma of_breakClose {cs body rest : List Char} (h : breakClose cs = .closed body rest) :
    cs = body ++ '}' :: '}' :: rest := by
  induction cs generalizing body with
  | nil => simp [breakClose] at h
  | cons c cs ih =>
    unfold breakClose at h
    split at h
    · obtain ⟨rfl, rfl⟩ := Closing.closed.inj h
      rfl
    · simp at h
    · split at h
      · rename_i hb
        obtain ⟨rfl, rfl⟩ := Closing.closed.inj h
        rw [ih hb]
        rfl
      · rename_i hne
        exact absurd h (hne body rest)

/-! ## Bodies -/

/-- Trimming a padded name leaves the name. -/
lemma paddedName_iff {cs : List Char} :
    PaddedName cs ↔ Name.faultOf (Text.trimChars cs) = none := by
  refine ⟨?_, fun h => ?_⟩
  · rintro ⟨l, n, r, hl, hr, hn, rfl⟩
    rw [Text.trimChars_padded hl hr (Name.tight hn)]
    exact hn
  · obtain ⟨l, r, hl, hr, e⟩ := Text.exists_padding cs
    exact ⟨l, _, r, hl, hr, h, e⟩

/-- A body is one whose parts are names once the blanks are gone. -/
lemma body_iff {body : List Char} : Body body ↔ ∀ n ∈ names body, Name.Valid n := by
  simp only [Body, names, List.mem_map, forall_exists_index, and_imp, forall_apply_eq_imp_iff₂,
    paddedName_iff, Name.Valid, Name.fault?, String.toList_ofList]

/-! Whether a row is one can be decided. -/

/-- Whether a text is the body of a placeholder can be decided. -/
instance (body : List Char) : Decidable (Body body) :=
  decidable_of_iff _ body_iff.symm

/-- Whether a text opens no placeholder can be decided. -/
instance (cs : List Char) : Decidable (NoOpening cs) :=
  inferInstanceAs (Decidable (¬ _))

/-- Whether a piece is well formed can be decided. -/
instance : DecidablePred Piece.WellFormed
  | .literal text => inferInstanceAs (Decidable (text ≠ [] ∧ NoOpening text))
  | .placeholder body => inferInstanceAs (Decidable (Body body))

/-- Whether two pieces fit together can be decided. -/
instance : DecidableRel Piece.Fits
  | .literal _, .literal _ => inferInstanceAs (Decidable False)
  | .literal text, .placeholder _ => inferInstanceAs (Decidable (text.getLast? ≠ some '{'))
  | .placeholder _, _ => inferInstanceAs (Decidable True)

/-- Whether pieces make a row can be decided. -/
instance (ps : List Piece) : Decidable (Row ps) :=
  decidable_of_iff ((∀ p ∈ ps, p.WellFormed) ∧ ps.IsChain Piece.Fits)
    ⟨fun h => ⟨h.1, h.2⟩, fun h => ⟨h.wellFormed, h.fits⟩⟩

/-- A body has at least one part. -/
lemma names_ne_nil (body : List Char) : names body ≠ [] := by
  simp [names]

/-- The base and the filters of a body are all its names. -/
lemma names_eq_cons (body : List Char) : names body = (chainOf body).1 :: (chainOf body).2 := by
  unfold chainOf
  cases h : names body with
  | nil => exact absurd h (names_ne_nil body)
  | cons n ns => rfl

/-- The blanks around a whole body do not count. -/
lemma parts_trimChars (body : List Char) : Segment.parts (Text.trimChars body) = names body := by
  have h := Text.map_trim_splitOn '|' (by decide) body
  have h' := congrArg (List.map String.ofList) h
  simpa only [Segment.parts, names, List.map_map, Function.comp_def] using h'

/-- There is a bad part exactly if some part is not a name. -/
lemma badPart?_eq_none {ps : List String} : badPart? ps = none ↔ ∀ n ∈ ps, Name.Valid n := by
  unfold badPart? Name.Valid
  rw [List.findSome?_eq_none_iff]
  exact forall₂_congr fun n _ => Option.map_eq_none_iff

/-- Reading a body gives its base and its filters, if it is one at all. -/
lemma readChain_eq_ok {body : List Char} {x : String × List String} :
    readChain (Text.trimChars body) = .ok x ↔ Body body ∧ chainOf body = x := by
  unfold readChain
  rw [parts_trimChars, body_iff, ← badPart?_eq_none, names_eq_cons]
  cases badPart? ((chainOf body).1 :: (chainOf body).2) with
  | some e => simp
  | none => simp

/-- Every character of a text is a separator or stands in one of the parts. -/
lemma mem_splitOn (sep : Char) {c : Char} {cs : List Char} (h : c ∈ cs) :
    c = sep ∨ ∃ p ∈ cs.splitOn sep, c ∈ p := by
  induction cs with
  | nil => simp at h
  | cons d ds ih =>
    rw [List.splitOn_cons_eq_if_modifyHead]
    obtain ⟨q, qs, hq⟩ := List.exists_cons_of_ne_nil (List.splitOn_ne_nil sep ds)
    by_cases hd : d = sep
    · rcases List.mem_cons.mp h with rfl | h
      · exact .inl hd
      · rcases ih h with rfl | ⟨p, hp, hc⟩
        · exact .inl rfl
        · exact .inr ⟨p, by simp [hd, hp], hc⟩
    · rcases List.mem_cons.mp h with rfl | h
      · exact .inr ⟨c :: q, by simp [hd, hq], by simp⟩
      · rcases ih h with rfl | ⟨p, hp, hc⟩
        · exact .inl rfl
        · rw [hq, List.mem_cons] at hp
          rcases hp with rfl | hp
          · exact .inr ⟨d :: p, by simp [hd, hq], by simp [hc]⟩
          · exact .inr ⟨p, by simp [hd, hq, hp], hc⟩

/-- There are no braces in a body. -/
lemma Body.no_brace {body : List Char} (h : Body body) : ∀ c ∈ body, c ≠ '{' ∧ c ≠ '}' := by
  have notBlank {c d : Char} (hc : Text.isBlank c = true) (hd : Text.isBlank d = false) :
      c ≠ d := by
    rintro rfl
    simp [hc] at hd
  intro c hc
  rcases mem_splitOn '|' hc with rfl | ⟨p, hp, hcp⟩
  · decide
  · obtain ⟨l, n, r, hl, hr, hn, rfl⟩ := h p hp
    rcases List.mem_append.mp hcp with hcp | hcr
    · rcases List.mem_append.mp hcp with hcl | hcn
      · exact ⟨notBlank (hl c hcl) (by decide), notBlank (hl c hcl) (by decide)⟩
      · have hpart := Name.isPart_of_mem hn hcn
        exact ⟨Name.ne_of_isPart hpart (by decide), Name.ne_of_isPart hpart (by decide)⟩
    · exact ⟨notBlank (hr c hcr) (by decide), notBlank (hr c hcr) (by decide)⟩

/-! ## Reading rows -/

/-- The text of a row that goes on after a placeholder. -/
lemma written_next (text body : List Char) (ps : List Piece) :
    written (ofText text ++ .placeholder body :: ps) =
      text ++ '{' :: '{' :: (body ++ '}' :: '}' :: written ps) := by
  simp [written_ofText_append, Piece.written]

/-- The reader at a text to the end. -/
lemma read_last {text : List Char} (h : NoOpening text) :
    Segment.read text = .ok (Segment.ofText text) := by
  rw [Segment.read_eq, breakOpen_of_noOpening h]

/-- The reader at a text and a placeholder. -/
lemma read_next {text body : List Char} (ht : NoOpening text) (he : text.getLast? ≠ some '{')
    (hb : Body body) (rest : List Char) :
    Segment.read (text ++ '{' :: '{' :: (body ++ '}' :: '}' :: rest)) =
      (Segment.read rest).map fun more =>
        Segment.ofText text ++ .placeholder (chainOf body).1 (chainOf body).2 :: more := by
  rw [Segment.read_eq, breakOpen_append ht he]
  dsimp only
  rw [breakClose_append hb.no_brace]
  dsimp only
  rw [readChain_eq_ok.mpr ⟨hb, rfl⟩]

/-- The reader finds the row that a source consists of. -/
lemma Row.read {ps : List Piece} (h : Row ps) :
    Segment.read (written ps) = .ok (ps.map Piece.segment) := by
  induction hn : ps.length using Nat.strongRecOn generalizing ps with
  | _ n ih =>
    rcases h.cases with ⟨text, hno, rfl⟩ | ⟨text, body, qs, hno, he, hb, hq, rfl⟩
    · have := written_ofText_append text []
      rw [List.append_nil, written_nil, List.append_nil] at this
      rw [this, read_last hno, map_segment_ofText]
    · have hlt : qs.length < n := by
        rw [← hn, List.length_append, List.length_cons]
        omega
      rw [written_next, read_next hno he hb, ih _ hlt hq rfl, List.map_append, map_segment_ofText]
      rfl

/-- The reader accepts nothing but rows. -/
lemma exists_row {cs : List Char} {segs : List Segment} (h : Segment.read cs = .ok segs) :
    ∃ ps, Row ps ∧ written ps = cs ∧ ps.map Piece.segment = segs := by
  fun_induction Segment.read cs generalizing segs with
  | case1 cs text hopen =>
    obtain ⟨rfl, hno⟩ := of_breakOpen_none hopen
    refine ⟨ofText cs, .last hno, ?_, ?_⟩
    · simpa using written_ofText_append cs []
    · rw [map_segment_ofText]
      exact Except.ok.inj h
  | case2 => simp at h
  | case3 => simp at h
  | case4 => simp at h
  | case5 => simp at h
  | case6 cs text inside hopen body rest hclose base filters hchain more hmore ih =>
    obtain ⟨rfl, hno, he⟩ := of_breakOpen_some hopen
    obtain rfl := of_breakClose hclose
    obtain ⟨hb, hx⟩ := readChain_eq_ok.mp hchain
    obtain ⟨qs, hq, rfl, rfl⟩ := ih hmore
    refine ⟨ofText text ++ .placeholder body :: qs, .next hno he hb hq, written_next .., ?_⟩
    rw [List.map_append, map_segment_ofText, List.map_cons, Piece.segment, hx]
    exact Except.ok.inj h

/-- A source consists of at most one row. -/
lemma Row.unique {ps qs : List Piece} (hp : Row ps) (hq : Row qs) (h : written ps = written qs) :
    ps = qs := by
  induction hn : ps.length using Nat.strongRecOn generalizing ps qs with
  | _ n ih =>
    have hlast (t : List Char) : written (ofText t) = t := by
      simpa using written_ofText_append t []
    -- Both rows start with the text before the first pair of opening braces, if there is one.
    rcases hp.cases with ⟨t, ht, rfl⟩ | ⟨t, b, ps', ht, he, hb, hp', rfl⟩ <;>
      rcases hq.cases with ⟨u, hu, rfl⟩ | ⟨u, c, qs', hu, he', hc, hq', rfl⟩
    · rw [hlast, hlast] at h
      rw [h]
    · rw [hlast, written_next] at h
      have := breakOpen_of_noOpening ht
      rw [h, breakOpen_append hu he'] at this
      simp at this
    · rw [hlast, written_next] at h
      have := breakOpen_of_noOpening hu
      rw [← h, breakOpen_append ht he] at this
      simp at this
    · rw [written_next, written_next] at h
      have hopen := breakOpen_append ht he (b ++ '}' :: '}' :: written ps')
      rw [h, breakOpen_append hu he'] at hopen
      obtain ⟨rfl, hin⟩ := Prod.mk.inj hopen
      have hclose := breakClose_append hb.no_brace (written ps')
      rw [← Option.some.inj hin, breakClose_append hc.no_brace] at hclose
      obtain ⟨rfl, hrest⟩ := Closing.closed.inj hclose
      have hlt : ps'.length < n := by
        rw [← hn, List.length_append, List.length_cons]
        omega
      rw [ih _ hlt hp' hq' hrest.symm rfl]

end Stencil.Source
