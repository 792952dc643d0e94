import Stencil.Proofs.Clash

/-!
# The leftmost error

A source is read from the left. `Reaches` says which placeholders are read: the first one, and each
one behind a placeholder that is a closed chain of names. The first that is not such a chain is at
fault (`FirstBad`), and what is wrong with it is told by its first pair of equal braces (`Fault`).
The reader reports exactly that (`Reaches.read`, `exists_fault`), so nothing behind the placeholder
matters, and names are compared only if no placeholder is at fault (`parse_error_leftmost`).
-/

namespace Stencil.Source

open Segment

variable {cs text inside body rest : List Char} {c : Char} {e : ParseError}

/-! ## Pairs of braces -/

/-- There is no pair of equal braces. -/
def NoPair (cs : List Char) : Prop :=
  ¬ ['{', '{'] <:+: cs ∧ ¬ ['}', '}'] <:+: cs

/-- Whether a text has a pair of braces can be decided. -/
instance (cs : List Char) : Decidable (NoPair cs) :=
  inferInstanceAs (Decidable (_ ∧ _))

/-- The leftmost pair of opening braces stands behind `text`. -/
structure Opens (cs text inside : List Char) : Prop where
  eq : cs = text ++ '{' :: '{' :: inside
  leftmost : NoOpening (text ++ ['{'])

/-- The first pair of equal braces is one of `c` and stands behind `body`. -/
structure FirstPair (cs body : List Char) (c : Char) (rest : List Char) : Prop where
  eq : cs = body ++ c :: c :: rest
  brace : c = '{' ∨ c = '}'
  first : NoPair (body ++ [c])

/-- A pair is at the front of a text or behind its first character. -/
lemma not_pair_cons {b : Char} :
    ¬ [b, b] <:+: c :: cs ↔ ¬ [b, b] <:+: cs ∧ (c = b → cs.head? ≠ some b) := by
  rw [List.infix_cons_iff, not_or, and_comm]
  refine and_congr_right fun _ => ?_
  cases cs with
  | nil => simp
  | cons d ds => simp [eq_comm]

/-- No text has no pair of braces. -/
lemma noPair_nil : NoPair [] := by
  decide

/-- A text has no pair of braces if there is none behind its first character and none with it. -/
lemma noPair_cons : NoPair (c :: cs) ↔ NoPair cs ∧ (c = '{' ∨ c = '}' → cs.head? ≠ some c) := by
  unfold NoPair
  rw [not_pair_cons, not_pair_cons]
  constructor
  · rintro ⟨⟨hopen, ho⟩, hclose, hc⟩
    refine ⟨⟨hopen, hclose⟩, ?_⟩
    rintro (rfl | rfl)
    · exact ho rfl
    · exact hc rfl
  · rintro ⟨⟨hopen, hclose⟩, h⟩
    refine ⟨⟨hopen, ?_⟩, hclose, ?_⟩
    · rintro rfl
      exact h (.inl rfl)
    · rintro rfl
      exact h (.inr rfl)

/-- A brace at the end opens nothing unless another one stands before it. -/
lemma noOpening_concat : NoOpening (text ++ ['{']) ↔ NoOpening text ∧ text.getLast? ≠ some '{' := by
  have hpair : ['{', '{'] = ['{'] ++ ['{'] := rfl
  unfold NoOpening
  rw [List.infix_concat_iff, not_or, and_comm, hpair, List.suffix_append_self_iff,
    List.singleton_suffix_iff_getLast?_eq_some]

/-- A text has a first pair of equal braces or none at all. -/
lemma noPair_or_firstPair (cs : List Char) :
    NoPair cs ∨ ∃ body c rest, FirstPair cs body c rest := by
  induction cs with
  | nil => exact .inl noPair_nil
  | cons d ds ih =>
    by_cases hpair : (d = '{' ∨ d = '}') ∧ ds.head? = some d
    · obtain ⟨hd, hhead⟩ := hpair
      obtain ⟨rest, rfl⟩ := List.head?_eq_some_iff.mp hhead
      exact .inr ⟨[], d, rest, rfl, hd, noPair_cons.mpr ⟨noPair_nil, fun _ => by simp⟩⟩
    · have hd : d = '{' ∨ d = '}' → ds.head? ≠ some d := fun h hhead => hpair ⟨h, hhead⟩
      rcases ih with hno | ⟨body, c, rest, rfl, hc, hfirst⟩
      · exact .inl (noPair_cons.mpr ⟨hno, hd⟩)
      · refine .inr ⟨d :: body, c, rest, rfl, hc, noPair_cons.mpr ⟨hfirst, ?_⟩⟩
        cases body with
        | nil => exact hd
        | cons b body => exact hd

/-! ## Where the reader stops -/

/-- A placeholder opens where the search for its braces finds them. -/
lemma opens_iff : Opens cs text inside ↔ breakOpen cs = (text, some inside) := by
  constructor
  · rintro ⟨rfl, hleft⟩
    obtain ⟨hno, hlast⟩ := noOpening_concat.mp hleft
    exact breakOpen_append hno hlast inside
  · intro h
    obtain ⟨heq, hno, hlast⟩ := of_breakOpen_some h
    exact ⟨heq, noOpening_concat.mpr ⟨hno, hlast⟩⟩

/-- The reader passes over a character that is not the first of a pair. -/
lemma breakClose_cons (h : c = '{' ∨ c = '}' → cs.head? ≠ some c) :
    breakClose (c :: cs) =
      match breakClose cs with
      | .closed body rest => .closed (c :: body) rest
      | other => other := by
  conv_lhs => unfold breakClose
  split
  · exact absurd rfl (h (.inr rfl))
  · exact absurd rfl (h (.inl rfl))
  · rfl

/-- Without a pair of braces a placeholder is not finished. -/
lemma NoPair.breakClose (h : NoPair cs) : breakClose cs = .unfinished := by
  induction cs with
  | nil => rfl
  | cons d ds ih =>
    obtain ⟨hds, hd⟩ := noPair_cons.mp h
    rw [breakClose_cons hd, ih hds]

/-- The first pair of braces decides how a placeholder ends. -/
lemma FirstPair.breakClose (h : FirstPair cs body c rest) :
    breakClose cs = if c = '}' then .closed body rest else .nested := by
  obtain ⟨rfl, hc, hfirst⟩ := h
  induction body with
  | nil =>
    rcases hc with rfl | rfl
    · rfl
    · rfl
  | cons b body ih =>
    obtain ⟨hbody, hb⟩ := noPair_cons.mp hfirst
    have hnext : b = '{' ∨ b = '}' → (body ++ c :: c :: rest).head? ≠ some b := by
      cases body with
      | nil => exact hb
      | cons d ds => exact hb
    rw [List.cons_append, breakClose_cons hnext, ih hbody]
    by_cases hclose : c = '}'
    · rw [if_pos hclose, if_pos hclose]
    · rw [if_neg hclose, if_neg hclose]

/-- A placeholder is closed exactly if its first pair of braces closes. -/
lemma breakClose_eq_closed : breakClose cs = .closed body rest ↔ FirstPair cs body '}' rest := by
  constructor
  · intro h
    rcases noPair_or_firstPair cs with hno | ⟨body', c, rest', hpair⟩
    · rw [hno.breakClose] at h
      cases h
    · rw [hpair.breakClose] at h
      split at h
      · rename_i hc
        obtain ⟨rfl, rfl⟩ := Closing.closed.inj h
        exact hc ▸ hpair
      · cases h
  · intro h
    rw [h.breakClose, if_pos rfl]

/-- A placeholder is nested exactly if its first pair of braces opens. -/
lemma breakClose_eq_nested : breakClose cs = .nested ↔ ∃ body rest, FirstPair cs body '{' rest := by
  constructor
  · intro h
    rcases noPair_or_firstPair cs with hno | ⟨body, c, rest, hpair⟩
    · rw [hno.breakClose] at h
      cases h
    · rcases hpair.brace with rfl | rfl
      · exact ⟨body, rest, hpair⟩
      · rw [hpair.breakClose, if_pos rfl] at h
        cases h
  · rintro ⟨body, rest, hpair⟩
    rw [hpair.breakClose, if_neg (by decide)]

/-- A placeholder is unfinished exactly if it has no pair of braces. -/
lemma breakClose_eq_unfinished : breakClose cs = .unfinished ↔ NoPair cs := by
  constructor
  · intro h
    rcases noPair_or_firstPair cs with hno | ⟨body, c, rest, hpair⟩
    · exact hno
    · rw [hpair.breakClose] at h
      split at h
      · cases h
      · cases h
  · exact NoPair.breakClose

/-! ## Placeholders at fault -/

/-- The first part of a body that is not a name, and the rule that it breaks. -/
def FirstInvalid (body : List Char) (token reason : String) : Prop :=
  ∃ before after fault, names body = before ++ token :: after ∧ (∀ n ∈ before, Name.Valid n) ∧
    Name.fault? token = some fault ∧ reason = fault.reason token

/-- The placeholder is closed and is a chain of names. -/
def IsChain (inside : List Char) : Prop :=
  ∃ body rest, FirstPair inside body '}' rest ∧ Body body

/-- What is wrong with a placeholder. -/
inductive Fault : List Char → ParseError → Prop
  | nested {inside body rest : List Char} : FirstPair inside body '{' rest → Fault inside .nested
  | unfinished {inside : List Char} : NoPair inside → Fault inside .unfinished
  | invalid {inside body rest : List Char} {token reason : String} :
    FirstPair inside body '}' rest → FirstInvalid body token reason →
      Fault inside (.invalidName token reason)

/-- Reading from the left, a placeholder is opened whose text is the start of `inside`, and all
placeholders before it are chains. -/
inductive Reaches : List Char → List Char → Prop
  | here {cs text inside : List Char} : Opens cs text inside → Reaches cs inside
  | later {cs text inside body rest inside' : List Char} : Opens cs text inside →
    FirstPair inside body '}' rest →
    Body body → Reaches rest inside' → Reaches cs inside'

/-- The first placeholder that is not a chain. -/
def FirstBad (cs inside : List Char) : Prop :=
  Reaches cs inside ∧ ¬ IsChain inside

/-- A placeholder is refused for its first name that is not valid. -/
lemma readChain_eq_error :
    readChain (Text.trimChars body) = .error e ↔ ∃ token reason, FirstInvalid body token reason ∧
      e = .invalidName token reason := by
  have hbad : badPart? (names body) = some e ↔ ∃ token reason, FirstInvalid body token reason ∧
      e = .invalidName token reason := by
    unfold badPart?
    rw [List.findSome?_eq_some_iff]
    constructor
    · rintro ⟨before, token, after, heq, hfault, hbefore⟩
      obtain ⟨fault, hrule, rfl⟩ := Option.map_eq_some_iff.mp hfault
      exact ⟨token, _,
        ⟨before, after, fault, heq, fun n hn => Option.map_eq_none_iff.mp (hbefore n hn), hrule,
          rfl⟩, rfl⟩
    · rintro ⟨token, _, ⟨before, after, fault, heq, hbefore, hfault, rfl⟩, rfl⟩
      exact ⟨before, token, after, heq, Option.map_eq_some_iff.mpr ⟨fault, hfault, rfl⟩,
        fun n hn => Option.map_eq_none_iff.mpr (hbefore n hn)⟩
  rw [← hbad]
  unfold readChain
  rw [parts_trimChars, names_eq_cons]
  cases badPart? ((chainOf body).1 :: (chainOf body).2) with
  | none => simp
  | some e' => simp

/-- A body is no chain exactly if some part of it is the first that is not a name. -/
lemma not_body_iff : ¬ Body body ↔ ∃ token reason, FirstInvalid body token reason := by
  constructor
  · intro h
    cases hread : readChain (Text.trimChars body) with
    | ok x => exact absurd (readChain_eq_ok.mp hread).1 h
    | error e =>
      obtain ⟨token, reason, hfirst, -⟩ := readChain_eq_error.mp hread
      exact ⟨token, reason, hfirst⟩
  · rintro ⟨token, reason, hfirst⟩ hbody
    have hread := readChain_eq_error.mpr ⟨token, reason, hfirst, rfl⟩
    rw [readChain_eq_ok.mpr ⟨hbody, rfl⟩] at hread
    cases hread

/-- A placeholder has a first name that is not valid exactly if it has one that is not. -/
lemma exists_firstInvalid_iff :
    (∃ token reason, FirstInvalid body token reason) ↔ ∃ n ∈ names body, ¬ Name.Valid n := by
  rw [← not_body_iff, body_iff]
  push Not
  rfl

/-- In a body of one part, this part is the one that is not a name. -/
lemma FirstInvalid.token_eq {token reason : String} (h : FirstInvalid body token reason)
    (hbar : '|' ∉ body) :
    token = String.ofList (Text.trimChars body) := by
  obtain ⟨before, after, -, hnames, -⟩ := h
  rw [names, List.splitOn_eq_singleton hbar] at hnames
  cases before with
  | nil => exact (List.cons.inj hnames).1.symm
  | cons => simp at hnames

/-- A placeholder is a chain, or something is wrong with it. -/
lemma not_isChain_iff : ¬ IsChain inside ↔ ∃ e, Fault inside e := by
  constructor
  · intro h
    cases hclose : breakClose inside with
    | nested =>
      obtain ⟨body, rest, hpair⟩ := breakClose_eq_nested.mp hclose
      exact ⟨_, .nested hpair⟩
    | unfinished => exact ⟨_, .unfinished (breakClose_eq_unfinished.mp hclose)⟩
    | closed body rest =>
      have hpair := breakClose_eq_closed.mp hclose
      obtain ⟨token, reason, hfirst⟩ := not_body_iff.mp fun hbody => h ⟨body, rest, hpair, hbody⟩
      exact ⟨_, .invalid hpair hfirst⟩
  · rintro ⟨e, hfault⟩ ⟨body, rest, hpair, hbody⟩
    have hclose := breakClose_eq_closed.mpr hpair
    cases hfault with
    | nested hpair' =>
      rw [breakClose_eq_nested.mpr ⟨_, _, hpair'⟩] at hclose
      cases hclose
    | unfinished hno =>
      rw [breakClose_eq_unfinished.mpr hno] at hclose
      cases hclose
    | invalid hpair' hfirst =>
      rw [breakClose_eq_closed.mpr hpair'] at hclose
      obtain ⟨rfl, rfl⟩ := Closing.closed.inj hclose
      exact not_body_iff.mpr ⟨_, _, hfirst⟩ hbody

/-! ## Reading from the left -/

/-- The reader at the leftmost pair of opening braces. -/
lemma read_of_opens (h : Opens cs text inside) :
    Segment.read cs =
      match breakClose inside with
      | .nested => .error .nested
      | .unfinished => .error .unfinished
      | .closed body rest =>
        match readChain (Text.trimChars body) with
        | .error e => .error e
        | .ok x =>
          (Segment.read rest).map fun more =>
            Segment.ofText text ++ .placeholder x.1 x.2 :: more := by
  have hread := Segment.read_eq cs
  rw [opens_iff.mp h] at hread
  exact hread

/-- A chain is read, and the reader goes on behind it. -/
lemma read_of_chain (hopen : Opens cs text inside) (hpair : FirstPair inside body '}' rest)
    (hbody : Body body) (hrest : Segment.read rest = .error e) : Segment.read cs = .error e := by
  rw [read_of_opens hopen, breakClose_eq_closed.mpr hpair]
  simp only [readChain_eq_ok.mpr ⟨hbody, rfl⟩, hrest, Except.map]

/-- A fault of the first placeholder is the fault of the source. -/
lemma Fault.read (h : Fault inside e) (hopen : Opens cs text inside) :
    Segment.read cs = .error e := by
  rw [read_of_opens hopen]
  cases h with
  | nested hpair => rw [breakClose_eq_nested.mpr ⟨_, _, hpair⟩]
  | unfinished hno => rw [breakClose_eq_unfinished.mpr hno]
  | invalid hpair hfirst =>
    rw [breakClose_eq_closed.mpr hpair]
    simp only [readChain_eq_error.mpr ⟨_, _, hfirst, rfl⟩]

/-- The reader reports what is wrong with a placeholder that it comes to. -/
lemma Reaches.read (h : Reaches cs inside) (hfault : Fault inside e) :
    Segment.read cs = .error e := by
  induction h with
  | here hopen => exact hfault.read hopen
  | later hopen hpair hbody _ ih => exact read_of_chain hopen hpair hbody (ih hfault)

/-- What the reader reports is wrong with a placeholder that it comes to. -/
lemma exists_fault (h : Segment.read cs = .error e) :
    ∃ inside, Reaches cs inside ∧ Fault inside e := by
  fun_induction Segment.read cs with
  | case1 => cases h
  | case2 cs text inside hopen hclose =>
    cases h
    obtain ⟨body, rest, hpair⟩ := breakClose_eq_nested.mp hclose
    exact ⟨inside, .here (opens_iff.mpr hopen), .nested hpair⟩
  | case3 cs text inside hopen hclose =>
    cases h
    exact ⟨inside, .here (opens_iff.mpr hopen), .unfinished (breakClose_eq_unfinished.mp hclose)⟩
  | case4 cs text inside hopen body rest hclose e' hchain =>
    cases h
    obtain ⟨token, reason, hfirst, rfl⟩ := readChain_eq_error.mp hchain
    exact ⟨inside, .here (opens_iff.mpr hopen), .invalid (breakClose_eq_closed.mp hclose) hfirst⟩
  | case5 cs text inside hopen body rest hclose base filters hchain e' hrest ih =>
    cases h
    obtain ⟨inside', hreach, hfault⟩ := ih hrest
    have hpair := breakClose_eq_closed.mp hclose
    exact ⟨inside', .later (opens_iff.mpr hopen) hpair (readChain_eq_ok.mp hchain).1 hreach, hfault⟩
  | case6 => cases h

/-! ## What follows a placeholder -/

/-- What is reached is an end of the source. -/
lemma Reaches.suffix (h : Reaches cs inside) : inside <:+ cs := by
  induction h with
  | @here cs text inside hopen =>
    rw [hopen.eq]
    exact ⟨text ++ ['{', '{'], by simp⟩
  | @later cs text inside body rest inside' hopen hpair _ _ ih =>
    refine ih.trans ?_
    rw [hopen.eq, hpair.eq]
    exact ⟨text ++ ['{', '{'] ++ body ++ ['}', '}'], by simp⟩

/-- What stands behind the first pair of braces does not matter. -/
lemma FirstPair.with_rest (h : FirstPair inside body c rest) (tail : List Char) :
    FirstPair (body ++ c :: c :: tail) body c tail :=
  ⟨rfl, h.brace, h.first⟩

/-- What stands inside of a placeholder does not matter for where it opens. -/
lemma Opens.with_inside (h : Opens cs text inside) (inside' : List Char) :
    Opens (text ++ '{' :: '{' :: inside') text inside' :=
  ⟨rfl, h.leftmost⟩

/-- A placeholder that is reached is still reached when something else follows it. -/
lemma Reaches.with_rest {front : List Char} (h : Reaches (front ++ rest) inside)
    (hpair : FirstPair inside body c rest) (tail : List Char) :
    Reaches (front ++ tail) (body ++ c :: c :: tail) := by
  generalize hcs : front ++ rest = cs at h
  induction h generalizing front with
  | @here cs text inside hopen =>
    have hfront : front = text ++ '{' :: '{' :: (body ++ [c, c]) := by
      have heq := hcs.trans (hpair.eq ▸ hopen.eq)
      exact List.append_cancel_right (heq.trans (by simp))
    have hreach := Reaches.here (hopen.with_inside (body ++ c :: c :: tail))
    rw [hfront]
    simpa using hreach
  | @later cs text inside b r inside' hopen hclose hbody hreach ih =>
    -- what follows the last placeholder also ends what follows this one
    obtain ⟨mid, hmid⟩ : rest <:+ r := by
      have hrest : rest <:+ inside' := ⟨body ++ [c, c], by simp [hpair.eq]⟩
      exact hrest.trans hreach.suffix
    have hfront : front = text ++ '{' :: '{' :: (b ++ '}' :: '}' :: mid) := by
      have heq := hcs.trans (hclose.eq ▸ hopen.eq)
      rw [← hmid] at heq
      exact List.append_cancel_right (heq.trans (by simp))
    have hlater :=
      Reaches.later (hopen.with_inside _) (hclose.with_rest (mid ++ tail)) hbody (ih hpair hmid)
    rw [hfront]
    simpa using hlater

/-- What is wrong with a placeholder can be seen before what follows it. -/
lemma Fault.with_rest (h : Fault inside e) (hpair : FirstPair inside body c rest)
    (tail : List Char) :
    Fault (body ++ c :: c :: tail) e := by
  have hnew := hpair.with_rest tail
  have hclose := hpair.breakClose
  cases h with
  | nested hpair' =>
    rcases hpair.brace with rfl | rfl
    · exact .nested hnew
    · rw [breakClose_eq_nested.mpr ⟨_, _, hpair'⟩, if_pos rfl] at hclose
      cases hclose
  | unfinished hno =>
    rw [hno.breakClose] at hclose
    split at hclose
    · cases hclose
    · cases hclose
  | invalid hpair' hfirst =>
    rw [breakClose_eq_closed.mpr hpair'] at hclose
    split at hclose
    · rename_i hc
      obtain ⟨rfl, rfl⟩ := Closing.closed.inj hclose
      subst hc
      exact .invalid hnew hfirst
    · cases hclose

/-! ## Errors of a source -/

variable {source : String}

/-- A fault of a placeholder that is reached is the fault of the template. -/
lemma parse_of_fault (hreach : Reaches source.toList inside) (hfault : Fault inside e) :
    Template.parse source = .error e := by
  rw [Template.parse_eq_read, hreach.read hfault]

/-- If no placeholder is at fault, only a name can be taken. -/
lemma parse_eq_error (h : Template.parse source = .error e) :
    (∃ inside, Reaches source.toList inside ∧ Fault inside e) ∨ ∃ n by', e = .clash n by' := by
  cases hread : Segment.read source.toList with
  | error e' =>
    rw [Template.parse_eq_read, hread] at h
    cases h
    exact .inl (exists_fault hread)
  | ok segs =>
    rw [Template.parse_eq_read, hread] at h
    dsimp only at h
    cases hclash : clash? (Template.variablesOf segs) (Template.chainsOf segs).items with
    | none =>
      rw [hclash] at h
      cases h
    | some e' =>
      rw [hclash] at h
      cases h
      obtain ⟨_, d, _, _, _, htaken⟩ := clash?_eq_some.mp hclash
      cases htaken with
      | byVariable => exact .inr ⟨_, _, rfl⟩
      | byChain => exact .inr ⟨_, _, rfl⟩

/-- The error of a source is that of the first placeholder that is not a closed chain of names,
whatever follows this placeholder. If all are such chains, the only error is that a derived name is
taken. -/
theorem parse_error_leftmost (source : String) :
    (∀ inside, FirstBad source.toList inside →
      (∃ e, Template.parse source = .error e) ∧
      (Template.parse source = .error .nested ↔ ∃ body rest, FirstPair inside body '{' rest) ∧
      (Template.parse source = .error .unfinished ↔ NoPair inside) ∧
      ((∃ token reason, Template.parse source = .error (.invalidName token reason)) ↔
        ∃ body rest, FirstPair inside body '}' rest ∧ ∃ n ∈ names body, ¬ Name.Valid n) ∧
      (∀ token reason, Template.parse source = .error (.invalidName token reason) →
        ∃ body rest, FirstPair inside body '}' rest ∧ FirstInvalid body token reason ∧
          ('|' ∉ body → token = String.ofList (Text.trimChars body))) ∧
      ∀ front body c rest, source.toList = front ++ rest → FirstPair inside body c rest →
        ∀ tail, Template.parse (String.ofList (front ++ tail)) = Template.parse source) ∧
    ((¬ ∃ inside, FirstBad source.toList inside) →
      ∀ e, Template.parse source = .error e → ∃ n by', e = .clash n by') ∧
    ∀ e, Template.parse source = .error e → e = .nested ∨ e = .unfinished ∨
      (∃ token reason, e = .invalidName token reason) ∨ ∃ n by', e = .clash n by' := by
  refine ⟨fun inside hbad => ?_, fun hgood e he => ?_, fun e he => ?_⟩
  · obtain ⟨hreach, hchain⟩ := hbad
    obtain ⟨e, hfault⟩ := not_isChain_iff.mp hchain
    have hparse := parse_of_fault hreach hfault
    -- whatever error the source has is the fault of this placeholder
    have hown {e' : ParseError} (he : Template.parse source = .error e') : Fault inside e' :=
      Except.error.inj (hparse.symm.trans he) ▸ hfault
    refine ⟨⟨e, hparse⟩, ⟨fun he => ?_, ?_⟩, ⟨fun he => ?_, fun hno => ?_⟩, ⟨?_, ?_⟩,
      fun token reason he => ?_, ?_⟩
    · cases hown he with
      | nested hpair => exact ⟨_, _, hpair⟩
    · rintro ⟨body, rest, hpair⟩
      exact parse_of_fault hreach (.nested hpair)
    · cases hown he with
      | unfinished hno => exact hno
    · exact parse_of_fault hreach (.unfinished hno)
    · rintro ⟨token, reason, he⟩
      cases hown he with
      | invalid hpair hfirst =>
        exact ⟨_, _, hpair, exists_firstInvalid_iff.mp ⟨token, reason, hfirst⟩⟩
    · rintro ⟨body, rest, hpair, hinvalid⟩
      obtain ⟨token, reason, hfirst⟩ := exists_firstInvalid_iff.mpr hinvalid
      exact ⟨token, reason, parse_of_fault hreach (.invalid hpair hfirst)⟩
    · cases hown he with
      | invalid hpair hfirst => exact ⟨_, _, hpair, hfirst, hfirst.token_eq⟩
    · intro front body c rest hsource hpair tail
      rw [hparse]
      refine parse_of_fault ?_ (hfault.with_rest hpair tail)
      rw [String.toList_ofList]
      rw [hsource] at hreach
      exact hreach.with_rest hpair tail
  · rcases parse_eq_error he with ⟨inside, hreach, hfault⟩ | hclash
    · exact absurd ⟨inside, hreach, not_isChain_iff.mpr ⟨e, hfault⟩⟩ hgood
    · exact hclash
  · rcases parse_eq_error he with ⟨inside, -, hfault⟩ | hclash
    · cases hfault with
      | nested => exact .inl rfl
      | unfinished => exact .inr (.inl rfl)
      | invalid => exact .inr (.inr (.inl ⟨_, _, rfl⟩))
    · exact .inr (.inr (.inr hclash))

/-- Three braces open a placeholder whose body starts with a brace. The error names this part, and
neither the bad part behind it nor any text behind the placeholder changes that. -/
theorem parse_error_leftmost_of_braces :
    let body := ['{', 'b', '|', '1', 'c']
    let front := ['{', '{', 'a', '}', '}', '}', '{', '{'] ++ (body ++ ['}', '}'])
    let tail := ['{', '{', 'x', '{', '{']
    FirstBad (front ++ tail) (body ++ '}' :: '}' :: tail) ∧
    ∀ other, Template.parse (String.ofList (front ++ other)) =
      .error
        (.invalidName "\x7bb" "identifier \x7bb has to start with a letter or an underscore") := by
  intro body front tail
  have hpair : FirstPair (body ++ '}' :: '}' :: tail) body '}' tail := ⟨rfl, by decide, by decide⟩
  have hfirst :
      FirstInvalid body "\x7bb" "identifier \x7bb has to start with a letter or an underscore" :=
    ⟨[], ["1c"], .badStart, by decide +kernel, by simp, by decide, by decide⟩
  have hreach : Reaches (front ++ tail) (body ++ '}' :: '}' :: tail) := by
    have hopen : Opens (front ++ tail) [] (front.drop 2 ++ tail) := ⟨rfl, by decide⟩
    have hclose : FirstPair (front.drop 2 ++ tail) ['a'] '}' (front.drop 5 ++ tail) :=
      ⟨rfl, by decide, by decide⟩
    have hnext : Opens (front.drop 5 ++ tail) ['}'] (body ++ '}' :: '}' :: tail) := ⟨rfl, by decide⟩
    exact .later hopen hclose (by decide) (.here hnext)
  have hfault := Fault.invalid hpair hfirst
  have hbad : FirstBad (front ++ tail) (body ++ '}' :: '}' :: tail) :=
    ⟨hreach, not_isChain_iff.mpr ⟨_, hfault⟩⟩
  refine ⟨hbad, fun other => ?_⟩
  have hsource : (String.ofList (front ++ tail)).toList = front ++ tail := String.toList_ofList
  rw [← hsource] at hbad hreach
  obtain ⟨-, -, -, -, -, hrest⟩ := (parse_error_leftmost (String.ofList (front ++ tail))).1 _ hbad
  rw [hrest front body _ tail hsource hpair other]
  exact parse_of_fault hreach hfault

end Stencil.Source
