import Mathlib.Tactic.Common
import Stencil.Template.Parse

/-!
# Segments of a source

A source can be cut into segments without a scanner. A literal runs up to the first pair of opening
braces, and a placeholder runs to the first pair of equal braces after it (`Segment.read`). A
scanner that goes through the source once and looks back by one character makes the same of it: from
any place, it puts in the segments that are still to come (`Template.Scanner.run_eq_read`). So a
template is that of the segments of its source (`Template.parse_eq_read`).
-/

namespace Stencil

namespace Segment

/-! ## Cutting a source -/

/-- The text before the first pair of opening braces, and what follows that pair if there is one. -/
def breakOpen : List Char → List Char × Option (List Char)
  | [] => ([], none)
  | c :: cs =>
    match c, cs with
    | '{', '{' :: rest => ([], some rest)
    | _, _ => (c :: (breakOpen cs).1, (breakOpen cs).2)

/-- How the text after an opening pair of braces goes on. -/
inductive Closing where
  | closed (body rest : List Char)
  | nested
  | unfinished
  deriving DecidableEq, Repr

/-- Looks for the first pair of equal braces. -/
def breakClose : List Char → Closing
  | [] => .unfinished
  | c :: cs =>
    match c, cs with
    | '}', '}' :: rest => .closed [] rest
    | '{', '{' :: _ => .nested
    | _, _ =>
      match breakClose cs with
      | .closed body rest => .closed (c :: body) rest
      | other => other

/-- What follows an opening pair is shorter than the whole. -/
lemma length_breakOpen {cs rest : List Char} (h : (breakOpen cs).2 = some rest) :
    rest.length < cs.length := by
  induction cs with
  | nil => simp [breakOpen] at h
  | cons c cs ih =>
    unfold breakOpen at h
    split at h
    · simp only [Option.some.injEq] at h
      subst h
      simp only [List.length_cons]
      omega
    · have := ih h
      simp only [List.length_cons]
      omega

/-- What follows a closing pair is shorter than the whole. -/
lemma length_breakClose {cs body rest : List Char} (h : breakClose cs = .closed body rest) :
    rest.length < cs.length := by
  induction cs generalizing body with
  | nil => simp [breakClose] at h
  | cons c cs ih =>
    unfold breakClose at h
    split at h
    · simp only [Closing.closed.injEq] at h
      obtain ⟨_, rfl⟩ := h
      simp only [List.length_cons]
      omega
    · simp at h
    · split at h
      · rename_i body' rest' hb
        simp only [Closing.closed.injEq] at h
        obtain ⟨_, rfl⟩ := h
        have := ih hb
        simp only [List.length_cons]
        omega
      · simp_all

/-- A literal segment, left out when it is empty. -/
def ofText : List Char → List Segment
  | [] => []
  | c :: cs => [.literal (c :: cs)]

/-- Cuts a source into segments. -/
def read (source : List Char) : Except ParseError (List Segment) :=
  match _hopen : breakOpen source with
  | (text, none) => .ok (ofText text)
  | (text, some inside) =>
    match _hclose : breakClose inside with
    | .nested => .error .nested
    | .unfinished => .error .unfinished
    | .closed body rest =>
      match readChain (Text.trimChars body) with
      | .error e => .error e
      | .ok (base, filters) =>
        match read rest with
        | .error e => .error e
        | .ok more => .ok (ofText text ++ .placeholder base filters :: more)
termination_by source.length
decreasing_by
  have h₁ : inside.length < source.length := length_breakOpen (by rw [_hopen])
  have h₂ : rest.length < inside.length := length_breakClose _hclose
  omega

/-- The segments of a source, by its first pair of opening braces. -/
lemma read_eq (cs : List Char) :
    read cs =
      match breakOpen cs with
      | (text, none) => .ok (ofText text)
      | (text, some inside) =>
        match breakClose inside with
        | .nested => .error .nested
        | .unfinished => .error .unfinished
        | .closed body rest =>
          match readChain (Text.trimChars body) with
          | .error e => .error e
          | .ok x => (read rest).map fun more => ofText text ++ .placeholder x.1 x.2 :: more := by
  rw [read]
  split
  · rename_i hopen
    rw [hopen]
  · rename_i hopen
    rw [hopen]
    dsimp only
    split
    · rename_i hclose
      rw [hclose]
    · rename_i hclose
      rw [hclose]
    · rename_i body rest hclose
      rw [hclose]
      dsimp only
      cases readChain (Text.trimChars body) with
      | error e => rfl
      | ok x => cases read rest <;> rfl

end Segment

namespace Template

/-- The variables that a row of segments asks for. -/
def variablesOf (segs : List Segment) : VariableSet :=
  (segs.filterMap Segment.base?).foldl VariableSet.insert VariableSet.empty

/-- The chains that a row of segments applies. -/
def chainsOf (segs : List Segment) : ChainSet :=
  (segs.filterMap Segment.chain?).foldl ChainSet.insert ChainSet.empty

/-- The template of a row of segments without a clash. -/
def ofSegments (source : String) (segs : List Segment) : Template :=
  let vars := variablesOf segs
  { source
    skeleton := String.ofList (segs.flatMap Segment.render)
    vars := if nameVariable ∈ vars then vars.items else vars.items ++ [.ofName nameVariable]
    chains := (chainsOf segs).items
    usesName := nameVariable ∈ vars }

namespace Scanner

variable {s : Scanner} {c l : Char} {cs body : List Char}

/-! ## Putting segments in -/

/-- Puts segments in one after the other. -/
def putAll (s : Scanner) (segs : List Segment) : Scanner :=
  segs.foldl put s

/-- A scanner that keeps nothing back and has no placeholder open. -/
def clear (s : Scanner) : Scanner :=
  { s with last := none, body := none }

/-- Segments are put one after the other. -/
lemma putAll_eq (s : Scanner) (segs : List Segment) :
    s.putAll segs =
      { s with
        skeleton := (segs.flatMap Segment.render).reverse ++ s.skeleton
        vars := (segs.filterMap Segment.base?).foldl VariableSet.insert s.vars
        chains := (segs.filterMap Segment.chain?).foldl ChainSet.insert s.chains } := by
  induction segs generalizing s with
  | nil => rfl
  | cons seg segs ih =>
    rw [putAll, List.foldl_cons, ← putAll, ih, put, List.flatMap_cons, List.reverse_append,
      List.append_assoc]
    cases hb : seg.base? <;> cases hc : seg.chain? <;> simp [hb, hc]

/-- A character can be put in before the rest of its literal. -/
lemma putAll_ofText_cons (s : Scanner) (l : Char) (text : List Char) (more : List Segment) :
    s.putAll (Segment.ofText (l :: text) ++ more) =
      (s.put (.literal [l])).putAll (Segment.ofText text ++ more) := by
  rw [putAll_eq, putAll_eq]
  cases text <;>
    simp [Segment.ofText, put, Segment.render, Escape.escapeChars, Segment.base?, Segment.chain?,
      List.filterMap_cons]

/-! ## From any place to the end -/

/-- A scanner takes one character and goes on with the others. -/
lemma run_cons (s : Scanner) (c : Char) (cs : List Char) :
    s.run (c :: cs) = s.step c >>= fun t => t.run cs := by
  rw [run, List.foldlM_cons, bind_assoc]
  rfl

/-- A character is kept back unless it is the second of a mark. Closing braces are one only where a
placeholder is open. -/
lemma step_keep (hopen : ¬(s.last = some '{' ∧ c = '{'))
    (hclose : s.body = none ∨ ¬(s.last = some '}' ∧ c = '}')) : s.step c = .ok (s.keep c) := by
  unfold step
  split <;> simp_all

/-- Unless two braces open, the search goes on behind the first character. -/
lemma breakOpen_cons (h : ¬(l = '{' ∧ c = '{')) :
    Segment.breakOpen (l :: c :: cs) =
      (l :: (Segment.breakOpen (c :: cs)).1, (Segment.breakOpen (c :: cs)).2) := by
  rw [Segment.breakOpen]
  rintro rest rfl hc
  exact h ⟨rfl, (List.cons.inj hc).1⟩

/-- Unless two braces are the same, the search goes on behind the first character. -/
lemma breakClose_cons (h : ¬(l = c ∧ (c = '{' ∨ c = '}'))) :
    Segment.breakClose (l :: c :: cs) =
      match Segment.breakClose (c :: cs) with
      | .closed body rest => .closed (l :: body) rest
      | other => other := by
  rw [Segment.breakClose]
  · rintro rest rfl hc
    exact h ⟨(List.cons.inj hc).1.symm, .inr (List.cons.inj hc).1⟩
  · rintro rest rfl hc
    exact h ⟨(List.cons.inj hc).1.symm, .inl (List.cons.inj hc).1⟩

/-- One character is no pair. -/
lemma breakOpen_singleton (l : Char) : Segment.breakOpen [l] = ([l], none) := by
  rw [Segment.breakOpen]
  · rfl
  · nofun

/-- One character closes nothing. -/
lemma breakClose_singleton (l : Char) : Segment.breakClose [l] = .unfinished := by
  rw [Segment.breakClose]
  · rfl
  all_goals nofun

/-- The first character of a literal that goes on is put in first. -/
lemma read_cons (h : ¬(l = '{' ∧ c = '{')) (s : Scanner) :
    (Segment.read (l :: c :: cs)).map s.putAll =
      (Segment.read (c :: cs)).map (s.put (.literal [l])).putAll := by
  rw [Segment.read_eq, Segment.read_eq (c :: cs), breakOpen_cons h]
  obtain ⟨text, inside⟩ := Segment.breakOpen (c :: cs)
  cases inside with
  | none =>
    have hput := putAll_ofText_cons s l text []
    rw [List.append_nil, List.append_nil] at hput
    exact congrArg Except.ok hput
  | some inside =>
    dsimp only
    cases Segment.breakClose inside with
    | nested => rfl
    | unfinished => rfl
    | closed body rest =>
      dsimp only
      cases Segment.readChain (Text.trimChars body) with
      | error e => rfl
      | ok x =>
        cases Segment.read rest with
        | error e => rfl
        | ok more => exact congrArg Except.ok (putAll_ofText_cons s l text _)

/-- What is still to come of an open placeholder with the given body so far, and of the source
behind it. -/
def readOpen (s : Scanner) (body cs : List Char) : Except ParseError Scanner :=
  match Segment.breakClose cs with
  | .nested => .error .nested
  | .unfinished => .error .unfinished
  | .closed more rest =>
    match Segment.readChain (Text.trimChars (body ++ more)) with
    | .error e => .error e
    | .ok x => (Segment.read rest).map (s.put (.placeholder x.1 x.2)).putAll

/-- A character of the body that belongs to no mark. -/
lemma readOpen_cons (h : ¬(l = c ∧ (c = '{' ∨ c = '}'))) (s : Scanner) (body : List Char) :
    s.readOpen body (l :: c :: cs) = s.readOpen (body ++ [l]) (c :: cs) := by
  rw [readOpen, readOpen, breakClose_cons h]
  cases Segment.breakClose (c :: cs) with
  | closed more rest =>
    dsimp only
    rw [List.append_assoc, List.singleton_append]
  | _ => rfl

/-- What is still to come at some place. The character that is kept back belongs to it, and so does
what was read of an open placeholder. -/
def toCome (s : Scanner) (cs : List Char) : Except ParseError Scanner :=
  match s.body with
  | none => (Segment.read (s.last.toList ++ cs)).map s.clear.putAll
  | some body => s.clear.readOpen body.reverse (s.last.toList ++ cs)

/-- An opening pair of braces outside a placeholder. -/
lemma read_open (s : Scanner) (cs : List Char) :
    (Segment.read ('{' :: '{' :: cs)).map s.putAll = s.readOpen [] cs := by
  rw [Segment.read_eq, readOpen, Segment.breakOpen]
  dsimp only
  cases Segment.breakClose cs with
  | nested => rfl
  | unfinished => rfl
  | closed body rest =>
    dsimp only
    rw [List.nil_append]
    cases Segment.readChain (Text.trimChars body) with
    | error e => rfl
    | ok x => cases Segment.read rest <;> rfl

/-- A closing pair of braces at the end of a body. -/
lemma readOpen_close (s : Scanner) (body cs : List Char) :
    s.readOpen body ('}' :: '}' :: cs) =
      match Segment.readChain (Text.trimChars body) with
      | .error e => .error e
      | .ok x => (Segment.read cs).map (s.put (.placeholder x.1 x.2)).putAll := by
  rw [readOpen, Segment.breakClose]
  dsimp only
  rw [List.append_nil]

/-- What is still to come does not change when a character is taken in. -/
lemma step_toCome (s : Scanner) (c : Char) (cs : List Char) :
    (s.step c >>= fun t => t.toCome cs) = s.toCome (c :: cs) := by
  obtain ⟨skeleton, vars, chains, last, body⟩ := s
  cases last with
  | none =>
    have hkeep : step ⟨skeleton, vars, chains, none, body⟩ c = .ok (keep _ c) :=
      step_keep (fun h => nomatch h.1) (.inr fun h => nomatch h.1)
    rw [hkeep]
    cases body <;> rfl
  | some l =>
    cases body with
    | none =>
      by_cases hmark : l = '{' ∧ c = '{'
      · obtain ⟨rfl, rfl⟩ := hmark
        exact (read_open _ cs).symm
      · rw [step_keep (fun h => hmark ⟨Option.some.inj h.1, h.2⟩) (.inl rfl)]
        exact (read_cons hmark (clear ⟨skeleton, vars, chains, some l, none⟩)).symm
    | some body =>
      by_cases hopen : l = '{' ∧ c = '{'
      · obtain ⟨rfl, rfl⟩ := hopen
        rfl
      by_cases hclose : l = '}' ∧ c = '}'
      · obtain ⟨rfl, rfl⟩ := hclose
        change (close _ body >>= fun t => t.toCome cs) = readOpen _ body.reverse ('}' :: '}' :: cs)
        rw [readOpen_close, close]
        cases Segment.readChain (Text.trimChars body.reverse) <;> rfl
      · rw [step_keep (fun h => hopen ⟨Option.some.inj h.1, h.2⟩)
          (.inr fun h => hclose ⟨Option.some.inj h.1, h.2⟩)]
        have hnone : ¬(l = c ∧ (c = '{' ∨ c = '}')) := by
          rintro ⟨rfl, rfl | rfl⟩
          · exact hopen ⟨rfl, rfl⟩
          · exact hclose ⟨rfl, rfl⟩
        change readOpen _ (l :: body).reverse (c :: cs) = readOpen _ body.reverse (l :: c :: cs)
        rw [readOpen_cons hnone, List.reverse_cons]
        rfl

/-- From any place on, a scanner puts in what is still to come. -/
lemma run_eq_toCome (s : Scanner) (cs : List Char) : s.run cs = s.toCome cs := by
  induction cs generalizing s with
  | nil =>
    obtain ⟨skeleton, vars, chains, last, body⟩ := s
    cases body with
    | none =>
      cases last with
      | none =>
        rw [toCome, Segment.read_eq]
        rfl
      | some l =>
        change _ = Except.map _ (Segment.read [l])
        rw [Segment.read_eq, breakOpen_singleton]
        rfl
    | some body =>
      cases last with
      | none => rfl
      | some l =>
        change _ = readOpen _ body.reverse [l]
        rw [readOpen, breakClose_singleton]
        rfl
  | cons c cs ih =>
    rw [run_cons, ← step_toCome]
    exact congrArg _ (funext ih)

/-- A scanner puts in the segments of a source. -/
lemma run_eq_read (cs : List Char) : run {} cs = (Segment.read cs).map (putAll {}) :=
  run_eq_toCome {} cs

end Scanner

/-- A source is read by its segments. -/
lemma parse_eq_read (source : String) :
    parse source =
      match Segment.read source.toList with
      | .error e => .error e
      | .ok segs =>
        match clash? (variablesOf segs) (chainsOf segs).items with
        | some e => .error e
        | none => .ok (ofSegments source segs) := by
  rw [parse, Scanner.run_eq_read]
  cases Segment.read source.toList with
  | error e => rfl
  | ok segs =>
    have htemplate : (Scanner.putAll {} segs).template source = ofSegments source segs := by
      rw [Scanner.putAll_eq, Scanner.template, List.append_nil, List.reverse_reverse]
      rfl
    dsimp only [Except.map]
    rw [htemplate, Scanner.putAll_eq]
    rfl

end Template

end Stencil
