import Stencil.Proofs.Edit

/-!
# What was answered

The answers to the questions about a template come in one row. `Template.collect_records` says which
questions are asked, which answer goes to which of them, and that a payload tells exactly what was
answered; asked again without an answer, the same payload comes out. `askPath_enter` says what an
empty line makes of a default path that is on offer.
-/

namespace Stencil

/-- The questions about a variable: for its default, then for its description, each with what was
told before. -/
def interview (previous : Metadata) (name : String) : List Question :=
  [{ label := "default value for " ++ name ++ " (leave empty for no default)"
     offered := previous.defaults.lookup name },
    { label := "description value for " ++ name ++ " (leave empty for no description)"
      offered := previous.descriptions.lookup name }]

/-- An answer counts unless it is empty or a minus sign. -/
lemma answerValue_eq (answer : String) :
    answerValue answer = if answer = "" ∨ answer = "-" then none else some answer := by
  simp [answerValue, clearAnswer]

namespace Answers

variable {answers missing : List (Option String)}

/-- What the question at a place is answered: the answer there, or the offered value if that is
missing, trimmed. -/
def reply (answers : List (Option String)) (place : Nat) (offered : Option String) : String :=
  Text.trim (answers[place]?.join.getD (offered.getD ""))

/-- A question takes one answer, and is noted. -/
lemma run_ask (q : Question) (s : Answers) :
    (ask q).run s =
      (reply s.remaining 0 q.offered,
        { remaining := s.remaining.drop 1, asked := s.asked ++ [q] }) := by
  show ask q s = _
  rw [ask, reply, List.head?_eq_getElem?, List.drop_one]

/-- A reply is trimmed. -/
lemma trim_reply (place : Nat) (offered : Option String) :
    Text.trim (reply answers place offered) = reply answers place offered :=
  Text.trim_trim _

/-- The replies behind some answers are those of the places behind them. -/
lemma reply_drop (n place : Nat) (offered : Option String) :
    reply (answers.drop n) place offered = reply answers (n + place) offered := by
  rw [reply, reply, List.getElem?_drop]

/-- Where all answers are missing, what is offered is the answer. -/
lemma reply_missing (h : ∀ a ∈ missing, a = none) (place : Nat) (offered : Option String) :
    reply missing place offered = Text.trim (offered.getD "") := by
  have hjoin : missing[place]?.join = none := by
    cases hget : missing[place]? with
    | none => rfl
    | some a =>
      obtain rfl := h a (List.mem_of_getElem? hget)
      rfl
  rw [reply, hjoin, Option.getD_none]

/-- The text of a variable after two questions were asked about each of the names, of which the one
that counts stands `shift` places after the first. -/
def recorded (offered : String → Option String) (shift : Nat) (names : List String)
    (answers : List (Option String)) (n : String) : Option String :=
  if n ∈ names then answerValue (reply answers (2 * names.idxOf n + shift) (offered n)) else none

variable {offered : String → Option String} {shift : Nat} {names : List String}

/-- The first name is told the first reply that counts. -/
lemma recorded_cons_self (n : String) :
    recorded offered shift (n :: names) answers n =
      answerValue (reply answers shift (offered n)) := by
  rw [recorded, if_pos List.mem_cons_self, List.idxOf_cons_self, Nat.mul_zero, Nat.zero_add]

/-- Another name is told from the replies behind the first two. -/
lemma recorded_cons_of_ne {m n : String} (h : n ≠ m) :
    recorded offered shift (m :: names) answers n =
      recorded offered shift names (answers.drop 2) n := by
  have hmem : n ∈ m :: names ↔ n ∈ names := by simp [h]
  simp only [recorded, hmem, List.idxOf_cons_ne names h.symm, reply_drop]
  rw [show 2 * (names.idxOf n).succ + shift = 2 + (2 * names.idxOf n + shift) by omega]

/-- The answers about the name at a place come at twice that place. -/
lemma recorded_of_getElem? (hnodup : names.Nodup) {k : Nat} {n : String} (h : names[k]? = some n) :
    recorded offered shift names answers n =
      answerValue (reply answers (2 * k + shift) (offered n)) := by
  obtain ⟨hk, rfl⟩ := List.getElem?_eq_some_iff.mp h
  rw [recorded, if_pos (List.getElem_mem hk), hnodup.idxOf_getElem]

/-- Texts that were answered are as answers leave them. -/
lemma given_recorded (hname : nameVariable ∉ names) :
    Given (recorded offered shift names answers) where
  lasting n x hx := by
    unfold recorded at hx
    split at hx
    · exact lasting_of_answerValue (trim_reply ..) hx
    · cases hx
  name := if_neg hname

/-- Without answers, what is offered is recorded if it lasts. -/
lemma recorded_missing (h : ∀ a ∈ missing, a = none) {n : String} (hn : n ∈ names)
    (hlasting : ∀ x ∈ offered n, Lasting x) :
    recorded offered shift names missing n = offered n := by
  rw [recorded, if_pos hn, reply_missing h, answerValue_offered hlasting]

/-- What was recorded is recorded again if it is on offer and no answer is given. -/
lemma recorded_again (h : ∀ a ∈ missing, a = none) (hname : nameVariable ∉ names)
    {offered' : String → Option String}
    (ho : ∀ n, offered' n = recorded offered shift names answers n) :
    recorded offered' shift names missing = recorded offered shift names answers := by
  funext n
  by_cases hn : n ∈ names
  · have hlasting : ∀ x ∈ offered' n, Lasting x := by
      rw [ho]
      exact (given_recorded hname).lasting n
    rw [recorded_missing h hn hlasting, ho]
  · rw [recorded, recorded, if_neg hn, if_neg hn]

end Answers

/-! ## Variables and templates -/

namespace Variable

open Answers

variable {v : Variable} {vs : List Variable} {previous : Metadata}

/-- The names of the variables that are asked for. -/
def asked (vs : List Variable) : List String :=
  (vs.map Variable.name).filter (· ≠ nameVariable)

/-- The name of a template is not asked for. -/
lemma run_collect_name (h : v.name = nameVariable) (s : Answers) :
    (v.collect ask previous).run s = (v, s) := by
  rw [collect, if_pos (beq_iff_eq.mpr h)]
  rfl

/-- Two answers go to a variable. -/
lemma run_collect (hv : v.Fresh) (h : v.name ≠ nameVariable) (s : Answers) :
    (v.collect ask previous).run s =
      ({ v with
          default :=
            (answerValue (reply s.remaining 0 (previous.defaults.lookup v.name))).map Escape.escape
          description :=
            (answerValue (reply s.remaining 1 (previous.descriptions.lookup v.name))).map
              Escape.escape },
        { remaining := s.remaining.drop 2, asked := s.asked ++ interview previous v.name }) := by
  have hrun : (v.collect ask previous).run s =
      let d := (ask (defaultQuestion previous v.name)).run s
      let e := (ask (descriptionQuestion previous v.name)).run d.2
      ({ v with default := storeAnswer v.default d.1,
                description := storeAnswer v.description e.1 }, e.2) := by
    rw [collect, if_neg (mt beq_iff_eq.mp h)]
    rfl
  rw [hrun]
  simp only [run_ask, hv.1, hv.2, storeAnswer_none, reply_drop, List.drop_drop, List.append_assoc]
  rfl

/-- Asking for variables one after the other: each takes the two answers that are next. -/
lemma run_mapM_collect (hvs : ∀ v ∈ vs, v.Fresh) (hnodup : (vs.map Variable.name).Nodup)
    (s : Answers) :
    (vs.mapM (collect ask previous)).run s =
      (vs.map (·.annotate (recorded (previous.defaults.lookup ·) 0 (asked vs) s.remaining)
          (recorded (previous.descriptions.lookup ·) 1 (asked vs) s.remaining)),
        { remaining := s.remaining.drop (2 * (asked vs).length)
          asked := s.asked ++ (asked vs).flatMap (interview previous) }) := by
  induction vs generalizing s with
  | nil =>
    simp only [List.mapM_nil, asked, List.map_nil, List.filter_nil, List.flatMap_nil,
      List.append_nil]
    rfl
  | cons v vs ih =>
    rw [List.map_cons, List.nodup_cons] at hnodup
    have ih' := ih (fun w hw => hvs w (by simp [hw])) hnodup.2
    have hv := hvs v (by simp)
    have hrun : ((v :: vs).mapM (collect ask previous)).run s =
        let r := (v.collect ask previous).run s
        let rs := (vs.mapM (collect ask previous)).run r.2
        (r.1 :: rs.1, rs.2) := by
      rw [List.mapM_cons]
      rfl
    by_cases hname : v.name = nameVariable
    · have hasked : asked (v :: vs) = asked vs := by simp [asked, hname]
      have hout (shift : Nat) (texts : String → Option String) :
          recorded texts shift (asked vs) s.remaining v.name = none := by
        rw [recorded, if_neg (by simp [asked, hname])]
      simp only [hrun, run_collect_name hname]
      rw [ih', hasked, List.map_cons, annotate_of_none hv (hout ..) (hout ..)]
    · have hasked : asked (v :: vs) = v.name :: asked vs := by simp [asked, hname]
      simp only [hrun, run_collect hv hname]
      rw [ih', hasked, List.map_cons, annotate, recorded_cons_self, recorded_cons_self]
      -- The others have other names, so their answers are those after the first two.
      have hothers : ∀ w ∈ vs, w.name ≠ v.name :=
        fun w hw hn => hnodup.1 (hn ▸ List.mem_map_of_mem hw)
      refine congrArg₂ Prod.mk (congrArg _ (List.map_congr_left fun w hw => ?_)) ?_
      · rw [annotate, annotate, recorded_cons_of_ne (hothers w hw),
          recorded_cons_of_ne (hothers w hw)]
      · rw [List.drop_drop, List.length_cons, List.flatMap_cons, List.append_assoc,
          show 2 + 2 * (asked vs).length = 2 * ((asked vs).length + 1) by omega]

end Variable

namespace Template

open Answers

variable {t : Template} {source : String}

/-- The names of the variables that are asked for. -/
abbrev askedNames (t : Template) : List String :=
  t.variableNames.filter (· ≠ nameVariable)

/-- Each variable is asked for once. -/
lemma nodup_askedNames (h : t.WellNamed) : t.askedNames.Nodup :=
  h.nodup.filter _

/-- The name is not among the variables that are asked for. -/
lemma nameVariable_notMem_askedNames : nameVariable ∉ t.askedNames := by
  simp [askedNames]

/-- Asking for all variables of a template that was read. -/
lemma run_collect (hparse : parse source = .ok t) (previous : Metadata) (s : Answers) :
    (t.collect ask previous).run s =
      (t.annotate (recorded (previous.defaults.lookup ·) 0 t.askedNames s.remaining)
          (recorded (previous.descriptions.lookup ·) 1 t.askedNames s.remaining),
        { remaining := s.remaining.drop (2 * t.askedNames.length)
          asked := s.asked ++ t.askedNames.flatMap (interview previous) }) := by
  have hrun : (t.collect ask previous).run s =
      let r := (t.vars.mapM (Variable.collect ask previous)).run s
      ({ t with vars := r.1 }, r.2) := rfl
  rw [hrun, Variable.run_mapM_collect (fresh_of_parse hparse) (wellNamed_of_parse hparse).nodup]
  rfl

/-- The metadata of a template with the given texts. -/
def told (t : Template) (path : Option String) (defaults descriptions : String → Option String) :
    Metadata where
  defaultPath := path
  defaults := t.variableNames.filterMap fun n => (defaults n).map fun x => (n, x)
  descriptions := t.variableNames.filterMap fun n => (descriptions n).map fun x => (n, x)

/-- What the variables are told is read back from the payload. -/
lemma decode_payload_annotate (h : t.WellNamed) (path : Option String)
    (defaults descriptions : String → Option String) :
    Metadata.decode (Metadata.payload (t.annotate defaults descriptions) path) =
      .ok (t.told path defaults descriptions) := by
  have hnamed := h.annotate defaults descriptions
  rw [Metadata.decode_payload_texts hnamed.valid hnamed.nodup,
    Metadata.texts_escaped fun v hv => (texts_of_mem_annotate hv).1,
    Metadata.texts_escaped fun v hv => (texts_of_mem_annotate hv).2]
  show Except.ok (told _ path defaults descriptions) = _
  rw [told, told, variableNames_annotate]

/-- The texts that are told of a variable are its own, if it has any only as a variable of the
template. -/
lemma lookup_told {names : List String} {texts : String → Option String}
    (h : ∀ n ∉ names, texts n = none) (n : String) :
    (names.filterMap fun m => (texts m).map fun x => (m, x)).lookup n = texts n := by
  by_cases hn : n ∈ names
  · exact Metadata.lookup_texts hn texts
  · rw [h n hn, List.lookup_eq_none_iff]
    rintro ⟨m, x⟩ he
    obtain ⟨k, hk, hkx⟩ := List.mem_filterMap.mp he
    obtain ⟨_, -, hkm⟩ := Option.map_eq_some_iff.mp hkx
    cases hkm
    simpa using fun hnm : n = m => hn (hnm ▸ hk)

/-- Whatever is answered, two questions are asked about each variable but the name, in order, with
what was told before on offer. The payload then tells of each variable what was answered, unless
that is empty or clears, and of no other. Asked again about the same source without an answer, the
payload stays the same. -/
theorem collect_records (hparse : parse source = .ok t) (before : Option Metadata)
    (answers : List (Option String)) (path : Option String) :
    let previous := before.getD {}
    let r := (t.collect ask previous).run { remaining := answers }
    r.2.asked = t.askedNames.flatMap (interview previous) ∧
      ∃ m, Metadata.decode (Metadata.payload r.1 path) = .ok m ∧ m.defaultPath = path ∧
        (∀ k n, t.askedNames[k]? = some n →
          let d := reply answers (2 * k) (previous.defaults.lookup n)
          let e := reply answers (2 * k + 1) (previous.descriptions.lookup n)
          m.defaults.lookup n = (if d = "" ∨ d = "-" then none else some d) ∧
            m.descriptions.lookup n = (if e = "" ∨ e = "-" then none else some e)) ∧
        (∀ n ∉ t.askedNames, m.defaults.lookup n = none ∧ m.descriptions.lookup n = none) ∧
        ∀ count,
          Metadata.payload
              ((t.collect ask m).run { remaining := List.replicate count none }).1 path =
          Metadata.payload r.1 path := by
  intro previous r
  have hr := run_collect hparse previous { remaining := answers }
  set defaults := recorded (previous.defaults.lookup ·) 0 t.askedNames answers with hdefaults
  set descriptions :=
    recorded (previous.descriptions.lookup ·) 1 t.askedNames answers with hdescriptions
  have hasked : r.2.asked = [] ++ t.askedNames.flatMap (interview previous) :=
    congrArg (·.2.asked) hr
  have htemplate : r.1 = t.annotate defaults descriptions := congrArg Prod.fst hr
  have hnamed := wellNamed_of_parse hparse
  have hnodup := nodup_askedNames hnamed
  -- A text is recorded only of a variable that was asked for, so what is told of a name is what was
  -- recorded.
  have hlookup (offered : String → Option String) (shift : Nat) (n : String) :
      (t.variableNames.filterMap fun m =>
        (recorded offered shift t.askedNames answers m).map fun x => (m, x)).lookup n =
        recorded offered shift t.askedNames answers n :=
    lookup_told (fun m hm => if_neg fun h => hm (List.mem_filter.mp h).1) n
  refine ⟨hasked, t.told path defaults descriptions, ?_, rfl, ?_, ?_, ?_⟩
  · rw [htemplate]
    exact decode_payload_annotate hnamed path defaults descriptions
  · intro k n hn d e
    rw [← answerValue_eq, ← answerValue_eq]
    exact ⟨(hlookup ..).trans (recorded_of_getElem? hnodup hn),
      (hlookup ..).trans (recorded_of_getElem? hnodup hn)⟩
  · intro n hn
    exact ⟨(hlookup ..).trans (if_neg hn), (hlookup ..).trans (if_neg hn)⟩
  · intro count
    have hmissing : ∀ a ∈ List.replicate count (none : Option String), a = none :=
      fun a ha => List.eq_of_mem_replicate ha
    -- What is on offer now was answered before.
    have hd : recorded ((t.told path defaults descriptions).defaults.lookup ·) 0 t.askedNames
        (List.replicate count none) = defaults :=
      recorded_again hmissing nameVariable_notMem_askedNames (hlookup _ 0)
    have he : recorded ((t.told path defaults descriptions).descriptions.lookup ·) 1 t.askedNames
        (List.replicate count none) = descriptions :=
      recorded_again hmissing nameVariable_notMem_askedNames (hlookup _ 1)
    have hsame := congrArg Prod.fst
      (run_collect hparse (t.told path defaults descriptions)
        { remaining := List.replicate count none })
    rw [hd, he] at hsame
    exact congrArg (Metadata.payload · path) (hsame.trans htemplate.symm)

/-- A row of answers that ends early: the first variable gets a trimmed default and no description,
the name is passed over, and the second variable keeps what was told before. What was told of a
variable that is gone is dropped. -/
theorem collect_records_of_short_row :
    let source := "\x7b\x7b b \x7d\x7d\x7b\x7b name \x7d\x7d\x7b\x7b a \x7d\x7d"
    let t : Template :=
      { source
        skeleton := "$\x7bb\x7d$\x7bname\x7d$\x7ba\x7d"
        vars := [{ name := "b" }, { name := "name" }, { name := "a" }]
        chains := []
        usesName := true }
    let previous : Metadata :=
      { defaults := [("a", " old\\"), ("c", "gone")], descriptions := [("b", "B")] }
    let answers := [some " x\n", some "-"]
    let r := (t.collect ask previous).run { remaining := answers }
    parse source = .ok t ∧ r.2.asked = t.askedNames.flatMap (interview previous) ∧
      ∃ m, Metadata.decode (Metadata.payload r.1 none) = .ok m ∧ m.defaultPath = none ∧
        (∀ k n, t.askedNames[k]? = some n →
          let d := reply answers (2 * k) (previous.defaults.lookup n)
          let e := reply answers (2 * k + 1) (previous.descriptions.lookup n)
          m.defaults.lookup n = (if d = "" ∨ d = "-" then none else some d) ∧
            m.descriptions.lookup n = (if e = "" ∨ e = "-" then none else some e)) ∧
        (∀ n ∉ t.askedNames, m.defaults.lookup n = none ∧ m.descriptions.lookup n = none) ∧
        ∀ count,
          Metadata.payload
              ((t.collect ask m).run { remaining := List.replicate count none }).1 none =
          Metadata.payload r.1 none := by
  intro source t previous answers r
  have hparse : parse source = .ok t := by decide +kernel
  exact ⟨hparse, collect_records hparse (some previous) answers none⟩

end Template

/-! ## The default path -/

section

open Session

variable {t : Template} {s : Session} {rest : List String}

/-- An answer counts as the value that it is, unless it is empty or a minus sign. -/
lemma answerValue_eq_some_iff {answer value : String} :
    answerValue answer = some value ↔ value = answer ∧ value ≠ "" ∧ value ≠ "-" := by
  constructor
  · intro h
    obtain rfl := answerValue_eq_some h
    rw [answerValue_eq] at h
    split at h
    · cases h
    · rename_i hne
      exact ⟨rfl, not_or.mp hne⟩
  · rintro ⟨rfl, hempty, hclear⟩
    rw [answerValue_eq, if_neg (not_or.mpr ⟨hempty, hclear⟩)]

/-- The default path of a template is on offer as it was given. An empty line gives it back trimmed,
and none if that is empty or clears. So it stays as it was given exactly if it is trimmed, not empty
and does not clear. -/
theorem askPath_enter (hvalid : ∀ v ∈ t.vars, Name.Valid v.name) (hnodup : t.variableNames.Nodup)
    (p : String) (h : s.terminal.input = "" :: rest) :
    ∃ m kept s', Metadata.decode (Metadata.payload t (some p)) = .ok m ∧ m.defaultPath = some p ∧
      (askPath ask m.defaultPath).run s = (.ok kept, s') ∧ s'.terminal.input = rest ∧
      kept = (if Text.trim p = "" ∨ Text.trim p = "-" then none else some (Text.trim p)) ∧
      (kept = some p ↔ Text.trim p = p ∧ p ≠ "" ∧ p ≠ "-") := by
  obtain ⟨_, s', hask, rfl, -, hrest⟩ := ask_blank (pathQuestion (some p)) h
  refine ⟨_, answerValue (Text.trim p), s', Metadata.decode_payload_texts hvalid hnodup (some p),
    rfl, run_bind_eq_ok.mpr ⟨_, s', hask, rfl⟩, hrest, answerValue_eq _, ?_⟩
  rw [answerValue_eq_some_iff, eq_comm (a := p)]

/-- A path with blanks and a letter, which is kept as it was given. -/
theorem askPath_enter_of_inner_blank :
    let t : Template :=
      { source := "", skeleton := "", vars := [{ name := "name" }], chains := [],
        usesName := false }
    let s : Session := { tree := {}, terminal := { input := [""] }, edits := [] }
    let p := "my files/name.rs"
    ∃ m kept s', Metadata.decode (Metadata.payload t (some p)) = .ok m ∧ m.defaultPath = some p ∧
      (askPath ask m.defaultPath).run s = (.ok kept, s') ∧ s'.terminal.input = [] ∧
      kept = (if Text.trim p = "" ∨ Text.trim p = "-" then none else some (Text.trim p)) ∧
      (kept = some p ↔ Text.trim p = p ∧ p ≠ "" ∧ p ≠ "-") := by
  intro t s p
  exact askPath_enter (by simp [t]; decide) (by decide) p rfl

/-- A path that is a lone hyphen is lost, and one that begins with a blank becomes another. -/
theorem askPath_loses :
    let t : Template :=
      { source := "", skeleton := "", vars := [{ name := "name" }], chains := [],
        usesName := false }
    let s : Session := { tree := {}, terminal := { input := [""] }, edits := [] }
    (∃ m s', Metadata.decode (Metadata.payload t (some "-")) = .ok m ∧
      (askPath ask m.defaultPath).run s = (.ok none, s')) ∧
      ∃ m s', Metadata.decode (Metadata.payload t (some " a.rs")) = .ok m ∧
        (askPath ask m.defaultPath).run s = (.ok (some "a.rs"), s') := by
  intro t s
  exact ⟨⟨{ defaultPath := some "-" }, _, by decide +kernel, rfl⟩,
    ⟨{ defaultPath := some " a.rs" }, _, by decide +kernel, rfl⟩⟩

end

end Stencil
