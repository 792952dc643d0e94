import Mathlib.Logic.Function.Basic
import Stencil.Proofs.Shell.Run
import Stencil.Proofs.Template
import Stencil.Session

/-!
# Asking and asking again

What a template is after its variables were asked for (`Template.collect_eq_ok`), and that the same
template comes out when the same questions are asked again, offer what was answered before and get
an empty line each (`Template.collect_again`). That holds because an answer is trimmed before it is
stored: offered again, it is taken as it is (`Lasting`).
-/

namespace Stencil

/-- The text is taken as it is when it is offered: it is trimmed, and it stands for a value. -/
def Lasting (text : String) : Prop :=
  Text.trim text = text ∧ answerValue text = some text

/-- A trimmed text is not trimmed again. -/
lemma Text.trim_trim (s : String) : Text.trim (Text.trim s) = Text.trim s := by
  rw [Text.trim, Text.trim, String.toList_ofList, Text.trimChars_idem]

/-- An answer that counts is the value. -/
lemma answerValue_eq_some {answer value : String} (h : answerValue answer = some value) :
    value = answer := by
  unfold answerValue at h
  split at h
  · cases h
  · exact (Option.some.inj h).symm

/-- A trimmed answer that counts is a value that lasts. -/
lemma lasting_of_answerValue {answer value : String} (ha : Text.trim answer = answer)
    (h : answerValue answer = some value) : Lasting value := by
  obtain rfl := answerValue_eq_some h
  exact ⟨ha, h⟩

/-- An offered value that lasts is the answer, and nothing is if nothing was offered. -/
lemma answerValue_offered {offered : Option String} (h : ∀ x ∈ offered, Lasting x) :
    answerValue (Text.trim (offered.getD "")) = offered := by
  cases offered with
  | none => rfl
  | some x =>
    obtain ⟨htrim, hvalue⟩ := h x rfl
    rw [Option.getD_some, htrim, hvalue]

/-- A first answer is stored with special characters escaped. -/
lemma storeAnswer_none (answer : String) :
    storeAnswer none answer = (answerValue answer).map Escape.escape := by
  unfold storeAnswer
  cases answerValue answer <;> rfl

namespace Terminal

variable {q : Question} {terminal terminal' : Terminal}

/-- Every answer is trimmed. -/
lemma trim_of_ask {answer : String} (h : ask q terminal = (some answer, terminal')) :
    Text.trim answer = answer := by
  unfold ask at h
  split at h
  · cases h
  · obtain ⟨hanswer, -⟩ := Prod.mk.inj h
    rw [← Option.some.inj hanswer]
    exact Text.trim_trim _

/-- An empty line takes what is offered. -/
lemma ask_blank (q : Question) {rest : List String} (h : terminal.input = "" :: rest) :
    ∃ terminal', ask q terminal = (some (Text.trim (q.offered.getD "")), terminal') ∧
      terminal'.input = rest := by
  refine ⟨{ input := rest, output := terminal.output ++ prompt q ++ "" ++ "\n" }, ?_, rfl⟩
  simp [ask, readAfter, print, h]

end Terminal

namespace Session

/-- The session went on at the terminal and nowhere else. -/
def Asked (s s' : Session) : Prop :=
  ∃ terminal, s' = { s with terminal }

namespace Asked

variable {s s' s'' : Session}

/-- Nothing was asked. -/
lemma refl (s : Session) : Asked s s :=
  ⟨s.terminal, rfl⟩

/-- What was asked in two steps was asked. -/
lemma trans (h : Asked s s') (h' : Asked s' s'') : Asked s s'' := by
  obtain ⟨_, rfl⟩ := h
  obtain ⟨terminal, rfl⟩ := h'
  exact ⟨terminal, rfl⟩

end Asked

variable {s s' : Session} {q : Question} {rest : List String}

/-- A question that the terminal answers is answered. -/
lemma run_ask {answer : String} {terminal : Terminal}
    (h : Terminal.ask q s.terminal = (some answer, terminal)) :
    (ask q).run s = (.ok answer, { s with terminal }) := by
  show ask q s = _
  unfold ask
  rw [h]

/-- An answer is trimmed, and nothing but the terminal changed. -/
lemma ask_eq_ok {answer : String} (h : (ask q).run s = (.ok answer, s')) :
    Text.trim answer = answer ∧ Asked s s' := by
  cases hask : Terminal.ask q s.terminal with
  | mk given terminal =>
    cases given with
    | none =>
      have habort : (ask q).run s = (.error .abort, { s with terminal }) := by
        show ask q s = _
        unfold ask
        rw [hask]
      rw [habort] at h
      cases h
    | some a =>
      rw [run_ask hask] at h
      cases h
      exact ⟨Terminal.trim_of_ask hask, terminal, rfl⟩

/-- An empty line takes what is offered. -/
lemma ask_blank (q : Question) (h : s.terminal.input = "" :: rest) :
    Does (ask q) s fun answer s' =>
      answer = Text.trim (q.offered.getD "") ∧ Asked s s' ∧ s'.terminal.input = rest := by
  obtain ⟨terminal, hask, hrest⟩ := Terminal.ask_blank q h
  exact ⟨_, _, run_ask hask, rfl, ⟨terminal, rfl⟩, hrest⟩

end Session

/-! ## All variables of a template -/

section

open Session

variable {s s' : Session} {defaults descriptions : String → Option String}

/-- The texts are as answers leave them: each of them lasts, and the name has none. -/
structure Given (texts : String → Option String) : Prop where
  lasting : ∀ n, ∀ x ∈ texts n, Lasting x
  name : texts nameVariable = none

/-- What is known of the texts of a variable is known of all texts. -/
lemma Given.update {texts : String → Option String} (h : Given texts) {n : String}
    {text : Option String} (hlasting : ∀ x ∈ text, Lasting x)
    (hname : n = nameVariable → text = none) :
    Given (Function.update texts n text) where
  lasting m x hx := by
    by_cases hm : m = n
    · rw [hm, Function.update_self] at hx
      exact hlasting x hx
    · rw [Function.update_of_ne hm] at hx
      exact h.lasting m x hx
  name := by
    by_cases hn : nameVariable = n
    · rw [hn, Function.update_self]
      exact hname hn.symm
    · rw [Function.update_of_ne hn]
      exact h.name

namespace Variable

/-- The variable was not asked for. -/
def Fresh (v : Variable) : Prop :=
  v.default = none ∧ v.description = none

variable {v v' : Variable} {vs vs' : List Variable} {previous : Metadata}

/-- A variable that is told nothing stays as it is. -/
lemma annotate_of_none (hv : v.Fresh) (hd : defaults v.name = none)
    (he : descriptions v.name = none) :
    v.annotate defaults descriptions = v := by
  obtain ⟨name, default, description⟩ := v
  obtain ⟨rfl, rfl⟩ := hv
  simp only [annotate] at hd he ⊢
  rw [hd, he]
  rfl

/-- Only the texts of the variable itself matter to it. -/
lemma annotate_update (h : v.name ≠ v'.name) (d e : Option String) :
    v.annotate (Function.update defaults v'.name d) (Function.update descriptions v'.name e) =
      v.annotate defaults descriptions := by
  rw [annotate, annotate, Function.update_of_ne h, Function.update_of_ne h]

/-- A fresh variable is told two values that last, except for the name. -/
lemma collect_eq_ok (hv : v.Fresh) (h : (v.collect ask previous).run s = (.ok v', s')) :
    ∃ d e : Option String, (∀ x ∈ d, Lasting x) ∧ (∀ x ∈ e, Lasting x) ∧
      (v.name = nameVariable → d = none ∧ e = none) ∧
      v' = { v with default := d.map Escape.escape, description := e.map Escape.escape } ∧
      Asked s s' := by
  unfold collect at h
  split at h
  · cases h
    refine ⟨none, none, by simp, by simp, fun _ => ⟨rfl, rfl⟩, ?_, .refl s⟩
    obtain ⟨name, default, description⟩ := v
    obtain ⟨rfl, rfl⟩ := hv
    rfl
  · rename_i hname
    obtain ⟨d, s₁, hd, h⟩ := run_bind_eq_ok.mp h
    obtain ⟨e, s₂, he, h⟩ := run_bind_eq_ok.mp h
    cases h
    -- Both answers come trimmed, which is what makes them last.
    obtain ⟨hdtrim, hs₁⟩ := ask_eq_ok hd
    obtain ⟨hetrim, hs₂⟩ := ask_eq_ok he
    refine ⟨answerValue d, answerValue e, fun x hx => lasting_of_answerValue hdtrim hx,
      fun x hx => lasting_of_answerValue hetrim hx, fun hn => absurd (beq_iff_eq.mpr hn) hname, ?_,
        hs₁.trans hs₂⟩
    rw [hv.1, hv.2, storeAnswer_none, storeAnswer_none]

/-- Variables that were asked for have texts as answers leave them. -/
lemma mapM_collect_eq_ok (hvs : ∀ v ∈ vs, v.Fresh) (hnodup : (vs.map Variable.name).Nodup)
    (h : (vs.mapM (collect ask previous)).run s = (.ok vs', s')) :
    ∃ defaults descriptions, Given defaults ∧ Given descriptions ∧
      vs' = vs.map (·.annotate defaults descriptions) ∧ Asked s s' := by
  induction vs generalizing s vs' with
  | nil =>
    cases h
    exact ⟨fun _ => none, fun _ => none, ⟨by simp, rfl⟩, ⟨by simp, rfl⟩, rfl, .refl _⟩
  | cons v vs ih =>
    rw [List.map_cons, List.nodup_cons] at hnodup
    rw [List.mapM_cons] at h
    obtain ⟨v', s₁, hv, h⟩ := run_bind_eq_ok.mp h
    obtain ⟨vs', s₂, hvs', h⟩ := run_bind_eq_ok.mp h
    cases h
    obtain ⟨d, e, hd, he, hname, rfl, hs₁⟩ := collect_eq_ok (hvs v (by simp)) hv
    obtain ⟨defaults, descriptions, hds, hes, rfl, hs₂⟩ :=
      ih (fun w hw => hvs w (by simp [hw])) hnodup.2 hvs'
    -- The texts of `v` are put before those of the others, which have other names.
    refine ⟨_, _, hds.update hd fun hn => (hname hn).1, hes.update he fun hn => (hname hn).2, ?_,
      hs₁.trans hs₂⟩
    rw [List.map_cons, annotate, Function.update_self, Function.update_self]
    refine congrArg _ (List.map_congr_left fun w hw => (annotate_update ?_ d e).symm)
    exact fun hn => hnodup.1 (hn ▸ List.mem_map_of_mem hw)

/-- Asked again, a variable has the same texts if every question gets an empty line. -/
lemma collect_again (hv : v.Fresh) (hd : Given defaults) (he : Given descriptions)
    (hpd : previous.defaults.lookup v.name = defaults v.name)
    (hpe : previous.descriptions.lookup v.name = descriptions v.name) {rest : List String}
    (h : s.terminal.input = List.replicate (if v.name == nameVariable then 0 else 2) "" ++ rest) :
    Does (v.collect ask previous) s fun v' s' =>
      v' = v.annotate defaults descriptions ∧ Asked s s' ∧ s'.terminal.input = rest := by
  unfold collect
  split
  · rename_i hname
    have hn : v.name = nameVariable := beq_iff_eq.mp hname
    rw [if_pos hname] at h
    exact .pure ⟨(annotate_of_none hv (hn ▸ hd.name) (hn ▸ he.name)).symm, .refl s, h⟩
  · rename_i hname
    rw [if_neg hname] at h
    have hinput : s.terminal.input = "" :: "" :: rest := h
    refine .bind ((ask_blank (defaultQuestion previous v.name) hinput).mono ?_)
    rintro _ s₁ ⟨rfl, hs₁, hrest₁⟩
    refine .bind ((ask_blank (descriptionQuestion previous v.name) hrest₁).mono ?_)
    rintro _ s₂ ⟨rfl, hs₂, hrest₂⟩
    refine .pure ⟨?_, hs₁.trans hs₂, hrest₂⟩
    have hdefault : (defaultQuestion previous v.name).offered = defaults v.name := hpd
    have hdescription : (descriptionQuestion previous v.name).offered = descriptions v.name := hpe
    rw [hv.1, hv.2, storeAnswer_none, storeAnswer_none, hdefault, hdescription,
      answerValue_offered (hd.lasting v.name), answerValue_offered (he.lasting v.name), annotate]

/-- The number of questions about some variables. -/
def questions : List Variable → Nat
  | [] => 0
  | v :: vs => (if v.name == nameVariable then 0 else 2) + questions vs

/-- Empty lines for all variables tell them what they were told before. -/
lemma mapM_collect_again (hvs : ∀ v ∈ vs, v.Fresh) (hd : Given defaults) (he : Given descriptions)
    (hpd : ∀ v ∈ vs, previous.defaults.lookup v.name = defaults v.name)
    (hpe : ∀ v ∈ vs, previous.descriptions.lookup v.name = descriptions v.name) {rest : List String}
    (h : s.terminal.input = List.replicate (questions vs) "" ++ rest) :
    Does (vs.mapM (collect ask previous)) s fun vs' s' =>
      vs' = vs.map (·.annotate defaults descriptions) ∧ Asked s s' ∧ s'.terminal.input = rest := by
  induction vs generalizing s with
  | nil => exact .pure ⟨rfl, .refl s, h⟩
  | cons v vs ih =>
    rw [questions, List.replicate_add, List.append_assoc] at h
    rw [List.mapM_cons]
    refine .bind
      ((collect_again (hvs v (by simp)) hd he (hpd v (by simp)) (hpe v (by simp)) h).mono ?_)
    rintro _ s₁ ⟨rfl, hs₁, hrest₁⟩
    refine .bind ((ih (fun w hw => hvs w (by simp [hw])) (fun w hw => hpd w (by simp [hw]))
      (fun w hw => hpe w (by simp [hw])) hrest₁).mono ?_)
    rintro _ s₂ ⟨rfl, hs₂, hrest₂⟩
    exact .pure ⟨rfl, hs₁.trans hs₂, hrest₂⟩

end Variable

namespace Template

variable {t t' : Template} {source : String} {previous : Metadata}

/-- The variables of a template that was read are fresh. -/
lemma fresh_of_parse (h : parse source = .ok t) : ∀ v ∈ t.vars, v.Fresh := by
  obtain ⟨ps, -, -, -, rfl⟩ := Source.parse_eq_ok.mp h
  intro v hv
  obtain ⟨n, rfl⟩ := exists_ofName_of_mem_vars hv
  exact ⟨rfl, rfl⟩

/-- A template whose variables were asked for has texts as answers leave them. -/
lemma collect_eq_ok (hparse : parse source = .ok t)
    (h : (t.collect ask previous).run s = (.ok t', s')) :
    ∃ defaults descriptions, Given defaults ∧ Given descriptions ∧
      t' = t.annotate defaults descriptions ∧
      Asked s s' := by
  obtain ⟨vs, s₁, hvs, h⟩ := run_bind_eq_ok.mp h
  cases h
  obtain ⟨defaults, descriptions, hd, he, rfl, hs⟩ :=
    Variable.mapM_collect_eq_ok (fresh_of_parse hparse) (wellNamed_of_parse hparse).nodup hvs
  exact ⟨defaults, descriptions, hd, he, rfl, hs⟩

/-- Asked again, a template has the same texts if every question gets an empty line. -/
lemma collect_again (hparse : parse source = .ok t) (hd : Given defaults) (he : Given descriptions)
    (hpd : ∀ n ∈ t.variableNames, previous.defaults.lookup n = defaults n)
    (hpe : ∀ n ∈ t.variableNames, previous.descriptions.lookup n = descriptions n)
    {rest : List String}
    (h : s.terminal.input = List.replicate (Variable.questions t.vars) "" ++ rest) :
    Does (t.collect ask previous) s fun t' s' =>
      t' = t.annotate defaults descriptions ∧ Asked s s' ∧ s'.terminal.input = rest := by
  refine .bind ((Variable.mapM_collect_again (fresh_of_parse hparse) hd he
    (fun v hv => hpd _ (List.mem_map_of_mem hv))
    (fun v hv => hpe _ (List.mem_map_of_mem hv)) h).mono ?_)
  rintro _ s₁ ⟨rfl, hs, hrest⟩
  exact .pure ⟨rfl, hs, hrest⟩

end Template

end

end Stencil
