import Mathlib.Data.List.TakeWhile
import Mathlib.Tactic.Common
import Stencil.Name
import Stencil.Template.Parse
import Stencil.Text.Blank

/-!
# Texts and names

Facts about trimming, cutting and joining texts, and about the characters of names. The main
statements: trimming takes away exactly the blanks around a text that has none at its ends
(`trimChars_padded`), trimming a row of parts first changes none of them (`map_trim_splitOn`), and
names joined by underscores make a name (`Name.valid_joinWith`).
-/

namespace Stencil

namespace Text

/-! ## Trimming -/

/-- All characters are blanks. -/
def Blank (cs : List Char) : Prop :=
  ∀ c ∈ cs, isBlank c = true

/-- Neither end of the text is a blank. -/
def Tight (cs : List Char) : Prop :=
  (∀ c ∈ cs.head?, isBlank c = false) ∧ ∀ c ∈ cs.getLast?, isBlank c = false

/-- Blanks at the start do not change the result of trimming. -/
lemma trimChars_append_left {l cs : List Char} (hl : Blank l) :
    trimChars (l ++ cs) = trimChars cs := by
  unfold trimChars trimWhile
  rw [List.dropWhile_append_of_pos hl]

/-- Blanks at the end do not change the result of trimming. -/
lemma trimChars_append_right {cs r : List Char} (hr : Blank r) :
    trimChars (cs ++ r) = trimChars cs := by
  unfold trimChars trimWhile dropEndWhile
  congr 1
  have hr' : ∀ c ∈ r.reverse, isBlank c = true := fun c hc => hr c (List.mem_reverse.mp hc)
  rw [List.dropWhile_append]
  split
  · rename_i h
    have h' : List.dropWhile isBlank cs = [] := by simpa using h
    rw [h', List.dropWhile_eq_nil_iff.mpr hr]
  · rw [List.reverse_append, List.dropWhile_append_of_pos hr']

/-- Where neither end satisfies `p`, nothing is dropped. -/
lemma trimWhile_eq_self {p : Char → Bool} {cs : List Char} (hh : ∀ c ∈ cs.head?, p c = false)
    (hl : ∀ c ∈ cs.getLast?, p c = false) : trimWhile p cs = cs := by
  have e₁ : cs.dropWhile p = cs := by
    cases cs with
    | nil => rfl
    | cons c cs => rw [List.dropWhile_cons_of_neg]; simp [hh c (by simp)]
  unfold trimWhile dropEndWhile
  rw [e₁]
  have e₂ : cs.reverse.dropWhile p = cs.reverse := by
    rw [← List.head?_reverse] at hl
    cases hr : cs.reverse with
    | nil => rfl
    | cons c r =>
      rw [List.dropWhile_cons_of_neg]
      simp [hl c (by rw [hr]; rfl)]
  rw [e₂, List.reverse_reverse]

/-- A text without blanks at its ends is not changed by trimming. -/
lemma trimChars_of_tight {cs : List Char} (h : Tight cs) : trimChars cs = cs :=
  trimWhile_eq_self h.1 h.2

/-- Trimming takes away exactly the blanks around a text that has none at its ends. -/
lemma trimChars_padded {l cs r : List Char} (hl : Blank l) (hr : Blank r) (h : Tight cs) :
    trimChars (l ++ cs ++ r) = cs := by
  rw [trimChars_append_right hr, trimChars_append_left hl, trimChars_of_tight h]

/-- A text is its trimmed form with blanks around it. -/
lemma exists_padding (cs : List Char) : ∃ l r, Blank l ∧ Blank r ∧ cs = l ++ trimChars cs ++ r := by
  refine ⟨cs.takeWhile isBlank, ((cs.dropWhile isBlank).reverse.takeWhile isBlank).reverse, ?_,
    ?_, ?_⟩
  · exact fun c hc => List.mem_takeWhile_imp hc
  · exact fun c hc => List.mem_takeWhile_imp (List.mem_reverse.mp hc)
  · unfold trimChars trimWhile dropEndWhile
    rw [List.append_assoc, ← List.reverse_append, List.takeWhile_append_dropWhile,
      List.reverse_reverse, List.takeWhile_append_dropWhile]

/-- What is left after trimming has no blank at its ends. -/
lemma tight_trimChars (cs : List Char) : Tight (trimChars cs) := by
  have dropped (ds : List Char) : ∀ c ∈ (ds.dropWhile isBlank).head?, isBlank c = false := by
    intro c hc
    have := List.head?_dropWhile_not isBlank ds
    rw [Option.mem_def.mp hc] at this
    simpa using this
  unfold trimChars trimWhile dropEndWhile
  refine ⟨?_, ?_⟩
  · -- The first character is still that of the text whose start was dropped.
    intro c hc
    obtain ⟨e, he⟩ := List.dropWhile_suffix (l := (cs.dropWhile isBlank).reverse) isBlank
    have hp : (((cs.dropWhile isBlank).reverse.dropWhile isBlank).reverse) ++ e.reverse =
        cs.dropWhile isBlank := by
      rw [← List.reverse_append, he, List.reverse_reverse]
    apply dropped cs c
    rw [← hp, Option.mem_def, List.head?_append, Option.mem_def.mp hc]
    rfl
  · intro c hc
    rw [List.getLast?_reverse] at hc
    exact dropped _ c hc

/-- Trimming twice is trimming once. -/
lemma trimChars_idem (cs : List Char) : trimChars (trimChars cs) = trimChars cs :=
  trimChars_of_tight (tight_trimChars cs)

/-! ## Cutting and joining -/

/-- Cutting a text after a start without the separator leaves all cuts but the first as they are. -/
lemma splitOn_append_left {α : Type} [BEq α] [LawfulBEq α] {sep : α} {l cs : List α} (h : sep ∉ l) :
    (l ++ cs).splitOn sep = (cs.splitOn sep).modifyHead (l ++ ·) := by
  induction l with
  | nil => cases e : cs.splitOn sep <;> simp [e]
  | cons a l ih =>
    rw [List.mem_cons, not_or] at h
    obtain ⟨hne, hl⟩ := h
    have hb : (a == sep) = false := beq_eq_false_iff_ne.mpr (Ne.symm hne)
    rw [List.cons_append, List.splitOn_cons_eq_if_modifyHead, hb, ih hl]
    cases cs.splitOn sep <;> rfl

/-- Cutting a text before an end without the separator leaves all cuts but the last as they are. -/
lemma splitOn_append_right {α : Type} [BEq α] [LawfulBEq α] {sep : α} (cs : List α) {r : List α}
    (h : sep ∉ r) :
    ∃ init last, cs.splitOn sep = init ++ [last] ∧ (cs ++ r).splitOn sep = init ++ [last ++ r] := by
  induction cs with
  | nil => exact ⟨[], [], rfl, by simp [List.splitOn_eq_singleton h]⟩
  | cons a cs ih =>
    obtain ⟨init, last, e₁, e₂⟩ := ih
    rw [List.cons_append, List.splitOn_cons_eq_if_modifyHead, List.splitOn_cons_eq_if_modifyHead,
      e₁, e₂]
    by_cases ha : (a == sep) = true
    · exact ⟨[] :: init, last, by simp [ha], by simp [ha]⟩
    · cases init with
      | nil => exact ⟨[], a :: last, by simp [ha], by simp [ha]⟩
      | cons i init => exact ⟨(a :: i) :: init, last, by simp [ha], by simp [ha]⟩

/-- Trimming the whole before it is cut changes none of the trimmed parts. -/
lemma map_trim_splitOn (sep : Char) (hsep : isBlank sep = false) (cs : List Char) :
    ((trimChars cs).splitOn sep).map trimChars = (cs.splitOn sep).map trimChars := by
  obtain ⟨l, r, hl, hr, e⟩ := exists_padding cs
  have notBlank {b : List Char} (hb : Blank b) : sep ∉ b := fun h => by simp [hb sep h] at hsep
  obtain ⟨init, last, e₁, e₂⟩ := splitOn_append_right (l ++ trimChars cs) (notBlank hr)
  rw [splitOn_append_left (notBlank hl)] at e₁
  conv_rhs => rw [e, e₂]
  rw [List.map_append, List.map_cons, List.map_nil, trimChars_append_right hr]
  rw [show init.map trimChars ++ [trimChars last] = (init ++ [last]).map trimChars by simp, ← e₁]
  cases (trimChars cs).splitOn sep with
  | nil => rfl
  | cons p ps => simp [trimChars_append_left hl]

/-- The characters of joined texts. -/
lemma toList_joinWith (sep : String) (ts : List String) :
    (joinWith sep ts).toList = List.intercalate sep.toList (ts.map String.toList) := by
  induction ts with
  | nil => rfl
  | cons t ts ih =>
    cases ts with
    | nil => simp [joinWith]
    | cons u us => simp [joinWith, ih, List.intercalate_cons_of_ne_nil, String.toList_append]

/-- The separator stands in none of the pieces. -/
lemma notMem_of_mem_splitOn {α : Type} [BEq α] [LawfulBEq α] {sep : α} {xs piece : List α}
    (h : piece ∈ xs.splitOn sep) : sep ∉ piece := by
  induction xs generalizing piece with
  | nil =>
    rw [List.splitOn_nil, List.mem_singleton] at h
    subst h
    exact List.not_mem_nil
  | cons x xs ih =>
    rw [List.splitOn_cons_eq_if_modifyHead] at h
    split at h
    · rcases List.mem_cons.mp h with rfl | h
      · exact List.not_mem_nil
      · exact ih h
    · rename_i hx
      obtain ⟨first, rest, hcut⟩ := List.exists_cons_of_ne_nil (List.splitOn_ne_nil sep xs)
      rw [hcut, List.modifyHead_cons] at h
      rcases List.mem_cons.mp h with rfl | h
      · rw [List.mem_cons, not_or]
        exact ⟨fun heq => hx (beq_iff_eq.mpr heq.symm), ih (hcut ▸ List.mem_cons_self)⟩
      · exact ih (hcut ▸ List.mem_cons_of_mem first h)

/-- A text that ends its last line is cut apart from what follows. -/
lemma cutAt_line (a b : String) : cutAt '\n' (a ++ "\n" ++ b) = cutAt '\n' a ++ cutAt '\n' b := by
  have hchars : (a ++ "\n" ++ b).toList = a.toList ++ '\n' :: b.toList := by simp
  rw [cutAt, hchars, List.splitOn_append_cons_self, List.map_append]
  rfl

/-- A text without the separator is not cut. -/
lemma cutAt_of_notMem {sep : Char} {s : String} (h : sep ∉ s.toList) : cutAt sep s = [s] := by
  rw [cutAt, List.splitOn_eq_singleton h, List.map_cons, List.map_nil, String.ofList_toList]

/-- Joined lines are cut into these lines. -/
lemma cutAt_joinWith {ls : List String} (hne : ls ≠ []) (h : ∀ l ∈ ls, '\n' ∉ l.toList) :
    cutAt '\n' (joinWith "\n" ls) = ls := by
  have hlines : ∀ l ∈ ls.map String.toList, '\n' ∉ l := by simpa using h
  have hsome : ls.map String.toList ≠ [] := by simpa using hne
  rw [cutAt, toList_joinWith, show "\n".toList = ['\n'] from rfl,
    List.splitOn_intercalate '\n' hlines hsome]
  simp

end Text

namespace Name

/-! ## Names -/

/-- A name starts with a letter or an underscore and goes on with letters, digits and
underscores. -/
lemma faultOf_eq_none {cs : List Char} :
    faultOf cs = none ↔
      ∃ c r, cs = c :: r ∧ isStart c = true ∧ r.all isPart = true ∧ cs ≠ ['_'] := by
  cases cs with
  | nil => simp [faultOf]
  | cons c r =>
    simp only [faultOf]
    by_cases h₁ : c = '_' ∧ r = []
    · obtain ⟨rfl, rfl⟩ := h₁
      simp
    · have hne : c :: r ≠ ['_'] := fun h => h₁ (by simpa using h)
      have hb : (c == '_' && r.isEmpty) = false := by
        by_contra hcon
        exact h₁ (by simpa using hcon)
      rw [hb]
      by_cases hs : isStart c = true <;> by_cases hr : r.all isPart = true <;> simp_all

/-- A character that starts a name may stand anywhere in it. -/
lemma isPart_of_isStart {c : Char} (h : isStart c = true) : isPart c = true := by
  simp [isPart, h]

/-- All characters of a name may stand in a name. -/
lemma isPart_of_mem {cs : List Char} (h : faultOf cs = none) {c : Char} (hc : c ∈ cs) :
    isPart c = true := by
  obtain ⟨d, r, rfl, hs, hr, _⟩ := faultOf_eq_none.mp h
  cases List.mem_cons.mp hc with
  | inl e => exact e ▸ isPart_of_isStart hs
  | inr hm => exact List.all_eq_true.mp hr c hm

/-- The code points of the characters of names. -/
lemma isPart_iff {c : Char} :
    isPart c = true ↔
      (97 ≤ c.toNat ∧ c.toNat ≤ 122) ∨ (65 ≤ c.toNat ∧ c.toNat ≤ 90) ∨ c.toNat = 95 ∨
      (48 ≤ c.toNat ∧ c.toNat ≤ 57) := by
  have hle (a b : Char) : a ≤ b ↔ a.toNat ≤ b.toNat := Iff.rfl
  have heq : c = '_' ↔ c.toNat = 95 := ⟨fun h => h ▸ rfl, fun h => Char.toNat_inj.mp h⟩
  have e : 'a'.toNat = 97 ∧ 'z'.toNat = 122 ∧ 'A'.toNat = 65 ∧ 'Z'.toNat = 90 ∧ '0'.toNat = 48 ∧
    '9'.toNat = 57 := by decide
  simp only [isPart, isStart, Bool.or_eq_true, Bool.and_eq_true, decide_eq_true_eq, beq_iff_eq, hle,
    heq, e]
  omega

/-- The characters of names are no blanks. -/
lemma isBlank_of_isPart {c : Char} (h : isPart c = true) : Text.isBlank c = false := by
  have := isPart_iff.mp h
  simp only [Text.isBlank, Bool.or_eq_false_iff, Bool.and_eq_false_iff, decide_eq_false_iff_not,
    beq_eq_false_iff_ne]
  omega

/-- A character that may not stand in a name is none of the characters of a name. -/
lemma ne_of_isPart {c d : Char} (h : isPart c = true) (hd : isPart d = false) : c ≠ d := by
  rintro rfl
  simp [h] at hd

/-- A name has no blanks at its ends. -/
lemma tight {cs : List Char} (h : faultOf cs = none) : Text.Tight cs :=
  ⟨fun _ hc => isBlank_of_isPart (isPart_of_mem h (List.mem_of_mem_head? hc)),
    fun _ hc => isBlank_of_isPart (isPart_of_mem h (List.mem_of_mem_getLast? hc))⟩

/-- Names with underscores between them make a name. -/
lemma faultOf_intercalate {n : List Char} {ns : List (List Char)}
    (h : ∀ m ∈ n :: ns, faultOf m = none) :
    faultOf (List.intercalate ['_'] (n :: ns)) = none := by
  induction ns generalizing n with
  | nil => simpa using h
  | cons m ns ih =>
    have hm := ih (n := m) fun k hk => h k (List.mem_cons_of_mem _ hk)
    obtain ⟨c, r, e, hs, hr, hne⟩ := faultOf_eq_none.mp (h n (by simp))
    rw [List.intercalate_cons_of_ne_nil (by simp), e]
    refine faultOf_eq_none.mpr ⟨c, _, rfl, hs, ?_, by simp⟩
    have hall : (List.intercalate ['_'] (m :: ns)).all isPart = true :=
      List.all_eq_true.mpr fun d hd => isPart_of_mem hm hd
    simp [hr, hall]
    decide

/-- Names joined by underscores make a name. -/
lemma valid_joinWith {n : String} {ns : List String} (h : ∀ m ∈ n :: ns, Valid m) :
    Valid (Text.joinWith "_" (n :: ns)) := by
  unfold Valid fault?
  rw [Text.toList_joinWith]
  apply faultOf_intercalate
  intro m hm
  rw [← List.map_cons, List.mem_map] at hm
  obtain ⟨t, ht, rfl⟩ := hm
  exact h t ht

end Name

end Stencil
