import Mathlib.Data.Option.Basic
import Mathlib.Tactic.Common
import Stencil.Escape
import Stencil.Proofs.Placement

/-!
# The parts of an output path

A default path with another name in it is that name between what is kept of the path
(`substitute_eq`).
-/

namespace Stencil

namespace OutputPath

/-- What stands before the name of the file. -/
def lead : Option String → String
  | none => "./"
  | some p =>
    let d := directory p.toList
    if d.isEmpty || d.getLast? == some '/' then String.ofList d else String.ofList (d ++ ['/'])

/-- What stands behind the name of the file. -/
def tail : Option String → String
  | none => ""
  | some p => String.ofList (extensionOf p.toList)

/-- The part of a path before the name is its directory and a slash. -/
lemma toList_lead (p : String) : (lead (some p)).toList =
    if (directory p.toList).isEmpty ||
      (directory p.toList).getLast? == some '/' then directory p.toList
    else directory p.toList ++ ['/'] := by
  unfold lead
  dsimp only
  split <;> simp

variable {path : Option String}

/-- The name stands between what is kept of the path, unless it starts with a slash and there is a
directory. -/
lemma substitute_eq {name : String} (h : name.toList.head? ≠ some '/' ∨ directory? path = none) :
    substitute path name = lead path ++ name ++ tail path := by
  cases path with
  | none => simp [substitute, lead, tail]
  | some p =>
    rw [← String.toList_inj, String.toList_append, String.toList_append, toList_lead, substitute,
      String.toList_ofList, tail, String.toList_ofList, join]
    rcases h with hname | hempty
    · have hstart : ((name.toList ++ extensionOf p.toList).head? == some '/') = false := by
        rw [beq_eq_false_iff_ne]
        cases hn : name.toList with
        | nil =>
          rw [List.nil_append]
          exact fun hhead => slash_notMem_extensionOf p.toList (List.mem_of_mem_head? hhead)
        | cons c cs =>
          rw [hn] at hname
          simpa using hname
      rw [hstart, if_neg (by decide)]
      split <;> simp
    · have hdir : directory p.toList = [] := by simpa [directory?] using hempty
      simp [hdir]

/-- The directory and the extension of the path have no special characters. What is between them is
replaced, so it does not matter. -/
def Plain (path : Option String) : Prop :=
  ∀ p ∈ path, ∀ c ∈ directory p.toList ++ extensionOf p.toList, Escape.isSpecial c = false

/-- Whether a path is plain can be decided. -/
instance (path : Option String) : Decidable (Plain path) :=
  decidable_of_iff
    (path.all (fun p => (directory p.toList ++ extensionOf p.toList).all (!Escape.isSpecial ·)) =
      true)
    (by cases path <;> simp [Plain, or_imp, forall_and])

namespace Plain

/-- A path without special characters is plain. -/
lemma of_path (h : ∀ p, path = some p → ∀ c ∈ p.toList, Escape.isSpecial c = false) :
    Plain path := by
  intro p hp c hc
  rcases List.mem_append.mp hc with hc | hc
  · exact h p hp c (directory_subset _ hc)
  · have hname := (splits_directory p.toList).name_suffix.2.subset (extensionOf_subset _ hc)
    exact h p hp c (cleaned_subset _ hname)

/-- The directory of a plain path has no special character. -/
lemma directory? (h : Plain path) {d : String} (hd : d ∈ directory? path) :
    ∀ c ∈ d.toList, Escape.isSpecial c = false := by
  cases path with
  | none => cases hd
  | some p =>
    obtain ⟨-, hd⟩ := Option.ite_none_left_eq_some.mp hd
    obtain rfl := Option.some.inj hd
    intro c hc
    rw [String.toList_ofList] at hc
    exact h p rfl c (List.mem_append_left _ hc)

/-- The part of a plain path before the name has no special character. -/
lemma lead (h : Plain path) : ∀ c ∈ (lead path).toList, Escape.isSpecial c = false := by
  cases path with
  | none =>
    have hall : (OutputPath.lead none).toList.all (!Escape.isSpecial ·) = true := by decide
    simpa using hall
  | some p =>
    intro c hc
    rw [toList_lead] at hc
    split at hc
    · exact h p rfl c (List.mem_append_left _ hc)
    · rcases List.mem_append.mp hc with hc | hc
      · exact h p rfl c (List.mem_append_left _ hc)
      · rw [List.mem_singleton.mp hc]
        rfl

/-- The part of a plain path behind the name has no special character. -/
lemma tail (h : Plain path) : ∀ c ∈ (tail path).toList, Escape.isSpecial c = false := by
  cases path with
  | none => simp [OutputPath.tail]
  | some p =>
    intro c hc
    rw [OutputPath.tail, String.toList_ofList] at hc
    exact h p rfl c (List.mem_append_right _ hc)

end Plain

end OutputPath

end Stencil
