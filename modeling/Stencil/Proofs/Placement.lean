import Mathlib.Data.List.DropRight
import Mathlib.Tactic.Common
import Stencil.OutputPath

/-!
# Where a file goes

`Splits` says which directory and which name a path has, and `HasExtension` which extension a name
has. Neither says how they are found, and each path has exactly one of each (`splits_iff`,
`hasExtension_iff`). Joining a directory and a name gives a path that splits into the two
(`Splits.join`). So putting another name into a default path keeps its directory and its extension
(`substitute_swaps_stem`). It keeps the root of the path too, unless there are only slashes
(`substitute_absolute_iff`).
-/

namespace Stencil

namespace Text

variable {α : Type} {q : α → Bool}

/-- A text is cut where an end of it is dropped. -/
lemma exists_dropEndWhile (q : α → Bool) (cs : List α) : ∃ back, dropEndWhile q cs ++ back = cs ∧
    (∀ c ∈ back, q c = true) ∧ ∀ c ∈ (dropEndWhile q cs).getLast?, q c = false := by
  refine ⟨cs.rtakeWhile q, List.rdropWhile_append_rtakeWhile, fun c => List.mem_rtakeWhile_imp,
    fun c hc => ?_⟩
  obtain ⟨hne, rfl⟩ := List.mem_getLast?_eq_getLast hc
  exact Bool.eq_false_iff.mpr (List.rdropWhile_last_not q cs hne)

/-- Nothing is dropped from a list that ends with an item to keep. -/
lemma dropEndWhile_of_getLast? {cs : List α} (h : ∀ c ∈ cs.getLast?, q c = false) :
    dropEndWhile q cs = cs := by
  refine List.rdropWhile_eq_self_iff.mpr fun hne => ?_
  rw [h _ (List.getLast?_eq_getLast_of_ne_nil hne)]
  exact Bool.false_ne_true

/-- What is dropped is the longest end that may be dropped. -/
lemma dropEndWhile_append {front back : List α} (hback : ∀ c ∈ back, q c = true)
    (hfront : ∀ c ∈ front.getLast?, q c = false) : dropEndWhile q (front ++ back) = front := by
  rw [dropEndWhile, List.reverse_append, List.dropWhile_append_of_pos]
  · exact dropEndWhile_of_getLast? hfront
  · intro c hc
    exact hback c (List.mem_reverse.mp hc)

end Text

namespace OutputPath

variable {p dir name part ext : List Char}

/-! ## Directory and name -/

/-- The path leads to a name in a directory. Slashes between the two belong to neither, unless the
directory is nothing but slashes. -/
inductive Splits : List Char → List Char → List Char → Prop
  | top {slashes name : List Char} : (∀ c ∈ slashes, c = '/') → '/' ∉ name →
    Splits (slashes ++ name) slashes name
  | below {dir slashes name : List Char} : (∃ c ∈ dir.getLast?, c ≠ '/') → slashes ≠ [] →
    (∀ c ∈ slashes, c = '/') →
    '/' ∉ name → Splits (dir ++ slashes ++ name) dir name

/-- The head of a path ends where its last component starts. -/
lemma head_append {front : List Char} (hfront : ∀ c ∈ front.getLast?, c = '/')
    (hname : '/' ∉ name) :
    head (front ++ name) = front ∧ lastPart (front ++ name) = name := by
  have hhead : head (front ++ name) = front := by
    refine Text.dropEndWhile_append (fun c hc => ?_) fun c hc => ?_
    · rw [bne_iff_ne]
      rintro rfl
      exact hname hc
    · rw [hfront c hc]
      rfl
  have happend : head (front ++ name) ++ lastPart (front ++ name) = front ++ name :=
    List.rdropWhile_append_rtakeWhile
  rw [hhead] at happend
  exact ⟨hhead, List.append_cancel_left happend⟩

/-- A head that is all slashes is the directory. -/
lemma parent_top {slashes : List Char} (hslashes : ∀ c ∈ slashes, c = '/') (hname : '/' ∉ name) :
    parent (slashes ++ name) = slashes := by
  obtain ⟨hhead, -⟩ := head_append (fun c hc => hslashes c (List.mem_of_mem_getLast? hc)) hname
  unfold parent
  rw [hhead]
  exact if_pos (by simpa using hslashes)

/-- Slashes between a directory and a name do not count. -/
lemma parent_below {slashes : List Char} (hdir : ∃ c ∈ dir.getLast?, c ≠ '/')
    (hslashes : ∀ c ∈ slashes, c = '/') (hhead : head p = dir ++ slashes) : parent p = dir := by
  obtain ⟨d, hd, hother⟩ := hdir
  unfold parent
  rw [hhead]
  refine (if_neg fun hall => ?_).trans (Text.dropEndWhile_append (fun c hc => ?_) fun c hc => ?_)
  · have := List.all_eq_true.mp hall d (List.mem_append_left _ (List.mem_of_mem_getLast? hd))
    exact hother (beq_iff_eq.mp this)
  · exact beq_iff_eq.mpr (hslashes c hc)
  · rw [Option.mem_unique hc hd, beq_eq_false_iff_ne]
    exact hother

namespace Splits

/-- A path splits in one way only. -/
lemma eq_parent (h : Splits p dir name) : OutputPath.parent p = dir ∧ lastPart p = name := by
  cases h with
  | top hslashes hname =>
    obtain ⟨-, hlast⟩ := head_append (fun c hc => hslashes c (List.mem_of_mem_getLast? hc)) hname
    exact ⟨parent_top hslashes hname, hlast⟩
  | @below _ slashes _ hdir hne hslashes hname =>
    have hends : ∀ c ∈ (dir ++ slashes).getLast?, c = '/' := by
      intro c hc
      rw [List.getLast?_append_of_ne_nil _ hne] at hc
      exact hslashes c (List.mem_of_mem_getLast? hc)
    obtain ⟨hhead, hlast⟩ := head_append hends hname
    exact ⟨parent_below hdir hslashes hhead, hlast⟩

/-- Every path splits. -/
lemma exists_splits (p : List Char) : ∃ dir name, Splits p dir name := by
  obtain ⟨name, hp, hname, hends⟩ := Text.exists_dropEndWhile (· != '/') p
  have hslash : '/' ∉ name := fun hmem => by simpa using hname _ hmem
  obtain ⟨slashes, hhead, hslashes, hdir⟩ := Text.exists_dropEndWhile (· == '/') (head p)
  have hall : ∀ c ∈ slashes, c = '/' := fun c hc => beq_iff_eq.mp (hslashes c hc)
  rw [← hp]
  change ∃ dir name', Splits (head p ++ name) dir name'
  rw [← hhead]
  cases hlast : (Text.dropEndWhile (· == '/') (head p)).getLast? with
  | none =>
    rw [List.getLast?_eq_none_iff.mp hlast, List.nil_append]
    exact ⟨_, _, top hall hslash⟩
  | some c =>
    have hother : c ≠ '/' := by simpa using hdir c hlast
    refine ⟨_, _, below ⟨c, hlast, hother⟩ ?_ hall hslash⟩
    -- without slashes the head would end with another character
    rintro rfl
    rw [List.append_nil] at hhead
    rw [hhead] at hlast
    exact hother (by simpa using hends c hlast)

end Splits

/-- A path is split into its directory and its last part. -/
lemma splits_iff : Splits p dir name ↔ parent p = dir ∧ lastPart p = name := by
  constructor
  · exact Splits.eq_parent
  · rintro ⟨rfl, rfl⟩
    obtain ⟨dir, name, h⟩ := Splits.exists_splits p
    obtain ⟨rfl, rfl⟩ := h.eq_parent
    exact h

namespace Splits

/-- A directory that a path has can have any name in it. -/
lemma join {other : List Char} (h : Splits p dir other) (hname : '/' ∉ name) :
    Splits (join dir name) dir name := by
  have hstart : (name.head? == some '/') = false := by
    rw [beq_eq_false_iff_ne]
    exact fun hhead => hname (List.mem_of_mem_head? hhead)
  unfold OutputPath.join
  rw [hstart, if_neg Bool.false_ne_true]
  cases h with
  | top hslashes _ =>
    rw [if_pos]
    · exact top hslashes hname
    · cases hlast : dir.getLast? with
      | none => simp [List.getLast?_eq_none_iff.mp hlast]
      | some c => simp [hslashes c (List.mem_of_mem_getLast? hlast)]
  | below hdir _ _ _ =>
    rw [if_neg]
    · exact below hdir (by simp) (by simp) hname
    · obtain ⟨c, hc, hother⟩ := hdir
      have hne : dir ≠ [] := by
        rintro rfl
        cases hc
      rw [Option.mem_def.mp hc]
      simp [hne, hother]

/-- A path ends with its name. -/
lemma name_suffix (h : Splits p dir name) : '/' ∉ name ∧ name <:+ p := by
  cases h with
  | top _ hname => exact ⟨hname, List.suffix_append _ _⟩
  | below _ _ _ hname => exact ⟨hname, List.suffix_append _ _⟩

/-- A path starts with its directory. -/
lemma dir_subset (h : Splits p dir name) : dir ⊆ p := by
  cases h with
  | top => exact List.subset_append_left _ _
  | below =>
    rw [List.append_assoc]
    exact List.subset_append_left _ _

/-- A path that ends with a name has no slashes to be dropped. -/
lemma cleaned (h : Splits p dir name) (hname : name ≠ []) : cleaned p = p := by
  obtain ⟨hslash, front, rfl⟩ := h.name_suffix
  have hlast : ∀ c ∈ (front ++ name).getLast?, (c == '/') = false := by
    intro c hc
    rw [beq_eq_false_iff_ne]
    rintro rfl
    rw [List.getLast?_append_of_ne_nil _ hname] at hc
    exact hslash (List.mem_of_mem_getLast? hc)
  unfold OutputPath.cleaned
  rw [Text.dropEndWhile_of_getLast? hlast, ite_self]

/-- A directory is absolute if and only if the path is. -/
lemma head?_iff (h : Splits p dir name) : dir.head? = some '/' ↔ p.head? = some '/' := by
  cases h with
  | top hslashes hname =>
    cases dir with
    | nil =>
      refine iff_of_false (by simp) fun hhead => hname (List.mem_of_mem_head? hhead)
    | cons c cs => simp
  | below hdir _ _ _ =>
    obtain ⟨c, hc, -⟩ := hdir
    cases dir with
    | nil => cases hc
    | cons d ds => simp

end Splits

/-! ## Extensions -/

/-- The extension starts at the last dot of the name. A name whose dots all stand at its start has
none. -/
inductive HasExtension : List Char → List Char → Prop
  | bare {dots stem : List Char} : (∀ c ∈ dots, c = '.') → '.' ∉ stem →
    HasExtension (dots ++ stem) []
  | dotted {stem ending : List Char} : (∃ c ∈ stem, c ≠ '.') → '.' ∉ ending →
    HasExtension (stem ++ '.' :: ending) ('.' :: ending)

/-- A name is cut behind its last dot. What counts is whether another character stands before that
dot. -/
lemma extension_append {front ending : List Char} (hfront : ∀ c ∈ front.getLast?, c = '.')
    (hending : '.' ∉ ending) :
    extension (front ++ ending) = if front.dropLast.all (· == '.') then [] else '.' :: ending := by
  have hpos : ∀ c ∈ ending.reverse, (c != '.') = true := by
    intro c hc
    rw [bne_iff_ne]
    rintro rfl
    exact hending (List.mem_reverse.mp hc)
  unfold extension
  dsimp only
  rw [List.reverse_append, List.dropWhile_append_of_pos hpos, List.takeWhile_append_of_pos hpos]
  cases front using List.reverseRecOn with
  | nil => rfl
  | append_singleton front c =>
    obtain rfl := hfront c (by simp)
    simp

namespace HasExtension

/-- A part without a dot has no extension. -/
lemma of_dot_notMem (h : '.' ∉ part) : HasExtension part [] :=
  @bare [] part (by simp) h

/-- A name has one extension only. -/
lemma eq_extension (h : HasExtension part ext) : OutputPath.extension part = ext := by
  cases h with
  | bare hdots hstem =>
    rw [extension_append (fun c hc => hdots c (List.mem_of_mem_getLast? hc)) hstem, if_pos]
    exact List.all_eq_true.mpr fun c hc => beq_iff_eq.mpr (hdots c (List.dropLast_subset _ hc))
  | @dotted stem ending hstem hending =>
    rw [List.append_cons, extension_append (by simp) hending, if_neg]
    obtain ⟨c, hc, hother⟩ := hstem
    rw [List.dropLast_concat]
    exact fun hall => hother (beq_iff_eq.mp (List.all_eq_true.mp hall c hc))

/-- Each part has the extension that is computed for it. -/
lemma extension (part : List Char) : HasExtension part (extension part) := by
  obtain ⟨ending, hpart, hending, hends⟩ := Text.exists_dropEndWhile (· != '.') part
  generalize Text.dropEndWhile (· != '.') part = front at hpart hends
  have hdot : '.' ∉ ending := fun hmem => by simpa using hending _ hmem
  have hlast : ∀ c ∈ front.getLast?, c = '.' := fun c hc => by simpa using hends c hc
  rw [← hpart, extension_append hlast hdot]
  cases front using List.reverseRecOn with
  | nil => exact of_dot_notMem hdot
  | append_singleton front c =>
    obtain rfl := hlast c (by simp)
    rw [List.dropLast_concat]
    split
    · rename_i hall
      refine bare (fun c hc => ?_) hdot
      rcases List.mem_append.mp hc with hc | hc
      · exact beq_iff_eq.mp (List.all_eq_true.mp hall c hc)
      · exact List.mem_singleton.mp hc
    · rename_i hall
      rw [← List.append_cons]
      refine dotted ?_ hdot
      simpa using hall

/-- The extension is part of the name. -/
lemma subset (h : HasExtension part ext) : ext ⊆ part := by
  cases h with
  | bare => exact List.nil_subset _
  | dotted => exact List.subset_append_right _ _

/-- A stem without dots can stand in front of any extension. -/
lemma swap {stem : List Char} (h : HasExtension part ext) (hne : stem ≠ []) (hdot : '.' ∉ stem) :
    HasExtension (stem ++ ext) ext := by
  cases h with
  | bare =>
    rw [List.append_nil]
    exact of_dot_notMem hdot
  | dotted _ hending =>
    obtain ⟨c, hc⟩ := List.exists_mem_of_ne_nil stem hne
    refine dotted ⟨c, hc, ?_⟩ hending
    rintro rfl
    exact hdot hc

end HasExtension

/-- A part has one extension, the one that is computed for it. -/
lemma hasExtension_iff : HasExtension part ext ↔ extension part = ext := by
  constructor
  · exact HasExtension.eq_extension
  · rintro rfl
    exact .extension part

/-! ## Another name -/

/-- A name that can take the place of another one: it has neither slashes nor dots. -/
def IsStem (a : String) : Prop :=
  a ≠ "" ∧ '/' ∉ a.toList ∧ '.' ∉ a.toList

/-- Whether a name is a stem can be decided. -/
instance (a : String) : Decidable (IsStem a) :=
  inferInstanceAs (Decidable (_ ∧ _ ∧ _))

variable {a : String}

/-- The root is written with one slash. -/
lemma eq_root_iff {path : String} : path = "/" ↔ path.toList = ['/'] := by
  rw [← String.toList_inj]
  rfl

/-- Only the root itself keeps a slash at its end. -/
lemma cleaned_eq (p : List Char) :
    cleaned p = if p = ['/'] then ['/'] else Text.dropEndWhile (· == '/') p := by
  unfold cleaned
  match p with
  | [] => rfl
  | [c] =>
    by_cases hc : c = '/'
    · simp [hc]
    · simp [hc, Text.dropEndWhile]
  | c :: d :: cs => simp

/-- Cleaning a path adds no character. -/
lemma cleaned_subset (p : List Char) : cleaned p ⊆ p := by
  rw [cleaned_eq]
  split
  · rename_i hroot
    rw [hroot]
    exact List.Subset.refl _
  · obtain ⟨slashes, hp, -⟩ := Text.exists_dropEndWhile (· == '/') p
    intro c hc
    rw [← hp]
    exact List.mem_append_left _ hc

/-- The directory of a path is that of the cleaned path. -/
lemma splits_directory (p : List Char) : Splits (cleaned p) (directory p) (lastPart (cleaned p)) :=
  splits_iff.mpr ⟨rfl, rfl⟩

/-- The directory has no character that the path has not. -/
lemma directory_subset (p : List Char) : directory p ⊆ p :=
  List.Subset.trans (splits_directory p).dir_subset (cleaned_subset p)

/-- The extension has no character that the last part has not. -/
lemma extensionOf_subset (p : List Char) : extensionOf p ⊆ lastPart (cleaned p) :=
  (HasExtension.extension _).subset

/-- The extension has no slash. -/
lemma slash_notMem_extensionOf (p : List Char) : '/' ∉ extensionOf p := by
  intro hmem
  exact (splits_directory p).name_suffix.1 (extensionOf_subset p hmem)

/-- A path without a directory has an empty one. -/
lemma toList_directory? (path : String) :
    ((directory? (some path)).getD "").toList = directory path.toList := by
  unfold directory?
  dsimp only
  split
  · rename_i hempty
    rw [List.isEmpty_iff.mp hempty]
    rfl
  · simp

/-- The path with another name in it leads to that name, with the extension kept, in the directory
of the path. -/
lemma splits_substitute (path : String) (ha : '/' ∉ a.toList) :
    Splits (substitute (some path) a).toList (directory path.toList)
      (a.toList ++ extensionOf path.toList) := by
  rw [substitute, String.toList_ofList]
  refine (splits_directory path.toList).join fun hmem => ?_
  rcases List.mem_append.mp hmem with hmem | hmem
  · exact ha hmem
  · exact slash_notMem_extensionOf _ hmem

/-- Another name changes neither the directory nor the extension. -/
lemma directory_substitute (path : String) (ha : IsStem a) :
    directory (substitute (some path) a).toList = directory path.toList ∧
      extensionOf (substitute (some path) a).toList = extensionOf path.toList := by
  obtain ⟨hne, hslash, hdot⟩ := ha
  have hstem : a.toList ≠ [] := fun hnil => hne (String.toList_eq_nil_iff.mp hnil)
  have hsplit := splits_substitute path hslash
  obtain ⟨hparent, hlast⟩ := hsplit.eq_parent
  have hcleaned := hsplit.cleaned (List.append_ne_nil_of_left_ne_nil hstem _)
  rw [directory, extensionOf, hcleaned]
  refine ⟨hparent, ?_⟩
  rw [hlast]
  exact ((HasExtension.extension _).swap hstem hdot).eq_extension

/-- A default path stands for a directory and an extension. Whatever name is put into it, the result
is that name with the extension, in the directory. So a second name can be put into the result, and
the directory to be made is the same. -/
theorem substitute_swaps_stem (path : String) :
    ∃ dir name ext, Splits (Text.dropEndWhile (· == '/') path.toList) dir name ∧
      HasExtension name ext ∧
      ((directory? (some path)).getD "").toList = (if path = "/" then ['/'] else dir) ∧
      ∀ a, IsStem a →
        Splits (substitute (some path) a).toList ((directory? (some path)).getD "").toList
          (a.toList ++ ext) ∧
        directory? (some (substitute (some path) a)) = directory? (some path) ∧
        ∀ b, IsStem b →
          substitute (some (substitute (some path) a)) b = substitute (some path) b := by
  refine ⟨_, _, extensionOf path.toList, splits_iff.mpr ⟨rfl, rfl⟩, ?_, ?_, fun a ha => ?_⟩
  · rw [hasExtension_iff, extensionOf, cleaned_eq]
    split
    · rename_i h
      rw [h]
      rfl
    · rfl
  · rw [toList_directory?, directory, cleaned_eq]
    simp only [eq_root_iff]
    split
    · rfl
    · rfl
  · obtain ⟨hdir, hext⟩ := directory_substitute path ha
    refine ⟨?_, ?_, fun b _ => ?_⟩
    · rw [toList_directory?]
      exact splits_substitute path ha.2.1
    · simp only [directory?, hdir]
    · rw [substitute, hdir, hext]
      rfl

/-- Slashes at the end do not count, a dot at the start of a name is no extension, and the last of
two extensions is kept. -/
theorem substitute_swaps_stem_of_slashes :
    IsStem "x" ∧ IsStem "y" ∧
      Splits (substitute (some "//a//.b.tar.gz//") "x").toList "//a".toList "x.gz".toList ∧
      substitute (some (substitute (some "//a//.b.tar.gz//") "x")) "y" = "//a/y.gz" := by
  have hx : IsStem "x" := by decide
  have hy : IsStem "y" := by decide
  obtain ⟨dir, name, ext, hsplit, hext, -, h⟩ := substitute_swaps_stem "//a//.b.tar.gz//"
  obtain ⟨hsplit', -, hagain⟩ := h "x" hx
  have hname : name = ".b.tar.gz".toList := hsplit.eq_parent.2.symm.trans (by decide)
  have hgz : ext = ".gz".toList := by
    rw [hname] at hext
    exact hext.eq_extension.symm.trans (by decide)
  rw [hgz] at hsplit'
  refine ⟨hx, hy, ?_, (hagain "y" hy).trans (by decide)⟩
  have hdir : ((directory? (some "//a//.b.tar.gz//")).getD "").toList = "//a".toList := by decide
  rwa [hdir] at hsplit'

/-! ## Absolute paths -/

/-- Without the slashes at its end a path is still absolute, unless nothing is left. -/
lemma head?_cleaned :
    (cleaned p).head? = some '/' ↔ p.head? = some '/' ∧ (p = ['/'] ∨ ∃ c ∈ p, c ≠ '/') := by
  rw [cleaned_eq]
  split
  · rename_i hroot
    simp [hroot]
  · rename_i hroot
    obtain ⟨slashes, hp, hslashes, hlast⟩ := Text.exists_dropEndWhile (· == '/') p
    generalize Text.dropEndWhile (· == '/') p = front at hp hlast
    subst hp
    cases front with
    | nil =>
      refine iff_of_false (by simp) ?_
      rintro ⟨-, h | ⟨c, hc, hother⟩⟩
      · exact hroot h
      · exact hother (beq_iff_eq.mp (hslashes c hc))
    | cons c cs =>
      have hother : ∃ d ∈ (c :: cs) ++ slashes, d ≠ '/' := by
        have hd := hlast _ (List.getLast?_eq_getLast_of_ne_nil (List.cons_ne_nil c cs))
        exact ⟨_, List.mem_append_left _ (List.getLast_mem _), beq_eq_false_iff_ne.mp hd⟩
      exact (and_iff_left (.inr hother)).symm

/-- The directory is absolute exactly if the path is, unless the path has nothing but slashes. -/
lemma head?_directory (p : List Char) :
    (directory p).head? = some '/' ↔ p.head? = some '/' ∧ (p = ['/'] ∨ ∃ c ∈ p, c ≠ '/') :=
  (splits_directory p).head?_iff.trans head?_cleaned

/-- Of a path that is two slashes or more nothing is kept. -/
lemma cleaned_slashes (hroot : p ≠ ['/']) (hslashes : ∀ c ∈ p, c = '/') : cleaned p = [] := by
  rw [cleaned_eq, if_neg hroot]
  exact List.rdropWhile_eq_nil_iff.mpr fun c hc => beq_iff_eq.mpr (hslashes c hc)

/-- A path with a name in it is absolute if and only if the default path is, and so is its
directory, except that two slashes or more with nothing else are no root: the name stands alone
then, and there is no directory. -/
theorem substitute_absolute_iff (path x : String) (hslash : '/' ∉ x.toList) :
    ((substitute (some path) x).toList.head? = some '/' ↔
      path.toList.head? = some '/' ∧ (path = "/" ∨ ∃ c ∈ path.toList, c ≠ '/')) ∧
    ((∃ d ∈ directory? (some path), d.toList.head? = some '/') ↔
      path.toList.head? = some '/' ∧ (path = "/" ∨ ∃ c ∈ path.toList, c ≠ '/')) ∧
    (path ≠ "/" → (∀ c ∈ path.toList, c = '/') → substitute (some path) x = x ∧
      directory? (some path) = none) := by
  rw [eq_root_iff, ← head?_directory]
  refine ⟨(splits_substitute path hslash).head?_iff.symm, ?_, fun hne hslashes => ?_⟩
  · unfold directory?
    dsimp only
    split
    · rename_i hempty
      simp [List.isEmpty_iff.mp hempty]
    · simp
  · have hcleaned := cleaned_slashes (mt eq_root_iff.mpr hne) hslashes
    have hdir : directory path.toList = [] := by
      rw [directory, hcleaned]
      rfl
    have hext : extensionOf path.toList = [] := by
      rw [extensionOf, hcleaned]
      rfl
    refine ⟨?_, by simp [directory?, hdir]⟩
    rw [substitute, hdir, hext, List.append_nil, join]
    simp

/-- A single component below the root, with slashes around it. -/
theorem substitute_absolute_iff_of_component :
    '/' ∉ "x".toList ∧ (substitute (some "//a/") "x").toList.head? = some '/' ∧
      ∃ d ∈ directory? (some "//a/"), d.toList.head? = some '/' := by
  have h := substitute_absolute_iff "//a/" "x" (by decide)
  have habsolute : "//a/".toList.head? = some '/' ∧ ("//a/" = "/" ∨ ∃ c ∈ "//a/".toList, c ≠ '/') :=
    ⟨by decide, .inr ⟨'a', by decide, by decide⟩⟩
  exact ⟨by decide, h.1.mpr habsolute, h.2.1.mpr habsolute⟩

/-- Two slashes are absolute, but the path made from them is not, and there is no directory. -/
theorem substitute_slashes_relative :
    "//".toList.head? = some '/' ∧ (substitute (some "//") "x").toList.head? ≠ some '/' ∧
      directory? (some "//") = none := by
  decide

end OutputPath

end Stencil
