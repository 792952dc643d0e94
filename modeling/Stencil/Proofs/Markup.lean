import Mathlib.Data.List.TakeWhile
import Mathlib.Tactic.Common
import Stencil.Command

/-!
# Tags in messages

Messages hold the name of a template as it is, so a name can bring tags of its own. The tags of a
text are those of its parts, as long as no part ends where a tag could go on (`tagsOf_append`). So
it depends on the name alone whether a message can be printed (`Command.isFaulty_announcement`), and
every message can if the name has no bracket.
-/

namespace Stencil

namespace Console

variable {before cs rest : List Char} {c : Char} {fuel : Nat}

/-- The inside of a piece that is a tag. -/
def Piece.tag? : Piece → Option (List Char)
  | .tag inside => some inside
  | .text _ => none

/-- The insides of the tags of a character list. -/
def tagsOf (cs : List Char) : List (List Char) :=
  (piecesFrom [] (cs.length + 1) cs).filterMap Piece.tag?

/-- The tags of a text are those of its characters. -/
lemma tags_eq (s : String) : tags s = tagsOf s.toList := by
  rw [tags, tagsOf, pieces]
  congr 1

/-- What follows a tag is shorter than the text with the tag. -/
lemma length_rest_lt {m : TagMatch} (h : tagAt? cs = some m) : m.rest.length < cs.length := by
  unfold tagAt? at h
  dsimp only at h
  split at h
  · rename_i d more hdrop
    split at h
    · rename_i rest hrest
      split_ifs at h
      cases h
      have h₁ := (List.dropWhile_sublist (l := cs) (· == '\\')).length_le
      have h₂ := (List.dropWhile_sublist (l := more) fun d => d != '[' && d != ']').length_le
      rw [hdrop] at h₁
      rw [hrest] at h₂
      simp only [List.length_cons] at h₁ h₂
      show rest.length < cs.length
      omega
    · cases h
  · cases h

/-- The tags depend neither on the text before them nor on the fuel, if there is enough. -/
lemma filterMap_piecesFrom (h : cs.length < fuel) :
    (piecesFrom before fuel cs).filterMap Piece.tag? = tagsOf cs := by
  suffices hall : ∀ n (cs : List Char), cs.length < n →
    ∀ (before before' : List Char) (fuel fuel' : Nat),
      cs.length < fuel → cs.length < fuel' →
      (piecesFrom before fuel cs).filterMap Piece.tag? =
        (piecesFrom before' fuel' cs).filterMap Piece.tag? from
    hall _ cs (Nat.lt_succ_self _) _ _ _ _ h (Nat.lt_succ_self _)
  intro n
  induction n with
  | zero => exact fun cs h => absurd h (Nat.not_lt_zero _)
  | succ n ih =>
    intro cs hn before before' fuel fuel' h h'
    obtain ⟨fuel, rfl⟩ := Nat.exists_eq_add_one_of_ne_zero (Nat.ne_of_gt (Nat.zero_lt_of_lt h))
    obtain ⟨fuel', rfl⟩ := Nat.exists_eq_add_one_of_ne_zero (Nat.ne_of_gt (Nat.zero_lt_of_lt h'))
    cases cs with
    | nil => rfl
    | cons c cs =>
      simp only [List.length_cons] at hn h h'
      rw [piecesFrom, piecesFrom]
      cases htag : tagAt? (c :: cs) with
      | none => exact ih cs (by omega) _ _ _ _ (by omega) (by omega)
      | some m =>
        have hlt := length_rest_lt htag
        rw [List.length_cons] at hlt
        simp only [List.filterMap_append, List.filterMap_cons, Piece.tag?]
        rw [ih m.rest (by omega) [] [] fuel fuel' (by omega) (by omega)]

/-- A character at which no tag begins does not count. -/
lemma tagsOf_cons_of_none (h : tagAt? (c :: cs) = none) : tagsOf (c :: cs) = tagsOf cs := by
  rw [tagsOf, List.length_cons, piecesFrom, h]
  exact filterMap_piecesFrom (Nat.lt_succ_self _)

/-- A tag comes before the tags behind it. -/
lemma tagsOf_tag {m : TagMatch} (h : tagAt? (c :: cs) = some m) (hslashes : m.slashes = 0) :
    tagsOf (c :: cs) = m.inside :: tagsOf m.rest := by
  have hlt : m.rest.length < cs.length + 1 := length_rest_lt h
  rw [tagsOf, List.length_cons, piecesFrom, h]
  simp only [hslashes, List.filterMap_append, List.filterMap_cons, List.filterMap_nil, Piece.tag?]
  rw [filterMap_piecesFrom hlt]
  rfl

/-- A tag begins with a bracket, and backslashes at most come before it. -/
lemma tagAt?_of_head (h : (cs.dropWhile (· == '\\')).head? ≠ some '[') : tagAt? cs = none := by
  unfold tagAt?
  dsimp only
  split
  · rename_i heq
    rw [heq] at h
    exact absurd rfl h
  · rfl

/-- A part without brackets has no tags, unless it ends with the backslashes of one. -/
lemma tagsOf_append (hcs : '[' ∉ cs)
    (hend : '\\' ∉ cs ∨ (rest.dropWhile (· == '\\')).head? ≠ some '[') :
    tagsOf (cs ++ rest) = tagsOf rest := by
  induction cs with
  | nil => rfl
  | cons c cs ih =>
    have hcs' : '[' ∉ cs := fun h => hcs (List.mem_cons_of_mem c h)
    rw [List.cons_append, tagsOf_cons_of_none,
      ih hcs' (hend.imp_left fun h hmem => h (List.mem_cons_of_mem c hmem))]
    refine tagAt?_of_head fun hhead => ?_
    rcases hdrop : (c :: cs).dropWhile (· == '\\') with _ | ⟨d, ds⟩
    · -- all of the part are backslashes
      have hslash := List.dropWhile_eq_nil_iff.mp hdrop
      rw [← List.cons_append, List.dropWhile_append, hdrop] at hhead
      rcases hend with hnone | hrest
      · exact hnone (beq_iff_eq.mp (hslash c List.mem_cons_self) ▸ List.mem_cons_self)
      · exact hrest hhead
    · rw [← List.cons_append, List.dropWhile_append, hdrop] at hhead
      have hmem : d ∈ c :: cs := (List.dropWhile_sublist _).subset (hdrop ▸ List.mem_cons_self)
      exact hcs (Option.some.inj hhead ▸ hmem)

/-- A tag in brackets comes before the tags behind it. -/
lemma tagsOf_bracket {body : List Char} (hc : isTagStart c = true)
    (hbody : body.all (fun d => d != '[' && d != ']') = true) :
    tagsOf ('[' :: c :: (body ++ ']' :: rest)) = (c :: body) :: tagsOf rest := by
  have hinside := List.all_eq_true.mp hbody
  have htag : tagAt? ('[' :: c :: (body ++ ']' :: rest)) =
      some { slashes := 0, inside := c :: body, rest } := by
    unfold tagAt?
    simp [List.takeWhile_append_of_pos hinside, List.dropWhile_append_of_pos hinside, hc]
  exact tagsOf_tag htag rfl

/-- It depends on the tags of a text whether it can be printed. -/
lemma isFaulty_eq (s : String) : isFaulty s = (tagsOf s.toList).any isFaultyTag := by
  rw [isFaulty, tags_eq]

end Console

/-- A text with a faulty tag is not printed. -/
lemma Session.run_say (text : String) (s : Session) :
    (say text).run s =
      if Console.isFaulty text = true then (.error (.unreported .badStyle), s)
      else (.ok (), { s with terminal := s.terminal.print (Console.printed text) }) := by
  unfold say
  split <;> rfl

namespace Command

open Console

variable {done name : String} {path : Files.Path}

/-- The part of a message from the name on. -/
def messageTail (name : String) (path : Files.Path) : List Char :=
  ' ' :: name.toList ++ " [dim](".toList ++ path.toString.toList ++ ")[/dim]".toList

/-- Only the part of a message from the name on counts. -/
lemma isFaulty_announcement (hopen : '[' ∉ done.toList) (hslash : '\\' ∉ done.toList) :
    isFaulty (announcement done name path) = (tagsOf (messageTail name path)).any isFaultyTag := by
  have hfirst : '[' ∉ done.toList ++ " template".toList := by
    simp only [List.mem_append, not_or]
    exact ⟨hopen, by decide⟩
  have hsecond : '\\' ∉ done.toList ++ " template".toList := by
    simp only [List.mem_append, not_or]
    exact ⟨hslash, by decide⟩
  have htext : (announcement done name path).toList =
      '[' :: 'g' :: ("reen".toList ++ ']' :: ((done.toList ++ " template".toList) ++
        '[' :: '/' :: ("green".toList ++ ']' :: messageTail name path))) := by
    simp [announcement, messageTail]
  rw [isFaulty_eq, htext, tagsOf_bracket (by decide) (by decide),
    tagsOf_append hfirst (.inl hsecond), tagsOf_bracket (by decide) (by decide), List.any_cons,
    List.any_cons, show isFaultyTag ('g' :: "reen".toList) = false by decide +kernel,
    show isFaultyTag ('/' :: "green".toList) = false by decide +kernel, Bool.false_or,
    Bool.false_or]

/-- A message can be printed if the name has no bracket. -/
lemma isFaulty_messageTail (hname : '[' ∉ name.toList) (hpath : '[' ∉ path.toString.toList) :
    (tagsOf (messageTail name path)).any isFaultyTag = false := by
  have hfirst : '[' ∉ ' ' :: name.toList := by simpa using hname
  have hsecond : '[' ∉ '(' :: path.toString.toList := by simpa using hpath
  have htail : messageTail name path =
      (' ' :: name.toList) ++ ([' '] ++ '[' :: 'd' :: ("im".toList ++ ']' ::
        (('(' :: path.toString.toList) ++
        ([')'] ++ '[' :: '/' :: ("dim".toList ++ ']' :: []))))) := by
    simp [messageTail]
  -- a blank or a bracket of the other kind follows the name and the path, so no tag begins at their
  -- ends
  rw [htail, tagsOf_append hfirst (.inr (by simp)), tagsOf_append (by decide) (.inl (by decide)),
    tagsOf_bracket (by decide) (by decide), tagsOf_append hsecond (.inr (by simp)),
    tagsOf_append (by decide) (.inl (by decide)), tagsOf_bracket (by decide) (by decide)]
  decide +kernel

/-- A farewell can be printed if the name has no bracket. -/
lemma isFaulty_farewell (hname : '[' ∉ name.toList) : isFaulty (farewell name) = false := by
  have hmem : '[' ∉ (farewell name).toList := by
    rw [farewell, String.toList_append, List.mem_append, not_or]
    exact ⟨by decide, hname⟩
  rw [isFaulty_eq, ← List.append_nil (farewell name).toList, tagsOf_append hmem (.inr (by simp))]
  rfl

end Command

end Stencil
