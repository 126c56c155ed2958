import Mathlib.Data.List.TakeWhile
import ScriptProbe.Text.Blank

/-! The pieces of a row that is cut at a separator: separators between them make up the row
again. -/
namespace ScriptProbe.Text

variable {α : Type} [DecidableEq α] {sep : α} {cs piece : List α} {pieces : List (List α)}

theorem split_eq_splitOn (sep : α) (cs : List α) : split sep cs = cs.splitOn sep := by
  induction cs with
  | nil => rfl
  | cons c cs ih =>
    have hstep : (c :: cs).splitOn sep =
        if c = sep then [] :: cs.splitOn sep else (cs.splitOn sep).modifyHead (c :: ·) := by
      simp [List.splitOn, List.splitOnP_cons_eq_if_modifyHead]
    obtain ⟨first, rest, hsplit⟩ := List.exists_cons_of_ne_nil (List.splitOn_ne_nil sep cs)
    rw [hstep, split, List.foldr_cons, ← split, ih, hsplit]
    rfl

theorem split_append_cons (sep : α) (cs ds : List α) :
    split sep (cs ++ sep :: ds) = split sep cs ++ split sep ds := by
  simp only [split_eq_splitOn]
  exact List.splitOnP_append_cons cs ds (beq_self_eq_true sep)

/-- The pieces make up the row, with separators between them. -/
theorem intercalate_split (sep : α) (cs : List α) : [sep].intercalate (split sep cs) = cs := by
  rw [split_eq_splitOn]
  exact List.intercalate_splitOn sep

theorem split_intercalate (hne : pieces ≠ []) (h : ∀ piece ∈ pieces, sep ∉ piece) :
    split sep ([sep].intercalate pieces) = pieces := by
  rw [split_eq_splitOn]
  exact List.splitOn_intercalate sep h hne

theorem intercalate_append {β : Type} (sep : β) (before : List (List β)) (piece : List β)
    (after : List (List β)) :
    [sep].intercalate (before ++ piece :: after) =
      before.flatMap (· ++ [sep]) ++ piece ++ after.flatMap (sep :: ·) := by
  induction before generalizing piece with
  | nil =>
    induction after generalizing piece with
    | nil => simp
    | cons next after ih =>
      have hnext := ih next
      simp only [List.nil_append, List.flatMap_nil] at hnext ⊢
      rw [List.intercalate_cons_cons, hnext]
      simp
  | cons first before ih =>
    obtain ⟨next, rest, hrest⟩ :=
      List.exists_cons_of_ne_nil (by simp : before ++ piece :: after ≠ [])
    rw [List.cons_append, hrest, List.intercalate_cons_cons, ← hrest, ih]
    simp

theorem not_mem_of_mem_split (h : piece ∈ split sep cs) : sep ∉ piece := by
  induction cs generalizing piece with
  | nil =>
    rw [List.mem_singleton.1 h]
    exact List.not_mem_nil
  | cons c cs ih =>
    rw [split, List.foldr_cons, ← split] at h
    split at h
    · rcases List.mem_cons.1 h with rfl | h
      · exact List.not_mem_nil
      · exact ih h
    · next hc =>
      split at h
      · rw [List.mem_singleton.1 h]
        exact fun hsep => hc (List.mem_singleton.1 hsep).symm
      · next first rest hsplit =>
        rw [hsplit] at ih
        rcases List.mem_cons.1 h with rfl | h
        · intro hsep
          rcases List.mem_cons.1 hsep with rfl | hsep
          · exact hc rfl
          · exact ih List.mem_cons_self hsep
        · exact ih (List.mem_cons_of_mem first h)

end ScriptProbe.Text
