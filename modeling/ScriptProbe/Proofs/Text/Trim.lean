import Mathlib.Data.List.DropRight
import ScriptProbe.Text.Blank

/-! What trimming takes away, and what it leaves at the ends of a text. -/
namespace ScriptProbe.Text

variable {p : Char → Bool} {cs ds core : List Char}

theorem dropTailWhile_eq_rdropWhile (p : Char → Bool) (cs : List Char) :
    dropTailWhile p cs = cs.rdropWhile p := rfl

/-- Nothing is dropped from a text whose last part ends with a character that stays. -/
theorem dropTailWhile_append_of_last (cs : List Char) (hne : ds ≠ [])
    (h : p (ds.getLast hne) = false) :
    dropTailWhile p (cs ++ ds) = cs ++ ds := by
  rw [dropTailWhile_eq_rdropWhile, List.rdropWhile_eq_self_iff]
  intro hl
  rw [List.getLast_append_of_ne_nil hl hne, h]
  simp

theorem mem_of_mem_dropTailWhile {c : Char} (h : c ∈ dropTailWhile p cs) : c ∈ cs :=
  (List.rdropWhile_prefix p cs).subset h

theorem trim_eq_nil_iff : trim cs = [] ↔ ∀ c ∈ cs, isBlank c = true := by
  rw [trim, dropTailWhile_eq_rdropWhile, List.rdropWhile_eq_nil_iff]
  constructor
  · intro h c hc
    rw [← List.takeWhile_append_dropWhile (p := isBlank) (l := cs), List.mem_append] at hc
    rcases hc with hc | hc
    · exact List.mem_takeWhile_imp hc
    · exact h c hc
  · intro h c hc
    exact h c ((List.dropWhile_sublist _).subset hc)

theorem getLast_trim (h : trim cs ≠ []) : isBlank ((trim cs).getLast h) = false := by
  exact Bool.eq_false_iff.2 (List.rdropWhile_last_not isBlank (cs.dropWhile isBlank) h)

/-- What is left of a text without the blanks around it. -/
structure Trims (cs core : List Char) : Prop where
  around : ∃ front back, cs = front ++ core ++ back ∧
    (∀ c ∈ front, isBlank c = true) ∧ ∀ c ∈ back, isBlank c = true
  opens : ∀ c ∈ core.head?, isBlank c = false
  closes : ∀ c ∈ core.getLast?, isBlank c = false

theorem dropTailWhile_append (h : ∀ c ∈ ds, p c = true) (cs : List Char) :
    dropTailWhile p (cs ++ ds) = dropTailWhile p cs := by
  have hds : ∀ c ∈ ds.reverse, p c = true := fun c hc => h c (List.mem_reverse.1 hc)
  rw [dropTailWhile, List.reverse_append, List.dropWhile_append_of_pos hds]
  rfl

theorem dropTailWhile_eq_self (h : ∀ c ∈ cs.getLast?, p c = false) : dropTailWhile p cs = cs := by
  rw [dropTailWhile_eq_rdropWhile, List.rdropWhile_eq_self_iff]
  intro hne
  rw [h _ (List.getLast?_eq_some_getLast hne)]
  exact Bool.false_ne_true

theorem trims_trim (cs : List Char) : Trims cs (trim cs) := by
  refine ⟨⟨cs.takeWhile isBlank, (cs.dropWhile isBlank).rtakeWhile isBlank, ?_, ?_, ?_⟩, ?_, ?_⟩
  · have hcore : trim cs ++ (cs.dropWhile isBlank).rtakeWhile isBlank = cs.dropWhile isBlank :=
      List.rdropWhile_append_rtakeWhile
    rw [List.append_assoc, hcore, List.takeWhile_append_dropWhile]
  · exact fun c hc => List.mem_takeWhile_imp hc
  · exact fun c hc => List.mem_rtakeWhile_imp hc
  · intro c hc
    obtain ⟨rest, hrest⟩ := List.head?_eq_some_iff.1 hc
    obtain ⟨back, hback⟩ : trim cs <+: cs.dropWhile isBlank := List.rdropWhile_prefix _ _
    have hfirst := List.head?_dropWhile_not isBlank cs
    rw [← hback, hrest] at hfirst
    exact hfirst
  · intro c hc
    obtain ⟨hne, rfl⟩ := List.mem_getLast?_eq_getLast hc
    exact getLast_trim hne

theorem trims_iff : Trims cs core ↔ trim cs = core := by
  constructor
  · rintro ⟨⟨front, back, rfl, hfront, hback⟩, hopens, hcloses⟩
    rw [List.append_assoc, trim, List.dropWhile_append_of_pos hfront]
    cases core with
    | nil =>
      have hnone : back.dropWhile isBlank = [] := List.dropWhile_eq_nil_iff.2 hback
      rw [List.nil_append, hnone]
      rfl
    | cons c rest =>
      have hc : ¬isBlank c = true := Bool.eq_false_iff.1 (hopens c rfl)
      rw [List.cons_append, List.dropWhile_cons_of_neg hc, ← List.cons_append,
        dropTailWhile_append hback, dropTailWhile_eq_self hcloses]
  · rintro rfl
    exact trims_trim cs

/-- A text that has no blank at either end is left as it is. -/
theorem trim_eq_self (hopens : ∀ c ∈ cs.head?, isBlank c = false)
    (hcloses : ∀ c ∈ cs.getLast?, isBlank c = false) :
    trim cs = cs :=
  trims_iff.1 ⟨⟨[], [], by simp, by simp, by simp⟩, hopens, hcloses⟩

end ScriptProbe.Text
