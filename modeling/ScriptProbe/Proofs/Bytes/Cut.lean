import ScriptProbe.Bytes.Cut

/-! Bytes told apart by a mark: what is cut is what the mark ends. -/
namespace ScriptProbe.Bytes

variable {mark : UInt8} {ended : List (List UInt8)} {part last bytes : List UInt8}

/-- Bytes as the parts that `mark` ends, and what follows the last one. -/
structure Marked (mark : UInt8) (ended : List (List UInt8)) (last bytes : List UInt8) : Prop where
  eq : ended.flatMap (· ++ [mark]) ++ last = bytes
  ended_free : ∀ part ∈ ended, mark ∉ part
  last_free : mark ∉ last

/-- What follows the last mark is a part of its own, unless it is empty. -/
def parts (ended : List (List UInt8)) (last : List UInt8) : List (List UInt8) :=
  ended ++ if last = [] then [] else [last]

theorem exists_marked (mark : UInt8) (bytes : List UInt8) :
    ∃ ended last, Marked mark ended last bytes := by
  induction bytes with
  | nil => exact ⟨[], [], rfl, by simp, by simp⟩
  | cons b bytes ih =>
    obtain ⟨ended, last, rfl, hended, hlast⟩ := ih
    by_cases hb : b = mark
    · exact ⟨[] :: ended, last, by simp [hb], by simpa using hended, hlast⟩
    · cases ended with
      | nil => exact ⟨[], b :: last, rfl, by simp, by simpa using ⟨Ne.symm hb, hlast⟩⟩
      | cons part ended =>
        obtain ⟨hpart, hrest⟩ := List.forall_mem_cons.1 hended
        have hfirst : mark ∉ b :: part := by simpa using ⟨Ne.symm hb, hpart⟩
        exact ⟨(b :: part) :: ended, last, rfl, List.forall_mem_cons.2 ⟨hfirst, hrest⟩, hlast⟩

theorem cut_of_not_mem (h : mark ∉ last) : cut mark last = parts [] last := by
  induction last with
  | nil => rfl
  | cons b last ih =>
    obtain ⟨hb, hlast⟩ := not_or.1 (mt List.mem_cons.2 h)
    rw [cut_cons_of_ne (Ne.symm hb), ih hlast]
    by_cases hnil : last = [] <;> simp [parts, hnil]

/-- Parts that are ended are cut off one by one. -/
theorem cut_ended (hended : ∀ part ∈ ended, mark ∉ part) (bytes : List UInt8) :
    cut mark (ended.flatMap (· ++ [mark]) ++ bytes) = ended ++ cut mark bytes := by
  induction ended with
  | nil => rfl
  | cons part ended ih =>
    obtain ⟨hpart, hrest⟩ := List.forall_mem_cons.1 hended
    rw [List.flatMap_cons, List.append_assoc, List.append_assoc, List.singleton_append,
      cut_append_mark mark hpart, ih hrest]
    rfl

theorem cut_eq_parts (h : Marked mark ended last bytes) : cut mark bytes = parts ended last := by
  rw [← h.eq, cut_ended h.ended_free, cut_of_not_mem h.last_free]
  rfl

/-- What stands before a mark is cut without a look at what stands behind it. -/
theorem cut_append_cons_mark (mark : UInt8) (front behind : List UInt8) :
    cut mark (front ++ mark :: behind) = cut mark (front ++ [mark]) ++ cut mark behind := by
  obtain ⟨ended, last, hmarked⟩ := exists_marked mark front
  rw [← hmarked.eq, List.append_assoc, List.append_assoc, cut_ended hmarked.ended_free,
    cut_ended hmarked.ended_free, cut_append_mark mark hmarked.last_free,
    cut_append_mark mark hmarked.last_free]
  simp

/-- There are as many marks as parts that they end. -/
theorem count_marks {α : Type} [DecidableEq α] {mark : α} {ended : List (List α)} {last : List α}
    (hended : ∀ part ∈ ended, mark ∉ part) (hlast : mark ∉ last) :
    (ended.flatMap (· ++ [mark]) ++ last).count mark = ended.length := by
  induction ended with
  | nil => exact List.count_eq_zero.2 hlast
  | cons part ended ih =>
    obtain ⟨hpart, hrest⟩ := List.forall_mem_cons.1 hended
    rw [List.flatMap_cons, List.append_assoc, List.append_assoc, List.count_append,
      List.count_eq_zero.2 hpart,
      List.singleton_append, List.count_cons_self, ih hrest, List.length_cons, Nat.zero_add]

theorem length_cut_mark (mark : UInt8) (front : List UInt8) :
    (cut mark (front ++ [mark])).length = front.count mark + 1 := by
  obtain ⟨ended, last, hmarked⟩ := exists_marked mark front
  rw [← hmarked.eq, count_marks hmarked.ended_free hmarked.last_free, List.append_assoc,
    cut_ended hmarked.ended_free, cut_append_mark mark hmarked.last_free]
  simp

theorem mark_not_mem_of_mem_cut (h : part ∈ cut mark bytes) : mark ∉ part := by
  obtain ⟨ended, last, hmarked⟩ := exists_marked mark bytes
  rw [cut_eq_parts hmarked] at h
  rcases List.mem_append.1 h with h | h
  · exact hmarked.ended_free part h
  · split at h
    · cases h
    · obtain rfl := List.mem_singleton.1 h
      exact hmarked.last_free

end ScriptProbe.Bytes
