/-!
Bytes cut into the parts that one byte value ends.
-/

namespace ScriptProbe.Bytes

/-- The parts that `mark` ends; what follows the last one is a part if it is not empty. -/
def cut (mark : UInt8) (bytes : List UInt8) : List (List UInt8) :=
  bytes.foldr (fun b parts =>
    if b = mark then [] :: parts
    else match parts with
      | [] => [[b]]
      | part :: rest => (b :: part) :: rest) []

@[simp] theorem cut_nil (mark : UInt8) : cut mark [] = [] := rfl

@[simp] theorem cut_cons_mark (mark : UInt8) (bytes : List UInt8) :
    cut mark (mark :: bytes) = [] :: cut mark bytes := by
  simp [cut]

/-- Any other byte goes to the front of the first part. -/
theorem cut_cons_of_ne {b mark : UInt8} (h : b ≠ mark) (bytes : List UInt8) :
    cut mark (b :: bytes) = (b :: (cut mark bytes).headD []) :: (cut mark bytes).tail := by
  rw [cut, List.foldr_cons, if_neg h, ← cut]
  cases cut mark bytes with
  | nil => rfl
  | cons part rest => rfl

theorem cut_append_mark (mark : UInt8) {part : List UInt8} (h : mark ∉ part) (bytes : List UInt8) :
    cut mark (part ++ mark :: bytes) = part :: cut mark bytes := by
  induction part with
  | nil => simp
  | cons b part ih =>
    obtain ⟨hb, hpart⟩ := not_or.1 (mt List.mem_cons.2 h)
    rw [List.cons_append, cut_cons_of_ne (Ne.symm hb), ih hpart]
    rfl

end ScriptProbe.Bytes
