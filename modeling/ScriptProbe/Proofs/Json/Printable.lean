import ScriptProbe.Proofs.Json.Layout
import ScriptProbe.Proofs.Text.Hex
import ScriptProbe.Proofs.Text.Utf8

/-! A compact text is free of control characters: no byte of it lies below the space. -/
namespace ScriptProbe.Json

open ScriptProbe.Text

variable {cs ds sep : List Char}

/-- Every character is the space or lies above it. -/
def Printable (cs : List Char) : Prop := ∀ c ∈ cs, 0x20 ≤ c.toNat

@[simp] theorem printable_nil : Printable [] := List.forall_mem_nil _

@[simp] theorem printable_cons {c : Char} : Printable (c :: cs) ↔ 0x20 ≤ c.toNat ∧ Printable cs :=
  List.forall_mem_cons

@[simp] theorem printable_append : Printable (cs ++ ds) ↔ Printable cs ∧ Printable ds :=
  List.forall_mem_append

theorem printable_flatMap {f : Char → List Char} (h : ∀ c, Printable (f c)) (cs : List Char) :
    Printable (cs.flatMap f) := by
  intro d hd
  obtain ⟨c, -, hc⟩ := List.mem_flatMap.1 hd
  exact h c d hc

theorem printable_joinWith {texts : List (List Char)} (hsep : Printable sep)
    (h : ∀ text ∈ texts, Printable text) : Printable (joinWith sep texts) := by
  induction texts with
  | nil => exact printable_nil
  | cons text texts ih =>
    obtain ⟨htext, htexts⟩ := List.forall_mem_cons.1 h
    cases texts with
    | nil => exact htext
    | cons next texts =>
      rw [joinWith.eq_3 _ _ _ (by simp), printable_append, printable_append]
      exact ⟨⟨htext, hsep⟩, ih htexts⟩

/-! ### Strings -/

theorem printable_digit {n : Nat} (h : n < 16) : 0x20 ≤ (Hex.digit n).toNat := by
  have hall : ∀ n : Fin 16, 0x20 ≤ (Hex.digit n).toNat := by decide
  exact hall ⟨n, h⟩

theorem printable_ofByte (b : UInt8) : Printable (Hex.ofByte b) := by
  have hb := b.toNat_lt
  simp [Hex.ofByte, printable_digit (show b.toNat / 16 < 16 by omega),
    printable_digit (show b.toNat % 16 < 16 by omega)]

/-- Controls are written as letters and digits, and whatever else is escaped stays printable. -/
theorem printable_escape (c : Char) : Printable (escape c) := by
  unfold escape
  iterate 7
    split
    · simp
  split
  · simp [printable_ofByte]
  · next h => simpa using h

theorem printable_strText (s : String) : Printable (strText s) := by
  have hbody := printable_flatMap printable_escape s.toList
  simp [strText, hbody]

/-! ### Numbers -/

theorem printable_of_isDigit {c : Char} (h : c.isDigit = true) : 0x20 ≤ c.toNat := by
  simp only [Char.isDigit, Bool.and_eq_true, decide_eq_true_eq] at h
  exact Nat.le_trans (by decide) (UInt32.le_iff_toNat_le.1 h.1)

theorem printable_digits (n : Nat) : Printable (Nat.toDigits 10 n) := fun _ hc =>
  printable_of_isDigit (isDigit_of_mem_digits hc)

theorem printable_intText (n : Int) : Printable (intText n) := by
  unfold intText
  split
  · simp [printable_digits]
  · exact printable_digits _

theorem printable_zeros (n : Nat) : Printable (Number.Layout.zeros n) := by
  intro c hc
  rw [List.eq_of_mem_replicate hc]
  decide

theorem Printable.take (h : Printable cs) (n : Nat) : Printable (cs.take n) := fun c hc =>
  h c (List.mem_of_mem_take hc)

theorem Printable.drop (h : Printable cs) (n : Nat) : Printable (cs.drop n) := fun c hc =>
  h c (List.mem_of_mem_drop hc)

theorem printable_positional (h : Printable ds) (k : Int) :
    Printable (Number.Layout.positional ds k) := by
  unfold Number.Layout.positional
  split
  · simp [printable_zeros, h]
  · dsimp only
    split
    · simp [printable_zeros, h]
    · simp [h.take, h.drop]

theorem printable_scientific (h : Printable ds) (k : Int) :
    Printable (Number.Layout.scientific ds k) := by
  have hexponent : Printable ('e' :: (if k < 0 then '-' else '+') :: Nat.toDigits 10 k.natAbs) := by
    split <;> simp [printable_digits]
  rcases ds with _ | ⟨d, _ | ⟨e, rest⟩⟩
  · exact hexponent
  · exact printable_append.2 ⟨h, hexponent⟩
  · exact printable_append.2 ⟨by simpa using h, hexponent⟩

theorem printable_floatText (x : Number.Binary64) : Printable (floatText x) := by
  simp only [floatText, Number.Layout.write]
  repeat' split
  all_goals
    simp [printable_positional (printable_digits _), printable_scientific (printable_digits _)]

/-! ### Values -/

theorem printable_compact (v : Json) : Printable (compact v) := by
  induction v using byParts with
  | null => simp [compact]
  | bool b => cases b <;> simp [compact]
  | int n => exact printable_intText n
  | float x => exact printable_floatText x
  | str s => exact printable_strText s
  | arr items ih =>
    have hbody : Printable (joinWith [','] (items.map compact)) :=
      printable_joinWith (by simp) (List.forall_mem_map.2 ih)
    simp [compact, compactItems_eq, hbody]
  | obj members ih =>
    have hbody :
        Printable (joinWith [','] (members.map fun m => strText m.1 ++ ':' :: compact m.2)) := by
      refine printable_joinWith (by simp) (List.forall_mem_map.2 fun m hm => ?_)
      simp [printable_strText, ih m hm]
    simp [compact, compactMembers_eq, hbody]

/-- A byte below the space stands for a character below it. -/
theorem bytes_of_printable (h : Printable cs) : ∀ b ∈ Utf8.encode cs, 0x20 ≤ b.toNat := by
  intro b hb
  by_contra hlow
  have hmem := h _ (Utf8.mem_of_mem_encode (by omega) hb)
  have hvalid : b.toNat.isValidChar := Or.inl (by omega)
  rw [Char.ofNat, dif_pos hvalid] at hmem
  exact hlow hmem

theorem bytes_toText (v : Json) : ∀ b ∈ Utf8.encode v.toText.toList, 0x20 ≤ b.toNat := by
  rw [toText, String.toList_ofList]
  exact bytes_of_printable (printable_compact v)

end ScriptProbe.Json
