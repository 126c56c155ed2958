import ScriptProbe.Text.Decimal

/-! Which texts are read as numbers, and how long the digits of a number are. -/
namespace ScriptProbe.Text.Decimal

variable {cs ds : List Char} {c : Char} {n : UInt64} {k : Nat}

theorem value_lt_of_isDigit (h : c.isDigit = true) : c.toNat - 48 < 10 := by
  have hc : c.toNat ≤ 57 := by
    simp only [Char.isDigit, Bool.and_eq_true, decide_eq_true_eq] at h
    exact UInt32.le_iff_toNat_le.1 h.2
  omega

/-- More digits make a number of so many more places. -/
theorem ofDigitChars_lt (h : ∀ c ∈ ds, c.isDigit = true) (k : Nat) :
    Nat.ofDigitChars 10 ds k < (k + 1) * Nat.pow 10 ds.length := by
  induction ds generalizing k with
  | nil => simp
  | cons d ds ih =>
    obtain ⟨hd, hds⟩ := List.forall_mem_cons.1 h
    have hvalue : d.toNat - '0'.toNat < 10 := value_lt_of_isDigit hd
    have hpow : Nat.pow 10 (ds.length + 1) = 10 * Nat.pow 10 ds.length := Nat.pow_succ'
    rw [Nat.ofDigitChars_cons, List.length_cons, hpow, ← Nat.mul_assoc]
    exact Nat.lt_of_lt_of_le (ih hds _) (Nat.mul_le_mul_right _ (by omega))

/-- Digits are no shorter than those of their number. -/
theorem length_digits_le (hne : ds ≠ []) (h : ∀ c ∈ ds, c.isDigit = true) :
    (digits (Nat.ofDigitChars 10 ds 0)).length ≤ ds.length := by
  have hlt := ofDigitChars_lt h 0
  rw [Nat.zero_add, Nat.one_mul] at hlt
  exact (Nat.length_toDigits_le_iff (by decide) (List.length_pos_iff.2 hne)).2 hlt

/-! ### Digits at the front of a text -/

/-- The text does not go on with a digit. -/
def NoDigit (rest : List Char) : Prop := ∀ c ∈ rest.head?, c.isDigit = false

theorem noDigit_dropWhile (cs : List Char) : NoDigit (cs.dropWhile Char.isDigit) := by
  intro c hc
  have hnot := List.head?_dropWhile_not Char.isDigit cs
  rwa [hc] at hnot

theorem takeWhile_digits {rest : List Char} (h : ∀ c ∈ ds, c.isDigit = true)
    (hrest : NoDigit rest) :
    (ds ++ rest).takeWhile Char.isDigit = ds := by
  rw [List.takeWhile_append_of_pos h]
  cases rest with
  | nil => simp
  | cons c rest => simp [hrest c rfl]

theorem dropWhile_digits {rest : List Char} (h : ∀ c ∈ ds, c.isDigit = true)
    (hrest : NoDigit rest) :
    (ds ++ rest).dropWhile Char.isDigit = rest := by
  rw [List.dropWhile_append_of_pos h]
  cases rest with
  | nil => rfl
  | cons c rest => simp [hrest c rfl]

theorem isDigit_of_mem_takeWhile (h : c ∈ cs.takeWhile Char.isDigit) : c.isDigit = true :=
  List.all_eq_true.1 List.all_takeWhile c h

/-! ### Reading -/

theorem read?_eq_some : read? cs = some k ↔
    cs ≠ [] ∧ (∀ c ∈ cs, c.isDigit = true) ∧ Nat.ofDigitChars 10 cs 0 = k := by
  unfold read?
  split
  · next h => simpa [h.1] using fun _ => List.all_eq_true.1 h.2
  · next h =>
    refine iff_of_false nofun fun ⟨hne, hall, _⟩ => h ⟨hne, List.all_eq_true.2 hall⟩

/-- One plus may stand before digits. -/
theorem unsigned_eq (h : ∀ c ∈ ds, c.isDigit = true) :
    unsigned cs = ds ↔ cs = ds ∨ cs = '+' :: ds := by
  unfold unsigned
  split
  · next rest =>
    have hplus : '+' :: rest ≠ ds := by
      rintro rfl
      simp at h
    simp [hplus]
  · next hplus =>
    refine ⟨Or.inl, fun hcs => hcs.resolve_right (hplus ds)⟩

theorem readWord?_eq_some : readWord? cs = some n ↔
    ∃ ds, ds ≠ [] ∧ (∀ c ∈ ds, c.isDigit = true) ∧ (cs = ds ∨ cs = '+' :: ds) ∧
      Nat.ofDigitChars 10 ds 0 = n.toNat := by
  simp only [readWord?, readBelow?, Option.map_eq_some_iff, Option.filter_eq_some_iff,
    read?_eq_some, decide_eq_true_eq]
  constructor
  · rintro ⟨k, ⟨⟨hne, hall, hvalue⟩, hlt⟩, rfl⟩
    refine ⟨unsigned cs, hne, hall, (unsigned_eq hall).1 rfl, ?_⟩
    rw [hvalue, UInt64.toNat_ofNat_of_lt' hlt]
  · rintro ⟨ds, hne, hall, hcs, hvalue⟩
    rw [(unsigned_eq hall).2 hcs]
    exact ⟨n.toNat, ⟨⟨hne, hall, hvalue⟩, n.toNat_lt_size⟩, UInt64.ofNat_toNat⟩

end ScriptProbe.Text.Decimal
