import ScriptProbe.Engine.CycleText
import ScriptProbe.Proofs.Number.Binary64

/-!
The number behind a cycle count: the count is rounded to a binary64 number, divided by 1024 without
loss and rounded to a tenth, so a count of 53 binary places is shown by its exact quotient, and a
larger count never by a smaller number of the same unit.
-/
namespace ScriptProbe.CycleText

open ScriptProbe.Number

variable {n m : UInt64} {k unit : ℕ} {letter : String} {least : ℤ} {x : Binary64}

/-- The count `n` is shown in units of `1024 ^ k`, which `letter` stands for. -/
inductive ShownIn (n : UInt64) : ℕ → String → Prop
  | thousands (low : 1024 ≤ n.toNat) (high : n.toNat < 2 ^ 20) : ShownIn n 1 "K"
  | millions (low : 2 ^ 20 ≤ n.toNat) : ShownIn n 2 "M"

/-- Divides by 1024 `k` times; each quotient is rounded. -/
def byKilo : ℕ → Binary64 → Option Binary64
  | 0, x => some x
  | k + 1, x => do
    let thousand ← Binary64.nearest 1024 1
    let quotient ← x.div thousand
    byKilo k quotient

theorem within_of_le {v : ℚ} (h : v ≤ 2 ^ 64) : v < 2 ^ 52 * 2 ^ (971 : ℤ) := by
  have hpow : (2 : ℚ) ^ (12 : ℤ) < 2 ^ (971 : ℤ) := zpow_lt_zpow_right₀ one_lt_two (by decide)
  calc v ≤ 2 ^ 52 * 2 ^ (12 : ℤ) := by norm_num at h ⊢; exact h
    _ < 2 ^ 52 * 2 ^ (971 : ℤ) := mul_lt_mul_of_pos_left hpow (by positivity)

theorem count_le (n : UInt64) : (n.toNat : ℚ) ≤ 2 ^ 64 := by
  exact_mod_cast n.toNat_lt.le

theorem exists_nearest_count (n : UInt64) :
    ∃ x, Binary64.nearest n.toNat 1 = some x ∧ RoundsTo n.toNat x.magnitude :=
  Binary64.exists_nearest (isRatio_whole n.toNat) (within_of_le (count_le n))

/-- The largest count rounds to the next power of two. -/
theorem magnitude_le (h : RoundsTo n.toNat x.magnitude) : x.magnitude ≤ 2 ^ 64 := by
  have htop : HasPlaces (-1074) (2 ^ 64) := by
    exact_mod_cast two_zpow_hasPlaces (e := 64) (by norm_num)
  exact h.le_places htop (count_le n)

theorem exists_kilo : ∃ y, Binary64.nearest 1024 1 = some y ∧ y.magnitude = 1024 := by
  obtain ⟨y, hy, hround⟩ :=
    Binary64.exists_nearest (isRatio_whole 1024) (within_of_le (by norm_num))
  have hplaces : HasPlaces 0 (1024 : ℕ) := natCast_hasPlaces (by decide)
  exact ⟨y, hy, hround.exact (hplaces.mono (by decide))⟩

/-- Divisions by 1024 lose nothing while no place falls below the least. -/
theorem exists_byKilo (hplaces : HasPlaces least x.magnitude) (hleast : -1074 ≤ least - 10 * k)
    (hx : x.magnitude ≤ 2 ^ 64) :
    ∃ y, byKilo k x = some y ∧ y.magnitude = x.magnitude / 1024 ^ k := by
  induction k generalizing x least with
  | zero => exact ⟨x, rfl, by rw [pow_zero, div_one]⟩
  | succ k ih =>
    obtain ⟨thousand, hthousand, hmag⟩ := exists_kilo
    have hle : x.magnitude / thousand.magnitude ≤ 2 ^ 64 := by
      rw [hmag, div_le_iff₀ (by norm_num)]
      linarith
    obtain ⟨z, hz, hround⟩ := Binary64.exists_div (by rw [hmag]; norm_num) (within_of_le hle)
    have hquot : HasPlaces (least - 10) (x.magnitude / thousand.magnitude) := by
      have h := hplaces.div_two_pow 10
      rw [hmag]
      norm_num at h ⊢
      exact h
    have hexact : z.magnitude = x.magnitude / thousand.magnitude := by
      refine hround.exact (hquot.mono ?_)
      push_cast at hleast
      omega
    rw [← hexact] at hquot hle
    obtain ⟨y, hy, hymag⟩ := ih hquot (by push_cast at hleast; omega) hle
    refine ⟨y, ?_, ?_⟩
    · rw [byKilo, hthousand, Option.bind_eq_bind, Option.bind_some, hz]
      exact hy
    · rw [hymag, hexact, hmag, pow_succ', div_div]

/-! ### Tenths -/

theorem rounds_tenths (hx : Binary64.nearest n.toNat 1 = some x) (hunit : 0 < unit) :
    Rounds (10 * (x.magnitude / unit)) (tenths n unit) := by
  obtain ⟨hpos, hratio⟩ := x.isRatio_ratio
  have heq : 10 * (x.magnitude / unit) = ((10 * x.ratio.1 : ℕ) : ℚ) / (x.ratio.2 * unit : ℕ) := by
    rw [← hratio, div_div, ← mul_div_assoc]
    push_cast
    rfl
  rw [heq, tenths, hx, Option.getD_some]
  exact rounds_roundHalfEven _ (Nat.mul_pos hpos hunit)

theorem tenths_le (h : n ≤ m) (hunit : 0 < unit) : tenths n unit ≤ tenths m unit := by
  obtain ⟨x, hx, hxround⟩ := exists_nearest_count n
  obtain ⟨y, hy, hyround⟩ := exists_nearest_count m
  have hcount : (n.toNat : ℚ) ≤ m.toNat := by exact_mod_cast UInt64.le_iff_toNat_le.1 h
  have hle : x.magnitude ≤ y.magnitude := hxround.mono hyround hcount
  apply (rounds_tenths hx hunit).mono (rounds_tenths hy hunit)
  gcongr

/-- Up to 53 binary places the tenths are those of the count itself. -/
theorem rounds_tenths_exact (h : n.toNat < 2 ^ 53) (hunit : 0 < unit) :
    Rounds (10 * ((n.toNat : ℚ) / unit)) (tenths n unit) := by
  obtain ⟨x, hx, hround⟩ := exists_nearest_count n
  have hexact : x.magnitude = n.toNat := hround.exact ((natCast_hasPlaces h.le).mono (by decide))
  rw [← hexact]
  exact rounds_tenths hx hunit

/-! ### The text -/

theorem kilo_eq : kilo = 1024 ^ 1 := rfl

theorem mega_eq : mega = 1024 ^ 2 := rfl

theorem text_of_lt (h : n.toNat < 1024) : text n = Text.Decimal.word n := by
  have hmega : ¬mega ≤ n.toNat := by
    rw [mega_eq]
    omega
  have hkilo : ¬kilo ≤ n.toNat := by
    rw [kilo_eq]
    omega
  rw [text, if_neg hmega, if_neg hkilo, String.append_empty]

theorem ShownIn.text_eq (h : ShownIn n k letter) :
    text n = Text.Decimal.word n ++ "(" ++ oneDecimal (tenths n (1024 ^ k)) ++ letter ++ ")" := by
  cases h with
  | thousands low high =>
    have hmega : ¬mega ≤ n.toNat := by
      rw [mega_eq]
      omega
    have hkilo : kilo ≤ n.toNat := low
    rw [text, if_neg hmega, if_pos hkilo, kilo_eq]
    simp only [String.append_assoc]
    rfl
  | millions low =>
    have hmega : mega ≤ n.toNat := low
    rw [text, if_pos hmega, mega_eq]
    simp only [String.append_assoc]
    rfl

theorem ShownIn.le_two (h : ShownIn n k letter) : k ≤ 2 := by
  cases h <;> decide

theorem ShownIn.one_le (h : ShownIn n k letter) : (1 : ℚ) ≤ n.toNat := by
  have hpos : 1 ≤ n.toNat := by
    cases h <;> omega
  exact_mod_cast hpos

/-- A count is shown by its digits, and from 1024 on by a number of tenths behind them: the count
rounded to binary64, divided by 1024 without loss and rounded to a tenth, a half to the even one.
Below `2 ^ 53` that is the count's own quotient, and a larger count in the same unit is never shown
by a smaller number. -/
theorem text_rounded (n : UInt64) :
    (n.toNat < 1024 → text n = Text.Decimal.word n) ∧
    ∀ k letter, ShownIn n k letter →
      text n = Text.Decimal.word n ++ "(" ++ oneDecimal (tenths n (1024 ^ k)) ++ letter ++ ")" ∧
      (∃ x y, Binary64.nearest n.toNat 1 = some x ∧ RoundsTo n.toNat x.magnitude ∧
        byKilo k x = some y ∧ y.magnitude = x.magnitude / 1024 ^ k ∧
        Rounds (10 * y.magnitude) (tenths n (1024 ^ k))) ∧
      (n.toNat < 2 ^ 53 → Rounds (10 * ((n.toNat : ℚ) / 1024 ^ k)) (tenths n (1024 ^ k))) ∧
      ∀ m, n ≤ m → ShownIn m k letter → tenths n (1024 ^ k) ≤ tenths m (1024 ^ k) := by
  constructor
  · exact text_of_lt
  · intro k letter hshown
    have hunit : 0 < 1024 ^ k := Nat.pow_pos (by decide)
    have hcast : ((1024 ^ k : ℕ) : ℚ) = 1024 ^ k := Nat.cast_pow 1024 k
    obtain ⟨x, hx, hround⟩ := exists_nearest_count n
    have hk := hshown.le_two
    obtain ⟨y, hy, hmag⟩ :=
      exists_byKilo (k := k) (hround.hasPlaces hshown.one_le) (by omega) (magnitude_le hround)
    have htenths := rounds_tenths hx hunit
    rw [hcast, ← hmag] at htenths
    refine ⟨hshown.text_eq, ⟨x, y, hx, hround, hy, hmag, htenths⟩, ?_, ?_⟩
    · intro hplaces
      have hexact := rounds_tenths_exact hplaces hunit
      rwa [hcast] at hexact
    · intro m hle hshown'
      exact tenths_le hle hunit

/-- A count a quarter above a unit lies in the middle between two tenths. -/
example : text 1280 = "1280(1.2K)" := by decide +kernel

end ScriptProbe.CycleText
