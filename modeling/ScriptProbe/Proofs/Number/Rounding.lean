import Mathlib.Algebra.Order.Field.Rat
import Mathlib.Algebra.Order.Round
import Mathlib.Data.Int.Log
import Mathlib.Tactic.FieldSimp
import Mathlib.Tactic.Linarith
import Mathlib.Tactic.Positivity
import Mathlib.Tactic.Ring
import ScriptProbe.Number.Binary64

/-! Rounding of ratios to whole numbers, a half to the even neighbour, and ratios divided by powers
of two. -/
namespace ScriptProbe.Number

variable {r s : ℚ} {q k n num den : ℕ}

/-- No whole number is nearer to `r` than `q`, and where another one is as near `q` is even. -/
structure Rounds (r : ℚ) (q : ℕ) : Prop where
  close : |r - q| ≤ 1 / 2
  even : |r - q| = 1 / 2 → Even q

theorem Rounds.mono (hr : Rounds r q) (hs : Rounds s k) (h : r ≤ s) : q ≤ k := by
  by_contra hlt
  have hcast : (k : ℚ) + 1 ≤ q := by
    have : k + 1 ≤ q := by omega
    exact_mod_cast this
  have hlow := (abs_le.1 hr.close).1
  have hhigh := (abs_le.1 hs.close).2
  -- both numbers lie in the middle between `k` and `q`, which are neighbours
  have hq : (q : ℚ) = k + 1 := by linarith
  have hrmid : |r - q| = 1 / 2 := by
    rw [abs_of_nonpos (by linarith)]
    linarith
  have hsmid : |s - k| = 1 / 2 := by
    rw [abs_of_nonneg (by linarith)]
    linarith
  have hnext : q = k + 1 := by exact_mod_cast hq
  have hqeven := hr.even hrmid
  rw [hnext, Nat.even_add_one] at hqeven
  exact hqeven (hs.even hsmid)

theorem Rounds.nearest (h : Rounds r q) (k : ℕ) : |r - q| ≤ |r - k| := by
  have hlow := (abs_le.1 h.close).1
  have hhigh := (abs_le.1 h.close).2
  obtain hlt | rfl | hlt := lt_trichotomy k q
  · have hcast : (k : ℚ) + 1 ≤ q := by exact_mod_cast hlt
    exact h.close.trans (le_abs.2 (Or.inl (by linarith)))
  · exact le_rfl
  · have hcast : (q : ℚ) + 1 ≤ k := by exact_mod_cast hlt
    exact h.close.trans (le_abs.2 (Or.inr (by linarith)))

theorem rounds_natCast (n : ℕ) : Rounds n n := by
  constructor
  · simp
  · intro h
    simp at h

theorem rounds_below {f : ℚ} (hlow : 0 ≤ f) (hhigh : f ≤ 1 / 2) (heven : f = 1 / 2 → Even q) :
    Rounds (q + f) q := by
  have habs : |(q : ℚ) + f - q| = f := by
    rw [add_sub_cancel_left, abs_of_nonneg hlow]
  constructor
  · rwa [habs]
  · rwa [habs]

theorem rounds_above {f : ℚ} (hlow : 1 / 2 ≤ f) (hhigh : f ≤ 1) (heven : f = 1 / 2 → Even (q + 1)) :
    Rounds (q + f) (q + 1) := by
  have habs : |(q : ℚ) + f - (q + 1 : ℕ)| = 1 - f := by
    push_cast
    rw [abs_of_nonpos (by linarith)]
    ring
  constructor
  · rw [habs]
    linarith
  · rw [habs]
    intro hmid
    apply heven
    linarith

/-- The remainder is what a ratio exceeds the quotient by, as a part of the divisor. -/
theorem ratio_eq (num : ℕ) (hden : 0 < den) :
    (num : ℚ) / den = (num / den : ℕ) + ((num % den : ℕ) : ℚ) / den := by
  have hpos : (den : ℚ) ≠ 0 := by exact_mod_cast hden.ne'
  have hnum : (num : ℚ) = den * (num / den : ℕ) + (num % den : ℕ) := by
    exact_mod_cast (Nat.div_add_mod num den).symm
  rw [div_eq_iff hpos, add_mul, div_mul_cancel₀ _ hpos, mul_comm ((num / den : ℕ) : ℚ)]
  exact hnum

theorem eq_double_of_half (hden : 0 < den) (h : (n : ℚ) / den = 1 / 2) : den = 2 * n := by
  have hpos : (den : ℚ) ≠ 0 := by exact_mod_cast hden.ne'
  rw [div_eq_iff hpos] at h
  have hcast : (den : ℚ) = 2 * n := by linarith
  exact_mod_cast hcast

theorem rounds_roundHalfEven (num : ℕ) (hden : 0 < den) :
    Rounds ((num : ℚ) / den) (roundHalfEven num den) := by
  have hpos : (0 : ℚ) < den := by exact_mod_cast hden
  rw [ratio_eq num hden, roundHalfEven]
  split
  · next hup =>
    have hhalf : 1 / 2 ≤ ((num % den : ℕ) : ℚ) / den := by
      have hle : den ≤ 2 * (num % den) := by omega
      have hcast : (den : ℚ) ≤ 2 * (num % den : ℕ) := by exact_mod_cast hle
      rw [le_div_iff₀ hpos]
      linarith
    have hone : ((num % den : ℕ) : ℚ) / den ≤ 1 := by
      rw [div_le_one hpos]
      exact_mod_cast (Nat.mod_lt num hden).le
    apply rounds_above hhalf hone
    intro hmid
    have hdouble := eq_double_of_half hden hmid
    rw [Nat.even_add_one, Nat.not_even_iff]
    omega
  · next hdown =>
    have hhalf : ((num % den : ℕ) : ℚ) / den ≤ 1 / 2 := by
      have hle : 2 * (num % den) ≤ den := by omega
      have hcast : 2 * ((num % den : ℕ) : ℚ) ≤ den := by exact_mod_cast hle
      rw [div_le_iff₀ hpos]
      linarith
    apply rounds_below (by positivity) hhalf
    intro hmid
    have hdouble := eq_double_of_half hden hmid
    rw [Nat.even_iff]
    omega

/-! ### Powers of two -/

/-- A pair of numbers as a ratio. -/
def IsRatio (p : ℕ × ℕ) (r : ℚ) : Prop := 0 < p.2 ∧ (p.1 : ℚ) / p.2 = r

theorem IsRatio.lt_iff {p : ℕ × ℕ} (h : IsRatio p r) : p.1 < p.2 ↔ r < 1 := by
  obtain ⟨hpos, rfl⟩ := h
  have hcast : (0 : ℚ) < p.2 := by exact_mod_cast hpos
  rw [div_lt_one hcast, Nat.cast_lt]

theorem isRatio_whole (n : ℕ) : IsRatio (n, 1) n :=
  ⟨one_pos, by rw [Nat.cast_one, div_one]⟩

theorem isRatio_scaleDown (num : ℕ) (hden : 0 < den) (e : ℤ) :
    IsRatio (scaleDown 2 num den e) ((num : ℚ) / den / 2 ^ e) := by
  have hpow (k : ℕ) : ((Nat.pow 2 k : ℕ) : ℚ) = 2 ^ k := Nat.cast_pow 2 k
  rw [scaleDown]
  split
  · next he =>
    obtain ⟨k, rfl⟩ := Int.eq_ofNat_of_zero_le he
    refine ⟨Nat.mul_pos hden (Nat.pow_pos (by decide)), ?_⟩
    rw [Int.toNat_natCast, zpow_natCast, Nat.cast_mul, hpow, div_div]
  · next he =>
    obtain ⟨k, hk⟩ := Int.eq_ofNat_of_zero_le (show 0 ≤ -e by omega)
    obtain rfl : e = -k := by omega
    refine ⟨hden, ?_⟩
    rw [neg_neg, Int.toNat_natCast, Nat.cast_mul, hpow, zpow_neg, zpow_natCast, div_inv_eq_mul]
    ring

end ScriptProbe.Number
