import Mathlib.Algebra.Order.Field.Power
import Mathlib.Tactic.GCongr
import ScriptProbe.Proofs.Number.Rounding

/-!
The number of the binary64 format nearest to a ratio: rounding keeps the order, leaves a number of
the format as it is, and so loses nothing where such a number is divided by a power of two.
-/
namespace ScriptProbe.Number

variable {r s v w : ℚ} {e e' f least : ℤ} {num den n q : ℕ}

/-- The place `2 ^ e` is the last one of `r`: it has 53 binary places down to it, or no place is
lower. -/
structure LastPlace (r : ℚ) (e : ℤ) : Prop where
  least : -1074 ≤ e
  below : r < 2 ^ 53 * 2 ^ e
  leading : e = -1074 ∨ 2 ^ 52 * 2 ^ e ≤ r

/-- The ratio `r` rounded to 53 binary places is `v`; the least place is that of the binary64
format. -/
def RoundsTo (r v : ℚ) : Prop := ∃ e q, LastPlace r e ∧ Rounds (r / 2 ^ e) q ∧ v = q * 2 ^ e

/-- At most 53 binary places, none of them below `2 ^ least`. -/
def HasPlaces (least : ℤ) (v : ℚ) : Prop :=
  ∃ (q : ℕ) (e : ℤ), q ≤ 2 ^ 53 ∧ least ≤ e ∧ v = q * 2 ^ e

theorem natCast_hasPlaces (h : n ≤ 2 ^ 53) : HasPlaces 0 n :=
  ⟨n, 0, h, le_rfl, by simp⟩

theorem HasPlaces.mono (h : HasPlaces f v) (hle : least ≤ f) : HasPlaces least v := by
  obtain ⟨q, e, hq, he, rfl⟩ := h
  exact ⟨q, e, hq, hle.trans he, rfl⟩

theorem HasPlaces.div_two_pow (h : HasPlaces least v) (k : ℕ) :
    HasPlaces (least - k) (v / 2 ^ k) := by
  obtain ⟨q, e, hq, he, rfl⟩ := h
  refine ⟨q, e - k, hq, by omega, ?_⟩
  rw [zpow_sub₀ two_ne_zero, zpow_natCast, mul_div_assoc]

/-! ### Places -/

/-- A higher place is at least twice as high. -/
theorem top_le (h : e < e') : (2 : ℚ) ^ 53 * 2 ^ e ≤ 2 ^ 52 * 2 ^ e' := by
  have hnext : (2 : ℚ) ^ (e + 1) ≤ 2 ^ e' := zpow_le_zpow_right₀ one_le_two (by omega)
  rw [zpow_add_one₀ two_ne_zero] at hnext
  linarith

theorem LastPlace.mono (hr : LastPlace r e) (hs : LastPlace s e') (h : r ≤ s) : e ≤ e' := by
  by_contra hlt
  have hlt : e' < e := by omega
  obtain hleast | hlead := hr.leading
  · have := hs.least
    omega
  · have hbelow := hs.below
    have htop := top_le hlt
    linarith

/-- A number of the format is a whole number of the last places of a ratio, or it lies below the
power of two that the ratio has these places from. -/
theorem LastPlace.whole_or_below (h : LastPlace r e) (hw : HasPlaces (-1074) w) :
    (∃ n : ℕ, w = n * 2 ^ e) ∨ w ≤ (2 ^ 52 : ℕ) * 2 ^ e ∧ (2 ^ 52 : ℕ) * 2 ^ e ≤ r := by
  obtain ⟨q, f, hq, hf, rfl⟩ := hw
  obtain hle | hlt := le_or_gt e f
  · left
    obtain ⟨k, hk⟩ := Int.eq_ofNat_of_zero_le (show 0 ≤ f - e by omega)
    obtain rfl : f = k + e := by omega
    refine ⟨q * 2 ^ k, ?_⟩
    rw [zpow_add₀ two_ne_zero, zpow_natCast]
    push_cast
    ring
  · right
    have hpow : (0 : ℚ) < 2 ^ f := zpow_pos two_pos f
    have hcast : (q : ℚ) ≤ 2 ^ 53 := by exact_mod_cast hq
    have hlow := mul_le_mul_of_nonneg_right hcast hpow.le
    push_cast
    exact ⟨hlow.trans (top_le hlt), h.leading.resolve_left (by omega)⟩

/-- With its last place at `e` a ratio rounds to `q` of these places. -/
theorem places_of_rounds (hplace : LastPlace r e) (hrounds : Rounds (r / 2 ^ e) q) :
    q ≤ 2 ^ 53 ∧ (e = -1074 ∨ 2 ^ 52 ≤ q) := by
  have hpow : (0 : ℚ) < 2 ^ e := zpow_pos two_pos e
  constructor
  · refine hrounds.mono (rounds_natCast _) ?_
    rw [div_le_iff₀ hpow]
    push_cast
    exact hplace.below.le
  · refine hplace.leading.imp_right fun hlead => ?_
    refine (rounds_natCast _).mono hrounds ?_
    rw [le_div_iff₀ hpow]
    push_cast
    exact hlead

namespace RoundsTo

theorem mono (hr : RoundsTo r v) (hs : RoundsTo s w) (h : r ≤ s) : v ≤ w := by
  have hpow (e : ℤ) : (0 : ℚ) < 2 ^ e := zpow_pos two_pos e
  obtain ⟨e, q, hre, hrq, rfl⟩ := hr
  obtain ⟨e', q', hse, hsq, rfl⟩ := hs
  obtain rfl | hlt := (hre.mono hse h).eq_or_lt
  · have hdiv : r / 2 ^ e ≤ s / 2 ^ e := div_le_div_of_nonneg_right h (hpow e).le
    have hq : (q : ℚ) ≤ q' := by exact_mod_cast hrq.mono hsq hdiv
    exact mul_le_mul_of_nonneg_right hq (hpow e).le
  · -- between the places lies a power of two: the one ratio rounds to it at most, the other at
    -- least
    have hleast := hre.least
    have hq : (q : ℚ) ≤ 2 ^ 53 := by exact_mod_cast (places_of_rounds hre hrq).1
    have hq' : (2 : ℚ) ^ 52 ≤ q' := by
      exact_mod_cast (places_of_rounds hse hsq).2.resolve_left (by omega)
    calc (q : ℚ) * 2 ^ e ≤ 2 ^ 53 * 2 ^ e := mul_le_mul_of_nonneg_right hq (hpow e).le
      _ ≤ 2 ^ 52 * 2 ^ e' := top_le hlt
      _ ≤ q' * 2 ^ e' := mul_le_mul_of_nonneg_right hq' (hpow e').le

/-- No number of the format is nearer than the rounded one. -/
theorem nearest (h : RoundsTo r v) (hw : HasPlaces (-1074) w) : |r - v| ≤ |r - w| := by
  obtain ⟨e, q, hre, hrq, rfl⟩ := h
  have hpow : (0 : ℚ) < 2 ^ e := zpow_pos two_pos e
  have hwhole (n : ℕ) : |r - q * 2 ^ e| ≤ |r - n * 2 ^ e| := by
    have hscaled (k : ℕ) : r - k * 2 ^ e = (r / 2 ^ e - k) * 2 ^ e := by
      rw [sub_mul, div_mul_cancel₀ _ hpow.ne']
    rw [hscaled, hscaled, abs_mul, abs_mul]
    exact mul_le_mul_of_nonneg_right (hrq.nearest n) (abs_nonneg _)
  obtain ⟨n, rfl⟩ | ⟨hle, hge⟩ := hre.whole_or_below hw
  · exact hwhole n
  · have hmiddle := hwhole (2 ^ 52)
    rw [abs_of_nonneg (sub_nonneg.2 hge)] at hmiddle
    rw [abs_of_nonneg (sub_nonneg.2 (hle.trans hge))]
    linarith

theorem exact (h : RoundsTo r v) (hr : HasPlaces (-1074) r) : v = r := by
  have hdist := h.nearest hr
  rw [sub_self, abs_zero, abs_nonpos_iff] at hdist
  linarith

/-- A rounded number that is not below one has 53 places, and they do not go far below the point. -/
theorem hasPlaces (h : RoundsTo r v) (hr : 1 ≤ r) : HasPlaces (-52) v := by
  obtain ⟨e, q, hre, hrq, rfl⟩ := h
  refine ⟨q, e, (places_of_rounds hre hrq).1, ?_, rfl⟩
  by_contra hlow
  have hpow : (2 : ℚ) ^ e ≤ 2 ^ (-53 : ℤ) := zpow_le_zpow_right₀ one_le_two (by omega)
  have hbelow := hre.below
  norm_num at hpow
  linarith

end RoundsTo

namespace Binary64

/-- The magnitude as a number. -/
def magnitude (x : Binary64) : ℚ := x.sig * 2 ^ x.exp

theorem isRatio_ratio (x : Binary64) : IsRatio x.ratio x.magnitude := by
  have h := isRatio_scaleDown x.sig one_pos (-x.exp)
  rwa [Nat.cast_one, div_one, zpow_neg, div_inv_eq_mul] at h

/-! ### The nearest number -/

/-- The binary logarithms of a ratio's terms tell the power of two below it but for one. -/
theorem ratio_between (hnum : num ≠ 0) (hden : den ≠ 0) :
    (2 : ℚ) ^ ((num.log2 : ℤ) - den.log2 - 1) ≤ (num : ℚ) / den ∧
      (num : ℚ) / den < 2 ^ ((num.log2 : ℤ) - den.log2 + 1) := by
  have hpos : (0 : ℚ) < den := by exact_mod_cast Nat.pos_of_ne_zero hden
  have hpow (k : ℕ) : (0 : ℚ) < 2 ^ k := pow_pos two_pos k
  have hnumlow : (2 : ℚ) ^ num.log2 ≤ num := by exact_mod_cast Nat.log2_self_le hnum
  have hnumhigh : (num : ℚ) < 2 ^ (num.log2 + 1) := by exact_mod_cast Nat.lt_log2_self
  have hdenlow : (2 : ℚ) ^ den.log2 ≤ den := by exact_mod_cast Nat.log2_self_le hden
  have hdenhigh : (den : ℚ) < 2 ^ (den.log2 + 1) := by exact_mod_cast Nat.lt_log2_self
  have hlow : (2 : ℚ) ^ ((num.log2 : ℤ) - den.log2 - 1) = 2 ^ num.log2 / 2 ^ (den.log2 + 1) := by
    rw [sub_sub, zpow_sub₀ two_ne_zero, zpow_natCast]
    norm_cast
  have hhigh : (2 : ℚ) ^ ((num.log2 : ℤ) - den.log2 + 1) = 2 ^ (num.log2 + 1) / 2 ^ den.log2 := by
    rw [sub_add_eq_add_sub, zpow_sub₀ two_ne_zero, zpow_natCast]
    norm_cast
  rw [hlow, hhigh]
  constructor
  · exact div_le_div₀ (Nat.cast_nonneg num) hnumlow hpos hdenhigh.le
  · exact div_lt_div₀ hnumhigh hdenlow (hpow _).le (hpow _)

theorem lastPlace_of_between {p : ℤ} (hlow : 2 ^ p ≤ r) (hhigh : r < 2 ^ (p + 1)) :
    LastPlace r (max (p - 52) (-1074)) := by
  have hscale (m : ℕ) (e : ℤ) : (2 : ℚ) ^ m * 2 ^ e = 2 ^ (m + e) := by
    rw [zpow_add₀ two_ne_zero, zpow_natCast]
  refine ⟨le_max_right _ _, ?_, ?_⟩
  · rw [hscale]
    refine hhigh.trans_le (zpow_le_zpow_right₀ one_le_two ?_)
    push_cast
    omega
  · obtain hle | hlt := le_or_gt (p - 52) (-1074)
    · exact Or.inl (max_eq_right hle)
    · right
      rw [hscale, max_eq_left hlt.le]
      push_cast
      rwa [add_sub_cancel]

theorem lastPlace_exponentOf (h : IsRatio (num, den) r) (hnum : num ≠ 0) :
    LastPlace r (exponentOf num den) := by
  obtain ⟨hden, rfl⟩ := h
  obtain ⟨hlow, hhigh⟩ := ratio_between hnum hden.ne'
  have hscaled := isRatio_scaleDown num hden ((num.log2 : ℤ) - den.log2)
  have hlt := hscaled.lt_iff.trans (div_lt_one (zpow_pos two_pos _))
  apply lastPlace_of_between
  · split
    · exact hlow
    · next hnot => exact not_lt.1 (mt hlt.2 hnot)
  · split
    · next hbelow =>
      rw [sub_add_cancel]
      exact hlt.1 hbelow
    · exact hhigh

theorem roundsTo_zero : RoundsTo 0 zero.magnitude := by
  refine ⟨-1074, 0, ⟨le_rfl, by positivity, Or.inl rfl⟩, ?_, rfl⟩
  rw [zero_div]
  exact rounds_natCast 0

/-- The power of two beyond the largest number. -/
def limit : ℚ := 2 ^ (1024 : ℤ)

theorem limit_eq_carried : limit = 2 ^ 53 * 2 ^ (971 : ℤ) := by
  rw [limit, ← zpow_natCast, ← zpow_add₀ two_ne_zero]
  norm_num

theorem limit_eq_leading : limit = 2 ^ 52 * 2 ^ (972 : ℤ) := by
  rw [limit, ← zpow_natCast, ← zpow_add₀ two_ne_zero]
  norm_num

/-- A carry into the 54th place goes into the exponent. -/
def carried (q : ℕ) (e : ℤ) : ℕ × ℤ := if q = 2 * implicitBit then (implicitBit, e + 1) else (q, e)

/-- So many places are a number of the format, unless they are beyond the largest. -/
theorem carried_cases (hle : q ≤ 2 ^ 53) (hlead : e = -1074 ∨ 2 ^ 52 ≤ q) :
    if 971 < (carried q e).2 then limit ≤ q * 2 ^ e
    else (⟨false, (carried q e).1, (carried q e).2⟩ : Binary64).magnitude = q * 2 ^ e ∧
      (q : ℚ) * 2 ^ e < limit := by
  rw [carried]
  have hpow : (0 : ℚ) < 2 ^ e := zpow_pos two_pos e
  by_cases hcarry : q = 2 * implicitBit
  · simp only [if_pos hcarry]
    have hq : (q : ℚ) = 2 ^ 53 := by
      rw [hcarry, implicitBit]
      norm_num
    split
    · next hbig =>
      have hstep : (2 : ℚ) ^ (971 : ℤ) ≤ 2 ^ e := zpow_le_zpow_right₀ one_le_two (by omega)
      rw [limit_eq_carried, hq]
      exact mul_le_mul_of_nonneg_left hstep (by positivity)
    · next hsmall =>
      have hstep : (2 : ℚ) ^ e < 2 ^ (971 : ℤ) := zpow_lt_zpow_right₀ one_lt_two (by omega)
      rw [limit_eq_carried, hq]
      refine ⟨?_, mul_lt_mul_of_pos_left hstep (by positivity)⟩
      rw [magnitude, implicitBit, zpow_add_one₀ two_ne_zero]
      norm_num
      ring
  · simp only [if_neg hcarry]
    have hne : q ≠ 2 ^ 53 := hcarry
    split
    · next hbig =>
      have hq : (2 : ℚ) ^ 52 ≤ q := by exact_mod_cast hlead.resolve_left (by omega)
      have hstep : (2 : ℚ) ^ (972 : ℤ) ≤ 2 ^ e := zpow_le_zpow_right₀ one_le_two (by omega)
      rw [limit_eq_leading]
      exact mul_le_mul hq hstep (by positivity) (by positivity)
    · next hsmall =>
      have hq : (q : ℚ) < 2 ^ 53 := by exact_mod_cast lt_of_le_of_ne hle hne
      have hstep : (2 : ℚ) ^ e ≤ 2 ^ (971 : ℤ) := zpow_le_zpow_right₀ one_le_two (by omega)
      rw [limit_eq_carried]
      exact ⟨rfl, (mul_lt_mul_of_pos_right hq hpow).trans_le
        (mul_le_mul_of_nonneg_left hstep (by positivity))⟩

/-- Every ratio has a rounded one. This is the nearest number, unless it is beyond the largest. -/
theorem nearest_cases (h : IsRatio (num, den) r) :
    ∃ v, RoundsTo r v ∧
      ((∃ x, nearest num den = some x ∧ x.magnitude = v ∧ v < limit) ∨
        nearest num den = none ∧ limit ≤ v) := by
  rw [nearest]
  split
  · next hzero =>
    obtain ⟨-, rfl⟩ := h
    rw [hzero, Nat.cast_zero, zero_div]
    refine ⟨_, roundsTo_zero, Or.inl ⟨zero, rfl, rfl, ?_⟩⟩
    have hpos : 0 < limit := zpow_pos two_pos _
    simpa [magnitude, zero] using hpos
  · next hnum =>
    have hplace := lastPlace_exponentOf h hnum
    obtain ⟨hpos, hscaled⟩ := isRatio_scaleDown num h.1 (exponentOf num den)
    have hrounds := rounds_roundHalfEven (scaleDown 2 num den (exponentOf num den)).1 hpos
    rw [hscaled, h.2] at hrounds
    obtain ⟨hle, hlead⟩ := places_of_rounds hplace hrounds
    have hcarried := carried_cases hle hlead
    refine ⟨_, ⟨_, _, hplace, hrounds, rfl⟩, ?_⟩
    split at hcarried
    · next hbig => exact Or.inr ⟨if_pos hbig, hcarried⟩
    · next hsmall => exact Or.inl ⟨_, if_neg hsmall, hcarried⟩

end Binary64

/-! ### Rounded numbers -/

theorem exists_roundsTo (hr : 0 ≤ r) : ∃ v, RoundsTo r v := by
  have hratio : IsRatio (r.num.toNat, r.den) r := by
    refine ⟨r.den_pos, ?_⟩
    have hnum : ((r.num.toNat : ℕ) : ℤ) = r.num := Int.toNat_of_nonneg (Rat.num_nonneg.2 hr)
    rw [← Int.cast_natCast, hnum]
    exact Rat.num_div_den r
  obtain ⟨v, hv, -⟩ := Binary64.nearest_cases hratio
  exact ⟨v, hv⟩

theorem HasPlaces.nonneg (h : HasPlaces least v) : 0 ≤ v := by
  obtain ⟨q, e, -, -, rfl⟩ := h
  positivity

theorem two_zpow_hasPlaces (h : -1074 ≤ e) : HasPlaces (-1074) (2 ^ e) :=
  ⟨1, e, by norm_num, h, by simp⟩

/-- Rounding leaves a number of the format as it is. -/
theorem HasPlaces.roundsTo (h : HasPlaces (-1074) w) : RoundsTo w w := by
  obtain ⟨v, hv⟩ := exists_roundsTo h.nonneg
  rwa [hv.exact h] at hv

namespace RoundsTo

theorem unique (hv : RoundsTo r v) (hw : RoundsTo r w) : v = w :=
  le_antisymm (hv.mono hw le_rfl) (hw.mono hv le_rfl)

theorem le_places (h : RoundsTo r v) (hw : HasPlaces (-1074) w) (hle : r ≤ w) : v ≤ w :=
  h.mono hw.roundsTo hle

theorem places_le (h : RoundsTo r v) (hw : HasPlaces (-1074) w) (hle : w ≤ r) : w ≤ v :=
  hw.roundsTo.mono h hle

end RoundsTo

namespace Binary64

/-- A ratio has no nearest number exactly if the rounded one is beyond the largest. -/
theorem nearest_eq_none (h : IsRatio (num, den) r) :
    nearest num den = none ↔ ∃ v, RoundsTo r v ∧ limit ≤ v := by
  obtain ⟨v, hv, ⟨x, hx, -, hlt⟩ | ⟨hnone, hle⟩⟩ := nearest_cases h
  · refine iff_of_false (by simp [hx]) ?_
    rintro ⟨w, hw, hle⟩
    exact absurd (hv.unique hw ▸ hlt) (not_lt.2 hle)
  · exact iff_of_true hnone ⟨v, hv, hle⟩

/-- A ratio no greater than some number of the format has a nearest number, the rounded ratio. -/
theorem exists_nearest_of_le (h : IsRatio (num, den) r) (hw : HasPlaces (-1074) w) (hle : r ≤ w)
    (hlt : w < limit) : ∃ x, nearest num den = some x ∧ RoundsTo r x.magnitude := by
  obtain ⟨v, hv, ⟨x, hx, rfl, -⟩ | ⟨-, hbeyond⟩⟩ := nearest_cases h
  · exact ⟨x, hx, hv⟩
  · exact absurd (hbeyond.trans (hv.le_places hw hle)) (not_le.2 hlt)

/-- A ratio below the largest numbers has a nearest number, the rounded ratio. -/
theorem exists_nearest (h : IsRatio (num, den) r) (hr : r < 2 ^ 52 * 2 ^ (971 : ℤ)) :
    ∃ x, nearest num den = some x ∧ RoundsTo r x.magnitude := by
  have hpow : (2 : ℚ) ^ 52 * 2 ^ (971 : ℤ) = 2 ^ (1023 : ℤ) := by
    rw [← zpow_natCast, ← zpow_add₀ two_ne_zero]
    norm_num
  refine exists_nearest_of_le h (two_zpow_hasPlaces (by norm_num)) (hpow ▸ hr.le) ?_
  exact zpow_lt_zpow_right₀ one_lt_two (by norm_num)

/-- A quotient is the rounded ratio of the magnitudes. -/
theorem exists_div {x y : Binary64} (hy : y.magnitude ≠ 0)
    (h : x.magnitude / y.magnitude < 2 ^ 52 * 2 ^ (971 : ℤ)) :
    ∃ z, x.div y = some z ∧ RoundsTo (x.magnitude / y.magnitude) z.magnitude := by
  obtain ⟨hxpos, hx⟩ := isRatio_ratio x
  obtain ⟨hypos, hy'⟩ := isRatio_ratio y
  have hnum : 0 < y.ratio.1 := by
    by_contra hzero
    obtain hzero : y.ratio.1 = 0 := by omega
    rw [hzero, Nat.cast_zero, zero_div] at hy'
    exact hy hy'.symm
  refine exists_nearest ⟨Nat.mul_pos hxpos hnum, ?_⟩ h
  rw [← hx, ← hy', div_div_div_eq]
  push_cast
  rfl

end Binary64

end ScriptProbe.Number
