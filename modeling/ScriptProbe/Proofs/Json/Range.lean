import ScriptProbe.Proofs.Json.Numeral
import ScriptProbe.Proofs.Number.Binary64

/-! Which numbers are out of range. The first digits are taken for a significand; where this,
rounded, times a rounded power of ten rounds to a number beyond the largest one, the number is too
great. -/
namespace ScriptProbe.Json

open ScriptProbe.Number

variable {s n m bound k : ℕ} {e : ℤ} {ds left : List Char} {f y z : Binary64} {r v w : ℚ}

/-! ### Rounded factors -/

theorem two_pow_lt_limit {e : ℤ} (h : e < 1024) : (2 : ℚ) ^ e < Binary64.limit :=
  zpow_lt_zpow_right₀ one_lt_two h

theorem one_hasPlaces : HasPlaces (-1074) 1 := by
  simpa using two_zpow_hasPlaces (e := 0) (by norm_num)

/-- A significand is a number of the format when it has been rounded. -/
theorem exists_significand (hs : s < 2 ^ 64) :
    ∃ f, Binary64.nearest s 1 = some f ∧ RoundsTo s f.magnitude ∧ f.magnitude ≤ 2 ^ (64 : ℤ) := by
  have hle : (s : ℚ) ≤ 2 ^ (64 : ℤ) := by exact_mod_cast hs.le
  have hplaces := two_zpow_hasPlaces (e := 64) (by norm_num)
  obtain ⟨f, hf, hround⟩ :=
    Binary64.exists_nearest_of_le (isRatio_whole s) hplaces hle (two_pow_lt_limit (by norm_num))
  exact ⟨f, hf, hround, hround.le_places hplaces hle⟩

theorem isZero_iff : f.isZero = true ↔ f.magnitude = 0 := by
  have hpow : (2 : ℚ) ^ f.exp ≠ 0 := zpow_ne_zero _ two_ne_zero
  simp [Binary64.isZero, Binary64.magnitude, hpow]

theorem isZero_significand (h : RoundsTo s f.magnitude) : f.isZero = true ↔ s = 0 := by
  rw [isZero_iff]
  constructor
  · intro hzero
    by_contra hne
    have hone : (1 : ℚ) ≤ s := by exact_mod_cast Nat.one_le_iff_ne_zero.2 hne
    have := h.places_le one_hasPlaces hone
    linarith
  · rintro rfl
    rw [Nat.cast_zero] at h
    exact h.unique Binary64.roundsTo_zero |>.trans (by simp [Binary64.magnitude, Binary64.zero])

/-- The powers of ten up to `10 ^ 308` are numbers of the format when they have been rounded. -/
theorem roundsTo_powerOfTen (h : k ≤ 308) : RoundsTo (10 ^ k) (powerOfTen k).magnitude := by
  have hplaces : HasPlaces (-1074) (((2 ^ 53 - 1 : ℕ) : ℚ) * 2 ^ (971 : ℤ)) :=
    ⟨_, 971, by norm_num, by norm_num, rfl⟩
  have hle : ((10 ^ k : ℕ) : ℚ) ≤ ((2 ^ 53 - 1 : ℕ) : ℚ) * 2 ^ (971 : ℤ) := by
    have htop : 10 ^ 308 ≤ (2 ^ 53 - 1) * 2 ^ 971 := by decide +kernel
    exact_mod_cast (pow_le_pow_right₀ (by norm_num) h).trans htop
  have hlt : ((2 ^ 53 - 1 : ℕ) : ℚ) * 2 ^ (971 : ℤ) < Binary64.limit := by
    rw [Binary64.limit_eq_carried]
    exact mul_lt_mul_of_pos_right (by norm_num) (zpow_pos two_pos _)
  obtain ⟨x, hx, hround⟩ := Binary64.exists_nearest_of_le (isRatio_whole (10 ^ k)) hplaces hle hlt
  have hpower : powerOfTen k = x := by
    rw [powerOfTen, show Nat.pow 10 k = 10 ^ k from rfl, hx]
    rfl
  rw [hpower]
  exact_mod_cast hround

theorem one_le_powerOfTen (h : k ≤ 308) : 1 ≤ (powerOfTen k).magnitude :=
  (roundsTo_powerOfTen h).places_le one_hasPlaces (one_le_pow₀ (by norm_num))

theorem two_pow_le_powerOfTen : 2 ^ (1023 : ℤ) ≤ (powerOfTen 308).magnitude := by
  refine (roundsTo_powerOfTen le_rfl).places_le (two_zpow_hasPlaces (by norm_num)) ?_
  have hle : 2 ^ 1023 ≤ 10 ^ 308 := by decide +kernel
  exact_mod_cast hle

/-! ### Products -/

/-- The rounded significand times the rounded power of ten rounds to a number beyond the largest. -/
def Overflows (s : ℕ) (e : ℤ) : Prop :=
  0 ≤ e ∧ ∃ v p w, RoundsTo s v ∧ RoundsTo (10 ^ e) p ∧ RoundsTo (v * p) w ∧ Binary64.limit ≤ w

theorem not_overflows_zero (e : ℤ) : ¬Overflows 0 e := by
  rintro ⟨-, v, p, w, hv, -, hw, hle⟩
  have hzero : RoundsTo 0 0 := by
    simpa [Binary64.magnitude, Binary64.zero] using Binary64.roundsTo_zero
  rw [Nat.cast_zero] at hv
  rw [hv.unique hzero, zero_mul] at hw
  rw [hw.unique hzero] at hle
  exact absurd hle (not_le.2 (zpow_pos two_pos _))

/-- Without a power of ten nothing is too great. -/
theorem not_overflows_of_lt (hs : s < 2 ^ 64) : ¬Overflows s 0 := by
  rintro ⟨-, v, p, w, hv, hp, hw, hle⟩
  have hplaces := two_zpow_hasPlaces (e := 64) (by norm_num)
  have hsig : v ≤ 2 ^ (64 : ℤ) := hv.le_places hplaces (by exact_mod_cast hs.le)
  rw [zpow_zero] at hp
  rw [hp.unique one_hasPlaces.roundsTo, mul_one] at hw
  exact absurd (hle.trans (hw.le_places hplaces hsig)) (not_le.2 (two_pow_lt_limit (by norm_num)))

/-- A power of ten above `10 ^ 308` is too great for every significand but zero. -/
theorem overflows_of_gt (hs : s ≠ 0) (h : 308 < e) : Overflows s e := by
  obtain ⟨v, hv⟩ := exists_roundsTo (Nat.cast_nonneg s : (0 : ℚ) ≤ s)
  obtain ⟨p, hp⟩ := exists_roundsTo (show (0 : ℚ) ≤ 10 ^ e by positivity)
  have hone : (1 : ℚ) ≤ v :=
    hv.places_le one_hasPlaces (by exact_mod_cast Nat.one_le_iff_ne_zero.2 hs)
  have hlimit : HasPlaces (-1074) Binary64.limit := two_zpow_hasPlaces (by norm_num)
  have hpower : Binary64.limit ≤ p := by
    refine hp.places_le hlimit ?_
    have hle : 2 ^ 1024 ≤ 10 ^ 309 := by decide +kernel
    have hstep : (10 : ℚ) ^ (309 : ℤ) ≤ 10 ^ e := zpow_le_zpow_right₀ (by norm_num) (by omega)
    exact le_trans (by rw [Binary64.limit]; exact_mod_cast hle) hstep
  have hnonneg : 0 ≤ p := (zpow_pos two_pos _).le.trans hpower
  have hproduct : Binary64.limit ≤ v * p := hpower.trans (le_mul_of_one_le_left hnonneg hone)
  obtain ⟨w, hw⟩ := exists_roundsTo ((zpow_pos two_pos _).le.trans hproduct)
  exact ⟨by omega, v, p, w, hv, hp, hw, hw.places_le hlimit hproduct⟩

theorem isRatio_mul (x y : Binary64) :
    IsRatio (x.ratio.1 * y.ratio.1, x.ratio.2 * y.ratio.2) (x.magnitude * y.magnitude) := by
  obtain ⟨hx, hxr⟩ := x.isRatio_ratio
  obtain ⟨hy, hyr⟩ := y.isRatio_ratio
  refine ⟨Nat.mul_pos hx hy, ?_⟩
  rw [← hxr, ← hyr, div_mul_div_comm]
  push_cast
  rfl

theorem mul_eq_none {x y : Binary64} :
    x.mul y = none ↔ ∃ w, RoundsTo (x.magnitude * y.magnitude) w ∧ Binary64.limit ≤ w :=
  Binary64.nearest_eq_none (isRatio_mul x y)

/-! ### Quotients -/

/-- A quotient is no greater than a number of the format that the exact one is no greater than. -/
theorem exists_div_le {x y : Binary64} (hy : 1 ≤ y.magnitude) (hw : HasPlaces (-1074) w)
    (hle : x.magnitude / y.magnitude ≤ w) (hlt : w ≤ 2 ^ (64 : ℤ)) :
    ∃ z, x.div y = some z ∧ RoundsTo (x.magnitude / y.magnitude) z.magnitude ∧ z.magnitude ≤ w := by
  have hbound : (2 : ℚ) ^ (64 : ℤ) < 2 ^ 52 * 2 ^ (971 : ℤ) := by
    rw [← zpow_natCast, ← zpow_add₀ two_ne_zero]
    exact zpow_lt_zpow_right₀ one_lt_two (by norm_num)
  obtain ⟨z, hz, hround⟩ :=
    Binary64.exists_div (by linarith) ((hle.trans hlt).trans_lt hbound)
  exact ⟨z, hz, hround, hround.le_places hw hle⟩

/-- What is nearer to zero than half the least number of the format rounds to zero. -/
theorem roundsTo_eq_zero (h : RoundsTo r v) (hr : 0 ≤ r) (hlt : 2 * r < 2 ^ (-1074 : ℤ)) :
    v = 0 := by
  have hnear := h.nearest (w := 0) ⟨0, 0, by norm_num, by norm_num, by simp⟩
  rw [sub_zero, abs_of_nonneg hr] at hnear
  have hle : v ≤ 2 * r := by linarith [(abs_le.1 hnear).1]
  obtain ⟨e, q, hplace, -, rfl⟩ := h
  by_contra hne
  have hq : (1 : ℚ) ≤ q := by
    have : q ≠ 0 := fun hq => hne (by simp [hq])
    exact_mod_cast Nat.one_le_iff_ne_zero.2 this
  have hstep : (2 : ℚ) ^ (-1074 : ℤ) ≤ 2 ^ e := zpow_le_zpow_right₀ one_le_two hplace.least
  have hpow : (0 : ℚ) < 2 ^ e := zpow_pos two_pos e
  have := mul_le_mul_of_nonneg_right hq hpow.le
  linarith

/-- One division by `10 ^ 308`. -/
def sunk (f : Binary64) : Binary64 := (f.div (powerOfTen 308)).getD .zero

theorem sinkExponent_stop (h : -308 ≤ e ∨ f.isZero = true) (fuel : ℕ) :
    sinkExponent (fuel + 1) f e = (f, e) := if_pos h

theorem sinkExponent_step (h : ¬(-308 ≤ e ∨ f.isZero = true)) (fuel : ℕ) :
    sinkExponent (fuel + 1) f e = sinkExponent fuel (sunk f) (e + 308) := if_neg h

theorem sunk_quotient (f : Binary64) (hf : f.magnitude ≤ 2 ^ e) :
    f.magnitude / (powerOfTen 308).magnitude ≤ 2 ^ (e - 1023) := by
  rw [zpow_sub₀ two_ne_zero]
  exact div_le_div₀ (zpow_pos two_pos e).le hf (zpow_pos two_pos _) two_pow_le_powerOfTen

theorem magnitude_nonneg (f : Binary64) : 0 ≤ f.magnitude :=
  mul_nonneg (Nat.cast_nonneg _) (zpow_pos two_pos _).le

theorem exists_sunk (hlow : -51 ≤ e) (hhigh : e ≤ 64) (hf : f.magnitude ≤ 2 ^ e) :
    RoundsTo (f.magnitude / (powerOfTen 308).magnitude) (sunk f).magnitude ∧
      (sunk f).magnitude ≤ 2 ^ (e - 1023) := by
  have hstep : (2 : ℚ) ^ (e - 1023) ≤ 2 ^ (64 : ℤ) := zpow_le_zpow_right₀ one_le_two (by omega)
  obtain ⟨z, hz, hround, hle⟩ := exists_div_le (one_le_powerOfTen le_rfl)
    (two_zpow_hasPlaces (by omega)) (sunk_quotient f hf) hstep
  rw [sunk, hz]
  exact ⟨hround, hle⟩

/-- A significand is divided at most twice: what is left of it then is zero. -/
theorem sinkExponent_cases (hf : f.magnitude ≤ 2 ^ (64 : ℤ)) (e : ℤ) :
    (sinkExponent 4 f e).1.isZero = true ∨
      (-308 ≤ (sinkExponent 4 f e).2 ∧ (sinkExponent 4 f e).1.magnitude ≤ 2 ^ (64 : ℤ)) := by
  by_cases hfirst : -308 ≤ e ∨ f.isZero = true
  · rw [sinkExponent_stop hfirst]
    exact hfirst.elim (fun he => Or.inr ⟨he, hf⟩) Or.inl
  obtain ⟨-, honce⟩ := exists_sunk (by norm_num) le_rfl hf
  have hsmall : (sunk f).magnitude ≤ 2 ^ (64 : ℤ) :=
    honce.trans (zpow_le_zpow_right₀ one_le_two (by norm_num))
  rw [sinkExponent_step hfirst]
  by_cases hsecond : -308 ≤ e + 308 ∨ (sunk f).isZero = true
  · rw [sinkExponent_stop hsecond]
    dsimp only
    exact hsecond.elim (fun he => Or.inr ⟨he, hsmall⟩) Or.inl
  rw [sinkExponent_step hsecond]
  -- each division takes 1023 places off, and two of them go beyond the least place of the format
  have hzero : (sunk (sunk f)).isZero = true := by
    have hquotient := sunk_quotient (sunk f) honce
    obtain ⟨z, hz, hround, -⟩ := exists_div_le (x := sunk f) (one_le_powerOfTen le_rfl)
      (two_zpow_hasPlaces (e := -959) (by norm_num))
      (hquotient.trans (zpow_le_zpow_right₀ one_le_two (by norm_num)))
      (zpow_le_zpow_right₀ one_le_two (by norm_num))
    rw [isZero_iff, sunk, hz]
    refine roundsTo_eq_zero hround (div_nonneg (magnitude_nonneg _) (magnitude_nonneg _)) ?_
    calc 2 * ((sunk f).magnitude / (powerOfTen 308).magnitude)
        ≤ 2 * 2 ^ (64 - 1023 - 1023 : ℤ) := by linarith
      _ = 2 ^ (-1981 : ℤ) := by rw [← zpow_one_add₀ two_ne_zero]; norm_num
      _ < 2 ^ (-1074 : ℤ) := zpow_lt_zpow_right₀ one_lt_two (by norm_num)
  rw [sinkExponent_stop (Or.inr hzero)]
  dsimp only
  exact Or.inl hzero

/-- A negative power of ten makes nothing too great. -/
theorem exists_scaled_down (hf : f.magnitude ≤ 2 ^ (64 : ℤ)) (e : ℤ) :
    let (f, e) := sinkExponent 4 f e
    (if f.isZero then some f else f.div (powerOfTen (-e).toNat)) ≠ none := by
  have hcases := sinkExponent_cases hf e
  dsimp only
  generalize sinkExponent 4 f e = p at hcases
  split
  · exact Option.some_ne_none _
  · next hzero =>
    obtain ⟨he, hle⟩ := hcases.resolve_left hzero
    have hone := one_le_powerOfTen (k := (-p.2).toNat) (by omega)
    obtain ⟨z, hz, -⟩ := exists_div_le hone (two_zpow_hasPlaces (by norm_num))
      ((div_le_self (magnitude_nonneg _) hone).trans hle) le_rfl
    exact hz ▸ Option.some_ne_none z

/-- A significand is scaled to a number of the format unless the product overflows. -/
theorem scaled_eq_none (hs : s < 2 ^ 64) (e : ℤ) : scaled s e = none ↔ Overflows s e := by
  obtain ⟨f, hf, hround, hle⟩ := exists_significand hs
  have hscaled : scaled s e =
      if f.isZero then some f
      else if 308 < e then none
      else if 0 ≤ e then f.mul (powerOfTen e.toNat)
      else
        let (f, e) := sinkExponent 4 f e
        if f.isZero then some f else f.div (powerOfTen (-e).toNat) := by
    rw [scaled, hf]
    rfl
  rw [hscaled]
  by_cases hzero : f.isZero = true
  · obtain rfl := (isZero_significand hround).1 hzero
    rw [if_pos hzero]
    exact iff_of_false (Option.some_ne_none f) (not_overflows_zero e)
  have hne : s ≠ 0 := mt (isZero_significand hround).2 hzero
  rw [if_neg hzero]
  -- the powers above this one are not in the table, but their products overflow as well
  by_cases hbig : 308 < e
  · rw [if_pos hbig]
    exact iff_of_true rfl (overflows_of_gt hne hbig)
  rw [if_neg hbig]
  by_cases hup : 0 ≤ e
  · obtain ⟨k, rfl⟩ := Int.eq_ofNat_of_zero_le hup
    have hpower := roundsTo_powerOfTen (k := k) (by omega)
    rw [if_pos hup, Int.toNat_natCast, mul_eq_none]
    constructor
    · rintro ⟨w, hw, hbeyond⟩
      exact ⟨hup, _, _, w, hround, by rwa [zpow_natCast], hw, hbeyond⟩
    · rintro ⟨-, v, p, w, hv, hp, hw, hbeyond⟩
      rw [zpow_natCast] at hp
      rw [hv.unique hround, hp.unique hpower] at hw
      exact ⟨w, hw, hbeyond⟩
  · rw [if_neg hup]
    exact iff_of_false (exists_scaled_down hle e) fun h => hup h.1

/-- A product no greater than the largest number of the format can overflow in two factors, and one
that is nearer to the limit than to any number below it need not. -/
example : 1797693134862315708 * 10 ^ 290 ≤ (2 ^ 53 - 1) * 2 ^ 971 ∧
    scaled 1797693134862315708 290 = none ∧
    (2 ^ 54 - 1) * 2 ^ 970 < 179769313486231581 * 10 ^ 291 ∧
    (scaled 179769313486231581 291).isSome := by decide +kernel

theorem rounded?_eq_none (hs : s < 2 ^ 64) (negative : Bool) (e : ℤ) :
    rounded? negative s e = none ↔ Overflows s e := by
  rw [rounded?, Option.map_eq_none_iff, scaled_eq_none hs]

/-! ### The digits of a significand -/

/-- Of the digits `ds` behind a number `n` the first ones are taken, as long as the number `m` that
they make up stays below the bound. -/
structure Takes (bound n : ℕ) (ds : List Char) (m : ℕ) (left : List Char) : Prop where
  taken : ∃ taken, ds = taken ++ left ∧ m = Nat.ofDigitChars 10 taken n
  below : m < bound
  full : ∀ d rest, left = d :: rest → bound ≤ 10 * m + (d.toNat - '0'.toNat)

theorem takes_absorb (hn : n < bound) (ds : List Char) :
    Takes bound n ds (absorb bound n ds).1 (absorb bound n ds).2 := by
  induction ds generalizing n with
  | nil => exact ⟨⟨[], rfl, rfl⟩, hn, nofun⟩
  | cons d ds ih =>
    rw [absorb]
    split
    · next hm =>
      obtain ⟨⟨taken, hds, hvalue⟩, hbelow, hfull⟩ := ih hm
      refine ⟨⟨d :: taken, congrArg (d :: ·) hds, ?_⟩, hbelow, hfull⟩
      rw [hvalue, Nat.ofDigitChars_cons]
      rfl
    · next hm =>
      refine ⟨⟨[], rfl, rfl⟩, hn, fun d' rest heq => ?_⟩
      obtain ⟨rfl, rfl⟩ := List.cons.inj heq
      exact Nat.not_lt.1 hm

/-- There is one way to take them. -/
theorem Takes.unique (h : Takes bound n ds m left) : absorb bound n ds = (m, left) := by
  obtain ⟨⟨taken, rfl, rfl⟩, hbelow, hfull⟩ := h
  induction taken generalizing n with
  | nil =>
    cases left with
    | nil => rfl
    | cons d left => exact if_neg (Nat.not_lt.2 (hfull d left rfl))
  | cons d taken ih =>
    rw [Nat.ofDigitChars_cons] at hbelow hfull ⊢
    have hm : 10 * n + (d.toNat - '0'.toNat) < bound := (le_ofDigitChars _ taken).trans_lt hbelow
    rw [List.cons_append, absorb]
    exact (if_pos hm).trans (ih hbelow hfull)

theorem takes_iff (hn : n < bound) : Takes bound n ds m left ↔ absorb bound n ds = (m, left) := by
  refine ⟨Takes.unique, fun h => ?_⟩
  have htakes := takes_absorb hn ds
  rwa [h] at htakes

/-! ### Numbers that are too great -/

/-- The significand and the power of ten of a number, apart from the exponent that is written.
Digits of the whole part that are left over count for the power, and those of the fraction that are
taken. -/
def Numeral.Scales (x : Numeral) (s : ℕ) (e : ℤ) : Prop :=
  ∃ n left, Takes UInt64.size 0 x.whole.chars n left ∧
    match x.fraction with
    | none => s = n ∧ e = left.length
    | some f => ∃ left', Takes UInt64.size n f.chars s left' ∧
        e = left.length - (f.chars.length - left'.length : ℕ)

/-- The exponent as it is written, without its sign. -/
def Exponent.size (x : Exponent) : ℕ := Nat.ofDigitChars 10 x.digits.chars 0

def Exponent.shift (x : Exponent) : ℤ := if x.sign = .minus then -x.size else x.size

/-- A number is too great if the product of its two rounded factors overflows. An exponent from
`2 ^ 31` on is not put to the proof: it is too great unless it has a minus or the significand is
zero. -/
def Numeral.TooGreat (x : Numeral) : Prop :=
  ∃ s e, x.Scales s e ∧
    match x.exponent with
    | none => Overflows s e
    | some y =>
      if y.size < exponentBound then Overflows s (e + y.shift) else s ≠ 0 ∧ y.sign ≠ .minus

theorem Numeral.scales_iff {x : Numeral} : x.Scales s e ↔ x.scale = (s, e) := by
  have hpos : 0 < UInt64.size := by decide
  have hlead : ∀ n left, Takes UInt64.size 0 x.whole.chars n left ↔ x.lead = (n, left) :=
    fun _ _ => takes_iff hpos
  have hlt : x.lead.1 < UInt64.size := absorb_lt hpos _
  simp only [Numeral.Scales, hlead, Numeral.scale]
  cases x.fraction with
  | none => simp [Prod.ext_iff, eq_comm]
  | some f =>
    simp only [extend]
    constructor
    · rintro ⟨n, left, hn, left', hs, rfl⟩
      rw [hn] at hlt ⊢
      rw [(takes_iff hlt).1 hs]
    · intro h
      obtain ⟨rfl, rfl⟩ := Prod.mk.inj h
      exact ⟨_, _, rfl, _, takes_absorb hlt _, rfl⟩

theorem Numeral.scale_lt (x : Numeral) : x.scale.1 < 2 ^ 64 := by
  have hlt : x.lead.1 < UInt64.size := absorb_lt (by decide) _
  rw [Numeral.scale]
  cases x.fraction with
  | none => exact hlt
  | some f => exact absorb_lt hlt _

theorem Exponent.value?_eq_none (x : Exponent) (negative : Bool) (hs : s < 2 ^ 64) (e : ℤ) :
    x.value? negative s e = none ↔
      if x.size < exponentBound then Overflows s (e + x.shift) else s ≠ 0 ∧ x.sign ≠ .minus := by
  have hall : (absorb exponentBound 0 x.digits.chars).2 = [] ↔ x.size < exponentBound :=
    absorb_all (by decide) _
  by_cases hsize : x.size < exponentBound
  · have hshift : (if x.sign = .minus then e - x.size else e + x.size) = e + x.shift := by
      rw [Exponent.shift]
      split <;> omega
    rw [if_pos hsize, ← hshift, ← rounded?_eq_none hs negative]
    simp only [Exponent.value?, absorb_digits hsize]
    rfl
  · obtain ⟨d, ds, hleft⟩ := List.exists_cons_of_ne_nil (mt hall.1 hsize)
    have habsorb : absorb exponentBound 0 x.digits.chars = (_, d :: ds) := Prod.ext rfl hleft
    rw [if_neg hsize, Exponent.value?, habsorb]
    exact ite_eq_left_iff.trans (by simp)

theorem wholeValue?_ne_none (negative : Bool) (hn : n < 2 ^ 64) :
    wholeValue? negative n ≠ none := by
  have hrounded : rounded? true n 0 ≠ none :=
    mt (rounded?_eq_none hn true 0).1 (not_overflows_of_lt hn)
  rw [wholeValue?]
  split
  · exact Option.some_ne_none _
  · split
    · exact hrounded
    · exact Option.some_ne_none _

/-- The reader refuses exactly the numbers that are too great. -/
theorem Numeral.value?_eq_none {x : Numeral} : x.value? = none ↔ x.TooGreat := by
  have hgreat : x.TooGreat ↔
      match x.exponent with
      | none => Overflows x.scale.1 x.scale.2
      | some y =>
        if y.size < exponentBound then Overflows x.scale.1 (x.scale.2 + y.shift)
        else x.scale.1 ≠ 0 ∧ y.sign ≠ .minus := by
    simp only [Numeral.TooGreat, Numeral.scales_iff]
    exact ⟨fun ⟨_, _, h, hbeyond⟩ => by rwa [h], fun h => ⟨_, _, rfl, h⟩⟩
  rw [hgreat, Numeral.value?]
  cases x.exponent with
  | some y => exact y.value?_eq_none x.negative x.scale_lt x.scale.2
  | none =>
    dsimp only
    split
    · next hwhole =>
      obtain ⟨hfraction, hleft⟩ := Bool.and_eq_true_iff.1 hwhole
      have hscale : x.scale = (x.lead.1, 0) := by
        rw [Numeral.scale, Option.isNone_iff_eq_none.1 hfraction, List.isEmpty_iff.1 hleft]
        rfl
      have hlt := hscale ▸ x.scale_lt
      rw [hscale]
      exact iff_of_false (wholeValue?_ne_none x.negative hlt) (not_overflows_of_lt hlt)
    · exact rounded?_eq_none x.scale_lt x.negative x.scale.2

end ScriptProbe.Json
