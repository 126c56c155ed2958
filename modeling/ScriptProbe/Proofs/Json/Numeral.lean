import ScriptProbe.Proofs.Json.Spelling
import ScriptProbe.Proofs.Text.Decimal

/-! The texts of numbers, part by part. The reader takes these texts for numbers and no others, and
gives each of them its value whatever follows it. -/
namespace ScriptProbe.Json

open ScriptProbe.Number ScriptProbe.Text ScriptProbe.Text.Decimal

/-! ### Parts -/

structure Digits where
  chars : List Char
  ne_nil : chars ≠ []
  isDigit : ∀ c ∈ chars, c.isDigit = true

/-- The sign of an exponent. -/
inductive Sign where
  | absent
  | plus
  | minus
  deriving DecidableEq

def Sign.text : Sign → List Char
  | absent => []
  | plus => ['+']
  | minus => ['-']

structure Exponent where
  capital : Bool
  sign : Sign
  digits : Digits

def Exponent.text (x : Exponent) : List Char :=
  (if x.capital then 'E' else 'e') :: (x.sign.text ++ x.digits.chars)

def exponentText : Option Exponent → List Char
  | none => []
  | some x => x.text

def fractionText : Option Digits → List Char
  | none => []
  | some f => '.' :: f.chars

/-- A number as it is written: only a zero alone begins with a zero. -/
structure Numeral where
  negative : Bool
  whole : Digits
  fraction : Option Digits
  exponent : Option Exponent
  no_lead : whole.chars.head? = some '0' → whole.chars = ['0']

/-- All behind the sign. -/
def Numeral.unsigned (x : Numeral) : List Char :=
  x.whole.chars ++ (fractionText x.fraction ++ exponentText x.exponent)

def Numeral.text (x : Numeral) : List Char := if x.negative then '-' :: x.unsigned else x.unsigned

/-! ### What they stand for -/

def rounded? (negative : Bool) (significand : Nat) (e : Int) : Option Json :=
  (scaled significand e).map fun x => .float (x.withSign negative)

/-- With too great an exponent a number is zero or out of range. -/
def Exponent.value? (x : Exponent) (negative : Bool) (significand : Nat) (e : Int) : Option Json :=
  match absorb exponentBound 0 x.digits.chars with
  | (n, []) => rounded? negative significand (if x.sign = .minus then e - n else e + n)
  | (_, _ :: _) =>
    if significand ≠ 0 ∧ x.sign ≠ .minus then none
      else some (.float (Binary64.zero.withSign negative))

def wholeValue? (negative : Bool) (n : Nat) : Option Json :=
  if !negative then some (.int n)
  else if n = 0 ∨ 0x8000000000000000 < n then rounded? true n 0
  else some (.int (-n))

/-- Takes the digits of a fraction into a significand and a power of ten. -/
def extend (significand : Nat) (e : Int) (ds : List Char) : Nat × Int :=
  let (n, left) := absorb UInt64.size significand ds
  (n, e - (ds.length - left.length : Nat))

namespace Numeral

variable (x : Numeral)

/-- The significand without the fraction, and the digits that it leaves out. -/
def lead : Nat × List Char := absorb UInt64.size 0 x.whole.chars

/-- The significand and the power of ten that the digits before an exponent make up. -/
def scale : Nat × Int :=
  match x.fraction with
  | none => (x.lead.1, x.lead.2.length)
  | some f => extend x.lead.1 x.lead.2.length f.chars

/-- The number, if it is not out of range. -/
def value? : Option Json :=
  match x.exponent with
  | some e => e.value? x.negative x.scale.1 x.scale.2
  | none =>
    if x.fraction.isNone && x.lead.2.isEmpty then wholeValue? x.negative x.lead.1
    else rounded? x.negative x.scale.1 x.scale.2

end Numeral

variable {negative : Bool} {significand : Nat} {e : Int} {cs rest r : List Char} {v : Json}
    {x : Option Exponent}

/-! ### Digits -/

/-- The digits at the front of a text. -/
theorem exists_digits (h : cs.takeWhile Char.isDigit ≠ []) :
    ∃ (x : Digits) (rest : List Char), cs = x.chars ++ rest ∧ NoDigit rest :=
  ⟨⟨_, h, fun _ => isDigit_of_mem_takeWhile⟩, cs.dropWhile Char.isDigit,
    List.takeWhile_append_dropWhile.symm, noDigit_dropWhile cs⟩

theorem takeWhile_ne_nil {c : Char} (h : c.isDigit = true) (cs : List Char) :
    (c :: cs).takeWhile Char.isDigit ≠ [] := by
  simp [h]

theorem Digits.exists_cons (x : Digits) : ∃ c ds, x.chars = c :: ds ∧ c.isDigit = true := by
  obtain ⟨c, ds, hchars⟩ := List.exists_cons_of_ne_nil x.ne_nil
  exact ⟨c, ds, hchars, x.isDigit c (hchars ▸ List.mem_cons_self)⟩

/-! ### Exponents -/

theorem floatOf_eq_ok : floatOf negative significand e r = .ok (v, rest) ↔
    rounded? negative significand e = some v ∧ rest = r := by
  unfold floatOf rounded?
  cases scaled significand e with
  | none => exact iff_of_false nofun nofun
  | some x =>
    simp only [Except.ok.injEq, Prod.mk.injEq, Option.map_some, Option.some.injEq]
    exact and_congr_right fun _ => eq_comm

/-- An exponent from after its sign on. -/
def unsignedExponent (negative : Bool) (significand : Nat) (e : Int) (down : Bool)
    (cs : List Char) : Read Json :=
  match cs with
  | [] => stop .endInValue []
  | c :: _ =>
    if !c.isDigit then stop .invalidNumber cs
    else
      let rest := cs.dropWhile Char.isDigit
      match absorb exponentBound 0 (cs.takeWhile Char.isDigit) with
      | (n, []) => floatOf negative significand (if down then e - n else e + n) rest
      | (_, _ :: left) =>
        if significand ≠ 0 ∧ !down then
          .error ⟨.numberOutOfRange, Utf8.size left + Utf8.size rest⟩
        else .ok (.float (Binary64.zero.withSign negative), rest)

/-- A sign is passed over, if there is one. -/
theorem exponent_cases (negative : Bool) (significand : Nat) (e : Int) (cs : List Char) :
    ∃ (sign : Sign) (body : List Char), cs = sign.text ++ body ∧
      exponent negative significand e cs =
        unsignedExponent negative significand e (sign = .minus) body := by
  unfold exponent
  split
  · next down body heq =>
    split at heq
    · next tail =>
      obtain ⟨rfl, rfl⟩ := Prod.mk.inj heq
      exact ⟨.plus, tail, rfl, rfl⟩
    · next tail =>
      obtain ⟨rfl, rfl⟩ := Prod.mk.inj heq
      exact ⟨.minus, tail, rfl, rfl⟩
    · obtain ⟨rfl, rfl⟩ := Prod.mk.inj heq
      exact ⟨.absent, cs, rfl, rfl⟩

theorem exponent_sign (sign : Sign) {d : Char} (hd : d.isDigit = true) (ds : List Char) :
    exponent negative significand e (sign.text ++ d :: ds) =
      unsignedExponent negative significand e (sign = .minus) (d :: ds) := by
  cases sign with
  | plus => rfl
  | minus => rfl
  | absent =>
    obtain ⟨sign, body, hbody, heq⟩ := exponent_cases negative significand e (d :: ds)
    rw [Sign.text, List.nil_append, heq]
    cases sign with
    | absent => rw [hbody]; rfl
    | plus => cases hbody; cases hd
    | minus => cases hbody; cases hd

theorem unsignedExponent_digits (x : Digits) (down : Bool) (hrest : NoDigit rest) :
    unsignedExponent negative significand e down (x.chars ++ rest) =
      match absorb exponentBound 0 x.chars with
      | (n, []) => floatOf negative significand (if down then e - n else e + n) rest
      | (_, _ :: left) =>
        if significand ≠ 0 ∧ !down then .error ⟨.numberOutOfRange, Utf8.size left + Utf8.size rest⟩
        else .ok (.float (Binary64.zero.withSign negative), rest) := by
  have htake := takeWhile_digits x.isDigit hrest
  have hdrop := dropWhile_digits x.isDigit hrest
  obtain ⟨c, ds, hchars, hc⟩ := x.exists_cons
  rw [hchars] at htake hdrop ⊢
  rw [List.cons_append] at htake hdrop ⊢
  simp only [unsignedExponent, hc, htake, hdrop]
  rfl

theorem exponent_eq_ok (x : Exponent) (hrest : NoDigit rest) :
    exponent negative significand e (x.sign.text ++ (x.digits.chars ++ rest)) = .ok (v, r) ↔
      x.value? negative significand e = some v ∧ r = rest := by
  have hdigits :=
    @unsignedExponent_digits negative significand e rest x.digits (x.sign = .minus) hrest
  obtain ⟨c, ds, hchars, hc⟩ := x.digits.exists_cons
  have hsign := @exponent_sign negative significand e x.sign c hc (ds ++ rest)
  rw [← List.cons_append, ← hchars] at hsign
  rw [hsign, hdigits, Exponent.value?]
  split
  · simp only [floatOf_eq_ok, decide_eq_true_eq]
  · simp only [Bool.not_eq_eq_eq_not, Bool.not_true, decide_eq_false_iff_not]
    split
    · exact iff_of_false nofun nofun
    · simp only [Except.ok.injEq, Prod.mk.injEq, Option.some.injEq]
      exact and_congr_right fun _ => eq_comm

theorem exponent_shape (h : exponent negative significand e cs = .ok (v, r)) :
    ∃ (sign : Sign) (digits : Digits) (rest : List Char),
      cs = sign.text ++ (digits.chars ++ rest) ∧ NoDigit rest := by
  obtain ⟨sign, body, rfl, heq⟩ := exponent_cases negative significand e cs
  rw [heq] at h
  unfold unsignedExponent at h
  split at h
  · cases h
  split at h
  · cases h
  · next c tail hc =>
    obtain ⟨digits, rest, hbody, hrest⟩ := exists_digits (takeWhile_ne_nil (by simpa using hc) tail)
    exact ⟨sign, digits, rest, by rw [hbody], hrest⟩

/-! ### Behind the digits -/

/-- An exponent, or else the end of the number, which comes to `plain`. -/
def closing (plain : Read Json) (negative : Bool) (significand : Nat) (e : Int) :
    List Char → Read Json
  | [] => plain
  | c :: cs => if c = 'e' ∨ c = 'E' then exponent negative significand e cs else plain

/-- Neither a digit follows nor, if there is no exponent so far, one of these. -/
def Closes (x : Option Exponent) (rest : List Char) : Prop :=
  NoDigit rest ∧ (x = none → ∀ c ∈ rest.head?, c ≠ 'e' ∧ c ≠ 'E')

variable {plain : Read Json}

theorem closing_none (h : Closes none rest) :
    closing plain negative significand e rest = plain := by
  cases rest with
  | nil => rfl
  | cons c cs =>
    obtain ⟨he, hE⟩ := h.2 rfl c rfl
    rw [closing, if_neg (by simp [he, hE])]

theorem closing_some (x : Exponent) (h : NoDigit rest) :
    closing plain negative significand e (x.text ++ rest) = .ok (v, r) ↔
      x.value? negative significand e = some v ∧ r = rest := by
  have hletter : (if x.capital then 'E' else 'e') = 'e' ∨
      (if x.capital then 'E' else 'e') = 'E' := by
    cases x.capital <;> simp
  rw [Exponent.text, List.cons_append, closing, if_pos hletter, List.append_assoc,
    exponent_eq_ok x h]

theorem closing_shape (hcs : NoDigit cs)
    (h : closing plain negative significand e cs = .ok (v, r)) :
    ∃ x rest, cs = exponentText x ++ rest ∧ Closes x rest := by
  cases cs with
  | nil => exact ⟨none, [], rfl, hcs, by simp⟩
  | cons c cs =>
    rw [closing] at h
    split at h
    · next hletter =>
      obtain ⟨sign, digits, rest, rfl, hrest⟩ := exponent_shape h
      rcases hletter with rfl | rfl
      · exact ⟨some ⟨false, sign, digits⟩, rest, by
          simp [exponentText, Exponent.text], hrest, nofun⟩
      · exact ⟨some ⟨true, sign, digits⟩, rest, by simp [exponentText, Exponent.text], hrest, nofun⟩
    · next hletter => exact ⟨none, c :: cs, rfl, hcs, by simpa using hletter⟩

theorem noDigit_exponentText (h : Closes x rest) : NoDigit (exponentText x ++ rest) := by
  cases x with
  | none => exact h.1
  | some x =>
    rintro c ⟨rfl⟩
    cases x.capital <;> rfl

/-! ### Fractions -/

theorem fraction_digits (f : Digits) (h : NoDigit rest) :
    fraction negative significand e (f.chars ++ rest) =
      closing (floatOf negative (extend significand e f.chars).1
        (extend significand e f.chars).2 rest) negative
        (extend significand e f.chars).1 (extend significand e f.chars).2 rest := by
  have hne : f.chars.isEmpty = false := by simpa using f.ne_nil
  simp only [fraction, takeWhile_digits f.isDigit h, dropWhile_digits f.isDigit h, hne]
  cases rest <;> rfl

theorem fraction_shape (h : fraction negative significand e cs = .ok (v, r)) :
    ∃ (f : Digits) (x : Option Exponent) (rest : List Char),
      cs = f.chars ++ (exponentText x ++ rest) ∧ Closes x rest := by
  by_cases hdigits : cs.takeWhile Char.isDigit = []
  · unfold fraction at h
    simp only [hdigits, List.isEmpty_nil, if_true] at h
    split at h <;> cases h
  · obtain ⟨f, tail, rfl, htail⟩ := exists_digits hdigits
    rw [fraction_digits f htail] at h
    obtain ⟨x, rest, rfl, hrest⟩ := closing_shape htail h
    exact ⟨f, x, rest, rfl, hrest⟩

/-! ### Numbers -/

/-- The number does not go on. -/
structure Numeral.Stops (x : Numeral) (rest : List Char) : Prop where
  closes : Closes x.exponent rest
  no_point : x.fraction = none → x.exponent = none → rest.head? ≠ some '.'

theorem Ends.stops (h : Ends rest) (x : Numeral) : x.Stops rest where
  closes := ⟨fun c hc => (h c hc).1, fun _ c hc => (h c hc).2.2⟩
  no_point _ _ hpoint := (h '.' hpoint).2.1 rfl

/-- What follows the digits of the whole part. -/
def behindWhole (negative : Bool) (n : Nat) (left cs : List Char) : Read Json :=
  match cs with
  | '.' :: cs => fraction negative n left.length cs
  | cs =>
    closing (if left.isEmpty then whole negative n cs else floatOf negative n left.length cs)
      negative n left.length cs

theorem whole_eq_ok {n : Nat} :
    whole negative n rest = .ok (v, r) ↔ wholeValue? negative n = some v ∧ r = rest := by
  unfold whole wholeValue?
  split
  · simp only [Except.ok.injEq, Prod.mk.injEq, Option.some.injEq]
    exact and_congr_right fun _ => eq_comm
  split
  · exact floatOf_eq_ok
  · simp only [Except.ok.injEq, Prod.mk.injEq, Option.some.injEq]
    exact and_congr_right fun _ => eq_comm

theorem behindWhole_eq {n : Nat} {left : List Char} (h : cs.head? ≠ some '.') :
    behindWhole negative n left cs =
      closing (if left.isEmpty then whole negative n cs
        else floatOf negative n left.length cs) negative n
        left.length cs := by
  cases cs with
  | nil => rfl
  | cons c cs => exact behindWhole.eq_2 _ _ _ _ (by simpa using h)

theorem number_whole (x : Numeral) (h : NoDigit rest) :
    number x.negative (x.whole.chars ++ rest) = behindWhole x.negative x.lead.1 x.lead.2 rest := by
  have htake := takeWhile_digits x.whole.isDigit h
  have hdrop := dropWhile_digits x.whole.isDigit h
  obtain ⟨c, ds, hchars, hc⟩ := x.whole.exists_cons
  have hlead : ¬(c = '0' ∧ x.whole.chars.length ≠ 1) := by
    rintro ⟨rfl, hlength⟩
    exact hlength (by rw [x.no_lead (by rw [hchars]; rfl)]; rfl)
  rw [Numeral.lead]
  rw [hchars] at htake hdrop hlead ⊢
  rw [List.cons_append] at htake hdrop ⊢
  simp only [number, hc, htake, hdrop, if_neg hlead]
  cases rest with
  | nil => rfl
  | cons d ds =>
    by_cases hpoint : d = '.'
    · subst hpoint
      rfl
    · rw [behindWhole_eq (by simpa using hpoint)]
      simp [closing]

theorem number_eq_ok (x : Numeral) (h : x.Stops rest) :
    number x.negative (x.unsigned ++ rest) = .ok (v, r) ↔ x.value? = some v ∧ r = rest := by
  have hend := noDigit_exponentText h.closes
  rw [Numeral.unsigned, List.append_assoc, List.append_assoc]
  cases hf : x.fraction with
  | none =>
    have hpoint : (exponentText x.exponent ++ rest).head? ≠ some '.' := by
      cases he : x.exponent with
      | none => exact h.no_point hf he
      | some e => cases hcapital : e.capital <;> simp [exponentText, Exponent.text, hcapital]
    rw [fractionText, List.nil_append, number_whole x hend, behindWhole_eq hpoint]
    cases he : x.exponent with
    | none =>
      rw [exponentText, List.nil_append, closing_none (he ▸ h.closes)]
      simp only [Numeral.value?, he, Numeral.scale, hf, Option.isNone_none, Bool.true_and]
      split
      · exact whole_eq_ok
      · exact floatOf_eq_ok
    | some e =>
      rw [exponentText, closing_some e h.closes.1]
      simp only [Numeral.value?, he, Numeral.scale, hf]
  | some f =>
    have hpoint : NoDigit ('.' :: (f.chars ++ (exponentText x.exponent ++ rest))) := by
      rintro c ⟨rfl⟩
      rfl
    rw [fractionText, List.cons_append, number_whole x hpoint, behindWhole, fraction_digits f hend]
    cases he : x.exponent with
    | none =>
      rw [exponentText, List.nil_append, closing_none (he ▸ h.closes), floatOf_eq_ok]
      simp only [Numeral.value?, he, Numeral.scale, hf]
      rfl
    | some e =>
      rw [exponentText, closing_some e h.closes.1]
      simp only [Numeral.value?, he, Numeral.scale, hf]

theorem whole_shape (h : number negative cs = .ok (v, r)) :
    ∃ (ds : Digits) (rest : List Char), cs = ds.chars ++ rest ∧ NoDigit rest ∧
      (ds.chars.head? = some '0' → ds.chars = ['0']) := by
  unfold number at h
  dsimp only at h
  split at h
  · cases h
  split at h
  · cases h
  split at h
  · cases h
  · next c tail hc hlead =>
    obtain ⟨ds, rest, hcs, hrest⟩ := exists_digits (takeWhile_ne_nil (by simpa using hc) tail)
    have htake := takeWhile_digits ds.isDigit hrest
    rw [← hcs] at htake
    rw [htake] at hlead
    refine ⟨ds, rest, hcs, hrest, fun hzero => ?_⟩
    obtain ⟨d, more, hds, -⟩ := ds.exists_cons
    rw [hds] at hcs hzero hlead ⊢
    obtain ⟨rfl, -⟩ := List.cons.inj hcs
    obtain rfl := Option.some.inj hzero
    have hmore : more = [] := by simpa using hlead
    rw [hmore]

theorem number_shape (h : number negative cs = .ok (v, r)) :
    ∃ (x : Numeral) (rest : List Char), x.negative = negative ∧ cs = x.unsigned ++ rest ∧
      x.Stops rest := by
  obtain ⟨ds, tail, rfl, htail, hlead⟩ := whole_shape h
  have hnumber := number_whole ⟨negative, ds, none, none, hlead⟩ htail
  rw [hnumber] at h
  unfold behindWhole at h
  split at h
  · next cs =>
    obtain ⟨f, x, rest, rfl, hrest⟩ := fraction_shape h
    exact ⟨⟨negative, ds, some f, x, hlead⟩, rest, rfl, by
      simp [Numeral.unsigned, fractionText], hrest, nofun⟩
  · next hpoint =>
    obtain ⟨x, rest, rfl, hrest⟩ := closing_shape htail h
    refine ⟨⟨negative, ds, none, x, hlead⟩, rest, rfl, by
      simp [Numeral.unsigned, fractionText], hrest, ?_⟩
    rintro - rfl hhead
    obtain ⟨cs, hcs⟩ := List.head?_eq_some_iff.1 hhead
    exact hpoint cs hcs

/-- The texts that are read as numbers, and what comes of them. -/
theorem number_sound (h : number negative cs = .ok (v, rest)) :
    ∃ x : Numeral, x.negative = negative ∧ cs = x.unsigned ++ rest ∧ x.value? = some v := by
  obtain ⟨x, rest', rfl, rfl, hstops⟩ := number_shape h
  obtain ⟨hv, rfl⟩ := (number_eq_ok x hstops).1 h
  exact ⟨x, rfl, rfl, hv⟩

theorem number_complete (x : Numeral) (h : Ends rest) (hv : x.value? = some v) :
    number x.negative (x.unsigned ++ rest) = .ok (v, rest) :=
  (number_eq_ok x (h.stops x)).2 ⟨hv, rfl⟩

/-! ### Whole numbers -/

/-- No digit is left out of a number below the bound, and none of another is all taken in. -/
theorem absorb_all {bound n : Nat} (hn : n < bound) (ds : List Char) :
    (absorb bound n ds).2 = [] ↔ Nat.ofDigitChars 10 ds n < bound := by
  constructor
  · intro h
    induction ds generalizing n with
    | nil => simpa using hn
    | cons d ds ih =>
      rw [absorb] at h
      split at h
      · next hm => exact Nat.ofDigitChars_cons ▸ ih hm h
      · cases h
  · intro h
    rw [absorb_digits h]

theorem exists_float_of_rounded? (h : rounded? negative significand e = some v) :
    ∃ f, v = .float f := by
  obtain ⟨x, -, rfl⟩ := Option.map_eq_some_iff.1 h
  exact ⟨_, rfl⟩

theorem Exponent.exists_float {x : Exponent} (h : x.value? negative significand e = some v) :
    ∃ f, v = .float f := by
  unfold Exponent.value? at h
  split at h
  · exact exists_float_of_rounded? h
  split at h
  · cases h
  · cases h
    exact ⟨_, rfl⟩

theorem wholeValue?_cases {n : Nat} (hn : n < UInt64.size) (h : wholeValue? negative n = some v) :
    (∃ f, v = .float f) ∨ ∃ k, v = .int k ∧ Holds k := by
  change n < 0x10000000000000000 at hn
  unfold wholeValue? at h
  split at h
  · cases h
    exact Or.inr ⟨_, rfl, by unfold Holds; omega⟩
  split at h
  · exact Or.inl (exists_float_of_rounded? h)
  · cases h
    exact Or.inr ⟨_, rfl, by unfold Holds; omega⟩

/-- A number is a float, or a whole one that 64 bits hold. -/
theorem Numeral.value?_cases {x : Numeral} (h : x.value? = some v) :
    (∃ f, v = .float f) ∨ ∃ k, v = .int k ∧ Holds k := by
  unfold Numeral.value? at h
  split at h
  · exact Or.inl (Exponent.exists_float h)
  split at h
  · exact wholeValue?_cases (absorb_lt (by decide) _) h
  · exact Or.inl (exists_float_of_rounded? h)

theorem wholeValue?_eq_int {n : Nat} {k : Int} (hk : 0 ≤ k) :
    wholeValue? negative n = some (.int k) ↔ negative = false ∧ k = n := by
  unfold wholeValue?
  cases negative with
  | false => simp [eq_comm]
  | true =>
    rw [if_neg (by decide)]
    refine iff_of_false (fun h => ?_) (by simp)
    split at h
    · obtain ⟨f, hf⟩ := exists_float_of_rounded? h
      cases hf
    · cases h
      omega

namespace Numeral

variable {x : Numeral}

theorem mem_text {c : Char} : c ∈ x.text ↔ (x.negative = true ∧ c = '-') ∨ c ∈ x.whole.chars ∨
    c ∈ fractionText x.fraction ∨ c ∈ exponentText x.exponent := by
  unfold text
  cases x.negative <;> simp [unsigned]

/-- Neither sign nor point nor exponent. -/
theorem text_isDigit :
    (∀ c ∈ x.text, c.isDigit = true) ↔ x.negative = false ∧ x.fraction = none ∧
    x.exponent = none := by
  constructor
  · intro h
    refine ⟨?_, ?_, ?_⟩
    · cases hsign : x.negative with
      | false => rfl
      | true => exact absurd (h '-' (mem_text.2 (Or.inl ⟨hsign, rfl⟩))) (by decide)
    · cases hf : x.fraction with
      | none => rfl
      | some f =>
        have hpoint : '.' ∈ fractionText x.fraction := hf ▸ List.mem_cons_self
        exact absurd (h '.' (mem_text.2 (Or.inr (Or.inr (Or.inl hpoint))))) (by decide)
    · cases he : x.exponent with
      | none => rfl
      | some e =>
        have hletter : (if e.capital then 'E' else 'e') ∈ exponentText x.exponent :=
          he ▸ List.mem_cons_self
        have hdigit := h _ (mem_text.2 (Or.inr (Or.inr (Or.inr hletter))))
        cases hcapital : e.capital <;> simp [hcapital] at hdigit
  · rintro ⟨hsign, hf, he⟩ c hc
    exact x.whole.isDigit c
      (by simpa [mem_text, hsign, hf, he, fractionText, exponentText] using hc)

theorem text_of_isDigit (h : ∀ c ∈ x.text, c.isDigit = true) : x.text = x.whole.chars := by
  obtain ⟨hsign, hf, he⟩ := text_isDigit.1 h
  simp [text, unsigned, hsign, hf, he, fractionText, exponentText]

/-- The numbers that are whole and not below zero are those written in digits only, as long as 64
bits hold them. -/
theorem value?_eq_int {k : Int} : x.value? = some (.int k) ∧ 0 ≤ k ↔
    (∀ c ∈ x.text, c.isDigit = true) ∧ Nat.ofDigitChars 10 x.text 0 < UInt64.size ∧
      k = Nat.ofDigitChars 10 x.text 0 := by
  have hsize : 0 < UInt64.size := by decide
  constructor
  · rintro ⟨hv, hk⟩
    unfold value? at hv
    split at hv
    · obtain ⟨f, hf⟩ := Exponent.exists_float hv
      cases hf
    · next he =>
      split at hv
      · next hplain =>
        rw [Bool.and_eq_true, Option.isNone_iff_eq_none, List.isEmpty_iff] at hplain
        obtain ⟨hf, hleft⟩ := hplain
        obtain ⟨hsign, rfl⟩ := (wholeValue?_eq_int hk).1 hv
        have hdigits := text_isDigit.2 ⟨hsign, hf, he⟩
        have hlt := (absorb_all hsize _).1 hleft
        rw [text_of_isDigit hdigits, lead, absorb_digits hlt]
        exact ⟨text_of_isDigit hdigits ▸ hdigits, hlt, rfl⟩
      · obtain ⟨f, hf⟩ := exists_float_of_rounded? hv
        cases hf
  · rintro ⟨hdigits, hlt, rfl⟩
    obtain ⟨hsign, hf, he⟩ := text_isDigit.1 hdigits
    rw [text_of_isDigit hdigits] at hlt ⊢
    have hvalue :=
      (@wholeValue?_eq_int false (Nat.ofDigitChars 10 x.whole.chars 0) _ (Int.natCast_nonneg _)).2
      ⟨rfl, rfl⟩
    simp [value?, he, hf, lead, absorb_digits hlt, hsign, hvalue]

end Numeral

end ScriptProbe.Json
