/-!
Numbers of the binary64 format as exact fractions: rounding a ratio to the nearest one, and the
product and quotient that follow from it.
-/

namespace ScriptProbe.Number

/-- The nearest whole number to `num / den`; a half goes to the even neighbour. -/
def roundHalfEven (num den : Nat) : Nat :=
  let q := num / den
  let r := num % den
  if den < 2 * r ∨ (den = 2 * r ∧ q % 2 = 1) then q + 1 else q

/-- The ratio `num / den` divided by `base ^ e`, as a ratio. -/
def scaleDown (base num den : Nat) (e : Int) : Nat × Nat :=
  if 0 ≤ e then (num, den * Nat.pow base e.toNat) else (num * Nat.pow base (-e).toNat, den)

/-- A finite number `± sig * 2 ^ exp` with `sig < 2 ^ 53`, `exp` from -1074 to 971, and
`2 ^ 52 ≤ sig` unless `exp` is the least. -/
structure Binary64 where
  negative : Bool
  sig : Nat
  exp : Int
  deriving DecidableEq, Repr

namespace Binary64

/-- The place of the leading digit, `2 ^ 52`. -/
def implicitBit : Nat := 0x10000000000000

def zero : Binary64 := ⟨false, 0, -1074⟩

def isZero (x : Binary64) : Bool := x.sig == 0

/-- The magnitude as a ratio. -/
def ratio (x : Binary64) : Nat × Nat := scaleDown 2 x.sig 1 (-x.exp)

/-- The exponent at which `num / den` has 53 binary places, or the least exponent. -/
def exponentOf (num den : Nat) : Int :=
  let k : Int := num.log2 - den.log2
  let (a, b) := scaleDown 2 num den k
  max ((if a < b then k - 1 else k) - 52) (-1074)

/-- The nearest number to `num / den`, a half to the even neighbour; none beyond the largest. -/
def nearest (num den : Nat) : Option Binary64 :=
  if num = 0 then some zero
  else
    let e := exponentOf num den
    let (a, b) := scaleDown 2 num den e
    let q := roundHalfEven a b
    let (q, e) := if q = 2 * implicitBit then (implicitBit, e + 1) else (q, e)
    if 971 < e then none else some ⟨false, q, e⟩

/-- Product of magnitudes, rounded; none beyond the largest. -/
def mul (x y : Binary64) : Option Binary64 :=
  let (a, b) := x.ratio
  let (c, d) := y.ratio
  nearest (a * c) (b * d)

/-- Quotient of magnitudes by a nonzero one, rounded. -/
def div (x y : Binary64) : Option Binary64 :=
  let (a, b) := x.ratio
  let (c, d) := y.ratio
  nearest (a * d) (b * c)

def withSign (negative : Bool) (x : Binary64) : Binary64 := { x with negative }

end Binary64

end ScriptProbe.Number
