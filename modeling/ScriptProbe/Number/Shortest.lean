import ScriptProbe.Number.Binary64

/-!
The shortest decimal that reads back as a given binary64 number, nearest to it among those of its
length, and how such a decimal is laid out.
-/

namespace ScriptProbe.Number

/-- The value `digits * 10 ^ scale`. -/
structure Decimal where
  digits : Nat
  scale : Int
  deriving DecidableEq, Repr

namespace Shortest

/-- The exponent `⌊log₁₀ (num / den)⌋` for a ratio below one: that of the first power of ten, from
`10 ^ -k` on, that is not above it. -/
def leading (num den : Nat) : Nat → Nat → Int
  | 0, k => -k
  | fuel + 1, k => if den ≤ num * Nat.pow 10 k then -k else leading num den fuel (k + 1)

def magnitude (num den : Nat) : Int :=
  if den ≤ num then ((Nat.toDigits 10 (num / den)).length : Int) - 1 else leading num den 400 1

/-- The four times finer grid on which a number, and the ends of the interval of reals that round to
it, are whole: `(value, low, high)`. -/
def interval (x : Binary64) : Nat × Nat × Nat :=
  let low := if x.sig = Binary64.implicitBit ∧ -1074 < x.exp then 1 else 2
  (4 * x.sig, 4 * x.sig - low, 4 * x.sig + 2)

/-- The better of the two neighbours on the grid `10 ^ scale` that lie in the interval, if one
does. -/
def onGrid (x : Binary64) (scale : Int) : Option Nat :=
  let (value, low, high) := interval x
  let (one, den) := scaleDown 2 1 1 (2 - x.exp)
  let (unit, den) := scaleDown 10 one den scale
  let value := value * unit
  let c := value / den
  let closed := x.sig % 2 = 0
  let below := low * unit < c * den ∨ (closed ∧ low * unit = c * den)
  let above := (c + 1) * den < high * unit ∨ (closed ∧ (c + 1) * den = high * unit)
  if below ∧ above then some (roundHalfEven value den)
  else if below then some c
  else if above then some (c + 1)
  else none

/-- The first grid with a hit, from one digit to seventeen. -/
def search (x : Binary64) (k : Int) : Nat → Nat → Decimal
  | 0, _ => ⟨x.sig, 0⟩
  | fuel + 1, places =>
    let scale := k - places
    match onGrid x scale with
    | some c => ⟨c, scale⟩
    | none => search x k fuel (places + 1)

def strip (d : Decimal) : Nat → Decimal
  | 0 => d
  | fuel + 1 => if d.digits % 10 = 0 then strip ⟨d.digits / 10, d.scale + 1⟩ fuel else d

end Shortest

/-- The shortest decimal of a nonzero magnitude, without trailing zeros. -/
def shortest (x : Binary64) : Decimal :=
  let (num, den) := x.ratio
  Shortest.strip (Shortest.search x (Shortest.magnitude num den) 17 0) 17

/-- Which decimal exponents are written out in places. -/
structure Layout where
  least : Int
  most : Int

namespace Layout

def zeros (n : Nat) : List Char := List.replicate n '0'

/-- Digits of `ds` around a point that stands after the first `k + 1` of them. -/
def positional (ds : List Char) (k : Int) : List Char :=
  if k < 0 then '0' :: '.' :: zeros ((-k).toNat - 1) ++ ds
  else
    let n := k.toNat + 1
    if ds.length ≤ n then ds ++ zeros (n - ds.length) ++ ['.', '0']
    else ds.take n ++ '.' :: ds.drop n

/-- One digit before the point, then an exponent with its sign. -/
def scientific (ds : List Char) (k : Int) : List Char :=
  let mantissa := match ds with
    | d :: e :: rest => d :: '.' :: e :: rest
    | ds => ds
  mantissa ++ 'e' :: (if k < 0 then '-' else '+') :: Nat.toDigits 10 k.natAbs

def write (layout : Layout) (x : Binary64) : List Char :=
  let body :=
    if x.isZero then ['0', '.', '0']
    else
      let d := shortest x
      let ds := Nat.toDigits 10 d.digits
      let k := d.scale + ds.length - 1
      if layout.least ≤ k ∧ k ≤ layout.most then positional ds k else scientific ds k
  if x.negative then '-' :: body else body

end Layout

end ScriptProbe.Number
