import ScriptProbe.Text.Blank

/-!
Unsigned numbers in decimal text: the digits of a number, and reading them back under a bound.
-/

namespace ScriptProbe.Text.Decimal

/-- The digits of `n`, without leading zeros. -/
def digits (n : Nat) : List Char := Nat.toDigits 10 n

/-- One or more ASCII digits and nothing else. -/
def read? (cs : List Char) : Option Nat :=
  if cs ≠ [] ∧ cs.all Char.isDigit then some (Nat.ofDigitChars 10 cs 0) else none

/-- Takes one leading `+` off. -/
def unsigned (cs : List Char) : List Char :=
  match cs with
  | '+' :: rest => rest
  | cs => cs

/-- An optional `+`, then digits whose value lies below `bound`. -/
def readBelow? (bound : Nat) (cs : List Char) : Option Nat :=
  (read? (unsigned cs)).filter (· < bound)

/-- A 64-bit count. -/
def readWord? (cs : List Char) : Option UInt64 := (readBelow? UInt64.size cs).map UInt64.ofNat

def word (n : UInt64) : String := String.ofList (digits n.toNat)

theorem read?_digits (n : Nat) : read? (digits n) = some n := by
  have hall : (Nat.toDigits 10 n).all Char.isDigit = true :=
    List.all_eq_true.2 fun _ hc => Nat.isDigit_of_mem_toDigits (by decide) (by decide) hc
  simp [read?, digits, hall, Nat.toDigits_ne_nil]

theorem digits_ne_plus (n : Nat) : unsigned (digits n) = digits n := by
  cases h : digits n with
  | nil => rfl
  | cons c cs =>
    have hc : c.isDigit = true :=
      Nat.isDigit_of_mem_toDigits (b := 10) (n := n) (by decide) (by decide)
        (h ▸ List.mem_cons_self : c ∈ digits n)
    unfold unsigned
    split
    · next heq => cases heq; exact absurd hc (by decide)
    · rfl

theorem readBelow?_digits {n bound : Nat} (h : n < bound) :
    readBelow? bound (digits n) = some n := by
  simp [readBelow?, digits_ne_plus, read?_digits, h]

theorem readWord?_digits (n : UInt64) : readWord? (digits n.toNat) = some n := by
  simp [readWord?, readBelow?_digits n.toNat_lt_size]

end ScriptProbe.Text.Decimal
