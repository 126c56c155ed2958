import ScriptProbe.Number.Binary64
import ScriptProbe.Text.Decimal

/-!
Cycle counts with a rounded count of binary thousands or millions behind them, as in `3527(3.4K)`.
-/

namespace ScriptProbe.CycleText

open ScriptProbe.Number

def kilo : Nat := 1024

def mega : Nat := 1024 * kilo

/-- The tenths of a count divided by `unit`: the count is rounded to binary64 first, and the
quotient, which is exact, to a tenth. -/
def tenths (n : UInt64) (unit : Nat) : Nat :=
  let x := (Binary64.nearest n.toNat 1).getD .zero
  let (num, den) := x.ratio
  roundHalfEven (10 * num) (den * unit)

def oneDecimal (tenths : Nat) : String := toString (tenths / 10) ++ "." ++ toString (tenths % 10)

def text (n : UInt64) : String :=
  let suffix :=
    if mega ≤ n.toNat then "(" ++ oneDecimal (tenths n mega) ++ "M)"
    else if kilo ≤ n.toNat then "(" ++ oneDecimal (tenths n kilo) ++ "K)"
    else ""
  Text.Decimal.word n ++ suffix

end ScriptProbe.CycleText
