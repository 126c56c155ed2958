import ScriptProbe.Json.Reader
import Mathlib.Tactic.ByContra

/-! The digits of whole numbers as they are written, and what may follow them. -/
namespace ScriptProbe.Json

/-- The text does not go on with a digit, a point or an exponent. -/
def Ends (rest : List Char) : Prop :=
  ∀ c ∈ rest.head?, c.isDigit = false ∧ c ≠ '.' ∧ c ≠ 'e' ∧ c ≠ 'E'

theorem ends_nil : Ends [] := by simp [Ends]

theorem ends_cons {c : Char} (h : c.isDigit = false ∧ c ≠ '.' ∧ c ≠ 'e' ∧ c ≠ 'E')
    (cs : List Char) :
    Ends (c :: cs) := by
  simpa [Ends] using h

theorem le_ofDigitChars (n : Nat) (ds : List Char) : n ≤ Nat.ofDigitChars 10 ds n := by
  induction ds generalizing n with
  | nil => simp
  | cons d ds ih =>
    rw [Nat.ofDigitChars_cons]
    exact Nat.le_trans (by omega) (ih _)

theorem absorb_digits {bound n : Nat} {ds : List Char} (h : Nat.ofDigitChars 10 ds n < bound) :
    absorb bound n ds = (Nat.ofDigitChars 10 ds n, []) := by
  induction ds generalizing n with
  | nil => simp [absorb]
  | cons d ds ih =>
    rw [Nat.ofDigitChars_cons] at h ⊢
    have hm : 10 * n + (d.toNat - 48) < bound := Nat.lt_of_le_of_lt (le_ofDigitChars _ ds) h
    simp only [absorb, if_pos hm]
    exact ih h

theorem absorb_lt {limit n : Nat} (hn : n < limit) (ds : List Char) :
    (absorb limit n ds).1 < limit := by
  induction ds generalizing n with
  | nil => exact hn
  | cons d ds ih =>
    simp only [absorb]
    split
    · next hm => exact ih hm
    · exact hn

theorem head_toDigits {n : Nat} (h : (Nat.toDigits 10 n).head? = some '0') : n = 0 := by
  induction n using Nat.strongRecOn with
  | ind n ih =>
    rw [Nat.toDigits_eq_if (by decide)] at h
    split at h
    · next hn =>
      have hdigit : n.digitChar.toNat = 48 := by simpa using congrArg (Option.map Char.toNat) h
      rw [Nat.toNat_digitChar_of_lt_ten hn] at hdigit
      omega
    · next hn =>
      obtain ⟨c, tail, hcs⟩ :=
        List.exists_cons_of_ne_nil (Nat.toDigits_ne_nil (n := n / 10) (b := 10))
      have := ih (n / 10) (by omega) (by simpa [hcs] using h)
      omega

theorem isDigit_of_mem_digits {n : Nat} {c : Char} (h : c ∈ Nat.toDigits 10 n) : c.isDigit = true :=
  Nat.isDigit_of_mem_toDigits (by decide) (by decide) h

/-- The whole numbers that 64 bits hold, with or without a sign. -/
def Holds (n : Int) : Prop := -0x8000000000000000 ≤ n ∧ n < 0x10000000000000000

theorem skipBlanks_cons {c : Char} (h : isBlank c = false) (cs : List Char) :
    skipBlanks (c :: cs) = c :: cs := by
  simp [skipBlanks, h]

theorem isBlank_of_isDigit {c : Char} (h : c.isDigit = true) : isBlank c = false := by
  by_contra hb
  simp only [isBlank, Bool.not_eq_false, Bool.or_eq_true, decide_eq_true_eq] at hb
  rcases hb with ((rfl | rfl) | rfl) | rfl <;> simp at h

theorem valueOver_digit {inner : Option (List Char → Read Json)} {c : Char} (h : c.isDigit = true)
    (cs : List Char) : valueOver inner (c :: cs) = number false (c :: cs) := by
  have hne : ∀ d : Char, d.isDigit = false → c ≠ d := by
    rintro d hd rfl
    simp [h] at hd
  simp [valueOver, skipBlanks_cons (isBlank_of_isDigit h), h, hne 'n' rfl, hne 't' rfl, hne 'f' rfl,
    hne '-' rfl]

end ScriptProbe.Json
