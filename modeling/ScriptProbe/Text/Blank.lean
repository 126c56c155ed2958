/-!
Blank characters, trimming, and taking a fixed lead off a text.
-/

namespace ScriptProbe.Text

/-- The characters of the Unicode property White_Space. -/
def isBlank (c : Char) : Bool :=
  let n := c.toNat
  (9 ≤ n && n ≤ 13) || n == 0x20 || n == 0x85 || n == 0xA0 || n == 0x1680 ||
    (0x2000 ≤ n && n ≤ 0x200A) || n == 0x2028 || n == 0x2029 || n == 0x202F ||
    n == 0x205F || n == 0x3000

/-- Drops the longest tail whose characters all satisfy `p`. -/
def dropTailWhile (p : Char → Bool) (cs : List Char) : List Char :=
  (cs.reverse.dropWhile p).reverse

def trim (cs : List Char) : List Char := dropTailWhile isBlank (cs.dropWhile isBlank)

/-- What follows `lead`, if the text begins with it. -/
def after? : List Char → List Char → Option (List Char)
  | [], cs => some cs
  | _ :: _, [] => none
  | l :: lead, c :: cs => if l = c then after? lead cs else none

/-- Cuts a row of items at every `sep`; the pieces are one more than the separators. -/
def split {α : Type} [DecidableEq α] (sep : α) (cs : List α) : List (List α) :=
  cs.foldr (fun c pieces =>
    if c = sep then [] :: pieces
    else match pieces with
      | [] => [[c]]
      | p :: rest => (c :: p) :: rest) [[]]

theorem after?_append (lead cs : List Char) : after? lead (lead ++ cs) = some cs := by
  induction lead with
  | nil => rfl
  | cons l lead ih => simp [after?, ih]

theorem eq_append_of_after? {lead cs rest : List Char} (h : after? lead cs = some rest) :
    cs = lead ++ rest := by
  induction lead generalizing cs with
  | nil => simpa [after?] using h
  | cons l lead ih =>
    cases cs with
    | nil => simp [after?] at h
    | cons c cs =>
      by_cases hc : l = c
      · subst hc
        simpa using ih (by simpa [after?] using h)
      · simp [after?, hc] at h

theorem after?_eq_some_iff {lead cs rest : List Char} :
    after? lead cs = some rest ↔ cs = lead ++ rest :=
  ⟨eq_append_of_after?, fun h => h ▸ after?_append lead rest⟩

end ScriptProbe.Text
