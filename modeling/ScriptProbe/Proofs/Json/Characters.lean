import ScriptProbe.Json.Reader

/-! The texts of strings, character by character: each one stands for itself or is escaped, in one
of three ways. The reader takes these texts between quotes for strings and no others. -/
namespace ScriptProbe.Json

open ScriptProbe.Text

variable {cs rest text : List Char} {c : Char} {n : Nat}

/-- Four hexadecimal digits and their number. -/
inductive UnitText : List Char → Nat → Prop
  | mk {a b c d : Char} {i j k l : Nat} (ha : Hex.value? a = some i) (hb : Hex.value? b = some j)
    (hc : Hex.value? c = some k) (hd : Hex.value? d = some l) :
    UnitText [a, b, c, d] (((16 * i + j) * 16 + k) * 16 + l)

abbrev IsHigh (n : Nat) : Prop := 0xD800 ≤ n ∧ n ≤ 0xDBFF

abbrev IsLow (n : Nat) : Prop := 0xDC00 ≤ n ∧ n ≤ 0xDFFF

/-- The character that two units make up. -/
def joined (high low : Nat) : Char := Char.ofNat ((high - 0xD800) * 1024 + (low - 0xDC00) + 0x10000)

/-- The ways to write a character of a string. -/
inductive CharText : List Char → Char → Prop
  | itself {c : Char} (hprint : 0x20 ≤ c.toNat) (hquote : c ≠ '"') (hslash : c ≠ '\\') :
    CharText [c] c
  | letter {c d : Char} (h : simpleEscape? c = some d) : CharText ['\\', c] d
  | unit {text : List Char} {n : Nat} (h : UnitText text n) (hhigh : ¬IsHigh n) (hlow : ¬IsLow n) :
    CharText ('\\' :: 'u' :: text) (Char.ofNat n)
  | pair {text more : List Char} {high low : Nat} (h : UnitText text high)
    (hmore : UnitText more low)
    (hhigh : IsHigh high) (hlow : IsLow low) :
    CharText ('\\' :: 'u' :: (text ++ '\\' :: 'u' :: more)) (joined high low)

/-- What stands between the quotes of a string, and its characters. -/
inductive CharsText : List Char → List Char → Prop
  | nil : CharsText [] []
  | cons {text texts : List Char} {c : Char} {cs : List Char} (h : CharText text c)
    (hs : CharsText texts cs) :
    CharsText (text ++ texts) (c :: cs)

/-! ### Escapes -/

theorem hexUnit_eq_ok :
    hexUnit cs = .ok (n, rest) ↔ ∃ text, UnitText text n ∧ cs = text ++ rest := by
  constructor
  · intro h
    have hstop : ∀ ds, stopInUnit ds ≠ .ok (n, rest) := fun ds hds => by
      unfold stopInUnit at hds
      split at hds <;> cases hds
    unfold hexUnit at h
    split at h
    · next a b c d tail =>
      split at h
      · next ha hb hc hd =>
        obtain ⟨rfl, rfl⟩ := Prod.mk.inj (Except.ok.inj h)
        exact ⟨_, .mk ha hb hc hd, rfl⟩
      · exact absurd h (hstop _)
    · exact absurd h (hstop _)
  · rintro ⟨_, ⟨ha, hb, hc, hd⟩, rfl⟩
    simp only [hexUnit, List.cons_append, List.nil_append, ha, hb, hc, hd]

theorem lowSurrogate_eq_ok {high : Nat} : lowSurrogate high cs = .ok (c, rest) ↔
    ∃ text low, UnitText text low ∧ IsLow low ∧ cs = '\\' :: 'u' :: (text ++ rest) ∧
      c = joined high low := by
  constructor
  · intro h
    unfold lowSurrogate at h
    split at h
    · cases h
    · cases h
    · next tail =>
      split at h
      · cases h
      · next low tail' hlow =>
        obtain ⟨text, htext, rfl⟩ := hexUnit_eq_ok.1 hlow
        split at h
        · cases h
        · next hrange =>
          obtain ⟨rfl, rfl⟩ := Prod.mk.inj (Except.ok.inj h)
          exact ⟨text, low, htext, by omega, rfl, rfl⟩
    · cases h
    · cases h
  · rintro ⟨text, low, htext, hlow, rfl, hc⟩
    have hunit : hexUnit (text ++ rest) = .ok (low, rest) := hexUnit_eq_ok.2 ⟨text, htext, rfl⟩
    simp only [lowSurrogate, hunit]
    rw [if_neg (by omega), hc, joined]

theorem unicodeEscape_eq_ok : unicodeEscape cs = .ok (c, rest) ↔
    ∃ text, CharText ('\\' :: 'u' :: text) c ∧ cs = text ++ rest := by
  constructor
  · intro h
    unfold unicodeEscape at h
    split at h
    · cases h
    · next n tail hn =>
      obtain ⟨text, htext, rfl⟩ := hexUnit_eq_ok.1 hn
      split at h
      · cases h
      · next hlow =>
        split at h
        · next hhigh =>
          obtain ⟨more, low, hmore, hlow, rfl, hc⟩ := lowSurrogate_eq_ok.1 h
          rw [hc]
          exact ⟨_, .pair htext hmore hhigh hlow, by simp⟩
        · next hhigh =>
          obtain ⟨rfl, rfl⟩ := Prod.mk.inj (Except.ok.inj h)
          exact ⟨text, .unit htext hhigh hlow, rfl⟩
  · rintro ⟨_, htext, rfl⟩
    cases htext with
    | letter h => cases h
    | unit h hhigh hlow =>
      simp only [unicodeEscape, hexUnit_eq_ok.2 ⟨_, h, rfl⟩]
      rw [if_neg hlow, if_neg hhigh]
    | @pair text more high low h hmore hhigh hlow =>
      have hunit : hexUnit (text ++ '\\' :: 'u' :: more ++ rest) =
          .ok (high, '\\' :: 'u' :: (more ++ rest)) :=
        hexUnit_eq_ok.2 ⟨text, h, by simp⟩
      have hnot : ¬IsLow high := by omega
      simp only [unicodeEscape, hunit]
      rw [if_neg hnot, if_pos hhigh]
      exact lowSurrogate_eq_ok.2 ⟨more, low, hmore, hlow, rfl, rfl⟩

/-! ### Characters -/

theorem unit_eq_end : unit cs = .ok (none, rest) ↔ cs = '"' :: rest := by
  constructor
  · intro h
    unfold unit at h
    split at h
    · cases h
    · cases h
      rfl
    · cases h
    · split at h
      · cases h
      split at h
      · split at h <;> cases h
      · cases h
    · split at h <;> cases h
  · rintro rfl
    rfl

theorem unit_unicode (h : CharText ('\\' :: 'u' :: text) c) :
    unit ('\\' :: 'u' :: (text ++ rest)) = .ok (some c, rest) := by
  have hletter : simpleEscape? 'u' = none := rfl
  have hescape : unicodeEscape (text ++ rest) = .ok (c, rest) :=
    unicodeEscape_eq_ok.2 ⟨text, h, rfl⟩
  simp only [unit, hletter, hescape]
  rfl

theorem unit_eq_char :
    unit cs = .ok (some c, rest) ↔ ∃ text, CharText text c ∧ cs = text ++ rest := by
  constructor
  · intro h
    unfold unit at h
    split at h
    · cases h
    · cases h
    · cases h
    · next d tail =>
      split at h
      · next c' hletter =>
        cases h
        exact ⟨_, .letter hletter, rfl⟩
      split at h
      · next hu =>
        split at h
        · cases h
        · next hescape =>
          cases h
          obtain ⟨text, htext, rfl⟩ := unicodeEscape_eq_ok.1 hescape
          exact ⟨_, hu ▸ htext, rfl⟩
      · cases h
    · next d tail hquote hlast hslash =>
      split at h
      · cases h
      · next hprint =>
        cases h
        have hne : c ≠ '\\' := by
          rintro rfl
          cases rest with
          | nil => exact hlast rfl rfl
          | cons d tail => exact hslash d tail rfl rfl
        exact ⟨_, .itself (by omega) hquote hne, rfl⟩
  · rintro ⟨_, htext, rfl⟩
    cases htext with
    | itself hprint hquote hslash =>
      rw [List.singleton_append,
        unit.eq_5 _ _ hquote (fun h _ => hslash h) (fun _ _ h _ => hslash h), if_neg (by omega)]
    | letter h => simp only [unit, List.cons_append, List.nil_append, h]
    | unit h hhigh hlow => exact unit_unicode (.unit h hhigh hlow)
    | pair h hmore hhigh hlow => exact unit_unicode (.pair h hmore hhigh hlow)

/-! ### Strings -/

theorem CharText.length_pos (h : CharText text c) : 0 < text.length := by
  cases h <;> simp

theorem units_cases {bound seen : List Char} {s : String}
    (h : units bound seen cs = .ok (s, rest)) :
    (cs = '"' :: rest ∧ s = String.ofList seen.reverse) ∨
      ∃ b bound' text c rest', bound = b :: bound' ∧ CharText text c ∧ cs = text ++ rest' ∧
        units bound' (c :: seen) rest' = .ok (s, rest) := by
  unfold units at h
  split at h
  · cases h
  · cases h
  · next b bound' _ =>
    split at h
    · cases h
    · next hend =>
      cases h
      exact Or.inl ⟨unit_eq_end.1 hend, rfl⟩
    · next c rest' hchar =>
      obtain ⟨text, htext, rfl⟩ := unit_eq_char.1 hchar
      exact Or.inr ⟨b, bound', text, c, rest', rfl, htext, rfl, h⟩

/-- Characters that have been read stay in front of those to come. -/
theorem units_sound {bound seen : List Char} {s : String}
    (h : units bound seen cs = .ok (s, rest)) :
    ∃ text chars, CharsText text chars ∧ s = String.ofList (seen.reverse ++ chars) ∧
      cs = text ++ '"' :: rest := by
  induction bound generalizing seen cs with
  | nil =>
    rcases units_cases h with ⟨rfl, rfl⟩ | ⟨_, _, _, _, _, hbound, -⟩
    · exact ⟨[], [], .nil, by simp, rfl⟩
    · cases hbound
  | cons b bound ih =>
    rcases units_cases h with ⟨rfl, rfl⟩ | ⟨_, _, text, c, rest', hbound, hc, rfl, hmore⟩
    · exact ⟨[], [], .nil, by simp, rfl⟩
    · obtain ⟨-, rfl⟩ := List.cons.inj hbound
      obtain ⟨texts, chars, hchars, rfl, rfl⟩ := ih hmore
      exact ⟨text ++ texts, c :: chars, .cons hc hchars, by simp, by simp⟩

/-- The bound is met because every character takes a part of the text. -/
theorem units_complete {chars bound : List Char} (h : CharsText text chars) (seen : List Char)
    (hb : (text ++ '"' :: rest).length ≤ bound.length) :
    units bound seen (text ++ '"' :: rest) = .ok (String.ofList (seen.reverse ++ chars), rest) := by
  induction h generalizing bound seen with
  | nil =>
    cases bound with
    | nil => simp at hb
    | cons b bound => simp [units, unit]
  | @cons text texts c chars hc hs ih =>
    have hpos := hc.length_pos
    have hunit : unit (text ++ (texts ++ '"' :: rest)) = .ok (some c, texts ++ '"' :: rest) :=
      unit_eq_char.2 ⟨text, hc, rfl⟩
    rw [List.append_assoc] at hb ⊢
    rw [List.length_append] at hb
    cases bound with
    | nil => simp only [List.length_nil] at hb; omega
    | cons b bound =>
      have hne : text ++ (texts ++ '"' :: rest) ≠ [] := by simp
      have hbound : (texts ++ '"' :: rest).length ≤ bound.length := by
        simp only [List.length_cons] at hb
        omega
      have htail := ih (c :: seen) hbound
      rw [units.eq_3 _ _ _ _ hne, hunit]
      simpa using htail

/-- The texts that are read as strings, and their characters. -/
theorem string_eq_ok {s : String} :
    string cs = .ok (s, rest) ↔ ∃ text, CharsText text s.toList ∧ cs = text ++ '"' :: rest := by
  constructor
  · intro h
    obtain ⟨text, chars, hchars, rfl, rfl⟩ := units_sound h
    exact ⟨text, by simpa using hchars, rfl⟩
  · rintro ⟨text, htext, rfl⟩
    simpa [string] using @units_complete rest _ _ _ htext [] (Nat.le_refl _)

end ScriptProbe.Json
