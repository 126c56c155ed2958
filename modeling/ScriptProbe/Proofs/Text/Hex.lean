import ScriptProbe.Hash.Digest
import ScriptProbe.Text.Utf8

/-! What the digits of some bytes are, and how much room they take. -/
namespace ScriptProbe.Text.Hex

variable {bytes : List UInt8} {c : Char}

/-- Every digit is that of a number below 16. -/
theorem digit_of_mem_encode (h : c ∈ encode bytes) : ∃ n, n < 16 ∧ c = digit n := by
  obtain ⟨b, -, hc⟩ := List.mem_flatMap.1 h
  have hb := b.toNat_lt
  simp only [ofByte, List.mem_cons, List.not_mem_nil, or_false] at hc
  rcases hc with rfl | rfl
  · exact ⟨b.toNat / 16, by omega, rfl⟩
  · exact ⟨b.toNat % 16, by omega, rfl⟩

theorem not_mem_encode (h : value? c = none) (bytes : List UInt8) : c ∉ encode bytes := by
  intro hc
  obtain ⟨n, hn, rfl⟩ := digit_of_mem_encode hc
  rw [value?_digit hn] at h
  cases h

theorem encode_injective {bytes' : List UInt8} (h : encode bytes = encode bytes') :
    bytes = bytes' := by
  have hread := congrArg decode? h
  rwa [decode?_encode, decode?_encode, Option.some.injEq] at hread

theorem encode_ne_nil (h : bytes ≠ []) : encode bytes ≠ [] := by
  obtain ⟨b, rest, rfl⟩ := List.exists_cons_of_ne_nil h
  exact List.cons_ne_nil _ _

theorem digest_ne_nil (d : Digest) : d.bytes ≠ [] := by
  intro h
  have hsize := d.size_eq
  simp [h] at hsize

theorem utf8Size_digit {n : Nat} (h : n < 16) : (digit n).utf8Size = 1 := by
  have hall : ∀ n : Fin 16, (digit n).utf8Size = 1 := by decide
  exact hall ⟨n, h⟩

/-- Characters of one byte each take as many bytes as they are. -/
theorem size_of_forall {cs : List Char} (h : ∀ c ∈ cs, c.utf8Size = 1) :
    Utf8.size cs = cs.length := by
  have hfrom : ∀ n, cs.foldl (fun n c => n + c.utf8Size) n = n + cs.length := by
    induction cs with
    | nil => intro n; rfl
    | cons c cs ih =>
      intro n
      obtain ⟨hc, hcs⟩ := List.forall_mem_cons.1 h
      rw [List.foldl_cons, hc, ih hcs, List.length_cons]
      omega
  rw [Utf8.size, hfrom, Nat.zero_add]

theorem size_encode (bytes : List UInt8) : Utf8.size (encode bytes) = 2 * bytes.length := by
  rw [size_of_forall, length_encode]
  intro c hc
  obtain ⟨n, hn, rfl⟩ := digit_of_mem_encode hc
  exact utf8Size_digit hn

/-! ### Either case -/

theorem value?_toLower (c : Char) : value? c.toLower = value? c := by
  by_cases h : 'A'.val ≤ c.val ∧ c.val ≤ 'Z'.val
  · have hall : ∀ n : Fin 26,
        value? (Char.ofNat (65 + n)).toLower = value? (Char.ofNat (65 + n)) := by decide
    have hlow : 65 ≤ c.toNat := UInt32.le_iff_toNat_le.1 h.1
    have hhigh : c.toNat ≤ 90 := UInt32.le_iff_toNat_le.1 h.2
    have hc : Char.ofNat (65 + (c.toNat - 65)) = c := by
      rw [Nat.add_sub_of_le hlow, Char.ofNat_toNat]
    have hfin := hall ⟨c.toNat - 65, by omega⟩
    rwa [hc] at hfin
  · have hlower : c.toLower = c := dif_neg h
    rw [hlower]

theorem decodeFrom?_toLower (seen : List UInt8) (cs : List Char) :
    decodeFrom? seen (cs.map Char.toLower) = decodeFrom? seen cs := by
  induction seen, cs using decodeFrom?.induct <;> simp_all [decodeFrom?, value?_toLower]

theorem toNat_lt_of_value? {n : Nat} (h : value? c = some n) : c.toNat < 128 := by
  unfold value? at h
  split at h
  · next hc => exact Nat.lt_of_le_of_lt (UInt32.le_iff_toNat_le.1 hc.2) (by decide)
  split at h
  · next hc => exact Nat.lt_of_le_of_lt (UInt32.le_iff_toNat_le.1 hc.2) (by decide)
  split at h
  · next hc => exact Nat.lt_of_le_of_lt (UInt32.le_iff_toNat_le.1 hc.2) (by decide)
  · cases h

theorem digit_of_value? {n : Nat} (h : value? c = some n) : n < 16 ∧ digit n = c.toLower := by
  have hall : ∀ k : Fin 128, ((value? (Char.ofNat k)).all fun n =>
      decide (n < 16 ∧ digit n = (Char.ofNat k).toLower)) = true := by decide
  have hc := hall ⟨c.toNat, toNat_lt_of_value? h⟩
  simpa [Char.ofNat_toNat, h] using hc

/-- A pair of digits is a byte, whose digits are those in lower case. -/
theorem encode_pair {high low : Char} {a b : Nat} (ha : value? high = some a)
    (hb : value? low = some b) (bytes : List UInt8) :
    encode (UInt8.ofNat (16 * a + b) :: bytes) = high.toLower :: low.toLower :: encode bytes := by
  obtain ⟨hlt, hhigh⟩ := digit_of_value? ha
  obtain ⟨hlt', hlow⟩ := digit_of_value? hb
  have hbyte : (UInt8.ofNat (16 * a + b)).toNat = 16 * a + b := by
    rw [UInt8.toNat_ofNat']
    omega
  rw [encode_cons, hbyte, show (16 * a + b) / 16 = a by omega,
    show (16 * a + b) % 16 = b by omega, hhigh, hlow]

theorem decodeFrom?_eq_some {seen : List UInt8} {cs : List Char}
    (h : decodeFrom? seen cs = some bytes) :
    ∃ tail, bytes = seen.reverse ++ tail ∧ cs.map Char.toLower = encode tail := by
  induction seen, cs using decodeFrom?.induct with
  | case1 seen => exact ⟨[], by simpa [decodeFrom?] using h.symm, rfl⟩
  | case2 => simp [decodeFrom?] at h
  | case3 seen high low rest a b hb ha ih =>
    simp only [decodeFrom?, ha, hb] at h
    obtain ⟨tail, rfl, htail⟩ := ih h
    refine ⟨UInt8.ofNat (16 * a + b) :: tail, by simp, ?_⟩
    rw [encode_pair ha hb, ← htail]
    rfl
  | case4 => simp_all [decodeFrom?]

/-- Digits say what they say in lower case. -/
theorem decode?_eq_some_iff {cs : List Char} :
    decode? cs = some bytes ↔ cs.map Char.toLower = encode bytes := by
  constructor
  · intro h
    obtain ⟨tail, rfl, htail⟩ := decodeFrom?_eq_some h
    exact htail
  · intro h
    rw [decode?, ← decodeFrom?_toLower, h]
    exact decode?_encode bytes

end ScriptProbe.Text.Hex

namespace ScriptProbe.Digest

open ScriptProbe.Text

theorem ofBytes?_eq_some {bytes : List UInt8} {d : Digest} :
    ofBytes? bytes = some d ↔ bytes = d.bytes := by
  constructor
  · intro h
    unfold ofBytes? at h
    split at h
    · rw [← Option.some.inj h]
    · cases h
  · rintro rfl
    exact ofBytes?_bytes d

theorem eq_of_bytes {d e : Digest} (h : d.bytes = e.bytes) : d = e :=
  Option.some.inj ((ofBytes?_bytes d).symm.trans (ofBytes?_eq_some.2 h))

theorem ofText?_eq_some {s : String} {d : Digest} : ofText? s = some d ↔
    ∃ digits, s.toList = '0' :: 'x' :: digits ∧ digits.map Char.toLower = Hex.encode d.bytes := by
  have hafter : ∀ digits, after? ['0', 'x'] s.toList = some digits ↔
      s.toList = '0' :: 'x' :: digits :=
    fun digits => after?_eq_some_iff
  unfold ofText?
  cases h : after? ['0', 'x'] s.toList with
  | none =>
    refine iff_of_false nofun fun ⟨digits, hdigits, _⟩ => ?_
    rw [(hafter digits).2 hdigits] at h
    cases h
  | some digits =>
    simp only [(hafter digits).1 h, Option.bind_eq_some_iff, Hex.decode?_eq_some_iff,
      ofBytes?_eq_some, List.cons.injEq, true_and, exists_eq_left', exists_eq_right]

/-- The digits of a hash may be of either case. -/
theorem ofText?_case {cs ds : List Char} (h : cs.map Char.toLower = ds.map Char.toLower) :
    ofText? ("0x" ++ String.ofList cs) = ofText? ("0x" ++ String.ofList ds) := by
  have hdigits : ∀ cs, ofText? ("0x" ++ String.ofList cs) =
      (Hex.decode? (cs.map Char.toLower)).bind ofBytes? := by
    intro cs
    have hafter : after? ['0', 'x'] ("0x" ++ String.ofList cs).toList = some cs := by simp [after?]
    rw [ofText?, hafter, Hex.decode?, Hex.decodeFrom?_toLower]
    rfl
  rw [hdigits cs, hdigits ds, h]

end ScriptProbe.Digest
