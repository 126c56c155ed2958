import ScriptProbe.Chain.TypeId
import ScriptProbe.Proofs.Chain.DepGroup
import ScriptProbe.Proofs.Text.Utf8

/-! What the bytes that are hashed tell of a script. They are the bytes of that script only, so
scripts with one hash are one script, unless their bytes collide. -/
namespace ScriptProbe

open ScriptProbe.Bytes

/-- The codes of the hash types, which leave one number out. -/
def HashType.codes : List (UInt8 × HashType) := [(0, .data), (1, .type), (2, .data1), (4, .data2)]

theorem HashType.mem_codes {code : UInt8} {t : HashType} : (code, t) ∈ codes ↔ code = t.byte := by
  cases t <;> simp [codes, byte]

theorem HashType.eq_of_byte {t u : HashType} (h : t.byte = u.byte) : t = u := by
  revert h
  cases t <;> cases u <;> decide

namespace Script

variable {a b s : Script} {bytes part rest : List UInt8}

/-! ### Layout -/

/-- The number that four bytes hold from a place on. -/
def number (bytes : List UInt8) (place : Nat) : Nat := ofLittleEndian ((bytes.drop place).take 4)

/-- The bytes tell of a script in a table: how many they are and where its fields begin, then the
code hash, a code for the hash type, and the args behind their own number. -/
structure Laid (s : Script) (bytes : List UInt8) : Prop where
  length : bytes.length = 53 + s.args.length
  total : number bytes 0 = 53 + s.args.length
  offsets : number bytes 4 = 16 ∧ number bytes 8 = 48 ∧ number bytes 12 = 49
  codeHash : (bytes.drop 16).take 32 = s.codeHash.bytes
  hashType : ∃ code, (bytes.drop 48).take 1 = [code] ∧ (code, s.hashType) ∈ HashType.codes
  argsLength : number bytes 49 = s.args.length
  args : bytes.drop 53 = s.args

theorem eq_append_iff {n : Nat} (h : part.length = n) :
    bytes = part ++ rest ↔ bytes.take n = part ∧ bytes.drop n = rest := by
  constructor
  · rintro rfl
    exact ⟨List.take_left' h, List.drop_left' h⟩
  · rintro ⟨rfl, rfl⟩
    exact (List.take_append_drop n bytes).symm

/-- The binary form, part by part. -/
theorem eq_encode_iff : bytes = s.encode ↔
    bytes.take 4 = header32 (53 + s.args.length) ∧ (bytes.drop 4).take 4 = header32 16 ∧
    (bytes.drop 8).take 4 = header32 48 ∧ (bytes.drop 12).take 4 = header32 49 ∧
    (bytes.drop 16).take 32 = s.codeHash.bytes ∧ (bytes.drop 48).take 1 = [s.hashType.byte] ∧
    (bytes.drop 49).take 4 = header32 s.args.length ∧ bytes.drop 53 = s.args := by
  simp only [encode, List.append_assoc, eq_append_iff (length_littleEndian 4 _),
    eq_append_iff s.codeHash.size_eq, eq_append_iff (List.length_singleton), List.drop_drop]

theorem length_encode (s : Script) : s.encode.length = 53 + s.args.length := by
  simp [encode, s.codeHash.size_eq]
  omega

theorem eq_of_fields (hhash : a.codeHash = b.codeHash) (htype : a.hashType = b.hashType)
    (hargs : a.args = b.args) :
    a = b := by
  cases a
  cases b
  simp_all

/-- The fields stand in the binary form as they are, whether the sizes before them are cut off or
not. -/
theorem encode_injective (h : a.encode = b.encode) : a = b := by
  obtain ⟨-, -, -, -, hhash, htype, -, hargs⟩ := eq_encode_iff.1 (Eq.refl a.encode)
  obtain ⟨-, -, -, -, hhash', htype', -, hargs'⟩ := eq_encode_iff.1 h
  refine eq_of_fields ?_ ?_ ?_
  · exact Digest.eq_of_bytes (hhash.symm.trans hhash')
  · exact HashType.eq_of_byte (List.singleton_inj.1 (htype.symm.trans htype'))
  · exact hargs.symm.trans hargs'

theorem number_eq_iff {place n : Nat} (hbytes : place + 4 ≤ bytes.length) (hn : n < UInt32.size) :
    number bytes place = n ↔ (bytes.drop place).take 4 = header32 n := by
  have hlength : ((bytes.drop place).take 4).length = 4 := by
    rw [List.length_take, List.length_drop]
    omega
  constructor
  · rintro rfl
    exact (DepGroup.header_ofLittleEndian hlength).symm
  · intro h
    rw [number, h, DepGroup.ofLittleEndian_header hn]

theorem number_lt {place : Nat} (hbytes : place + 4 ≤ bytes.length) :
    number bytes place < UInt32.size := by
  refine DepGroup.count_lt ?_
  rw [List.length_take, List.length_drop]
  omega

/-- Where their number is right, bytes that tell of a script are its binary form. -/
theorem laid_iff_of_length (hlength : bytes.length = 53 + s.args.length)
    (hfits : 53 + s.args.length < UInt32.size) : Laid s bytes ↔ bytes = s.encode := by
  -- No number of the table exceeds the size, so none of them is cut off.
  have hnumber : ∀ place ≤ 49, ∀ n ≤ 53 + s.args.length,
      (number bytes place = n ↔ (bytes.drop place).take 4 = header32 n) :=
    fun place hplace n hn => number_eq_iff (by omega) (Nat.lt_of_le_of_lt hn hfits)
  have htotal : number bytes 0 = 53 + s.args.length ↔
      bytes.take 4 = header32 (53 + s.args.length) :=
    hnumber 0 (by omega) _ (by omega)
  have hcode : (∃ code, (bytes.drop 48).take 1 = [code] ∧ (code, s.hashType) ∈ HashType.codes) ↔
      (bytes.drop 48).take 1 = [s.hashType.byte] := by
    simp only [HashType.mem_codes, exists_eq_right]
  rw [eq_encode_iff, ← htotal, ← hnumber 4 (by omega) 16 (by omega),
    ← hnumber 8 (by omega) 48 (by omega), ← hnumber 12 (by omega) 49 (by omega), ← hcode,
    ← hnumber 49 (by omega) s.args.length (by omega)]
  constructor
  · intro h
    obtain ⟨hfirst, hsecond, hthird⟩ := h.offsets
    exact ⟨h.total, hfirst, hsecond, hthird, h.codeHash, h.hashType, h.argsLength, h.args⟩
  · rintro ⟨htotal, hfirst, hsecond, hthird, hhash, htype, hargsLength, hargs⟩
    exact ⟨hlength, htotal, ⟨hfirst, hsecond, hthird⟩, hhash, htype, hargsLength, hargs⟩

/-- Bytes tell of a script exactly if its size fits the table and they are its binary form. -/
theorem laid_iff : Laid s bytes ↔ 53 + s.args.length < UInt32.size ∧ bytes = s.encode := by
  constructor
  · intro h
    have hfits : 53 + s.args.length < UInt32.size := h.total ▸ number_lt (by rw [h.length]; omega)
    exact ⟨hfits, (laid_iff_of_length h.length hfits).1 h⟩
  · rintro ⟨hfits, rfl⟩
    exact (laid_iff_of_length (length_encode s) hfits).2 rfl

/-! ### Hashes -/

/-- Different bytes with one hash. -/
def Collide (x y : List UInt8) : Prop := x ≠ y ∧ chainHash x = chainHash y

theorem hash_eq_iff (h : ¬Collide a.encode b.encode) : a.hash = b.hash ↔ a = b := by
  constructor
  · intro hhash
    by_cases hencode : a.encode = b.encode
    · exact encode_injective hencode
    · exact absurd ⟨hencode, hhash⟩ h
  · rintro rfl
    rfl

end Script

/-- A Type ID has its name for args. -/
theorem TypeId.script_injective {name other : List Char} (h : script name = script other) :
    name = other :=
  Text.Utf8.encode_injective (congrArg Script.args h)

end ScriptProbe
