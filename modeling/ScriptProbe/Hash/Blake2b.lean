import ScriptProbe.Bytes.LittleEndian
import ScriptProbe.Hash.Digest
import ScriptProbe.Text.Utf8

/-!
BLAKE2b with digests of 32 bytes, without a key, under a personal text of 16 bytes.
-/

namespace ScriptProbe.Blake2b

open ScriptProbe.Bytes

abbrev Words := Vector UInt64 16

/-- The chain value between two blocks. -/
abbrev Chain := Vector UInt64 8

def blockSize : Nat := 128

def start : Chain :=
  #v[0x6a09e667f3bcc908, 0xbb67ae8584caa73b, 0x3c6ef372fe94f82b, 0xa54ff53a5f1d36f1,
    0x510e527fade682d1, 0x9b05688c2b3e6c1f, 0x1f83d9abfb41bd6b, 0x5be0cd19137e2179]

/-- The order in which each round takes the words of a block. -/
def order : Vector (Vector (Fin 16) 16) 12 :=
  #v[#v[0, 1, 2, 3, 4, 5, 6, 7, 8, 9, 10, 11, 12, 13, 14, 15],
    #v[14, 10, 4, 8, 9, 15, 13, 6, 1, 12, 0, 2, 11, 7, 5, 3],
    #v[11, 8, 12, 0, 5, 2, 15, 13, 10, 14, 3, 6, 7, 1, 9, 4],
    #v[7, 9, 3, 1, 13, 12, 11, 14, 2, 6, 5, 10, 4, 0, 15, 8],
    #v[9, 0, 5, 7, 2, 4, 10, 15, 14, 1, 11, 12, 6, 8, 3, 13],
    #v[2, 12, 6, 10, 0, 11, 8, 3, 4, 13, 7, 5, 15, 14, 1, 9],
    #v[12, 5, 1, 15, 14, 13, 4, 10, 0, 7, 6, 3, 9, 2, 8, 11],
    #v[13, 11, 7, 14, 12, 1, 3, 9, 5, 0, 15, 4, 8, 6, 2, 10],
    #v[6, 15, 14, 9, 11, 3, 0, 8, 12, 2, 13, 7, 1, 4, 10, 5],
    #v[10, 2, 8, 4, 7, 6, 1, 5, 15, 11, 9, 14, 3, 12, 13, 0],
    #v[0, 1, 2, 3, 4, 5, 6, 7, 8, 9, 10, 11, 12, 13, 14, 15],
    #v[14, 10, 4, 8, 9, 15, 13, 6, 1, 12, 0, 2, 11, 7, 5, 3]]

def rotateRight (x n : UInt64) : UInt64 := (x >>> n) ||| (x <<< (64 - n))

/-- Stirs two words of a block into four words of the state. -/
def mix (v : Words) (a b c d : Fin 16) (x y : UInt64) : Words :=
  let v := v.set a (v[a] + v[b] + x)
  let v := v.set d (rotateRight (v[d] ^^^ v[a]) 32)
  let v := v.set c (v[c] + v[d])
  let v := v.set b (rotateRight (v[b] ^^^ v[c]) 24)
  let v := v.set a (v[a] + v[b] + y)
  let v := v.set d (rotateRight (v[d] ^^^ v[a]) 16)
  let v := v.set c (v[c] + v[d])
  v.set b (rotateRight (v[b] ^^^ v[c]) 63)

/-- Four columns, then four diagonals. -/
def round (m : Words) (v : Words) (s : Vector (Fin 16) 16) : Words :=
  let v := mix v 0 4 8 12 m[s[0]] m[s[1]]
  let v := mix v 1 5 9 13 m[s[2]] m[s[3]]
  let v := mix v 2 6 10 14 m[s[4]] m[s[5]]
  let v := mix v 3 7 11 15 m[s[6]] m[s[7]]
  let v := mix v 0 5 10 15 m[s[8]] m[s[9]]
  let v := mix v 1 6 11 12 m[s[10]] m[s[11]]
  let v := mix v 2 7 8 13 m[s[12]] m[s[13]]
  mix v 3 4 9 14 m[s[14]] m[s[15]]

/-- The words of a block; bytes that are missing are zeros. -/
def words (block : List UInt8) : Words :=
  let bytes := (block ++ List.replicate (blockSize - block.length) 0).toArray
  Vector.ofFn fun i : Fin 16 =>
    UInt64.ofNat (ofLittleEndian (bytes.extract (8 * i) (8 * i + 8)).toList)

/-- Takes one block in; `total` counts the bytes up to its end. -/
def compress (h : Chain) (block : List UInt8) (total : Nat) (last : Bool) : Chain :=
  let v : Words := h ++ start
  let v := v.set 12 (v[12] ^^^ UInt64.ofNat total)
  let v := v.set 13 (v[13] ^^^ UInt64.ofNat (total / UInt64.size))
  let v := if last then v.set 14 (~~~v[14]) else v
  let v := order.foldl (round (words block)) v
  Vector.ofFn fun i : Fin 8 => h[i] ^^^ v[i.val] ^^^ v[i.val + 8]

/-- Takes in what is left of a text after its first `total` bytes. The last block may be short, and
is empty only in the empty text. -/
def absorb (h : Chain) (total : Nat) (bytes : List UInt8) : Chain :=
  match _hrest : bytes.drop blockSize with
  | [] => compress h bytes (total + bytes.length) true
  | b :: rest =>
    absorb (compress h (bytes.take blockSize) (total + blockSize) false)
      (total + blockSize) (b :: rest)
termination_by bytes.length
decreasing_by
  rw [← _hrest, List.length_drop]
  have : bytes.length ≠ 0 := by
    intro h
    simp [List.eq_nil_of_length_eq_zero h] at _hrest
  simp only [blockSize]
  omega

/-- The first chain value: digest size, no key, sequential mode, and the personal text. -/
def initial (personal : List UInt8) : Chain :=
  let low := UInt64.ofNat (ofLittleEndian (personal.take 8))
  let high := UInt64.ofNat (ofLittleEndian ((personal.drop 8).take 8))
  let h := start.set 0 (start[0] ^^^ 0x01010020)
  let h := h.set 6 (h[6] ^^^ low)
  h.set 7 (h[7] ^^^ high)

def digest (personal bytes : List UInt8) : Digest where
  bytes := ((absorb (initial personal) 0 bytes).take 4).toList.flatMap fun w =>
    littleEndian 8 w.toNat
  size_eq := by
    simp [List.length_flatMap, List.map_const']

end ScriptProbe.Blake2b

namespace ScriptProbe

/-- The hash of a chain's default personal text. -/
def chainHash (bytes : List UInt8) : Digest :=
  Blake2b.digest (Text.Utf8.encode "ckb-default-hash".toList) bytes

end ScriptProbe
