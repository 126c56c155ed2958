import ScriptProbe.Chain.Molecule
import ScriptProbe.Proofs.Text.Hex

/-! Which bytes list out points: a count and that many records of 36 bytes, with nothing missing and
nothing left over. Such bytes are the encoding of the out points and of no others. -/
namespace ScriptProbe

open ScriptProbe.Bytes

namespace OutPoint

variable {p q : OutPoint} {bytes : List UInt8}

/-- Every 36 bytes are the record of an out point. -/
theorem exists_encode (h : bytes.length = 36) : ∃ p : OutPoint, p.encode = bytes := by
  have hhash : (bytes.take 32).length = 32 := by simp [h]
  have hrest : (bytes.drop 32).length = 4 := by simp [h]
  have hlt : ofLittleEndian (bytes.drop 32) < UInt32.size := by
    have hbound := ofLittleEndian_lt (bytes.drop 32)
    rwa [hrest] at hbound
  have hindex : littleEndian 4 (ofLittleEndian (bytes.drop 32)) = bytes.drop 32 := by
    rw [← hrest, littleEndian_ofLittleEndian]
  refine ⟨⟨⟨bytes.take 32, hhash⟩, UInt32.ofNat (ofLittleEndian (bytes.drop 32))⟩, ?_⟩
  rw [encode, UInt32.toNat_ofNat_of_lt' hlt, hindex, List.take_append_drop]

theorem eq_of_parts (hhash : p.txHash.bytes = q.txHash.bytes)
    (hindex : p.index.toNat = q.index.toNat) :
    p = q := by
  obtain ⟨hash, index⟩ := p
  obtain ⟨hash', index'⟩ := q
  obtain rfl : hash = hash' := Digest.eq_of_bytes hhash
  obtain rfl : index = index' := UInt32.toNat_inj.1 hindex
  rfl

end OutPoint

namespace DepGroup

variable {ps qs : List OutPoint} {p : OutPoint} {bytes head body : List UInt8} {i : Nat}

/-! ### Records -/

theorem length_flatMap_encode (ps : List OutPoint) :
    (ps.flatMap OutPoint.encode).length = 36 * ps.length := by
  induction ps with
  | nil => rfl
  | cons p ps ih =>
    rw [List.flatMap_cons, List.length_append, OutPoint.length_encode, ih, List.length_cons]
    omega

theorem points_flatMap_encode (ps : List OutPoint) :
    points ps.length (ps.flatMap OutPoint.encode) = ps := by
  induction ps with
  | nil => rfl
  | cons p ps ih =>
    have htake : (p.encode ++ ps.flatMap OutPoint.encode).take 36 = p.encode :=
      List.take_left' p.length_encode
    have hdrop : (p.encode ++ ps.flatMap OutPoint.encode).drop 36 = ps.flatMap OutPoint.encode :=
      List.drop_left' p.length_encode
    rw [List.flatMap_cons, List.length_cons, points, htake, OutPoint.decode?_encode, hdrop, ih]

/-- Bytes for `n` records are `n` records. -/
theorem exists_flatMap_encode {n : Nat} (h : bytes.length = 36 * n) :
    ∃ ps : List OutPoint, ps.length = n ∧ ps.flatMap OutPoint.encode = bytes := by
  induction n generalizing bytes with
  | zero => exact ⟨[], rfl, (List.length_eq_zero_iff.1 h).symm⟩
  | succ n ih =>
    obtain ⟨p, hp⟩ := @OutPoint.exists_encode (bytes.take 36) (by rw [List.length_take]; omega)
    obtain ⟨ps, hlength, hps⟩ := @ih (bytes.drop 36) (by rw [List.length_drop]; omega)
    exact ⟨p :: ps, by rw [List.length_cons, hlength], by
      rw [List.flatMap_cons, hp, hps, List.take_append_drop]⟩

/-! ### The count -/

theorem ofLittleEndian_header {n : Nat} (h : n < UInt32.size) : ofLittleEndian (header32 n) = n :=
  ofLittleEndian_littleEndian h

theorem header_ofLittleEndian (h : head.length = 4) : header32 (ofLittleEndian head) = head := by
  rw [header32, ← h, littleEndian_ofLittleEndian]

theorem count_lt (h : head.length = 4) : ofLittleEndian head < UInt32.size := by
  have hlt := ofLittleEndian_lt head
  rwa [h] at hlt

/-- All that is looked at, of bytes that hold a count. -/
theorem decode_append (h : head.length = 4) (body : List UInt8) :
    decode (head ++ body) =
      if body.length ≠ 36 * ofLittleEndian head then
        .error (.wrongSize (4 + 36 * ofLittleEndian head) (4 + body.length))
      else if ofLittleEndian head = 0 then .error .noPoints
      else .ok (points (ofLittleEndian head) body) := by
  have htake : (head ++ body).take 4 = head := List.take_left' h
  have hdrop : (head ++ body).drop 4 = body := List.drop_left' h
  have hne : head ++ body ≠ [] :=
    List.append_ne_nil_of_left_ne_nil (List.ne_nil_of_length_pos (by omega)) body
  have hlength : (head ++ body).length = 4 + body.length := by rw [List.length_append, h]
  simp only [decode, htake, hdrop, if_neg hne, hlength, if_neg (show ¬4 + body.length < 4 by omega),
    ne_eq, Nat.add_left_cancel_iff]

theorem decode_short (h : bytes.length < 4) : ∃ defect, decode bytes = .error defect := by
  by_cases hnil : bytes = []
  · exact ⟨.noData, if_pos hnil⟩
  · exact ⟨.noCount bytes.length, by rw [decode, if_neg hnil, if_pos h]⟩

/-! ### What the bytes say -/

/-- The bytes tell of the out points one by one: their number in four bytes, and for each of them,
in order, the hash of a transaction in 32 bytes and an index in four. Numbers have their least byte
first. -/
structure Lists (ps : List OutPoint) (bytes : List UInt8) : Prop where
  length : bytes.length = 4 + 36 * ps.length
  count : ofLittleEndian (bytes.take 4) = ps.length
  hash : ∀ i p, ps[i]? = some p → (bytes.drop (4 + 36 * i)).take 32 = p.txHash.bytes
  index : ∀ i p, ps[i]? = some p →
    ofLittleEndian ((bytes.drop (36 + 36 * i)).take 4) = p.index.toNat

/-- The record of an index, and the records behind it. -/
theorem drop_flatMap_encode (h : ps[i]? = some p) :
    (ps.flatMap OutPoint.encode).drop (36 * i) =
      p.encode ++ (ps.drop (i + 1)).flatMap OutPoint.encode := by
  obtain ⟨hi, rfl⟩ := List.getElem?_eq_some_iff.1 h
  have hfront : ((ps.take i).flatMap OutPoint.encode).length = 36 * i := by
    rw [length_flatMap_encode, List.length_take, Nat.min_eq_left (Nat.le_of_lt hi)]
  have hsplit : ps.flatMap OutPoint.encode =
      (ps.take i).flatMap OutPoint.encode ++ (ps.drop i).flatMap OutPoint.encode := by
    rw [← List.flatMap_append, List.take_append_drop]
  rw [hsplit, List.drop_left' hfront, List.drop_eq_getElem_cons hi, List.flatMap_cons]

theorem lists_append (h : head.length = 4) (hcount : ofLittleEndian head = ps.length) :
    Lists ps (head ++ ps.flatMap OutPoint.encode) := by
  have hrecord : ∀ i p, ps[i]? = some p → (head ++ ps.flatMap OutPoint.encode).drop (4 + 36 * i) =
      p.encode ++ (ps.drop (i + 1)).flatMap OutPoint.encode := by
    intro i p hp
    rw [← List.drop_drop, List.drop_left' h, drop_flatMap_encode hp]
  refine ⟨?_, ?_, fun i p hp => ?_, fun i p hp => ?_⟩
  · rw [List.length_append, h, length_flatMap_encode]
  · rw [List.take_left' h, hcount]
  · rw [hrecord i p hp, OutPoint.encode, List.append_assoc, List.take_left' p.txHash.size_eq]
  · have hlt : p.index.toNat < Nat.pow 256 4 := p.index.toNat_lt
    have hplace : 36 + 36 * i = (4 + 36 * i) + 32 := by omega
    rw [hplace, ← List.drop_drop, hrecord i p hp, OutPoint.encode, List.append_assoc,
      List.drop_left' p.txHash.size_eq, List.take_left' (length_littleEndian 4 _),
      ofLittleEndian_littleEndian hlt]

theorem Lists.unique (h : Lists ps bytes) (h' : Lists qs bytes) : ps = qs := by
  have hlength : ps.length = qs.length := h.count.symm.trans h'.count
  refine List.ext_getElem hlength fun i hi hi' => ?_
  have hp : ps[i]? = some ps[i] := List.getElem?_eq_getElem hi
  have hq : qs[i]? = some qs[i] := List.getElem?_eq_getElem hi'
  exact OutPoint.eq_of_parts ((h.hash i _ hp).symm.trans (h'.hash i _ hq))
    ((h.index i _ hp).symm.trans (h'.index i _ hq))

/-- Bytes of the right number list out points, whatever they are. -/
theorem exists_lists (h : head.length = 4) (hbody : body.length = 36 * ofLittleEndian head) :
    ∃ ps, Lists ps (head ++ body) ∧ points (ofLittleEndian head) body = ps := by
  obtain ⟨ps, hlength, rfl⟩ := exists_flatMap_encode hbody
  exact ⟨ps, lists_append h hlength.symm, by rw [← hlength, points_flatMap_encode]⟩

theorem lists_iff : Lists ps bytes ↔ ps.length < UInt32.size ∧ bytes = encode ps := by
  constructor
  · intro h
    have hhead : (bytes.take 4).length = 4 := by rw [List.length_take, h.length]; omega
    have hbody : (bytes.drop 4).length = 36 * ps.length := by rw [List.length_drop, h.length]; omega
    obtain ⟨qs, hqs, hflat⟩ := exists_flatMap_encode hbody
    have hbytes : bytes.take 4 ++ qs.flatMap OutPoint.encode = bytes := by
      rw [hflat, List.take_append_drop]
    obtain rfl : qs = ps := (hbytes ▸ lists_append hhead (h.count.trans hqs.symm)).unique h
    refine ⟨h.count ▸ count_lt hhead, ?_⟩
    rw [encode, ← h.count, header_ofLittleEndian hhead, hbytes]
  · rintro ⟨hlt, rfl⟩
    exact lists_append (length_littleEndian 4 _) (ofLittleEndian_header hlt)

theorem Lists.head_count (h : Lists ps (head ++ body)) (hhead : head.length = 4) :
    ofLittleEndian head = ps.length := by
  have hcount := h.count
  rwa [List.take_left' hhead] at hcount

theorem decode_append_eq_ok (h : head.length = 4) :
    decode (head ++ body) = .ok ps ↔ ps ≠ [] ∧ Lists ps (head ++ body) := by
  rw [decode_append h]
  by_cases hbody : body.length = 36 * ofLittleEndian head
  · obtain ⟨qs, hqs, hpoints⟩ := exists_lists h hbody
    have hcount := hqs.head_count h
    have hps : Lists ps (head ++ body) ↔ qs = ps := ⟨hqs.unique, fun heq => heq ▸ hqs⟩
    rw [if_neg (by simpa using hbody), hpoints, hps, hcount]
    by_cases hnil : qs = []
    · simp [hnil, eq_comm]
    · rw [if_neg (mt List.length_eq_zero_iff.1 hnil), Except.ok.injEq]
      exact ⟨fun heq => ⟨heq ▸ hnil, heq⟩, And.right⟩
  · rw [if_pos hbody]
    refine iff_of_false nofun fun ⟨_, hps⟩ => hbody ?_
    have hlength := hps.length
    rw [List.length_append, h] at hlength
    rw [hps.head_count h]
    omega

theorem decode_eq_ok : decode bytes = .ok ps ↔ ps ≠ [] ∧ Lists ps bytes := by
  by_cases hshort : bytes.length < 4
  · obtain ⟨defect, hdefect⟩ := decode_short hshort
    refine iff_of_false (by simp [hdefect]) fun ⟨_, h⟩ => ?_
    have hlength := h.length
    omega
  · have hhead : (bytes.take 4).length = 4 := by rw [List.length_take]; omega
    rw [← List.take_append_drop 4 bytes]
    exact decode_append_eq_ok hhead

/-- Bytes decode to out points exactly if they tell of them one by one, and are their encoding then.
So every list that is not empty and whose length fits is decoded from its encoding, all that is
decoded is encoded as it was, and a count that does not go with the size is refused; the size that
it asks for fits a machine word. -/
theorem decode_exact (bytes : List UInt8) :
    (∀ ps, decode bytes = .ok ps ↔ ps ≠ [] ∧ Lists ps bytes) ∧
    (∀ ps, Lists ps bytes ↔ ps.length < UInt32.size ∧ bytes = encode ps) ∧
    (∀ ps : List OutPoint, ps ≠ [] → ps.length < UInt32.size → decode (encode ps) = .ok ps) ∧
    (∀ ps, decode bytes = .ok ps → encode ps = bytes) ∧
    (∀ head body, bytes = head ++ body → head.length = 4 → body.length ≠ 36 * ofLittleEndian head →
      decode bytes = .error (.wrongSize (4 + 36 * ofLittleEndian head) bytes.length) ∧
      4 + 36 * ofLittleEndian head < UInt64.size) := by
  refine ⟨fun ps => decode_eq_ok, fun ps => lists_iff, fun ps hne hlt => ?_, fun ps h => ?_, ?_⟩
  · exact decode_eq_ok.2 ⟨hne, lists_iff.2 ⟨hlt, rfl⟩⟩
  · exact (lists_iff.1 (decode_eq_ok.1 h).2).2.symm
  · rintro head body rfl hhead hbody
    have hlt : ofLittleEndian head < 0x100000000 := count_lt hhead
    refine ⟨by rw [decode_append hhead, if_pos hbody, List.length_append, hhead], ?_⟩
    change _ < 0x10000000000000000
    omega

/-- Two records, the second with the greatest index. -/
def twoPoints : List OutPoint :=
  [⟨⟨List.replicate 32 0x11, rfl⟩, 1⟩, ⟨⟨List.replicate 32 0x22, rfl⟩, 0xFFFFFFFF⟩]

theorem decode_exact_twoPoints :
    decode ([2, 0, 0, 0] ++ (List.replicate 32 0x11 ++ [1, 0, 0, 0]) ++
      (List.replicate 32 0x22 ++ [0xFF, 0xFF, 0xFF, 0xFF])) = .ok twoPoints ∧
    decode ([0xFF, 0xFF, 0xFF, 0xFF] ++ List.replicate 36 0) =
      .error (.wrongSize 154618822624 40) := by
  obtain ⟨-, -, hdecode, -, -⟩ := decode_exact []
  obtain ⟨-, -, -, -, hrefused⟩ := decode_exact ([0xFF, 0xFF, 0xFF, 0xFF] ++ List.replicate 36 0)
  exact ⟨hdecode twoPoints (by simp [twoPoints]) (by decide), (hrefused _ _ rfl rfl (by decide)).1⟩

end DepGroup

end ScriptProbe
