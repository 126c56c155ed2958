import ScriptProbe.Bytes.LittleEndian
import ScriptProbe.Chain.Basic

/-!
The binary layouts that are hashed, compared and read: scripts, cell deps and lists of out points.
-/

namespace ScriptProbe

open ScriptProbe.Bytes

/-- Sizes, counts and offsets take four bytes. -/
abbrev header32 (n : Nat) : List UInt8 := littleEndian 4 n

namespace HashType

def byte : HashType → UInt8
  | data => 0
  | type => 1
  | data1 => 2
  | data2 => 4

end HashType

namespace DepType

def byte : DepType → UInt8
  | .code => 0
  | .depGroup => 1

end DepType

/-- A table of three fields: its size and the offsets of the fields, then code hash, hash type and
args with their length. -/
def Script.encode (s : Script) : List UInt8 :=
  header32 (53 + s.args.length) ++ header32 16 ++ header32 48 ++ header32 49 ++
    s.codeHash.bytes ++ [s.hashType.byte] ++ header32 s.args.length ++ s.args

namespace OutPoint

def encode (p : OutPoint) : List UInt8 := p.txHash.bytes ++ littleEndian 4 p.index.toNat

@[simp] theorem length_encode (p : OutPoint) : p.encode.length = 36 := by
  simp [encode, p.txHash.size_eq]

/-- Reads 36 bytes. -/
def decode? (bytes : List UInt8) : Option OutPoint :=
  (Digest.ofBytes? (bytes.take 32)).map fun hash =>
    ⟨hash, UInt32.ofNat (ofLittleEndian (bytes.drop 32))⟩

theorem decode?_encode (p : OutPoint) : decode? p.encode = some p := by
  have htake : p.encode.take 32 = p.txHash.bytes :=
    List.take_left' p.txHash.size_eq
  have hdrop : p.encode.drop 32 = littleEndian 4 p.index.toNat := List.drop_left' p.txHash.size_eq
  have hlt : p.index.toNat < Nat.pow 256 4 := p.index.toNat_lt
  simp [decode?, htake, hdrop, Digest.ofBytes?_bytes, ofLittleEndian_littleEndian hlt]

end OutPoint

/-- The out point and one byte for the type. -/
def CellDep.encode (d : CellDep) : List UInt8 := d.outPoint.encode ++ [d.depType.byte]

namespace DepGroup

/-- Why the data of a dep group lists no out points. -/
inductive Defect where
  | noData
  | noPoints
  | noCount (size : Nat)
  | wrongSize (expected size : Nat)
  deriving DecidableEq, Repr

def Defect.message : Defect → String
  | noData => "data is empty"
  | noPoints => "dep group is empty"
  | noCount size =>
    "OutPointVecReader total size is not enough for header, expect 4, actual " ++ toString size
  | wrongSize expected size =>
    "OutPointVecReader total size doesn't match, expect " ++ toString expected ++ ", actual " ++
      toString size

/-- A count, then the out points. -/
def encode (points : List OutPoint) : List UInt8 :=
  header32 points.length ++ points.flatMap OutPoint.encode

/-- The first `n` out points of `bytes`. -/
def points : Nat → List UInt8 → List OutPoint
  | 0, _ => []
  | n + 1, bytes =>
    match OutPoint.decode? (bytes.take 36) with
    | some p => p :: points n (bytes.drop 36)
    | none => []

/-- Refuses bytes that are missing or left over, and the empty group. -/
def decode (bytes : List UInt8) : Except Defect (List OutPoint) :=
  let count := ofLittleEndian (bytes.take 4)
  if bytes = [] then .error .noData
  else if bytes.length < 4 then .error (.noCount bytes.length)
  else if bytes.length ≠ 4 + 36 * count then .error (.wrongSize (4 + 36 * count) bytes.length)
  else if count = 0 then .error .noPoints
  else .ok (points count (bytes.drop 4))

end DepGroup

end ScriptProbe
