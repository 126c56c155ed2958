import ScriptProbe.Chain.Basic
import ScriptProbe.Json.Form
import ScriptProbe.Text.Blank
import ScriptProbe.Text.Decimal
import ScriptProbe.Text.Utf8

/-!
The JSON forms of scripts, cells and transactions. Numbers and bytes are `0x`-prefixed texts in
hexadecimal digits, with numbers in their shortest form.
-/

namespace ScriptProbe

open ScriptProbe.Json ScriptProbe.Text

namespace Form

/-- Takes hexadecimal digits after those that gave `n`; the first digit that is none, or that takes
the number to `bound`, is the one complained of. -/
def hexBelow (bound : Nat) : Nat → List Char → Except String Nat
  | n, [] => .ok n
  | n, c :: cs =>
    match Hex.value? c with
    | none => .error "invalid digit found in string"
    | some d =>
      if 16 * n + d < bound then hexBelow bound (16 * n + d) cs
      else .error "number too large to fit in target type"

/-- The number of a `0x`-prefixed text below `2 ^ bits`, or what is wrong with it. -/
def readUnsigned (bits : Nat) (cs : List Char) : Except String Nat :=
  match after? ['0', 'x'] cs with
  | none | some [] => .error "without `0x` prefix"
  | some ('0' :: _ :: _) => .error "with redundant leading zeros"
  | some digits =>
    match Decimal.unsigned digits with
    | [] => .error "invalid digit found in string"
    | digits => hexBelow (Nat.pow 2 bits) 0 digits

def unsigned (bits : Nat) : Form Nat
  | .str s =>
    (readUnsigned bits s.toList).mapError fun reason =>
      ⟨[], .illFormed ("Invalid Uint" ++ toString bits ++ " " ++ s ++ ": " ++ reason)⟩
  | v => refuseKind v ("a hex-encoded, 0x-prefixed Uint" ++ toString bits)

def uint32 : Form UInt32 := fun v => (unsigned 32 v).map UInt32.ofNat

def uint64 : Form UInt64 := fun v => (unsigned 64 v).map UInt64.ofNat

def uint128 : Form (BitVec 128) := fun v => (unsigned 128 v).map (BitVec.ofNat 128)

def hashWords : String := "a 0x-prefixed hex string with 64 digits"

/-- The first byte, with its index, that is no hexadecimal digit. -/
def badDigit? (cs : List Char) : Option (UInt8 × Nat) :=
  (Utf8.encode cs).zipIdx.find? fun (b, _) => (Hex.value? (Char.ofNat b.toNat)).isNone

def digest : Form Digest
  | .str s =>
    match after? ['0', 'x'] s.toList with
    | none | some [] => refuse (.illFormed ("invalid format, expected " ++ hashWords))
    | some digits =>
      if Utf8.size digits ≠ 64 then refuse (.wrongLength (Utf8.size digits) hashWords)
      else
        match (Hex.decode? digits).bind Digest.ofBytes?, badDigit? digits with
        | some d, _ => .ok d
        | none, some (b, i) =>
          refuse (.illFormed ("invalid hex bytes: InvalidCharacter \x7b chr: " ++ toString b ++
            ", idx: " ++ toString i ++ " \x7d, expected " ++ hashWords))
        | none, none => refuse (.wrongLength 64 hashWords)
  | v => refuseKind v hashWords

def bytesWords : String := "a 0x-prefixed hex string"

def bytes : Form (List UInt8)
  | .str s =>
    match after? ['0', 'x'] s.toList with
    | none => refuse (.wrongValue (Json.str s).shown bytesWords)
    | some digits =>
      if Utf8.size digits % 2 = 1 then refuse (.wrongLength (Utf8.size s.toList) "even length")
      else
        match Hex.decode? digits with
        | some bytes => .ok bytes
        | none => refuse (.illFormed "Invalid character")
  | v => refuseKind v bytesWords

/-- A digest that is read as bytes. -/
def byte32 : Form Digest
  | .str s =>
    match after? ['0', 'x'] s.toList with
    | none => refuse (.wrongValue (Json.str s).shown bytesWords)
    | some digits =>
      if Utf8.size digits ≠ 64 then refuse (.wrongValue (Json.str s).shown bytesWords)
      else
        match (Hex.decode? digits).bind Digest.ofBytes? with
        | some d => .ok d
        | none => refuse (.illFormed "Invalid character")
  | v => refuseKind v bytesWords

end Form

open Record Form

def HashType.names : List (String × HashType) :=
  [("data", .data), ("type", .type), ("data1", .data1), ("data2", .data2)]

def DepType.names : List (String × DepType) := [("code", .code), ("dep_group", .depGroup)]

def Script.form : Form Script :=
  strict "Script" <|
    Script.mk <$> field "code_hash" digest <*> field "hash_type" (variant HashType.names) <*>
      field "args" bytes

def OutPoint.form : Form OutPoint :=
  strict "OutPoint" <| OutPoint.mk <$> field "tx_hash" digest <*> field "index" uint32

def CellDep.form : Form CellDep :=
  strict "CellDep" <|
    CellDep.mk <$> field "out_point" OutPoint.form <*> field "dep_type" (variant DepType.names)

def CellInput.form : Form CellInput :=
  strict "CellInput" <|
    CellInput.mk <$> field "since" uint64 <*> field "previous_output" OutPoint.form

def CellOutput.form : Form CellOutput :=
  strict "CellOutput" <|
    CellOutput.mk <$> field "capacity" uint64 <*> field "lock" Script.form <*>
      optional "type" Script.form

namespace Header

/-- All fields but the hash of the header itself. -/
def fields : Record (Digest → Header) :=
  Header.mk <$> field "version" uint32 <*> field "compact_target" uint32 <*>
    field "timestamp" uint64 <*> field "number" uint64 <*> field "epoch" uint64 <*>
    field "parent_hash" digest <*> field "transactions_root" digest <*>
    field "proposals_hash" digest <*> field "extra_hash" digest <*> field "dao" byte32 <*>
    field "nonce" uint128

/-- Only the form of an object. The hash is read first, other keys are passed over, and a fault of
another field is laid to the header as a whole. -/
def form : Form Header
  | .obj members => do
    let hash ← (field "hash" digest).ofObject none members
    let header ← (fields.ofObject none members).mapError Mismatch.atTop
    .ok (header hash)
  | v => refuseKind v "struct HeaderView"

end Header

def MockInput.form : Form MockInput :=
  lenient "ReprMockInput" <|
    MockInput.mk <$> field "input" CellInput.form <*> field "output" CellOutput.form <*>
      field "data" bytes <*> optional "header" digest

def MockCellDep.form : Form MockCellDep :=
  lenient "ReprMockCellDep" <|
    MockCellDep.mk <$> field "cell_dep" CellDep.form <*> field "output" CellOutput.form <*>
      field "data" bytes <*> optional "header" digest

def MockInfo.form : Form MockInfo :=
  lenient "ReprMockInfo" <|
    MockInfo.mk <$> field "inputs" (list MockInput.form) <*>
      field "cell_deps" (list MockCellDep.form) <*> field "header_deps" (list Header.form) <*>
      defaulted "extensions" [] (list (pair digest bytes))

def Transaction.form : Form Transaction :=
  strict "Transaction" <|
    Transaction.mk <$> field "version" uint32 <*> field "cell_deps" (list CellDep.form) <*>
      field "header_deps" (list digest) <*> field "inputs" (list CellInput.form) <*>
      field "outputs" (list CellOutput.form) <*> field "outputs_data" (list bytes) <*>
      field "witnesses" (list bytes)

def MockTransaction.form : Form MockTransaction :=
  lenient "ReprMockTransaction" <|
    MockTransaction.mk <$> field "mock_info" MockInfo.form <*> field "tx" Transaction.form

end ScriptProbe
