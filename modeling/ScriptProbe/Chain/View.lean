import ScriptProbe.Chain.Basic
import ScriptProbe.Json.Writer
import ScriptProbe.Text.Hex

/-!
Scripts, cells and transactions as JSON values, with the fields in the order of their declaration.
-/

namespace ScriptProbe

open ScriptProbe.Text

namespace View

/-- The digits of a number after `0x`. -/
def uint (n : Nat) : Json := .str (String.ofList ('0' :: 'x' :: Hex.ofNat n))

def bytes (bytes : List UInt8) : Json := .str (Hex.prefixed bytes)

def digest (d : Digest) : Json := .str d.text

def optional (view : α → Json) : Option α → Json
  | none => .null
  | some a => view a

end View

open View

def HashType.name : HashType → String
  | data => "data"
  | type => "type"
  | data1 => "data1"
  | data2 => "data2"

def DepType.name : DepType → String
  | code => "code"
  | depGroup => "dep_group"

def Script.view (s : Script) : Json :=
  .obj [("code_hash", digest s.codeHash), ("hash_type", .str s.hashType.name),
    ("args", bytes s.args)]

def OutPoint.view (p : OutPoint) : Json :=
  .obj [("tx_hash", digest p.txHash), ("index", uint p.index.toNat)]

def CellDep.view (d : CellDep) : Json :=
  .obj [("out_point", d.outPoint.view), ("dep_type", .str d.depType.name)]

def CellInput.view (i : CellInput) : Json :=
  .obj [("since", uint i.since.toNat), ("previous_output", i.previousOutput.view)]

def CellOutput.view (o : CellOutput) : Json :=
  .obj [("capacity", uint o.capacity.toNat), ("lock", o.lock.view),
    ("type", optional Script.view o.type)]

def Header.view (h : Header) : Json :=
  .obj [("version", uint h.version.toNat), ("compact_target", uint h.compactTarget.toNat),
    ("timestamp", uint h.timestamp.toNat), ("number", uint h.number.toNat),
    ("epoch", uint h.epoch.toNat), ("parent_hash", digest h.parentHash),
    ("transactions_root", digest h.transactionsRoot), ("proposals_hash", digest h.proposalsHash),
    ("extra_hash", digest h.extraHash), ("dao", digest h.dao), ("nonce", uint h.nonce.toNat),
    ("hash", digest h.hash)]

def MockInput.view (i : MockInput) : Json :=
  .obj [("input", i.input.view), ("output", i.output.view), ("data", bytes i.data),
    ("header", optional digest i.header)]

def MockCellDep.view (d : MockCellDep) : Json :=
  .obj [("cell_dep", d.cellDep.view), ("output", d.output.view), ("data", bytes d.data),
    ("header", optional digest d.header)]

def MockInfo.view (i : MockInfo) : Json :=
  .obj [("inputs", .arr (i.inputs.map MockInput.view)),
    ("cell_deps", .arr (i.cellDeps.map MockCellDep.view)),
    ("header_deps", .arr (i.headerDeps.map Header.view)),
    ("extensions", .arr (i.extensions.map fun (hash, data) => .arr [digest hash, bytes data]))]

def Transaction.view (tx : Transaction) : Json :=
  .obj [("version", uint tx.version.toNat), ("cell_deps", .arr (tx.cellDeps.map CellDep.view)),
    ("header_deps", .arr (tx.headerDeps.map digest)),
    ("inputs", .arr (tx.inputs.map CellInput.view)),
    ("outputs", .arr (tx.outputs.map CellOutput.view)),
    ("outputs_data", .arr (tx.outputsData.map bytes)), ("witnesses", .arr (tx.witnesses.map bytes))]

def MockTransaction.view (tx : MockTransaction) : Json :=
  .obj [("mock_info", tx.info.view), ("tx", tx.tx.view)]

end ScriptProbe
