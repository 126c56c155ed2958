import ScriptProbe.Chain.Basic

/-!
Cell deps as messages show them: every structure by its name and its fields.
-/

namespace ScriptProbe

/-- The bytes one by one. -/
def Digest.shown (d : Digest) : String :=
  "H256 ( [ " ++ ", ".intercalate (d.bytes.map fun b => Text.Hex.prefixed [b]) ++ " ] )"

def OutPoint.shown (p : OutPoint) : String :=
  "OutPoint \x7b tx_hash: " ++ p.txHash.shown ++ ", index: JsonUint(" ++
    toString p.index.toNat ++ ") \x7d"

def DepType.shown : DepType → String
  | code => "Code"
  | depGroup => "DepGroup"

def CellDep.shown (d : CellDep) : String :=
  "CellDep \x7b out_point: " ++ d.outPoint.shown ++ ", dep_type: " ++ d.depType.shown ++ " \x7d"

end ScriptProbe
