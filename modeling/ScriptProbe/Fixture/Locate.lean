import ScriptProbe.Chain.TypeId
import ScriptProbe.Fault

/-!
Finding a script by the cell that holds it.
-/

namespace ScriptProbe.MockTransaction

/-- The cells that stand on a side: those that the inputs spend, or those that the outputs make. -/
def cells (tx : MockTransaction) : CellSide → List CellOutput
  | .input => tx.info.inputs.map MockInput.output
  | .output => tx.tx.outputs

def locate (tx : MockTransaction) (group : ScriptGroup) (side : CellSide) (index : Nat) :
    Except LocateFault Script :=
  match (tx.cells side)[index]? with
  | none => .error (.outOfRange side index)
  | some cell =>
    match cell.script? group with
    | none => .error (.noTypeScript side index)
    | some script => .ok script

def scriptHash (tx : MockTransaction) (group : ScriptGroup) (side : CellSide) (index : Nat) :
    Except LocateFault Digest :=
  (tx.locate group side index).map Script.hash

end ScriptProbe.MockTransaction
