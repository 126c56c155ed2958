import ScriptProbe.Fault

/-!
Whether the mocked surroundings of a transaction match it: its cell deps, with the members of dep
groups spelled out and in any order, its inputs in order, and the number of its header deps.
-/

namespace ScriptProbe.MockTransaction

/-- The cell deps that the data of a mocked dep group stands for. -/
def groupMembers (dep : MockCellDep) : Except CheckFault (List CellDep) :=
  match dep.cellDep.depType with
  | .code => .ok []
  | .depGroup =>
    match DepGroup.decode dep.data with
    | .ok points => .ok (points.map fun p => ⟨p, .code⟩)
    | .error defect => .error (.badGroup dep.cellDep.outPoint defect)

/-- In the order of their binary forms. -/
def sortDeps (deps : List CellDep) : List CellDep :=
  deps.mergeSort fun a b => decide (a.encode ≤ b.encode)

/-- The first pair of different members. -/
def firstDifference : List CellDep → List CellDep → Option (CellDep × CellDep)
  | a :: as, b :: bs => if a = b then firstDifference as bs else some (a, b)
  | _, _ => none

def checkDeps (tx : MockTransaction) : Except CheckFault Unit := do
  let members ← tx.info.cellDeps.mapM groupMembers
  let mocked := sortDeps (tx.info.cellDeps.map MockCellDep.cellDep)
  let actual := sortDeps (tx.tx.cellDeps ++ members.flatten)
  if mocked.length ≠ actual.length then .error (.depCount mocked.length actual.length)
  else
    match firstDifference mocked actual with
    | some (a, b) => .error (.depMismatch a b)
    | none => .ok ()

/-- The least index, from `i` on, at which two lists of one length differ. -/
def firstMismatch (i : Nat) : List CellInput → List CellInput → Option Nat
  | a :: as, b :: bs => if a = b then firstMismatch (i + 1) as bs else some i
  | _, _ => none

def checkInputs (tx : MockTransaction) : Except CheckFault Unit :=
  let mocked := tx.info.inputs.map MockInput.input
  if mocked.length ≠ tx.tx.inputs.length then .error (.inputCount mocked.length tx.tx.inputs.length)
  else
    match firstMismatch 0 mocked tx.tx.inputs with
    | some i => .error (.inputMismatch i)
    | none => .ok ()

def checkHeaders (tx : MockTransaction) : Except CheckFault Unit :=
  if tx.info.headerDeps.length ≠ tx.tx.headerDeps.length then
    .error (.headerCount tx.info.headerDeps.length tx.tx.headerDeps.length)
  else .ok ()

def check (tx : MockTransaction) : Except CheckFault Unit := do
  tx.checkDeps
  tx.checkInputs
  tx.checkHeaders

end ScriptProbe.MockTransaction
