import ScriptProbe.Hash.Digest

/-!
Scripts, cells and transactions, and the mock transaction: a transaction together with the cells and
headers that it names.
-/

namespace ScriptProbe

/-- How the code of a script is found from its code hash. -/
inductive HashType where
  | data
  | type
  | data1
  | data2
  deriving DecidableEq, Repr

inductive DepType where
  | code
  | depGroup
  deriving DecidableEq, Repr

structure Script where
  codeHash : Digest
  hashType : HashType
  args : List UInt8
  deriving DecidableEq

structure OutPoint where
  txHash : Digest
  index : UInt32
  deriving DecidableEq

structure CellDep where
  outPoint : OutPoint
  depType : DepType
  deriving DecidableEq

structure CellInput where
  since : UInt64
  previousOutput : OutPoint
  deriving DecidableEq

structure CellOutput where
  capacity : UInt64
  lock : Script
  type : Option Script
  deriving DecidableEq

structure Header where
  version : UInt32
  compactTarget : UInt32
  timestamp : UInt64
  number : UInt64
  epoch : UInt64
  parentHash : Digest
  transactionsRoot : Digest
  proposalsHash : Digest
  extraHash : Digest
  dao : Digest
  nonce : BitVec 128
  hash : Digest
  deriving DecidableEq

structure Transaction where
  version : UInt32
  cellDeps : List CellDep
  headerDeps : List Digest
  inputs : List CellInput
  outputs : List CellOutput
  outputsData : List (List UInt8)
  witnesses : List (List UInt8)
  deriving DecidableEq

/-- An input with the cell that it spends. -/
structure MockInput where
  input : CellInput
  output : CellOutput
  data : List UInt8
  header : Option Digest
  deriving DecidableEq

/-- A cell dep with the cell that it points to. -/
structure MockCellDep where
  cellDep : CellDep
  output : CellOutput
  data : List UInt8
  header : Option Digest
  deriving DecidableEq

structure MockInfo where
  inputs : List MockInput
  cellDeps : List MockCellDep
  headerDeps : List Header
  extensions : List (Digest × List UInt8)
  deriving DecidableEq

structure MockTransaction where
  info : MockInfo
  tx : Transaction
  deriving DecidableEq

/-- The two roles of a script in a cell. -/
inductive ScriptGroup where
  | lock
  | type
  deriving DecidableEq, Repr

namespace ScriptGroup

def name : ScriptGroup → String
  | lock => "lock"
  | type => "type"

def ofName? (s : String) : Option ScriptGroup :=
  if s = "lock" then some lock else if s = "type" then some type else none

theorem ofName?_name (g : ScriptGroup) : ofName? g.name = some g := by cases g <;> decide

end ScriptGroup

/-- The two sides of a transaction on which cells stand. -/
inductive CellSide where
  | input
  | output
  deriving DecidableEq, Repr

namespace CellSide

def name : CellSide → String
  | input => "input"
  | output => "output"

def ofName? (s : String) : Option CellSide :=
  if s = "input" then some input else if s = "output" then some output else none

def read (s : String) : Except String CellSide :=
  match ofName? s with
  | some side => .ok side
  | none => .error ("unknown cell type `" ++ s ++ "`, expected `input` or `output`")

theorem ofName?_name (side : CellSide) : ofName? side.name = some side := by cases side <;> decide

end CellSide

namespace CellOutput

/-- The script of the given role, if the cell has one. -/
def script? (cell : CellOutput) : ScriptGroup → Option Script
  | .lock => some cell.lock
  | .type => cell.type

end CellOutput

end ScriptProbe
