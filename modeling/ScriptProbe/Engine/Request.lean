import ScriptProbe.Chain.Basic
import ScriptProbe.Text.Decimal

/-!
What an engine is asked: the text of a fixture, and a script group, a script hash and a cycle budget
that cross the boundary as texts. Engines read the three as parameters, in that order.
-/

namespace ScriptProbe

/-- The caller's part of a call, kept as text so that the engine itself can complain of it. -/
structure Request where
  group : String
  hash : String
  cycleLimit : String
  deriving DecidableEq, Repr

/-- All four texts of a call. -/
structure Invocation where
  fixture : String
  request : Request
  deriving DecidableEq, Repr

structure Parameters where
  group : ScriptGroup
  hash : Digest
  maxCycles : UInt64
  deriving DecidableEq

namespace Parameters

inductive Defect where
  | unknownGroup (text : String)
  | malformedHash
  | malformedLimit
  deriving DecidableEq, Repr

def Defect.message : Defect → String
  | unknownGroup text => "unknown variant `" ++ text ++ "`, expected `lock` or `type`"
  | malformedHash => "Invalid script hash format!"
  | malformedLimit => "Invalid max cycle!"

def readGroup (text : String) : Except Defect ScriptGroup :=
  match ScriptGroup.ofName? text with
  | some group => .ok group
  | none => .error (.unknownGroup text)

def readHash (text : String) : Except Defect Digest :=
  match Digest.ofText? text with
  | some hash => .ok hash
  | none => .error .malformedHash

def readLimit (text : String) : Except Defect UInt64 :=
  match Text.Decimal.readWord? text.toList with
  | some limit => .ok limit
  | none => .error .malformedLimit

def read (r : Request) : Except Defect Parameters := do
  let group ← readGroup r.group
  let hash ← readHash r.hash
  let limit ← readLimit r.cycleLimit
  .ok ⟨group, hash, limit⟩

/-- The request that says the same in the shortest words. -/
def request (p : Parameters) : Request :=
  ⟨p.group.name, p.hash.text, Text.Decimal.word p.maxCycles⟩

theorem read_request (p : Parameters) : read p.request = .ok p := by
  simp [read, request, readGroup, readHash, readLimit, ScriptGroup.ofName?_name,
    Digest.ofText?_text, Text.Decimal.word, Text.Decimal.readWord?_digits, bind, Except.bind]

end Parameters

end ScriptProbe
