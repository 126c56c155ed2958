import ScriptProbe.Engine.Answer
import ScriptProbe.Engine.Request
import ScriptProbe.World.Library

/-!
A library for trying the call boundary. Every script takes the same number of cycles, and the answer
repeats the texts of the call.
-/

namespace ScriptProbe.Echo

open ScriptProbe.Text

def cycles : UInt64 := 4096

def messages : List String := ["hello", "world"]

/-- The group that gets no answer. -/
def silentGroup : List Char := "null".toList

def outcome (limit : List Char) : Except String UInt64 :=
  match Decimal.readWord? limit with
  | none => .error Parameters.Defect.malformedLimit.message
  | some n =>
    if n < cycles then .error ("ExceededMaximumCycles: expect cycles <= " ++ Decimal.word n)
    else .ok cycles

/-- A text on its way back over the boundary; one with a NUL in it gives way to no text. -/
def handBack (cs : List Char) : ForeignText :=
  let bytes := Utf8.encode cs
  if bytes.contains 0 then none else some bytes

/-- What is said of a call: its outcome, and its texts as they came in. -/
def document (call : ForeignCall) : Json :=
  .obj <| (Answer.ofOutcome (outcome (Utf8.lossy call.cycleLimit))).members ++
    [("group", Json.str (String.ofList (Utf8.lossy call.group))),
      ("hash", Json.str (String.ofList (Utf8.lossy call.hash))),
      ("tx_len", Json.int (Utf8.size (Utf8.lossy call.fixture)))]

def answer (call : ForeignCall) : ForeignText :=
  if Utf8.lossy call.group = silentGroup then none else handBack (document call).compact

def library : Library where
  exports _ := true
  run call := ⟨[], answer call⟩
  runWithPrinter call :=
    ⟨messages.map fun m => ⟨true, some call.hash, some (Utf8.encode m.toList)⟩, answer call⟩
  release := Library.countReleased

end ScriptProbe.Echo
