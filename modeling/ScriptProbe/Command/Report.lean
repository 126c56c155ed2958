import ScriptProbe.Engine.Basic
import ScriptProbe.Engine.CycleText
import ScriptProbe.Text.Blank

/-!
What a run tells its reader: lines of text, or one JSON object.
-/

namespace ScriptProbe.Report

/-- A message without the line ends behind it. -/
def unended (message : String) : List Char :=
  Text.dropTailWhile (fun c => c = '\r' || c = '\n') message.toList

def logLine (message : String) : String := "Script log: " ++ String.ofList (unended message)

/-- The closing line. An engine that gave no count gets none. -/
def cyclesLine : Option UInt64 → String
  | some n => "Total cycles consumed:" ++ " " ++ CycleText.text n
  | none => "Total cycles consumed:" ++ " unknown (not reported by the engine)"

def messageView (m : Message) : Json :=
  .obj [("script_hash", .str m.hash), ("message", .str m.text)]

/-- The object of a run: its cycles or the text of its fault, and the messages. -/
def view (cycle : Option UInt64) (error : Option String) (messages : List Message) : Json :=
  .obj (Answer.members ⟨cycle, error⟩ ++ [("messages", .arr (messages.map messageView))])

/-- After a failure the messages are those that were printed before it. -/
def invokedView (i : Invoked) : Json :=
  match i.report with
  | .ok r => view r.answer.cycle none r.messages
  | .error fault => view none (some fault.reportText) i.printed

end ScriptProbe.Report
