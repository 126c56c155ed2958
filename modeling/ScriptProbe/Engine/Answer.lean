import ScriptProbe.Json.Form
import ScriptProbe.Json.Reader
import ScriptProbe.Json.Writer

/-!
What an engine answers: a JSON object whose `cycle` and `error` members are read and whose other
members are kept as they are.
-/

namespace ScriptProbe

/-- The cycles that a script took, and the text of its failure. -/
structure Answer where
  cycle : Option UInt64
  error : Option String
  deriving DecidableEq, Repr

namespace Answer

def ofOutcome : Except String UInt64 → Answer
  | .ok cycle => ⟨some cycle, none⟩
  | .error text => ⟨none, some text⟩

def isSuccess (a : Answer) : Bool := a.error.isNone

def cycleView : Option UInt64 → Json
  | some n => .int n.toNat
  | none => .null

def errorView : Option String → Json
  | some text => .str text
  | none => .null

def members (a : Answer) : List (String × Json) :=
  [("cycle", cycleView a.cycle), ("error", errorView a.error)]

def view (a : Answer) : Json := .obj a.members

def toText (a : Answer) : String := a.view.toText

open Json in
def count : Form UInt64
  | .int n =>
    if 0 ≤ n ∧ n < UInt64.size then .ok (UInt64.ofNat n.toNat)
    else refuse (.wrongValue (Json.int n).shown "u64")
  | v => refuseKind v "u64"

open Json in
def text : Form String
  | .str s => .ok s
  | v => refuseKind v "a string"

open Json Record in
/-- Both members may be absent or null. -/
def form : Form Answer :=
  lenient "ScriptResult" <| Answer.mk <$> optional "cycle" count <*> optional "error" text

inductive Defect where
  | notJson (e : Json.ReadError)
  | notObject (kind : String)
  | badField (m : Json.Mismatch)
  deriving DecidableEq, Repr

def Defect.message : Defect → String
  | notJson e => "not valid JSON: " ++ e.message
  | notObject kind => "expected a JSON object, got " ++ kind
  | badField m => "field `" ++ m.placeText ++ "`: " ++ m.reason

/-- The whole document, and what it says. -/
def read (raw : String) : Except Defect (Json × Answer) :=
  match Json.parse raw with
  | .error e => .error (.notJson e)
  | .ok (.obj members) =>
    match form (.obj members) with
    | .error m => .error (.badField m)
    | .ok a => .ok (.obj members, a)
  | .ok v => .error (.notObject v.kind)

end Answer

end ScriptProbe
