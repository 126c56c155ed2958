import ScriptProbe.Engine.Scripted
import ScriptProbe.Proofs.Engine.Executable
import ScriptProbe.Proofs.Fixture.Ahead

/-! Requests that cannot be read. Programs and scripted engines answer them alike, and before they
do anything else. -/
namespace ScriptProbe.Engine

open ScriptProbe.Json

variable {w : World} {e : Engine} {f : Fixture} {r : Request} {defect : Parameters.Defect}

/-- The engines that read a request as parameters. -/
inductive Reads : Engine → Prop
  | program (w : World) (path : Path) : Reads (Executable.engine w path)
  | scripted (s : Scripted) : Reads s.engine

/-- What is told of a defect: no cycles, and its words for the error. -/
def told (defect : Parameters.Defect) : Json :=
  .obj [("cycle", .null), ("error", .str defect.message)]

theorem parse_told (defect : Parameters.Defect) :
    Json.parse (told defect).toText = .ok (told defect) :=
  Answer.parse_toText (Answer.ofOutcome (.error defect.message))

/-! ### Each engine -/

theorem program_of_defect (h : Parameters.read r = .error defect) (path : Path) (f : Fixture)
    (streamed : Bool) :
    (Executable.engine w path).call streamed (f.invocation r) =
      ⟨[], .ok (told defect).toText, []⟩ := by
  simp only [Executable.engine, Executable.call, Fixture.invocation, h]
  rfl

/-- A scripted engine looks at the fixture first, and finds nothing wrong with it if it is JSON. -/
theorem select_of_defect (hdocument : Json.parse f.toText = .ok f.document)
    (h : Parameters.read r = .error defect) (s : Scripted) :
    s.select (f.invocation r) = .error defect.message := by
  simp only [Scripted.select, Fixture.invocation, hdocument, h, Except.mapError, bind, Except.bind]

theorem scripted_of_defect (hdocument : Json.parse f.toText = .ok f.document)
    (h : Parameters.read r = .error defect) (s : Scripted) (streamed : Bool) :
    s.engine.call streamed (f.invocation r) = ⟨[], .ok (told defect).toText, []⟩ := by
  exact Scripted.reply_of_refused (select_of_defect hdocument h s) streamed

/-! ### All of them -/

theorem call_of_defect (he : Reads e) (hdocument : Json.parse f.toText = .ok f.document)
    (h : Parameters.read r = .error defect) (streamed : Bool) :
    e.call streamed (f.invocation r) = ⟨[], .ok (told defect).toText, []⟩ := by
  cases he with
  | program w path => exact program_of_defect h path f streamed
  | scripted s => exact scripted_of_defect hdocument h s streamed

theorem invoke_of_told {streamed : Bool}
    (h : e.call streamed (f.invocation r) = ⟨[], .ok (told defect).toText, []⟩) :
    e.invoke f r streamed = ⟨.error (.invocation (.reported defect.message)), [], []⟩ := by
  have hreport : Report.ofAnswer (told defect).toText [] =
      .error (.invocation (.reported defect.message)) :=
    Executable.ofAnswer_error defect.message []
  rw [e.invoke_of_mute f r (by rw [h])]
  simp only [Engine.heard, Reply.invoked, h, bind, Except.bind, hreport]

/-- A request that cannot be read is answered with the words for its defect and nothing else, by
either engine and at either entry point. Nothing is printed or started, and the call is a failure in
those words. The fixture is never what is complained of, since its text is read again. -/
theorem answers_defect (he : Reads e) (hf : f.Obtained) (hwhole : Whole f.document)
    (h : Parameters.read r = .error defect) (streamed : Bool) :
    e.call streamed (f.invocation r) = ⟨[], .ok (told defect).toText, []⟩ ∧
    Json.parse (told defect).toText = .ok (told defect) ∧
    e.invoke f r streamed = ⟨.error (.invocation (.reported defect.message)), [], []⟩ ∧
    Json.parse f.toText = .ok f.document := by
  have hdocument := hf.parse_toText hwhole
  have hcall := call_of_defect he hdocument h streamed
  exact ⟨hcall, parse_told defect, invoke_of_told hcall, hdocument⟩

/-- A hash that is too short. -/
theorem answers_defect_short :
    let r : Request := ⟨"lock", "0x12", "1"⟩
    let answer := "\x7b\"cycle\":null,\"error\":\"Invalid script hash format!\"\x7d"
    (Executable.engine Executable.countingWorld (.ofText "engine")).call false
      (Fixture.ordered.invocation r) =
        ⟨[], .ok answer, []⟩ ∧
      Scripted.empty.engine.call true (Fixture.ordered.invocation r) = ⟨[], .ok answer, []⟩ := by
  intro r answer
  have hread : Parameters.read r = .error .malformedHash := by decide +kernel
  have htext : (told .malformedHash).toText = answer := by decide +kernel
  have hf := Fixture.Obtained.text Fixture.ofText_unordered
  have hprogram := answers_defect
    (.program Executable.countingWorld (.ofText "engine")) hf Fixture.whole_ordered hread
    false
  have hscripted := answers_defect (.scripted .empty) hf Fixture.whole_ordered hread true
  rw [htext] at hprogram hscripted
  exact ⟨hprogram.1, hscripted.1⟩

end ScriptProbe.Engine
