import ScriptProbe.Engine.Basic
import ScriptProbe.Engine.Transcript

/-!
Engines that run as programs. The fixture goes in as input, the parameters as arguments, and the
answer is made up from the output and from how the program ended.
-/

namespace ScriptProbe.Executable

open ScriptProbe.Text

def arguments (p : Parameters) : List String :=
  ["--mode", "fast", "--tx-file", "-", "--script-group-type", p.group.name, "--script-hash",
    p.hash.text, "--max-cycles", Decimal.word p.maxCycles]

def errorLead : List Char := "Error: ".toList

/-- What a program says of its failure: its error output between blanks, without one leading
`Error: `. -/
def complaint (stderr : List UInt8) : List Char :=
  let said := trim (Utf8.lossy stderr)
  (after? errorLead said).getD said

/-- The outcome of a script: its cycles, or the text of a failure. -/
def outcome (exit : Exit) (cycles : Option UInt64) : Except String UInt64 :=
  if exit.status.isSuccess then
    match cycles with
    | some n => .ok n
    | none => .error "debugger did not report consumed cycles"
  else
    match complaint exit.stderr with
    | [] => .error ("debugger exited with " ++ exit.status.text)
    | said => .error (String.ofList said)

/-- The fault of a program that does not start. -/
def startFault (program : Path) : Refusal → Fault
  | .notFound => .module (.programNotFound program)
  | refusal => .invocation (.cannotStart program refusal)

/-- Parameters that cannot be read are answered without starting the program. -/
def call (w : World) (program : Path) (streamed : Bool) (i : Invocation) : Reply :=
  match Parameters.read i.request with
  | .error defect => ⟨[], .ok (Answer.ofOutcome (.error defect.message)).toText, []⟩
  | .ok p =>
    match w.start program with
    | .error refusal => ⟨[], .error (startFault program refusal), []⟩
    | .ok running =>
      let exit := running.run (arguments p) i.fixture
      let reading := Transcript.read exit.stdout
      { printed := if streamed then reading.messages.map (⟨p.hash.text, ·⟩) else []
        answer := .ok (Answer.ofOutcome (outcome exit reading.cycles)).toText
        launches := [⟨running.file, arguments p, i.fixture⟩] }

def engine (w : World) (program : Path) : Engine := ⟨"process:" ++ program.text, call w program⟩

variable {w : World} {program : Path} {running : Program} {r : Request} {p : Parameters}

/-- A call for which a program starts. -/
theorem call_ran (hstart : w.start program = .ok running) (h : Parameters.read r = .ok p)
    (streamed : Bool) (fixture : String) :
    call w program streamed ⟨fixture, r⟩ =
      let exit := running.run (arguments p) fixture
      let reading := Transcript.read exit.stdout
      ⟨if streamed then reading.messages.map (⟨p.hash.text, ·⟩) else [],
        .ok (Answer.ofOutcome (outcome exit reading.cycles)).toText,
        [⟨running.file, arguments p, fixture⟩]⟩ := by
  simp only [call, h, hstart]

/-- Without a printer nothing is printed. -/
theorem printed_unstreamed (w : World) (program : Path) (i : Invocation) :
    (call w program false i).printed = [] := by
  cases hread : Parameters.read i.request with
  | error defect => simp only [call, hread]
  | ok p => cases hstart : w.start program <;> simp [call, hread, hstart]

theorem invoke_eq_heard (f : Fixture) (r : Request) (streamed : Bool) :
    (engine w program).invoke f r streamed = (engine w program).heard f r streamed :=
  Engine.invoke_eq_heard _ f r (printed_unstreamed w program _) streamed

end ScriptProbe.Executable
