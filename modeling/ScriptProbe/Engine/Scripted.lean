import ScriptProbe.Engine.Basic

/-!
An engine whose scripts are registered beforehand, with their cycles, messages and failures. It
keeps a record of its calls.
-/

namespace ScriptProbe

/-- How one script behaves. -/
structure Performer where
  cycles : UInt64
  messages : List String
  error : Option String
  deriving DecidableEq, Repr

structure Scripted where
  performers : List (Digest × Performer)
  /-- Last first. -/
  calls : List Invocation

namespace Scripted

def empty : Scripted := ⟨[], []⟩

/-- A later registration takes the place of an earlier one of the same hash. -/
def register (s : Scripted) (hash : Digest) (p : Performer) : Scripted :=
  { s with performers := (hash, p) :: s.performers.filter (·.1 ≠ hash) }

/-- Registers under the text of a hash; a malformed one is complained of. -/
def registerText (s : Scripted) (hash : String) (p : Performer) : Except String Scripted :=
  match Parameters.readHash hash with
  | .ok d => .ok (s.register d p)
  | .error defect => .error ("mock script hash `" ++ hash ++ "`: " ++ defect.message)

def describe (s : Scripted) : String :=
  "mock engine (" ++ toString s.performers.length ++ " scripts)"

/-- The script that an invocation asks for, if its fixture is JSON, its parameters can be read and
its budget is large enough. -/
def select (s : Scripted) (i : Invocation) : Except String Performer := do
  match Json.parse i.fixture with
  | .error e => .error ("Invalid mock transaction: " ++ e.message)
  | .ok _ =>
    let p ← (Parameters.read i.request).mapError Parameters.Defect.message
    match s.performers.lookup p.hash with
    | none => .error ("Script group " ++ p.hash.text ++ " not found")
    | some performer =>
      if p.maxCycles < performer.cycles then
        .error ("ExceededMaximumCycles: expect cycles <= " ++ Text.Decimal.word p.maxCycles)
      else .ok performer

/-- An answer that tells an outcome, after these messages. -/
def told (printed : List Message) (outcome : Except String UInt64) : Reply :=
  ⟨printed, .ok (Answer.ofOutcome outcome).toText, []⟩

/-- A call without a printer. -/
def run (s : Scripted) (i : Invocation) : Reply :=
  told [] do
    let p ← s.select i
    match p.error with
    | some text => .error text
    | none => .ok p.cycles

/-- A call with a printer. A script prints its messages before it fails or ends. -/
def runWithPrinter (s : Scripted) (i : Invocation) : Reply :=
  match s.select i with
  | .error text => told [] (.error text)
  | .ok p =>
    let printed := p.messages.map (⟨i.request.hash, ·⟩)
    match p.error with
    | some text => told printed (.error text)
    | none => told printed (.ok p.cycles)

def reply (s : Scripted) (streamed : Bool) (i : Invocation) : Reply :=
  if streamed then s.runWithPrinter i else s.run i

def engine (s : Scripted) : Engine := ⟨s.describe, s.reply⟩

/-- A call, and the engine after it. -/
def call (s : Scripted) (streamed : Bool) (i : Invocation) : Reply × Scripted :=
  (s.reply streamed i, { s with calls := i :: s.calls })

/-! ### Both ways to call -/

variable {s : Scripted} {i : Invocation} {p : Performer}

/-- The outcome of a script that runs. -/
def outcomeOf (p : Performer) : Except String UInt64 :=
  match p.error with
  | some text => .error text
  | none => .ok p.cycles

/-- With a printer or without one, a script that runs comes to the same outcome. -/
theorem reply_of_selected (h : s.select i = .ok p) (streamed : Bool) :
    s.reply streamed i =
      told (if streamed then p.messages.map (⟨i.request.hash, ·⟩) else []) (outcomeOf p) := by
  cases streamed with
  | false =>
    simp only [reply, run, h]
    rfl
  | true =>
    simp only [reply, runWithPrinter, h, outcomeOf]
    cases p.error <;> rfl

theorem reply_of_refused {text : String} (h : s.select i = .error text) (streamed : Bool) :
    s.reply streamed i = told [] (.error text) := by
  cases streamed with
  | false =>
    simp only [reply, run, h]
    rfl
  | true => simp only [reply, runWithPrinter, h, if_true]

end Scripted

end ScriptProbe
