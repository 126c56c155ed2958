import ScriptProbe.Command.Basic
import ScriptProbe.Command.Completion
import ScriptProbe.Command.Report
import ScriptProbe.Config.Basic
import ScriptProbe.Engine.Resolve
import ScriptProbe.Fixture.Check
import ScriptProbe.Fixture.Locate

/-!
Commands carried out in a world. An outcome holds what can be seen of a command: its two outputs,
the programs it started, the file it wrote, and the fault it ended with, if any. Of the log it holds
what the check before a run leaves there; what else is logged, by a command or below it, is left
out.
-/

namespace ScriptProbe

/-- What goes to the error output before the line of a fault. -/
inductive Said where
  | entry (e : Log.Entry)
  | remark (text : String)
  deriving DecidableEq, Repr

/-- The text of a remark. -/
def Said.remark? : Said → Option String
  | entry _ => none
  | remark text => some text

def Said.entry? : Said → Option Log.Entry
  | entry e => some e
  | remark _ => none

structure Outcome where
  stdout : String
  stderr : List Said
  launches : List Launch
  written : Option (Path × String)
  fault : Option Fault

namespace Outcome

def silent : Outcome := ⟨"", [], [], none, none⟩

def failed (fault : Fault) : Outcome := { silent with fault := some fault }

def line (text : String) : Outcome := { silent with stdout := text ++ "\n" }

/-- The outcome of something before which this is said. -/
def after (said : List Said) (o : Outcome) : Outcome := { o with stderr := said ++ o.stderr }

/-- The error output apart from the log, without the line of a fault. -/
def remarks (o : Outcome) : String := String.join (o.stderr.filterMap Said.remark?)

/-- The entries of the log, in order, kept or not. -/
def entries (o : Outcome) : List Log.Entry := o.stderr.filterMap Said.entry?

def ofExcept : Except Fault Outcome → Outcome
  | .ok o => o
  | .error fault => failed fault

end Outcome

namespace Session

/-- What is wrong with a fixture that is about to be run. -/
def checkFixture (f : Fixture) : Except Fault Unit := do
  let tx ← f.transaction.mapError .fixture
  tx.check.mapError .check

def locateHash (f : Fixture) (group : ScriptGroup) (side : CellSide) (index : Nat) :
    Except Fault Digest := do
  let tx ← f.transaction.mapError .fixture
  (tx.scriptHash group side index).mapError .locate

/-- A remark on its own line, unless the command is to be quiet. -/
def remark (v : Verbosity) (text : String) : List Said :=
  if v.isQuiet then [] else [.remark (text ++ "\n")]

/-- What a check that fails leaves in the log. -/
def checkEntry (fault : Fault) : Log.Entry :=
  ⟨.debug, "ckb_debug_invoker::cli::commands", "Pre-check failed: " ++ fault.message⟩

/-- A check of the fixture before the run never stops it; it leaves an entry in the log, and a
remark. -/
def advice (v : Verbosity) (c : Config) (o : RunOptions) (f : Fixture) : List Said :=
  if c.checksFirst && !o.skipCheck then
    match checkFixture f with
    | .ok () => []
    | .error fault => .entry (checkEntry fault) :: remark v fault.message
  else []

def assumedIndex : String := "The cell_index is not specified. Assume --cell-index = 0"

/-- The hash of the script to run, with a remark. A lock script is looked for in the first input
unless something else is said; a type script needs both side and index. -/
def scriptHash (v : Verbosity) (o : RunOptions) (f : Fixture) : List Said × Except Fault String :=
  match o.hash with
  | some text => ([], .ok text)
  | none =>
    match o.group, o.side, o.index with
    | group, some side, some index => ([], (locateHash f group side index).map Digest.text)
    | .lock, side, some index =>
      ([], (locateHash f .lock (side.getD .input) index).map Digest.text)
    | .lock, side, none =>
      (remark v assumedIndex, (locateHash f .lock (side.getD .input) 0).map Digest.text)
    | .type, _, _ => ([], .error (.locate .noLocator))

def cycleLimit (c : Config) (o : RunOptions) : String :=
  o.cycleLimit.getD (Text.Decimal.word c.cycleBudget)

/-- What a run shows of a call that has been made. -/
def present (format : Format) (streamed : Bool) (i : Invoked) : Outcome :=
  let shown := match format with
    | .json => (Report.invokedView i).toPrettyText ++ "\n"
    | .text =>
      let logs := if streamed then
        String.join (i.printed.map fun m => Report.logLine m.text ++ "\n") else ""
      match i.report with
      | .ok r => logs ++ Report.cyclesLine r.answer.cycle ++ "\n"
      | .error _ => logs
  let fault := match i.report with
    | .ok _ => none
    | .error fault => some fault
  ⟨shown, [], i.launches, none, fault⟩

/-- From the loaded fixture and the hash on. -/
def call (w : World) (c : Config) (o : RunOptions) (f : Fixture) (hash : String) : Outcome :=
  Outcome.ofExcept do
    let ref ← (c.moduleRef o.engine).mapError .module
    let engine ← (ref.resolve w).mapError .module
    .ok (present o.format o.streamed
      (engine.invoke f ⟨o.group.name, hash, cycleLimit c o⟩ o.streamed))

/-- From the settings and the loaded fixture on. -/
def runLoaded (w : World) (v : Verbosity) (c : Config) (o : RunOptions) (f : Fixture) : Outcome :=
  let (hint, hash) := scriptHash v o f
  Outcome.after (advice v c o f) <| Outcome.after hint <|
    match hash with
    | .ok hash => call w c o f hash
    | .error fault => .failed fault

def run (w : World) (v : Verbosity) (config : Option Path) (o : RunOptions) : Outcome :=
  Outcome.ofExcept do
    let c ← (Config.discover w config).mapError .config
    let f ← Fixture.load w o.fixture
    .ok (runLoaded w v c o f)

def check (w : World) (path : Path) : Outcome :=
  Outcome.ofExcept do
    let f ← Fixture.load w path
    checkFixture f
    .ok (.line ("OK " ++ path.text))

def printHash (w : World) (path : Path) (group : ScriptGroup) (side : CellSide) (index : Nat) :
    Outcome :=
  Outcome.ofExcept do
    let f ← Fixture.load w path
    let hash ← locateHash f group side index
    .ok (.line hash.text)

/-- An expanded template, laid out anew where it is JSON. -/
def expanded (w : World) (path : Path) : Except Fault String := do
  let text ← Fixture.readFile w path
  let text ← ((Template.ofText path text).expand w).mapError .fixture
  match Json.parse text with
  | .ok v => .ok v.toPrettyText
  | .error _ => .ok text

def expand (w : World) (path : Path) (output : Option Path) : Outcome :=
  Outcome.ofExcept do
    let text ← expanded w path
    match output with
    | none => .ok (.line text)
    | some target =>
      match w.unwritable target with
      | some refusal => .error (.file (.cannotWrite target refusal))
      | none => .ok { Outcome.silent with written := some (target, text ++ "\n") }

/-- Carries out a command. -/
def perform (w : World) (a : Arguments) : Outcome :=
  match a.command with
  | .run options => run w a.verbosity a.config options
  | .check path => check w path
  | .scriptHash path group side index => printHash w path group side index
  | .expand path output => expand w path output
  | .completions shell => { Outcome.silent with stdout := Completion.script shell }

/-- The exit code of an outcome. -/
def code (o : Outcome) : Nat := if o.fault.isSome then 1 else 0

/-- The entries of the log that reach the error output. What the environment asks for goes before
how much the command is to say. -/
def kept (w : World) (v : Verbosity) : Log.Filter := w.logFilter.getD (Log.upTo v.level)

/-- The line with which a failed command ends. -/
def faultLine (o : Outcome) : String :=
  match o.fault with
  | some fault => "Error: " ++ fault.message ++ "\n"
  | none => ""

end Session

end ScriptProbe
