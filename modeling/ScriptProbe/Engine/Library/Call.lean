import ScriptProbe.Engine.Basic

/-!
Engines that are libraries. A call is a row of events: the library is entered, messages reach the
printer, a text comes back and is released. A printer may break down over a message; it then gets no
more of them, and its breakdown is raised after the text has been released.
-/

namespace ScriptProbe

namespace Library

def runSymbol : String := "ckb_debugger_run_json"
def runWithPrinterSymbol : String := "ckb_debugger_run_json_with_printer"
def releaseSymbol : String := "ckb_debugger_free_string"

/-- The symbols that a library must export, in the order in which they are asked for. -/
def symbols : List String := [runSymbol, runWithPrinterSymbol, releaseSymbol]

def openAt (w : World) (path : Path) : Except ModuleFault Library :=
  match w.library path with
  | .error reason => .error (.cannotOpen path reason)
  | .ok l =>
    match symbols.find? fun s => !l.exports s with
    | some symbol => .error (.missingSymbol path symbol)
    | none => .ok l

/-- A text as bytes; those with a NUL in them cannot cross the boundary. -/
def foreign (part text : String) : Except InvocationFault (List UInt8) :=
  let bytes := Text.Utf8.encode text.toList
  if bytes.contains 0 then .error (.interiorNul part) else .ok bytes

def foreignCall (i : Invocation) : Except InvocationFault ForeignCall := do
  let fixture ← foreign "fixture" i.fixture
  let group ← foreign "script group type" i.request.group
  let hash ← foreign "script hash" i.request.hash
  let limit ← foreign "cycle limit" i.request.cycleLimit
  .ok ⟨fixture, group, hash, limit⟩

/-- A text that comes over the boundary; none counts as empty. -/
def received (t : ForeignText) : String := String.ofList (Text.Utf8.lossy (t.getD []))

/-- Who gets the messages: from the messages so far, the latest first, whether it breaks down over
the latest one, and with which words. -/
abbrev Printer := List Message → Option String

def quietPrinter : Printer := fun _ => none

inductive Event where
  | entered
  | printed (m : Message)
  | brokeDown (words : String)
  /-- A text came back, or none did. -/
  | returned (some : Bool)
  | released
  | raised (words : String)
  deriving DecidableEq, Repr

/-- The messages that reach a printer, after those in `seen` (last first), and its breakdown. -/
def deliver (printer : Printer) : List Message → List Print → List Message × Option String
  | seen, [] => (seen.reverse, none)
  | seen, p :: rest =>
    if !p.withContext then deliver printer seen rest
    else
      let seen := ⟨received p.hash, received p.message⟩ :: seen
      match printer seen with
      | some words => (seen.reverse, some words)
      | none => deliver printer seen rest

/-- How a call ends for its caller. -/
inductive Ending where
  | raised (words : String)
  | answered (answer : Except InvocationFault String)

/-- A call: its events, the messages that reached the printer, its ending, and how many texts the
library has got back by then. -/
structure Trace where
  events : List Event
  printed : List Message
  ending : Ending
  freed : Nat

/-- Texts that were handed back to the library. -/
def Trace.released (t : Trace) : Nat := t.events.count .released

def Trace.entered (t : Trace) : Bool := t.events.contains .entered

/-- A text that came back is copied, and then released. Where none came there is none to release. -/
def takeText (l : Library) (path : Path) (freed : Nat) :
    ForeignText → List Event × Except InvocationFault String × Nat
  | none => ([.returned false], .error (.noResult path), freed)
  | some bytes =>
    ([.returned true, .released], .ok (received (some bytes)), l.release (some bytes) freed)

/-- What follows when a library has done its part. -/
def conclude (l : Library) (path : Path) (printer : Printer) (p : Performance) (freed : Nat) :
    Trace :=
  let (messages, breakdown) := deliver printer [] p.prints
  let before := .entered :: messages.map .printed ++ (breakdown.map Event.brokeDown).toList
  let (back, answer, freed) := takeText l path freed p.result
  match breakdown with
  | some words => ⟨before ++ back ++ [.raised words], messages, .raised words, freed⟩
  | none => ⟨before ++ back, messages, .answered answer, freed⟩

/-- A call with a printer, or without one, of a library that has got back `freed` texts so far. -/
def trace (l : Library) (path : Path) (printer : Option Printer) (i : Invocation) (freed : Nat) :
    Trace :=
  match foreignCall i with
  | .error fault => ⟨[], [], .answered (.error fault), freed⟩
  | .ok call =>
    match printer with
    | some printer => conclude l path printer (l.runWithPrinter call) freed
    | none => conclude l path quietPrinter { l.run call with prints := [] } freed

def describe (path : Path) : String := "library:" ++ path.text

def engine (l : Library) (path : Path) : Engine where
  describe := describe path
  call streamed i :=
    let t := l.trace path (if streamed then some quietPrinter else none) i 0
    let answer := match t.ending with
      | .raised words => .error (.other words)
      | .answered answer => answer.mapError .invocation
    ⟨t.printed, answer, []⟩

end Library

end ScriptProbe
