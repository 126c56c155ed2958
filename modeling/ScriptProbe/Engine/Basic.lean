import ScriptProbe.Engine.Request
import ScriptProbe.Fault
import ScriptProbe.Fixture.Basic

/-!
Engines and their calls. An engine takes an invocation and gives an answer text or a fault; on the
way it may print messages, which reach the caller only if the call is streamed, and start programs.
-/

namespace ScriptProbe

/-- A message of the script with the given hash. -/
structure Message where
  hash : String
  text : String
  deriving DecidableEq, Repr

/-- A program that was started, by the file that holds it. -/
structure Launch where
  file : String
  args : List String
  input : String
  deriving DecidableEq, Repr

structure Reply where
  printed : List Message
  answer : Except Fault String
  launches : List Launch

structure Engine where
  describe : String
  /-- The answer to a call, streamed or not. -/
  call : Bool → Invocation → Reply

/-- What a call came to. -/
structure Report where
  raw : String
  document : Json
  answer : Answer
  messages : List Message

/-- Reads an answer text. An error that the engine reports is a fault of the call. -/
def Report.ofAnswer (raw : String) (messages : List Message) : Except Fault Report :=
  match Answer.read raw with
  | .error defect => .error (.answer defect)
  | .ok (document, answer) =>
    match answer.error with
    | some text => .error (.invocation (.reported text))
    | none => .ok ⟨raw, document, answer, messages⟩

def Fixture.invocation (f : Fixture) (r : Request) : Invocation := ⟨f.toText, r⟩

/-- A report or a fault, with the messages that the caller was told of and the programs that were
started. -/
structure Invoked where
  report : Except Fault Report
  printed : List Message
  launches : List Launch

/-- What the messages of a call leave behind: those that the caller was told of, and those that are
kept for the report. -/
structure Heard where
  told : List Message
  kept : List Message

namespace Heard

def nothing : Heard := ⟨[], []⟩

/-- The caller is told of a message as it comes in, and then it is kept. -/
def take (h : Heard) (m : Message) : Heard := ⟨h.told ++ [m], h.kept ++ [m]⟩

theorem foldl_take (h : Heard) (messages : List Message) :
    messages.foldl take h = ⟨h.told ++ messages, h.kept ++ messages⟩ := by
  induction messages generalizing h with
  | nil => simp
  | cons m messages ih => simp [ih, take]

end Heard

/-- A call with a printer hears of messages; one without hears of none and keeps none. -/
def Engine.invoke (e : Engine) (f : Fixture) (r : Request) (streamed : Bool) : Invoked :=
  let reply := e.call streamed (f.invocation r)
  let heard := if streamed then reply.printed.foldl Heard.take .nothing else .nothing
  ⟨reply.answer >>= fun raw => Report.ofAnswer raw heard.kept, heard.told, reply.launches⟩

/-- What a reply comes to for a caller who has heard these messages. -/
def Reply.invoked (reply : Reply) (messages : List Message) : Invoked :=
  ⟨reply.answer >>= fun raw => Report.ofAnswer raw messages, messages, reply.launches⟩

namespace Engine

variable (e : Engine) (f : Fixture) (r : Request)

theorem invoke_eq (streamed : Bool) :
    e.invoke f r streamed =
      let reply := e.call streamed (f.invocation r)
      reply.invoked (if streamed then reply.printed else []) := by
  cases streamed <;> simp [invoke, Reply.invoked, Heard.foldl_take, Heard.nothing]

/-- What a call comes to if all that is printed is heard. -/
def heard (streamed : Bool) : Invoked :=
  let reply := e.call streamed (f.invocation r)
  reply.invoked reply.printed

theorem invoke_true : e.invoke f r true = e.heard f r true := e.invoke_eq f r true

theorem invoke_of_mute {streamed : Bool} (h : (e.call streamed (f.invocation r)).printed = []) :
    e.invoke f r streamed = e.heard f r streamed := by
  simp only [invoke_eq, heard, h, ite_self]

/-- An engine that prints only to a printer is heard in every call. -/
theorem invoke_eq_heard (h : (e.call false (f.invocation r)).printed = []) (streamed : Bool) :
    e.invoke f r streamed = e.heard f r streamed := by
  cases streamed with
  | true => exact e.invoke_true f r
  | false => exact e.invoke_of_mute f r h

end Engine

end ScriptProbe
