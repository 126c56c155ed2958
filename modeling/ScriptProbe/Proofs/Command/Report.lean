import ScriptProbe.Proofs.Command.Run
import ScriptProbe.Proofs.Engine.Answer
import ScriptProbe.Proofs.Engine.Library
import ScriptProbe.Proofs.Fixture.Ahead
import ScriptProbe.Proofs.Json.Order
import ScriptProbe.Proofs.Text.Utf8

/-! What a run prints as JSON: one object, for every way in which the engine may answer or fail. -/
namespace ScriptProbe.Report

open ScriptProbe.Json Answer

variable {w : World} {v : Verbosity} {config : Option Path} {o : RunOptions} {e : Engine}
  {cycle : Option UInt64} {error : Option String} {messages : List Message}

/-! ### The object is read back -/

/-- The object of a run as it is read back, with its members and those of every message in order. -/
def readBack (cycle : Option UInt64) (error : Option String) (messages : List Message) : Json :=
  .obj [("cycle", cycleView cycle), ("error", errorView error),
    ("messages",
      .arr (messages.map fun m => .obj [("message", .str m.text), ("script_hash", .str m.hash)]))]

theorem whole_messageView (m : Message) : Whole (messageView m) := by
  refine .obj fun member hmember => ?_
  simp only [List.mem_cons, List.not_mem_nil, or_false] at hmember
  rcases hmember with rfl | rfl
  · exact .str m.hash
  · exact .str m.text

theorem nests_messageView (m : Message) (depth : Nat) : Nests (depth + 1) (messageView m) := by
  refine .obj fun member hmember => ?_
  simp only [List.mem_cons, List.not_mem_nil, or_false] at hmember
  rcases hmember with rfl | rfl
  · exact .str m.hash
  · exact .str m.text

theorem whole_view (cycle : Option UInt64) (error : Option String) (messages : List Message) :
    Whole (view cycle error messages) := by
  refine .obj fun m hm => ?_
  rcases List.mem_append.1 hm with hm | hm
  · cases Answer.whole_view ⟨cycle, error⟩ with
    | obj h => exact h m hm
  · obtain rfl := List.mem_singleton.1 hm
    exact .arr (List.forall_mem_map.2 fun m _ => whole_messageView m)

theorem nests_view (cycle : Option UInt64) (error : Option String) (messages : List Message)
    (depth : Nat) :
    Nests (depth + 3) (view cycle error messages) := by
  refine .obj fun m hm => ?_
  rcases List.mem_append.1 hm with hm | hm
  · cases Answer.nests_view ⟨cycle, error⟩ (depth + 2) with
    | obj h => exact h m hm
  · obtain rfl := List.mem_singleton.1 hm
    exact .arr (List.forall_mem_map.2 fun m _ => nests_messageView m depth)

theorem canonical_messageView (m : Message) :
    canonical (messageView m) = .obj [("message", .str m.text), ("script_hash", .str m.hash)] := by
  have horder : "message" < "script_hash" := by decide
  simp [messageView, canonical, canonicalMembers, Json.ofMembers, Json.insert, horder]

theorem canonical_view (cycle : Option UInt64) (error : Option String) (messages : List Message) :
    canonical (view cycle error messages) = readBack cycle error messages := by
  have hmessages : canonicalItems (messages.map messageView) =
      messages.map fun m => .obj [("message", .str m.text), ("script_hash", .str m.hash)] := by
    rw [canonicalItems_eq, List.map_map]
    exact List.map_congr_left fun m _ => canonical_messageView m
  have herror : ¬"error" < "cycle" := by decide
  have hcycle : ¬"messages" < "cycle" := by decide
  have hlast : ¬"messages" < "error" := by decide
  simp [view, Answer.members, canonical, canonicalMembers, Json.ofMembers, Json.insert,
    readBack, hmessages, herror, hcycle, hlast]

theorem parse_view (cycle : Option UInt64) (error : Option String) (messages : List Message) :
    Json.parse (view cycle error messages).toPrettyText = .ok (readBack cycle error messages) := by
  rw [Json.parse_toPrettyText (whole_view _ _ _) (nests_view _ _ _ 124), canonical_view]

/-! ### The schema of reports -/

def isCount : Json → Bool
  | .int _ => true
  | _ => false

def isText : Json → Bool
  | .str _ => true
  | _ => false

def isNull : Json → Bool
  | .null => true
  | _ => false

/-- A member of the given key, if there is one, is of the given kind. -/
def property (key : String) (kind : Json → Bool) : Json → Bool
  | .obj entries => (find? key entries).all kind
  | _ => true

/-- The shape of a success: a count and no error. -/
def counts (v : Json) : Bool := property "cycle" isCount v && property "error" isNull v

/-- The shape of a failure: an error and no count. -/
def fails (v : Json) : Bool := property "cycle" isNull v && property "error" isText v

/-- What the schema asks of a report: one of the two shapes fits, and the other does not. -/
def oneOf (v : Json) : Bool := counts v ^^ fails v

theorem property_cycle (kind : Json → Bool) :
    property "cycle" kind (readBack cycle error messages) = kind (cycleView cycle) := rfl

theorem property_error (kind : Json → Bool) :
    property "error" kind (readBack cycle error messages) = kind (errorView error) := by
  simp [property, readBack, find?]

/-- A report has one of the two shapes if it tells of either cycles or an error. -/
theorem oneOf_readBack (cycle : Option UInt64) (error : Option String) (messages : List Message) :
    oneOf (readBack cycle error messages) = (cycle.isSome ^^ error.isSome) := by
  simp only [oneOf, counts, fails, property_cycle, property_error]
  cases cycle <;> cases error <;> rfl

/-! ### What a call comes to -/

/-- What is told of an engine's answer: its cycles, or the words of a fault. Of a failed call these
are the engine's own words, of any other fault its whole message. -/
inductive Concluded : Except Fault String → Option UInt64 → Option String → Prop
  | counted {raw : String} {answered : Json} {cycle : Option UInt64}
    (h : Answer.read raw = .ok (answered, ⟨cycle, none⟩)) : Concluded (.ok raw) cycle none
  | complained {raw text : String} {answered : Json} {cycle : Option UInt64}
    (h : Answer.read raw = .ok (answered, ⟨cycle, some text⟩)) :
    Concluded (.ok raw) none (some text)
  | garbled {raw : String} {defect : Answer.Defect} (h : Answer.read raw = .error defect) :
    Concluded (.ok raw) none (some ("Malformed debugger result: " ++ defect.message))
  | uncalled (cause : InvocationFault) :
    Concluded (.error (.invocation cause)) none (some cause.message)
  | failed {fault : Fault} (h : ∀ cause, fault ≠ .invocation cause) :
    Concluded (.error fault) none (some fault.message)

theorem reportText_of_ne {fault : Fault} (h : ∀ cause, fault ≠ .invocation cause) :
    fault.reportText = fault.message := by
  cases fault with
  | invocation cause => exact absurd rfl (h cause)
  | _ => rfl

theorem concluded_error (fault : Fault) :
    Concluded (.error fault) none (some fault.reportText) := by
  by_cases h : ∃ cause, fault = .invocation cause
  · obtain ⟨cause, rfl⟩ := h
    exact .uncalled cause
  · have hne : ∀ cause, fault ≠ .invocation cause := fun cause hcause => h ⟨cause, hcause⟩
    exact reportText_of_ne hne ▸ .failed hne

theorem Concluded.of_defect {raw : String} {defect : Answer.Defect}
    (h : Concluded (.ok raw) cycle error) (hread : Answer.read raw = .error defect) :
    cycle = none ∧ error = some ("Malformed debugger result: " ++ defect.message) := by
  cases h with
  | counted h => cases hread.symm.trans h
  | complained h => cases hread.symm.trans h
  | garbled h =>
    obtain rfl := Except.error.inj (hread.symm.trans h)
    exact ⟨rfl, rfl⟩

/-- Where the engine reports no error, neither does the run, and the cycles are the engine's. -/
theorem Concluded.of_success {raw : String} {answered : Json} {counted : Option UInt64}
    (h : Concluded (.ok raw) cycle error)
    (hread : Answer.read raw = .ok (answered, ⟨counted, none⟩)) :
    cycle = counted ∧ error = none := by
  cases h with
  | counted h =>
    obtain ⟨-, hanswer⟩ := Prod.mk.inj (Except.ok.inj (hread.symm.trans h))
    exact ⟨(congrArg Answer.cycle hanswer).symm, rfl⟩
  | complained h => cases (Prod.mk.inj (Except.ok.inj (hread.symm.trans h))).2
  | garbled h => cases hread.symm.trans h

/-- What is told of a call goes by the engine's answer alone, and no error is told only of a call
that gave a report. -/
theorem concluded_invoked (reply : Reply) (messages : List Message) :
    ∃ cycle error, Concluded reply.answer cycle error ∧
      invokedView (reply.invoked messages) = view cycle error messages ∧
      (error = none ↔ ∃ report, (reply.invoked messages).report = .ok report) := by
  rw [Reply.invoked]
  cases reply.answer with
  | error fault =>
    refine ⟨none, some fault.reportText, concluded_error fault, rfl, ?_⟩
    simp [bind, Except.bind]
  | ok raw =>
    have hreport : (Except.ok raw >>= fun raw => Report.ofAnswer raw messages) =
      Report.ofAnswer raw messages := rfl
    simp only [hreport, invokedView]
    rw [Report.ofAnswer]
    cases hread : Answer.read raw with
    | error defect => exact ⟨none, _, .garbled hread, rfl, by simp⟩
    | ok found =>
      obtain ⟨answered, cycle, _ | text⟩ := found
      · exact ⟨cycle, none, .counted hread, rfl, by simp⟩
      · exact ⟨none, some text, .complained hread, rfl, by simp⟩

/-! ### Runs -/

/-- A run whose settings, fixture, script hash and engine are all found. -/
structure Resolved (w : World) (v : Verbosity) (config : Option Path) (o : RunOptions) where
  settings : Config
  fixture : Fixture
  hash : String
  ref : ModuleRef
  engine : Engine
  discovered : Config.discover w config = .ok settings
  loaded : Fixture.load w o.fixture = .ok fixture
  located : (Session.scriptHash v o fixture).2 = .ok hash
  named : settings.moduleRef o.engine = .ok ref
  opened : ref.resolve w = .ok engine

namespace Resolved

variable (r : Resolved w v config o)

def request : Request := ⟨o.group.name, r.hash, Session.cycleLimit r.settings o⟩

/-- What the engine does when it is called. -/
def reply : Reply := r.engine.call o.streamed (r.fixture.invocation r.request)

/-- The messages that the engine delivers to the printer of the run, if there is one. -/
def delivered : List Message := if o.streamed then r.reply.printed else []

theorem run_eq :
    ∃ remark, Session.run w v config o =
      Outcome.after remark (Session.present o.format o.streamed
        (r.engine.invoke r.fixture r.request o.streamed)) :=
  ⟨_, Session.run_of_resolved r.discovered r.loaded r.located r.named r.opened⟩

end Resolved

theorem code_eq_zero {out : Outcome} : Session.code out = 0 ↔ out.fault = none := by
  rw [Session.code]
  cases out.fault <;> simp

/-- What a run that is to answer in JSON prints, and how it ends. -/
theorem Resolved.conclusion (r : Resolved w v config o) (hformat : o.format = .json) :
    ∃ cycle error, Concluded r.reply.answer cycle error ∧
      (Session.run w v config o).stdout = (view cycle error r.delivered).toPrettyText ++ "\n" ∧
      (error = none ↔ Session.code (Session.run w v config o) = 0) := by
  obtain ⟨cycle, error, hconcluded, hview, herror⟩ :=
    concluded_invoked r.reply r.delivered
  obtain ⟨remark, hrun⟩ := r.run_eq
  have hinvoke : r.engine.invoke r.fixture r.request o.streamed = r.reply.invoked r.delivered :=
    r.engine.invoke_eq r.fixture r.request o.streamed
  rw [hrun, hformat, hinvoke]
  refine ⟨cycle, error, hconcluded, ?_, ?_⟩
  · simp only [Outcome.after, Session.present, hview]
  · rw [herror, code_eq_zero]
    simp only [Outcome.after, Session.present]
    split
    · next report hreport => exact iff_of_true ⟨report, hreport⟩ rfl
    · next fault hfault => simp [hfault]

/-! ### A library that says the same at every call -/

/-- Prints one message and answers with the given text. -/
def fixedLibrary (answer : String) : Library where
  release := Library.countReleased
  exports _ := true
  run _ := ⟨[], some (Text.Utf8.encode answer.toList)⟩
  runWithPrinter _ :=
    ⟨[⟨true, some (Text.Utf8.encode "0x00".toList), some (Text.Utf8.encode "ready".toList)⟩],
      some (Text.Utf8.encode answer.toList)⟩

/-- A world with that library, and an empty object in every file. -/
def fixedWorld (answer : String) : World where
  environment _ := none
  read _ := .ok (Text.Utf8.encode "\x7b\x7d".toList)
  isFile _ := true
  unwritable _ := none
  start _ := .error .notFound
  library _ := .ok (fixedLibrary answer)

def fixedOptions : RunOptions where
  fixture := .ofText "tx.json"
  group := .lock
  hash := some "0x00"
  side := none
  index := none
  cycleLimit := some "10"
  engine := some "library:engine.so"
  streamed := true
  format := .json
  skipCheck := true

def fixedRun (answer : String) : Resolved (fixedWorld answer) .normal none fixedOptions where
  settings := .empty
  fixture := ⟨some (.ofText "tx.json"), .obj []⟩
  hash := "0x00"
  ref := .library (.ofText "engine.so")
  engine := (fixedLibrary answer).engine (.ofText "engine.so")
  discovered := rfl
  loaded := by
    have hread : Fixture.readFile (fixedWorld answer) (.ofText "tx.json") = .ok "\x7b\x7d" :=
      Fixture.readFile_encode rfl
    exact Fixture.load_unmarked hread (by decide) (by rfl)
  located := rfl
  named := by decide
  opened := rfl

/-- The call that such a run makes. -/
def fixedCall : Library.Call := ⟨some Library.quietPrinter, ⟨"\x7b\x7d", ⟨"lock", "0x00", "10"⟩⟩⟩

theorem fixedCall_trace (answer : String) :
    (fixedLibrary answer).trace (.ofText "engine.so") (some Library.quietPrinter)
        fixedCall.invocation 0 =
      ⟨[.entered, .printed ⟨"0x00", "ready"⟩, .returned true, .released], [⟨"0x00", "ready"⟩],
        .answered (.ok answer), 1⟩ := by
  have hfree : ¬fixedCall.HoldsNul := by decide
  refine (Library.trace_of_free (fixedLibrary answer) (.ofText "engine.so") hfree 0).trans ?_
  simp [fixedCall, Library.conclude, Library.takeText, Library.performance, fixedLibrary,
    Library.deliver, Library.Call.handler, Library.quietPrinter, Library.received,
    Library.countReleased, Text.Utf8.lossy_encode]

theorem fixedRun_reply (answer : String) :
    (fixedRun answer).reply = ⟨[⟨"0x00", "ready"⟩], .ok answer, []⟩ := by
  have hinvocation : (fixedRun answer).fixture.invocation (fixedRun answer).request =
      fixedCall.invocation := rfl
  have hengine : (fixedRun answer).engine = (fixedLibrary answer).engine (.ofText "engine.so") :=
    rfl
  have hstreamed : fixedOptions.streamed = true := rfl
  rw [Resolved.reply, hinvocation, hengine, hstreamed]
  simp only [Library.engine, if_true, fixedCall_trace]
  rfl

/-! ### Reports of runs -/

/-- A run prints one object and a line feed. Its members are the cycles, the error and the messages
that the engine delivered, also where the engine fails afterwards; the error is null exactly if the
run ends well. -/
theorem run_json (r : Resolved w v config o) (hformat : o.format = .json) :
    ∃ text cycle error,
      (Session.run w v config o).stdout = text ++ "\n" ∧
      Json.parse text = .ok (.obj [("cycle", cycleView cycle), ("error", errorView error),
        ("messages", .arr (r.delivered.map fun m =>
          .obj [("message", .str m.text), ("script_hash", .str m.hash)]))]) ∧
      Concluded r.reply.answer cycle error ∧
      (error = none ↔ Session.code (Session.run w v config o) = 0) := by
  obtain ⟨cycle, error, hconcluded, hstdout, herror⟩ := r.conclusion hformat
  exact ⟨_, cycle, error, hstdout, parse_view cycle error r.delivered, hconcluded, herror⟩

theorem run_json_garbled :
    ∃ text,
      (Session.run (fixedWorld "oops") .normal none fixedOptions).stdout = text ++ "\n" ∧
      Json.parse text = .ok (readBack none
        (some "Malformed debugger result: not valid JSON: expected value at line 1 column 1")
          [⟨"0x00", "ready"⟩]) ∧
      Session.code (Session.run (fixedWorld "oops") .normal none fixedOptions) = 1 := by
  obtain ⟨text, cycle, error, hstdout, hparse, hconcluded, hcode⟩ := run_json (fixedRun "oops") rfl
  have hread : (Answer.read "oops").mapError Answer.Defect.message =
      .error "not valid JSON: expected value at line 1 column 1" := by rfl
  cases hdefect : Answer.read "oops" with
  | ok found => simp [hdefect, Except.mapError] at hread
  | error defect =>
    rw [fixedRun_reply] at hconcluded
    obtain ⟨rfl, rfl⟩ := hconcluded.of_defect hdefect
    rw [hdefect] at hread
    refine ⟨text, hstdout, ?_, ?_⟩
    · have hdelivered : (fixedRun "oops").delivered = (fixedRun "oops").reply.printed := rfl
      rw [hparse, Except.error.inj hread, hdelivered, fixedRun_reply]
      rfl
    · rw [Session.code] at hcode ⊢
      split at hcode
      · rfl
      · simp at hcode

/-- A report has one of the two shapes unless the engine answers with neither cycles nor an
error. -/
theorem run_oneOf (r : Resolved w v config o) (hformat : o.format = .json) :
    ∃ text document,
      (Session.run w v config o).stdout = text ++ "\n" ∧ Json.parse text = .ok document ∧
      (oneOf document = true ↔
        ∀ raw answered, r.reply.answer = .ok raw →
          Answer.read raw ≠ .ok (answered, ⟨none, none⟩)) := by
  obtain ⟨cycle, error, hconcluded, hstdout, -⟩ := r.conclusion hformat
  refine ⟨_, _, hstdout, parse_view cycle error r.delivered, ?_⟩
  rw [oneOf_readBack]
  constructor
  · rintro hone raw answered hanswer hread
    rw [hanswer] at hconcluded
    obtain ⟨rfl, rfl⟩ := hconcluded.of_success hread
    cases hone
  · intro hcount
    cases hreply : r.reply.answer with
    | error fault =>
      rw [hreply] at hconcluded
      cases hconcluded <;> rfl
    | ok raw =>
      rw [hreply] at hconcluded
      cases hconcluded with
      | @counted _ answered cycle hread =>
        cases cycle with
        | none => exact absurd hread (hcount raw answered hreply)
        | some n => rfl
      | complained => rfl
      | garbled => rfl

theorem run_oneOf_counted :
    ∃ text document,
      (Session.run (fixedWorld (ofOutcome (.ok 7)).toText) .normal none fixedOptions).stdout =
        text ++ "\n" ∧
      Json.parse text = .ok document ∧ oneOf document = true := by
  obtain ⟨text, document, hstdout, hparse, hone⟩ :=
    run_oneOf (fixedRun (ofOutcome (.ok 7)).toText) rfl
  refine ⟨text, document, hstdout, hparse, hone.2 fun raw answered hanswer hnone => ?_⟩
  rw [fixedRun_reply] at hanswer
  obtain rfl := Except.ok.inj hanswer
  rw [read_toText] at hnone
  cases (Prod.mk.inj (Except.ok.inj hnone)).2

/-- An engine that answers with an empty object makes a report of neither shape. -/
theorem not_forall_oneOf :
    ¬∀ w v config o (_ : Resolved w v config o), o.format = .json →
      ∃ text document, (Session.run w v config o).stdout = text ++ "\n" ∧
        Json.parse text = .ok document ∧ oneOf document = true := by
  intro h
  obtain ⟨text, document, hstdout, hparse, hone⟩ := h _ _ _ _ (fixedRun "\x7b\x7d") rfl
  obtain ⟨cycle, error, hconcluded, hprinted, -⟩ := (fixedRun "\x7b\x7d").conclusion rfl
  have htext : text = (view cycle error (fixedRun "\x7b\x7d").delivered).toPrettyText := by
    have hlists := congrArg String.toList (hstdout.symm.trans hprinted)
    rw [String.toList_append, String.toList_append] at hlists
    exact String.toList_injective (List.append_cancel_right hlists)
  have hread : Answer.read "\x7b\x7d" = .ok (.obj [], ⟨none, none⟩) := by rfl
  rw [fixedRun_reply] at hconcluded
  obtain ⟨rfl, rfl⟩ := hconcluded.of_success hread
  rw [htext, parse_view] at hparse
  rw [← Except.ok.inj hparse, oneOf_readBack] at hone
  cases hone

end ScriptProbe.Report
