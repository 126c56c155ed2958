import ScriptProbe.Proofs.Engine.Defect
import ScriptProbe.Proofs.Engine.Handover

/-! What a call is reported as, and that the report is the same whether the messages are asked for
or not. -/
namespace ScriptProbe.Engine

open ScriptProbe.Json Library Echo

variable {e : Engine} {f : Fixture} {r : Request} {i : Invocation} {printer : Printer}

/-! ### Both entry points -/

/-- The engines at hand: programs, scripted ones and the echo library. -/
inductive Shipped : Engine → Prop
  | reads {e : Engine} (h : Reads e) : Shipped e
  | echo (path : Path) : Shipped (Echo.library.engine path)

/-- A call is answered alike streamed or not, starts the same programs, and prints only if it is
streamed. -/
structure Alike (e : Engine) (i : Invocation) : Prop where
  answer : (e.call true i).answer = (e.call false i).answer
  launches : (e.call true i).launches = (e.call false i).launches
  silent : (e.call false i).printed = []

theorem alike_program (w : World) (path : Path) (i : Invocation) :
    Alike (Executable.engine w path) i := by
  have hcall : ∀ streamed,
      (Executable.engine w path).call streamed i = Executable.call w path streamed i :=
    fun _ => rfl
  cases hread : Parameters.read i.request with
  | error defect => constructor <;> simp [hcall, Executable.call, hread]
  | ok q =>
    cases hstart : w.start path <;> constructor <;> simp [hcall, Executable.call, hread, hstart]

/-- The two decisions of a scripted engine agree in all but the messages. -/
theorem alike_scripted (s : Scripted) (i : Invocation) : Alike s.engine i := by
  have hcall : ∀ streamed, s.engine.call streamed i = s.reply streamed i := fun _ => rfl
  cases hselect : s.select i with
  | error text => constructor <;> simp [hcall, Scripted.reply_of_refused hselect, Scripted.told]
  | ok p => constructor <;> simp [hcall, Scripted.reply_of_selected hselect, Scripted.told]

theorem printed_unheard (l : Library) (path : Path) (i : Invocation) (freed : Nat) :
    (l.trace path none i freed).printed = [] := by
  cases h : foreignCall i with
  | error fault => simp only [Library.trace, h]
  | ok call =>
    simp only [Library.trace, h]
    rfl

theorem alike_echo (path : Path) (i : Invocation) : Alike (Echo.library.engine path) i := by
  refine ⟨?_, rfl, printed_unheard Echo.library path i 0⟩
  cases h : offender? (parts i) with
  | none =>
    rw [engine_answer h, engine_answer h]
    rfl
  | some part =>
    have htrace := trace_of_offender h Echo.library path
    simp only [Library.engine, htrace]

theorem Shipped.alike (h : Shipped e) (i : Invocation) : Alike e i := by
  cases h with
  | reads h =>
    cases h with
    | program w path => exact alike_program w path i
    | scripted s => exact alike_scripted s i
  | echo path => exact alike_echo path i

theorem Alike.report (h : Alike e (f.invocation r)) :
    (e.invoke f r false).report = (e.invoke f r true).report.map Report.unheard := by
  rw [e.invoke_true f r, e.invoke_eq_heard f r h.silent]
  simp only [Engine.heard, Reply.invoked, h.answer, h.silent]
  cases (e.call false (f.invocation r)).answer with
  | error fault => rfl
  | ok raw => exact (Report.ofAnswer_unheard raw _).symm

/-- A call of the echo library ends alike whoever hears its messages, or nobody, unless he breaks
down. -/
theorem trace_of_calm (h : Calm printer (spoken ⟨some printer, i⟩)) (path : Path) (freed : Nat) :
    (Echo.library.trace path (some printer) i freed).ending =
        (Echo.library.trace path none i freed).ending ∧
      (Echo.library.trace path (some printer) i freed).printed =
        ((Echo.library.engine path).call true i).printed := by
  cases hoffender : offender? (parts i) with
  | some part =>
    have htrace := trace_of_offender hoffender Echo.library path
    simp only [Library.engine, htrace, if_true, and_self]
  | none =>
    have hcalm : ∀ (c : Call) freed, c.invocation = i → Calm c.handler (spoken c) →
        (c.trace Echo.library path freed).ending = .answered (answerOf path (answer c.foreign)) ∧
          (c.trace Echo.library path freed).printed = spoken c := by
      rintro c freed rfl hc
      have hfree : ¬c.HoldsNul := free_of_offender hoffender c.printer
      have hending :=
        ending_of_calm (l := Echo.library) hfree (prints_performance c ▸ hc) path freed
      rwa [result_performance, prints_performance] at hending
    obtain ⟨hending, hprinted⟩ := hcalm ⟨some printer, i⟩ freed rfl h
    obtain ⟨hunheard, -⟩ := hcalm ⟨none, i⟩ freed rfl (calm_quietPrinter _)
    obtain ⟨-, hquiet⟩ := hcalm ⟨some quietPrinter, i⟩ 0 rfl (calm_quietPrinter _)
    exact ⟨hending.trans hunheard.symm, hprinted.trans hquiet.symm⟩

/-- Whatever an engine does in a streamed call, all that it prints is heard in order and its own
fault is passed on. An answer is reported as rejected, as the error that it tells of, or else as it
is, with all that was printed. The engines at hand answer a call alike streamed or not, the echo
library also where others hear its messages. -/
theorem invoke_streamed (e : Engine) (f : Fixture) (r : Request) :
    let reply := e.call true (f.invocation r)
    let invoked := e.invoke f r true
    invoked.printed = reply.printed ∧
    (∀ fault, reply.answer = .error fault → invoked.report = .error fault) ∧
    (∀ raw, reply.answer = .ok raw →
      (∀ defect, invoked.report = .error (.answer defect) ↔ Answer.read raw = .error defect) ∧
      (∀ text, invoked.report = .error (.invocation (.reported text)) ↔
        ∃ ms a, Answer.read raw = .ok (.obj ms, a) ∧ find? "error" ms = some (.str text)) ∧
      ∀ report, invoked.report = .ok report ↔
        ∃ ms a, Answer.read raw = .ok (.obj ms, a) ∧ Json.parse raw = .ok (.obj ms) ∧
          (find? "error" ms = none ∨ find? "error" ms = some .null) ∧
          report = ⟨raw, .obj ms, a, reply.printed⟩) ∧
    (Shipped e →
      (∀ i, Alike e i) ∧ (e.invoke f r false).report = invoked.report.map Report.unheard) ∧
    ∀ path printer i freed, Calm printer (spoken ⟨some printer, i⟩) →
      (Echo.library.trace path (some printer) i freed).ending =
        (Echo.library.trace path none i freed).ending ∧
      (Echo.library.trace path (some printer) i freed).printed =
        ((Echo.library.engine path).call true i).printed := by
  intro reply invoked
  have hinvoked : invoked = e.heard f r true := e.invoke_true f r
  refine ⟨by rw [hinvoked]; rfl, ?_, ?_, ?_, fun path printer i freed h =>
    trace_of_calm h path freed⟩
  · intro fault hfault
    rw [hinvoked]
    simp only [Engine.heard, Reply.invoked,
      show (e.call true (f.invocation r)).answer = _ from hfault]
    rfl
  · intro raw hraw
    have hreport : invoked.report = Report.ofAnswer raw reply.printed := by
      rw [hinvoked]
      simp only [Engine.heard, Reply.invoked,
        show (e.call true (f.invocation r)).answer = _ from hraw]
      rfl
    rw [hreport]
    exact ⟨fun _ => Report.ofAnswer_eq_defect, fun _ => Report.ofAnswer_eq_reported,
      fun _ => Report.ofAnswer_eq_report⟩
  · intro hshipped
    exact ⟨hshipped.alike, (hshipped.alike _).report⟩

end ScriptProbe.Engine
