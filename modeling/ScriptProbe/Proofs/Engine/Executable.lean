import ScriptProbe.Engine.Executable
import ScriptProbe.Proofs.Engine.Answer
import ScriptProbe.Proofs.Engine.Rendering

/-! What a call of a program that starts comes to, whatever it prints and however it ends. -/
namespace ScriptProbe.Executable

open ScriptProbe.Text ScriptProbe.Transcript

variable {w : World} {program : Path} {running : Program} {r : Request} {p : Parameters}
  {exit : Parameters → Exit} {stderr : List UInt8} {status : Status} {said : List Char}
  {text : String}

/-- The words for a program that ended with the given status and error output, and not well. -/
inductive Complaint (stderr : List UInt8) (status : Status) : String → Prop
  | mute (h : ∀ c ∈ Utf8.lossy stderr, isBlank c = true) :
    Complaint stderr status ("debugger exited with " ++ status.text)
  | led {said : List Char} (h : trim (Utf8.lossy stderr) = errorLead ++ said) :
    Complaint stderr status (String.ofList said)
  | unled (h : ∃ c ∈ Utf8.lossy stderr, isBlank c = false)
    (hlead : ∀ said, trim (Utf8.lossy stderr) ≠ errorLead ++ said) :
    Complaint stderr status (String.ofList (trim (Utf8.lossy stderr)))

/-- The words for a call that fails, where `exit` is how the program ends under given parameters. -/
inductive Words (r : Request) (exit : Parameters → Exit) : String → Prop
  | refused {defect : Parameters.Defect} (h : Parameters.read r = .error defect) :
    Words r exit defect.message
  | uncounted {p : Parameters} (h : Parameters.read r = .ok p) (hexit : (exit p).status = .exited 0)
    (hnone : ∀ line ∈ linesOf (exit p).stdout, ∀ n, Line.classify line ≠ .cycles n) :
    Words r exit "debugger did not report consumed cycles"
  | failed {p : Parameters} {text : String} (h : Parameters.read r = .ok p)
    (hexit : (exit p).status ≠ .exited 0) (htext : Complaint (exit p).stderr (exit p).status text) :
    Words r exit text

theorem isSuccess_iff : status.isSuccess = true ↔ status = .exited 0 := by
  cases status <;> simp [Status.isSuccess]

/-! ### Words are never blank -/

theorem exists_mem_not_blank_of_getLast {cs : List Char} (hne : cs ≠ [])
    (h : isBlank (cs.getLast hne) = false) : ∃ c ∈ cs, isBlank c = false :=
  ⟨_, List.getLast_mem hne, h⟩

theorem errorLead_ne_nil : errorLead ≠ [] := by decide

/-- What follows the lead keeps the last character of the trimmed text, which is not blank. -/
theorem led_not_blank {cs : List Char} (h : trim cs = errorLead ++ said) :
    ∃ c ∈ said, isBlank c = false := by
  have hne : trim cs ≠ [] := h ▸ List.append_ne_nil_of_left_ne_nil errorLead_ne_nil said
  have hlast := getLast_trim hne
  cases hsaid : said with
  | nil =>
    have hspace : isBlank (errorLead.getLast (by decide)) = true := rfl
    simp [h, hsaid, hspace] at hlast
  | cons c rest =>
    have hne' : said ≠ [] := by simp [hsaid]
    simp only [h, List.getLast_append_of_ne_nil _ hne'] at hlast
    exact hsaid ▸ exists_mem_not_blank_of_getLast hne' hlast

theorem trim_ne_nil {cs : List Char} (h : ∃ c ∈ cs, isBlank c = false) : trim cs ≠ [] := by
  obtain ⟨c, hc, hblank⟩ := h
  intro hnil
  simp [trim_eq_nil_iff.1 hnil c hc] at hblank

theorem complaint_not_blank (h : Complaint stderr status text) :
    ∃ c ∈ text.toList, isBlank c = false := by
  cases h with
  | mute h => exact ⟨'d', by simp, rfl⟩
  | led h => simpa using led_not_blank h
  | unled h _ => simpa using exists_mem_not_blank_of_getLast (trim_ne_nil h) (getLast_trim _)

theorem message_not_blank (defect : Parameters.Defect) :
    ∃ c ∈ defect.message.toList, isBlank c = false := by
  cases defect with
  | unknownGroup text =>
    change ∃ c ∈ ("unknown variant `" ++ text ++ "`, expected `lock` or `type`").toList, _
    exact ⟨'u', by simp, rfl⟩
  | malformedHash =>
    change ∃ c ∈ "Invalid script hash format!".toList, _
    exact ⟨'I', by simp, rfl⟩
  | malformedLimit =>
    change ∃ c ∈ "Invalid max cycle!".toList, _
    exact ⟨'I', by simp, rfl⟩

theorem words_not_blank (h : Words r exit text) : ∃ c ∈ text.toList, isBlank c = false := by
  cases h with
  | refused h => exact message_not_blank _
  | uncounted h hexit hnone => exact ⟨'d', by simp, rfl⟩
  | failed h hexit htext => exact complaint_not_blank htext

/-! ### Outcomes -/

/-- What a program said, or words for its status if it said nothing. -/
def complaintText (status : Status) : List Char → String
  | [] => "debugger exited with " ++ status.text
  | said => String.ofList said

theorem complaintText_of_ne_nil (h : said ≠ []) :
    complaintText status said = String.ofList said := by
  cases said with
  | nil => exact absurd rfl h
  | cons c cs => rfl

theorem complaint_of_blank (h : ∀ c ∈ Utf8.lossy stderr, isBlank c = true) :
    complaint stderr = [] := by
  have hnone : after? errorLead [] = none := rfl
  simp [complaint, trim_eq_nil_iff.2 h, hnone]

theorem complaint_of_led (h : trim (Utf8.lossy stderr) = errorLead ++ said) :
    complaint stderr = said := by
  simp [complaint, after?_eq_some_iff.2 h]

theorem complaint_of_unled (h : ∀ said, trim (Utf8.lossy stderr) ≠ errorLead ++ said) :
    complaint stderr = trim (Utf8.lossy stderr) := by
  have hnone : after? errorLead (trim (Utf8.lossy stderr)) = none :=
    Option.eq_none_iff_forall_ne_some.2 fun said hsaid => h said (after?_eq_some_iff.1 hsaid)
  simp [complaint, hnone]

theorem complaint_iff :
    Complaint stderr status text ↔ text = complaintText status (complaint stderr) := by
  constructor
  · intro h
    cases h with
    | mute h =>
      rw [complaint_of_blank h]
      rfl
    | led h =>
      obtain ⟨c, hc, -⟩ := led_not_blank h
      rw [complaint_of_led h, complaintText_of_ne_nil (List.ne_nil_of_mem hc)]
    | unled h hlead => rw [complaint_of_unled hlead, complaintText_of_ne_nil (trim_ne_nil h)]
  · rintro rfl
    by_cases hblank : ∀ c ∈ Utf8.lossy stderr, isBlank c = true
    · rw [complaint_of_blank hblank]
      exact .mute hblank
    · have hsome : ∃ c ∈ Utf8.lossy stderr, isBlank c = false := by simpa using hblank
      by_cases hlead : ∃ said, trim (Utf8.lossy stderr) = errorLead ++ said
      · obtain ⟨said, hsaid⟩ := hlead
        obtain ⟨c, hc, -⟩ := led_not_blank hsaid
        rw [complaint_of_led hsaid, complaintText_of_ne_nil (List.ne_nil_of_mem hc)]
        exact .led hsaid
      · have hno := not_exists.1 hlead
        rw [complaint_of_unled hno, complaintText_of_ne_nil (trim_ne_nil hsome)]
        exact .unled hsome hno

theorem outcome_of_success {e : Exit} (h : e.status = .exited 0) (cycles : Option UInt64) :
    outcome e cycles =
      match cycles with
      | some n => .ok n
      | none => .error "debugger did not report consumed cycles" := by
  have hsuccess := isSuccess_iff.2 h
  cases cycles with
  | none => simp [outcome, hsuccess]
  | some n => simp [outcome, hsuccess]

theorem outcome_of_failure {e : Exit} (h : e.status ≠ .exited 0) (cycles : Option UInt64) :
    outcome e cycles = .error (complaintText e.status (complaint e.stderr)) := by
  rw [outcome.eq_def, if_neg (mt isSuccess_iff.1 h)]
  cases complaint e.stderr <;> rfl

theorem outcome_eq_ok {e : Exit} {n : UInt64} :
    outcome e (read e.stdout).cycles = .ok n ↔
      e.status = .exited 0 ∧ (counts (linesOf e.stdout)).getLast? = some n := by
  rw [read_cycles]
  by_cases h : e.status = .exited 0
  · rw [outcome_of_success h]
    cases (counts (linesOf e.stdout)).getLast? <;> simp [h]
  · simp [outcome_of_failure h, h]

theorem counts_eq_nil {lines : List (List Char)} :
    (counts lines).getLast? = none ↔ ∀ line ∈ lines, ∀ n, Line.classify line ≠ .cycles n := by
  rw [List.getLast?_eq_none_iff, List.eq_nil_iff_forall_not_mem]
  constructor
  · intro h line hline n hn
    exact h n (mem_counts.2 ⟨line, hline, hn⟩)
  · intro h n hn
    obtain ⟨line, hline, hcycles⟩ := mem_counts.1 hn
    exact h line hline n hcycles

theorem counts_ne_nil {lines : List (List Char)} :
    (∃ n, (counts lines).getLast? = some n) ↔
      ∃ line ∈ lines, ∃ n, Line.classify line = .cycles n := by
  rw [← Option.ne_none_iff_exists', ne_eq, counts_eq_nil]
  simp

/-- With parameters that can be read, the words are those of the exit. -/
theorem words_of_read (h : Parameters.read r = .ok p) :
    Words r exit text ↔
      ((exit p).status = .exited 0 ∧
        (∀ line ∈ linesOf (exit p).stdout, ∀ n, Line.classify line ≠ .cycles n) ∧
        text = "debugger did not report consumed cycles") ∨
      ((exit p).status ≠ .exited 0 ∧ Complaint (exit p).stderr (exit p).status text) := by
  constructor
  · intro hw
    cases hw with
    | refused hr => simp [h] at hr
    | uncounted hr hexit hnone =>
      obtain rfl := Except.ok.inj (h.symm.trans hr)
      exact Or.inl ⟨hexit, hnone, rfl⟩
    | failed hr hexit htext =>
      obtain rfl := Except.ok.inj (h.symm.trans hr)
      exact Or.inr ⟨hexit, htext⟩
  · rintro (⟨hexit, hnone, rfl⟩ | ⟨hexit, htext⟩)
    · exact .uncounted h hexit hnone
    · exact .failed h hexit htext

theorem words_of_refused {defect : Parameters.Defect} (h : Parameters.read r = .error defect) :
    Words r exit text ↔ text = defect.message := by
  constructor
  · intro hw
    cases hw with
    | refused hr => rw [Except.error.inj (h.symm.trans hr)]
    | uncounted hr _ _ => simp [h] at hr
    | failed hr _ _ => simp [h] at hr
  · rintro rfl
    exact .refused h

/-- The outcome of an exit is words exactly if they are the words for that exit. -/
theorem outcome_eq_error (exit : Parameters → Exit) (h : Parameters.read r = .ok p) :
    outcome (exit p) (read (exit p).stdout).cycles = .error text ↔ Words r exit text := by
  rw [read_cycles, words_of_read h]
  by_cases hexit : (exit p).status = .exited 0
  · rw [outcome_of_success hexit, ← counts_eq_nil]
    cases (counts (linesOf (exit p).stdout)).getLast? <;> simp [hexit, eq_comm]
  · rw [outcome_of_failure hexit, complaint_iff]
    simp [hexit, eq_comm]

/-! ### Calls -/

theorem ofAnswer_ok (n : UInt64) (messages : List Message) :
    Report.ofAnswer (Answer.ofOutcome (.ok n)).toText messages =
      .ok ⟨(Answer.ofOutcome (.ok n)).toText, (Answer.ofOutcome (.ok n)).view, ⟨some n, none⟩,
        messages⟩ :=
  Report.ofAnswer_of_clean (Answer.read_toText _) rfl messages

theorem ofAnswer_error (text : String) (messages : List Message) :
    Report.ofAnswer (Answer.ofOutcome (.error text)).toText messages =
      .error (.invocation (.reported text)) :=
  Report.ofAnswer_of_reported (Answer.read_toText _) rfl messages

/-- Parameters that cannot be read fail the call before any program is started. -/
theorem invoke_refused {defect : Parameters.Defect} (h : Parameters.read r = .error defect)
    (f : Fixture) (streamed : Bool) :
    (engine w program).invoke f r streamed =
      ⟨.error (.invocation (.reported defect.message)), [], []⟩ := by
  rw [invoke_eq_heard]
  simp only [Engine.heard, Reply.invoked, engine, call, Fixture.invocation, h, bind, Except.bind,
    ofAnswer_error]

/-- A call for which a program starts, with what is heard of it. -/
theorem invoke_ran (hstart : w.start program = .ok running) (h : Parameters.read r = .ok p)
    (f : Fixture) (streamed : Bool) :
    (engine w program).invoke f r streamed =
      let exit := running.run (arguments p) f.toText
      let reading := read exit.stdout
      let messages := if streamed then reading.messages.map (⟨p.hash.text, ·⟩) else []
      ⟨Report.ofAnswer (Answer.ofOutcome (outcome exit reading.cycles)).toText messages, messages,
        [⟨running.file, arguments p, f.toText⟩]⟩ := by
  rw [invoke_eq_heard]
  simp only [Engine.heard, Reply.invoked, engine, Fixture.invocation, call_ran hstart h, bind,
    Except.bind]

theorem launches_ran (hstart : w.start program = .ok running) (h : Parameters.read r = .ok p)
    (f : Fixture) (streamed : Bool) :
    ((engine w program).invoke f r streamed).launches =
      [⟨running.file, arguments p, f.toText⟩] := by
  rw [invoke_ran hstart h]

theorem ofAnswer_eq_ok {o : Except String UInt64} {messages : List Message} {report : Report}
    (h : Report.ofAnswer (Answer.ofOutcome o).toText messages = .ok report) :
    ∃ n, o = .ok n ∧ report.answer = ⟨some n, none⟩ := by
  cases o with
  | error text =>
    rw [ofAnswer_error] at h
    cases h
  | ok n =>
    rw [ofAnswer_ok] at h
    cases h
    exact ⟨n, rfl, rfl⟩

theorem ofAnswer_eq_error {o : Except String UInt64} {messages : List Message} {fault : Fault} :
    Report.ofAnswer (Answer.ofOutcome o).toText messages = .error fault ↔
      ∃ text, fault = .invocation (.reported text) ∧ o = .error text := by
  cases o with
  | error text => simp [ofAnswer_error, eq_comm]
  | ok n => simp [ofAnswer_ok]

/-- A streamed run shows the rendering of the messages, and of the cycles if the call succeeds. -/
theorem present_stdout (hstart : w.start program = .ok running) (h : Parameters.read r = .ok p)
    (f : Fixture) :
    let exit := running.run (arguments p) f.toText
    (Session.present .text true ((engine w program).invoke f r true)).stdout =
      rendered ⟨(outcome exit (read exit.stdout).cycles).toOption,
        (read exit.stdout).messages⟩ := by
  intro exit
  rw [invoke_ran hstart h]
  cases houtcome : outcome exit (read exit.stdout).cycles with
  | error text =>
    simp only [exit] at houtcome
    simp [Session.present, houtcome, ofAnswer_error, rendered, Except.toOption,
      Function.comp_def, exit]
  | ok n =>
    simp only [exit] at houtcome
    simp [Session.present, houtcome, ofAnswer_ok, rendered, Except.toOption, Function.comp_def,
      String.append_assoc, exit]

theorem outcome_toOption {e : Exit} :
    (outcome e (read e.stdout).cycles).toOption =
      if e.status = .exited 0 then (read e.stdout).cycles else none := by
  split
  next h => rw [outcome_of_success h]; cases (read e.stdout).cycles <;> rfl
  next h => rw [outcome_of_failure h]; rfl

/-- What a run shows of an output is read as the same cycles and the same messages, apart from the
line ends behind these, and is then shown as before. It is what a streamed run of a program with
this output prints, without the closing line if the program did not end well. -/
theorem read_rendered (bytes : List UInt8) :
    let shown := rendered (read bytes)
    let again := read (Utf8.encode shown.toList)
    again = ⟨(read bytes).cycles,
      (read bytes).messages.map fun m => String.ofList (dropLineEnds m.toList)⟩ ∧
    rendered again = shown ∧
    ∀ (w : World) (program : Path) (running : Program) (r : Request) (p : Parameters) (f : Fixture),
      w.start program = .ok running → Parameters.read r = .ok p →
      (running.run (arguments p) f.toText).stdout = bytes →
      (Session.present .text true ((engine w program).invoke f r true)).stdout =
        if (running.run (arguments p) f.toText).status = .exited 0 then shown
        else rendered ⟨none, (read bytes).messages⟩ := by
  intro shown again
  have hagain : again = _ := read_rendered_read bytes
  refine ⟨hagain, ?_, ?_⟩
  · rw [hagain]
    exact rendered_dropLineEnds _ _
  · rintro w program running r p f hstart hread rfl
    rw [present_stdout hstart hread f, outcome_toOption]
    split <;> rfl

/-- A report is made only of an exit with 0 and a last line of cycles. -/
theorem report_eq_ok {report : Report} (hstart : w.start program = .ok running)
    (hread : Parameters.read r = .ok p) {f : Fixture} {streamed : Bool}
    (h : ((engine w program).invoke f r streamed).report = .ok report) :
    ∃ n, report.answer = ⟨some n, none⟩ ∧ (running.run (arguments p) f.toText).status = .exited 0 ∧
      (counts (linesOf (running.run (arguments p) f.toText).stdout)).getLast? = some n := by
  rw [invoke_ran hstart hread] at h
  obtain ⟨n, houtcome, hanswer⟩ := ofAnswer_eq_ok h
  exact ⟨n, hanswer, outcome_eq_ok.1 houtcome⟩

theorem exists_report (hstart : w.start program = .ok running) (hread : Parameters.read r = .ok p)
    {n : UInt64} (f : Fixture) (streamed : Bool)
    (hexit : (running.run (arguments p) f.toText).status = .exited 0)
    (hcount : (counts (linesOf (running.run (arguments p) f.toText).stdout)).getLast? = some n) :
    ∃ report, ((engine w program).invoke f r streamed).report = .ok report := by
  simp only [invoke_ran hstart hread, outcome_eq_ok.2 ⟨hexit, hcount⟩]
  exact ⟨_, ofAnswer_ok n _⟩

theorem report_eq_error {fault : Fault} (hstart : w.start program = .ok running) (f : Fixture)
    (r : Request) (streamed : Bool) :
    ((engine w program).invoke f r streamed).report = .error fault ↔
      ∃ text, fault = .invocation (.reported text) ∧
        Words r (fun p => running.run (arguments p) f.toText) text := by
  cases hread : Parameters.read r with
  | error defect => simp [invoke_refused hread, words_of_refused hread, eq_comm]
  | ok p =>
    rw [invoke_ran hstart hread, ofAnswer_eq_error]
    exact exists_congr fun text => and_congr_right fun _ =>
      outcome_eq_error (fun p => running.run (arguments p) f.toText) hread

/-- A call of a program that starts succeeds exactly if its parameters are read, it exits with 0 and
it prints a line of cycles, and then the last such line counts. Otherwise it fails, in words that
are not blank. -/
theorem invoke_started (hstart : w.start program = .ok running) (f : Fixture) (r : Request)
    (streamed : Bool) :
    let exit := fun p => running.run (arguments p) f.toText
    let i := (engine w program).invoke f r streamed
    ((∃ report, i.report = .ok report) ↔
      ∃ p, Parameters.read r = .ok p ∧ (exit p).status = .exited 0 ∧
        ∃ line ∈ linesOf (exit p).stdout, ∃ n, Line.classify line = .cycles n) ∧
    (∀ p report, Parameters.read r = .ok p → i.report = .ok report →
      ∃ n, report.answer = ⟨some n, none⟩ ∧ (counts (linesOf (exit p).stdout)).getLast? = some n) ∧
    (∀ fault, i.report = .error fault ↔
      ∃ text, fault = .invocation (.reported text) ∧ Words r exit text) ∧
    (∀ text, Words r exit text → ∃ c ∈ text.toList, isBlank c = false) ∧
    (∀ defect, Parameters.read r = .error defect → i.launches = []) := by
  intro exit i
  refine ⟨⟨?_, ?_⟩, ?_, fun _ => report_eq_error hstart f r streamed, fun _ => words_not_blank, ?_⟩
  · rintro ⟨report, h⟩
    cases hread : Parameters.read r with
    | error defect => simp [i, invoke_refused hread] at h
    | ok p =>
      obtain ⟨n, -, hexit, hcount⟩ := report_eq_ok hstart hread h
      exact ⟨p, rfl, hexit, counts_ne_nil.1 ⟨n, hcount⟩⟩
  · rintro ⟨p, hread, hexit, hline⟩
    obtain ⟨n, hcount⟩ := counts_ne_nil.2 hline
    exact exists_report hstart hread f streamed hexit hcount
  · intro p report hread h
    obtain ⟨n, hanswer, -, hcount⟩ := report_eq_ok hstart hread h
    exact ⟨n, hanswer, hcount⟩
  · intro defect hread
    rw [show i = _ from invoke_refused hread f streamed]

def countingLines : List (List Char) := [logLead ++ ['a'], cyclesLead ++ ['9'], cyclesLead ++ ['7']]

/-- A program that prints two lines of cycles. -/
def counting : Program where
  file := "/bin/engine"
  run _ _ := ⟨Utf8.encode (countingLines.flatMap (· ++ ['\n'])), [], .exited 0⟩

/-- A world in which that program answers to every name. -/
def countingWorld : World where
  environment _ := none
  read _ := .error .notFound
  isFile _ := false
  unwritable _ := none
  start _ := .ok counting
  library _ := .error "not found"

def countingParameters : Parameters := ⟨.lock, ⟨List.replicate 32 0, rfl⟩, 10⟩

/-- A run of it shows the message and the last count, and this is read as the message and the
count. -/
theorem read_rendered_counting :
    let shown := "Script log: a\nTotal cycles consumed: 7\n"
    (Session.present .text true ((engine countingWorld (.ofText "engine")).invoke ⟨none, .null⟩
      countingParameters.request true)).stdout = shown ∧
    read (Utf8.encode shown.toList) = ⟨some 7, ["a"]⟩ := by
  intro shown
  obtain ⟨hagain, -, hpresent⟩ := read_rendered (counting.run [] "").stdout
  have hlines : linesOf (counting.run [] "").stdout = countingLines :=
    linesOf_encode (by unfold Clean; decide)
  have hread : read (counting.run [] "").stdout = ⟨some 7, ["a"]⟩ := by
    rw [Transcript.read, hlines]
    decide
  have hshown : rendered ⟨some 7, ["a"]⟩ = shown := by decide +kernel
  have hrun := hpresent countingWorld (.ofText "engine") counting countingParameters.request
    countingParameters ⟨none, .null⟩ rfl (Parameters.read_request countingParameters) rfl
  rw [hread, hshown] at hagain hrun
  exact ⟨hrun, hagain⟩

theorem invoke_counting :
    ∃ report,
      ((engine countingWorld (.ofText "engine")).invoke ⟨none, .null⟩
        countingParameters.request false).report = .ok report ∧
      report.answer = ⟨some 7, none⟩ := by
  have hstart : countingWorld.start (.ofText "engine") = .ok counting := rfl
  obtain ⟨hok, hcount, -⟩ := invoke_started hstart ⟨none, .null⟩ countingParameters.request false
  have hread := Parameters.read_request countingParameters
  have hlines : counts (linesOf (counting.run [] "").stdout) = [9, 7] := by
    rw [counting, linesOf_encode (by unfold Clean; decide)]
    decide
  obtain ⟨line, hmem, hline⟩ :=
    mem_counts.1 (hlines ▸ List.mem_cons_self : 9 ∈ counts (linesOf (counting.run [] "").stdout))
  obtain ⟨report, hreport⟩ := hok.2 ⟨countingParameters, hread, rfl, line, hmem, 9, hline⟩
  obtain ⟨n, hanswer, hlast⟩ := hcount countingParameters report hread hreport
  have hn : some n = some 7 := hlast.symm.trans (congrArg List.getLast? hlines)
  exact ⟨report, hreport, hanswer.trans (congrArg (Answer.mk · none) hn)⟩

end ScriptProbe.Executable
