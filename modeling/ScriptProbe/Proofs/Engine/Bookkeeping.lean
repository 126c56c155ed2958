import ScriptProbe.Proofs.Engine.Division
import ScriptProbe.Proofs.Text.Decimal

/-! Lines that an engine writes itself end the message before them, however their tails read; a line
that only begins like one carries the message on. -/
namespace ScriptProbe.Transcript

open ScriptProbe.Text

variable {s : State} {line text cs : List Char} {lines : List (List Char)} {bytes : List UInt8}
    {n : UInt64}

/-! ### Lines of the engine's own -/

def resultLead : List Char := "Run result: ".toList
def unspecifiedLead : List Char := "The cell_index is not specified".toList

/-- What lines of an engine's own begin with, without the blank behind it. -/
def engineLeads : List (List Char) :=
  ["Script log:".toList, "Total cycles consumed:".toList, "Potential format error found:".toList,
    "Run result:".toList]

/-- The line begins like one of the engine's own. -/
def Leads (line : List Char) : Prop := ∃ lead ∈ engineLeads, ∃ tail, line = lead ++ tail

/-- A line as an engine writes it: a lead and a blank, and behind those for cycles a count of 64
bits. -/
inductive Bookkeeping : List Char → Prop
  | log (text : List Char) : Bookkeeping (logLead ++ text)
  | cycles {digits rest : List Char} (hne : digits ≠ []) (hdigits : ∀ c ∈ digits, c.isDigit = true)
    (hlt : Nat.ofDigitChars 10 digits 0 < UInt64.size) (hrest : Decimal.NoDigit rest) :
    Bookkeeping (cyclesLead ++ (digits ++ rest))
  | warning (text : List Char) : Bookkeeping (warningLead ++ text)
  | result (text : List Char) : Bookkeeping (resultLead ++ text)

theorem leadingCount?_append {digits rest : List Char} (hne : digits ≠ [])
    (hdigits : ∀ c ∈ digits, c.isDigit = true) (hlt : Nat.ofDigitChars 10 digits 0 < UInt64.size)
    (hrest : Decimal.NoDigit rest) : ∃ n, leadingCount? (digits ++ rest) = some n := by
  rw [leadingCount?, Decimal.takeWhile_digits hdigits hrest]
  exact ⟨UInt64.ofNat (Nat.ofDigitChars 10 digits 0), Decimal.readWord?_eq_some.2
    ⟨digits, hne, hdigits, Or.inl rfl, (UInt64.toNat_ofNat_of_lt' hlt).symm⟩⟩

/-- A count is made of all the digits at the front. -/
theorem bookkeeping_of_leadingCount? (h : leadingCount? cs = some n) :
    Bookkeeping (cyclesLead ++ cs) := by
  obtain ⟨ds, hne, hdigits, hds, hvalue⟩ := Decimal.readWord?_eq_some.1 h
  have htake : cs.takeWhile Char.isDigit = ds := hds.resolve_right fun hplus => by
    have hmem : '+' ∈ cs.takeWhile Char.isDigit := hplus ▸ List.mem_cons_self
    exact absurd (Decimal.isDigit_of_mem_takeWhile hmem) (by decide)
  have hcs : ds ++ cs.dropWhile Char.isDigit = cs := by
    rw [← htake, List.takeWhile_append_dropWhile]
  exact hcs ▸ .cycles hne hdigits (hvalue ▸ n.toNat_lt_size) (Decimal.noDigit_dropWhile cs)

/-! ### How they are classified -/

theorem classify_cyclesLead (h : leadingCount? cs = some n) :
    Line.classify (cyclesLead ++ cs) = .cycles n := by
  have hlog : after? logLead (cyclesLead ++ cs) = none := rfl
  simp [Line.classify, hlog, after?_append, h]

theorem classify_warning (text : List Char) :
    Line.classify (warningLead ++ text) = .warning text := by
  have hlog : after? logLead (warningLead ++ text) = none := rfl
  have hcycles : after? cyclesLead (warningLead ++ text) = none := rfl
  simp [Line.classify, hlog, hcycles, after?_append]

theorem classify_result (text : List Char) :
    Line.classify (resultLead ++ text) = .status (resultLead ++ text) := by
  have hlog : after? logLead (resultLead ++ text) = none := rfl
  have hcycles : after? cyclesLead (resultLead ++ text) = none := rfl
  have hwarning : after? warningLead (resultLead ++ text) = none := rfl
  have hstatus : (statusLeads.any fun lead => (after? lead (resultLead ++ text)).isSome) = true :=
    List.any_eq_true.2 ⟨resultLead, List.mem_cons_self, by rw [after?_append]; rfl⟩
  rw [Line.classify, hlog, hcycles, hwarning]
  exact if_pos hstatus

theorem classify_of_bookkeeping (h : Bookkeeping line) : Line.classify line ≠ .other text := by
  cases h with
  | log text => simp [classify_log]
  | cycles hne hdigits hlt hrest =>
    obtain ⟨n, hn⟩ := leadingCount?_append hne hdigits hlt hrest
    simp [classify_cyclesLead hn]
  | warning text => simp [classify_warning]
  | result text => simp [classify_result]

/-- The other lead of a status begins like none of those. -/
theorem after?_unspecified_of_leads (h : Leads line) :
    after? unspecifiedLead line = none := by
  obtain ⟨lead, hlead, tail, rfl⟩ := h
  simp only [engineLeads, List.mem_cons, List.not_mem_nil, or_false] at hlead
  rcases hlead with rfl | rfl | rfl | rfl <;> rfl

theorem classify_of_leads (h : Leads line) (hnot : ¬Bookkeeping line) :
    Line.classify line = .other line := by
  have hnone : ∀ lead, (∀ tail, Bookkeeping (lead ++ tail)) → after? lead line = none := by
    intro lead hlead
    refine Option.eq_none_iff_forall_ne_some.2 fun tail htail => hnot ?_
    exact after?_eq_some_iff.1 htail ▸ hlead tail
  have hcycles : (after? cyclesLead line).bind leadingCount? = none := by
    refine Option.eq_none_iff_forall_ne_some.2 fun n hn => hnot ?_
    obtain ⟨tail, htail, hcount⟩ := Option.bind_eq_some_iff.1 hn
    exact after?_eq_some_iff.1 htail ▸ bookkeeping_of_leadingCount? hcount
  have hresult := hnone resultLead .result
  have hstatus : (statusLeads.any fun lead => (after? lead line).isSome) = false := by
    have hleads : statusLeads = [resultLead, unspecifiedLead] := rfl
    rw [hleads, List.any_cons, hresult, List.any_cons, after?_unspecified_of_leads h]
    rfl
  rw [Line.classify, hnone logLead .log, hcycles, hnone warningLead .warning, hstatus]
  rfl

/-! ### What they do to the open message -/

theorem after_concat (s : State) (lines : List (List Char)) (line : List Char) :
    s.after (lines ++ [line]) = (s.after lines).step (Line.classify line) :=
      after_append s lines [line]

/-- The open message is complete as it is, and only a log line opens one of its own. -/
structure Ends (s : State) (line : List Char) (t : State) : Prop where
  done : t.done = s.close.done
  pending : ∀ lines, t.pending = some lines → ∃ text, line = logLead ++ text ∧ lines = [text]

theorem ends_of_bookkeeping (h : Bookkeeping line) (s : State) :
    Ends s line (s.step (Line.classify line)) := by
  have hclosed := pending_close s
  cases hc : Line.classify line with
  | log text =>
    refine ⟨rfl, fun lines hlines => ⟨text, eq_of_classify_log hc, ?_⟩⟩
    exact (Option.some.inj hlines).symm
  | other text => exact absurd hc (classify_of_bookkeeping h)
  | cycles n => exact ⟨rfl, by simp [State.step, hclosed]⟩
  | warning text => exact ⟨rfl, by simp [State.step, hclosed]⟩
  | status text => exact ⟨rfl, by simp [State.step, hclosed]⟩

/-- A line that only begins like one of the engine's own goes on with the open message. -/
theorem step_of_leads (h : Leads line) (hnot : ¬Bookkeeping line) (hopen : s.pending = some lines) :
    s.step (Line.classify line) = { s with pending := some (line :: lines) } := by
  rw [classify_of_leads h hnot]
  simp [State.step, hopen]

/-- Wherever a line of the engine's own stands in an output, it ends the message that is open, and
no message of the output takes it in. A line that only begins like one, as it has no blank behind
the lead or no count of 64 bits behind that of the cycles, is the script's. -/
theorem ended_by_bookkeeping (bytes : List UInt8) :
    (∀ before line after, linesOf bytes = before ++ line :: after → Bookkeeping line →
      Ends (State.start.after before) line (State.start.after (before ++ [line]))) ∧
    (∀ d : Division bytes, read bytes = ⟨(counts d.lines).getLast?, d.messages⟩ ∧
      ∀ b, Stretch.message b ∈ d.stretches → ∀ line ∈ b.more, ¬Bookkeeping line) ∧
    (∀ before line after lines, linesOf bytes = before ++ line :: after → Leads line →
      ¬Bookkeeping line →
      (State.start.after before).pending = some lines →
      (State.start.after (before ++ [line])).pending = some (line :: lines)) := by
  refine ⟨fun before line _ _ h => ?_, fun d => ⟨d.read_eq, fun b _ line hline h => ?_⟩, ?_⟩
  · rw [after_concat]
    exact ends_of_bookkeeping h _
  · exact classify_of_bookkeeping h (b.more_carries line hline).2
  · intro before line _ lines _ h hnot hopen
    rw [after_concat, step_of_leads h hnot hopen]

/-- A script log, and a line for cycles without a count. -/
def uncountedLines : List (List Char) := [logLead ++ ['a'], cyclesLead ++ ['?']]

def uncounted : List UInt8 := Utf8.encode (uncountedLines.flatMap (· ++ ['\n']))

theorem linesOf_uncounted : linesOf uncounted = uncountedLines :=
  linesOf_encode (by unfold Clean; decide)

theorem leads_uncounted : Leads (cyclesLead ++ ['?']) :=
  ⟨_, List.mem_cons_of_mem _ List.mem_cons_self, [' ', '?'], by decide⟩

theorem ended_by_bookkeeping_talking :
    (State.start.after (talkingLines.take 4)).done = ["a\nb".toList] ∧
    (State.start.after uncountedLines).pending = some [cyclesLead ++ ['?'], ['a']] := by
  have hlines : linesOf (talking.run [] "").stdout = talkingLines :=
    linesOf_encode (by unfold Clean; decide)
  obtain ⟨hends, -, -⟩ := ended_by_bookkeeping (talking.run [] "").stdout
  obtain ⟨-, -, hcarried⟩ := ended_by_bookkeeping uncounted
  have hresult :=
    hends (talkingLines.take 3) "Run result: 0".toList (talkingLines.drop 4) hlines (.result ['0'])
  have hother : Line.classify (cyclesLead ++ ['?']) = .other (cyclesLead ++ ['?']) := by decide
  have hnot : ¬Bookkeeping (cyclesLead ++ ['?']) := fun h => classify_of_bookkeeping h hother
  refine ⟨hresult.done.trans (by decide), ?_⟩
  exact hcarried [logLead ++ ['a']]
    (cyclesLead ++ ['?']) [] [['a']] linesOf_uncounted leads_uncounted hnot rfl

/-- Not every line that begins like one of the engine's own ends a message: it can be delivered with
one. -/
theorem not_forall_ends :
    read uncounted = ⟨none, ["a\nTotal cycles consumed: ?"]⟩ ∧
    ¬∀ (bytes : List UInt8) (before after : List (List Char)) (line : List Char),
      linesOf bytes = before ++ line :: after → Leads line →
        Ends (State.start.after before) line (State.start.after (before ++ [line])) := by
  refine ⟨by rw [read, linesOf_uncounted]; decide, fun h => ?_⟩
  have hends :=
    h uncounted [logLead ++ ['a']] [] (cyclesLead ++ ['?']) linesOf_uncounted leads_uncounted
  exact absurd hends.done (by decide)

end ScriptProbe.Transcript
