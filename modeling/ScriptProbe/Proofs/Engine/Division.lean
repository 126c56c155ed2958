import Mathlib.Data.List.Chain
import ScriptProbe.Proofs.Engine.Executable

/-! An output divided into messages and idle lines, which says what is read of it without a scan. -/
namespace ScriptProbe.Transcript

open ScriptProbe.Text

variable {s : State} {line : List Char} {more : List (List Char)} {bytes : List UInt8}

/-! ### Stretches of lines -/

/-- A message with all its lines, or a line that belongs to none. -/
inductive Stretch where
  | message (b : Block)
  | idle (line : List Char) (h : ∀ text, Line.classify line ≠ .log text)

namespace Stretch

def lines : Stretch → List (List Char)
  | message b => b.lines
  | idle line _ => [line]

def text? : Stretch → Option (List Char)
  | message b => some b.text
  | idle _ _ => none

/-- An idle line that would have carried a message on. -/
def Stray : Stretch → Prop
  | message _ => False
  | idle line _ => Line.classify line = .other line

/-- A message takes in all the lines that carry it on: none is left idle right behind it. -/
def Maximal : Stretch → Stretch → Prop
  | message _, next => ¬next.Stray
  | idle _ _, _ => True

end Stretch

variable {stretches : List Stretch}

/-- Lines without a message among them can be put in front of a division. -/
theorem exists_idle_append (hmore : ∀ line ∈ more, Carries line)
    (h : stretches.IsChain Stretch.Maximal) :
    ∃ stretches' : List Stretch, stretches'.IsChain Stretch.Maximal ∧
      stretches'.flatMap Stretch.lines = more ++ stretches.flatMap Stretch.lines := by
  induction more with
  | nil => exact ⟨stretches, h, rfl⟩
  | cons line more ih =>
    obtain ⟨hline, hmore⟩ := List.forall_mem_cons.1 hmore
    obtain ⟨stretches', hmaximal, hlines⟩ := ih hmore
    have hidle : ∀ text, Line.classify line ≠ .log text := by simp [hline.2]
    refine ⟨.idle line hidle :: stretches', List.isChain_cons.2 ⟨fun _ _ => trivial, hmaximal⟩, ?_⟩
    rw [List.flatMap_cons, hlines]
    rfl

/-- The lines at the front that would carry a message on are kept apart, for a message that may
stand before them. -/
theorem exists_carried {lines : List (List Char)} (h : ∀ line ∈ lines, Clean line) :
    ∃ (more : List (List Char)) (stretches : List Stretch), (∀ line ∈ more, Carries line) ∧
      stretches.IsChain Stretch.Maximal ∧ (∀ next ∈ stretches.head?, ¬next.Stray) ∧
      more ++ stretches.flatMap Stretch.lines = lines := by
  induction lines with
  | nil => exact ⟨[], [], by simp, .nil, by simp, rfl⟩
  | cons line lines ih =>
    obtain ⟨hline, hlines⟩ := List.forall_mem_cons.1 h
    obtain ⟨more, stretches, hmore, hmaximal, hstray, rfl⟩ := ih hlines
    -- The lines kept apart wait for a message; a line of the engine's own before them leaves them
    -- idle.
    by_cases hother : Line.classify line = .other line
    · have hcarries : Carries line := ⟨hline, hother⟩
      exact ⟨line :: more, stretches, List.forall_mem_cons.2 ⟨hcarries, hmore⟩, hmaximal,
        hstray, rfl⟩
    · by_cases hlog : ∃ text, Line.classify line = .log text
      · obtain ⟨text, htext⟩ := hlog
        have heq := eq_of_classify_log htext
        refine ⟨[], .message ⟨text, more, (heq ▸ hline).of_append, hmore⟩ :: stretches, by simp,
          List.isChain_cons.2 ⟨hstray, hmaximal⟩, by simp [Stretch.Stray], ?_⟩
        simp [Stretch.lines, Block.lines, heq]
      · obtain ⟨stretches', hmaximal', hlines'⟩ := exists_idle_append hmore hmaximal
        refine ⟨[], .idle line (not_exists.1 hlog) :: stretches', by simp,
          List.isChain_cons.2 ⟨fun _ _ => trivial, hmaximal'⟩, by
          simpa [Stretch.Stray] using hother, ?_⟩
        simp [Stretch.lines, hlines']

/-! ### The scan of stretches -/

/-- An idle line completes the open message and adds nothing. -/
theorem step_idle (hidle : ∀ text, Line.classify line ≠ .log text)
    (hopen : s.pending = none ∨ Line.classify line ≠ .other line) :
    (s.step (Line.classify line)).pending = none ∧
      (s.step (Line.classify line)).done = s.close.done := by
  have hclosed := pending_close s
  cases hc : Line.classify line with
  | log text => exact absurd hc (hidle text)
  | other text =>
    have hpending : s.pending = none :=
      hopen.resolve_right fun h => h (eq_of_classify_other hc ▸ hc)
    simp [State.step, hpending, hclosed]
  | cycles n => simp [State.step, hclosed]
  | warning message => simp [State.step, hclosed]
  | status text => simp [State.step, hclosed]

/-- The messages of stretches are added to those so far, the one that is open included, if no line
at the front carries that one on. -/
theorem done_after_stretches (h : stretches.IsChain Stretch.Maximal)
    (hopen : s.pending = none ∨ ∀ next ∈ stretches.head?, ¬next.Stray) :
    (s.after (stretches.flatMap Stretch.lines)).close.done =
      (stretches.filterMap Stretch.text?).reverse ++ s.close.done := by
  induction stretches generalizing s with
  | nil => rfl
  | cons stretch stretches ih =>
    obtain ⟨hnext, hmaximal⟩ := List.isChain_cons.1 h
    rw [List.flatMap_cons, after_append]
    cases stretch with
    | message b =>
      rw [Stretch.lines, after_block, ih hmaximal (Or.inr hnext)]
      simp [Stretch.text?, State.close, Block.text]
    | idle line hidle =>
      -- A stray line finds no open message, as none could have left it behind.
      have hstray : s.pending = none ∨ Line.classify line ≠ .other line :=
        hopen.imp_right fun hfront => hfront _ rfl
      obtain ⟨hpending, hdone⟩ := step_idle hidle hstray
      have hline : s.after (Stretch.idle line hidle).lines = s.step (Line.classify line) := rfl
      rw [hline, ih hmaximal (Or.inl hpending), close_of_pending hpending, hdone]
      rfl

/-! ### Divisions -/

/-- A division of an output: its bytes are cut at the line feeds, and the lines are laid out in
stretches, every line in one of them and in order. -/
structure Division (bytes : List UInt8) where
  ended : List (List UInt8)
  last : List UInt8
  stretches : List Stretch
  marked : Bytes.Marked lineFeed ended last bytes
  lines_eq : stretches.flatMap Stretch.lines =
    (Bytes.parts ended last).map fun part => dropLineEnds (Utf8.lossy part)
  maximal : stretches.IsChain Stretch.Maximal

namespace Division

variable (d : Division bytes)

def lines : List (List Char) := d.stretches.flatMap Stretch.lines

def messages : List String := (d.stretches.filterMap Stretch.text?).map String.ofList

theorem lines_eq_linesOf : d.lines = linesOf bytes := by
  rw [lines, d.lines_eq, linesOf, Bytes.cut_eq_parts d.marked]

theorem read_eq : read bytes = ⟨(counts d.lines).getLast?, d.messages⟩ := by
  have hdone := done_after_stretches (s := State.start) d.maximal (Or.inl rfl)
  have hcycles := read_cycles bytes
  have hmessages : (read bytes).messages = d.messages := by
    rw [read, readLines_eq, ← d.lines_eq_linesOf, lines, hdone]
    simp [messages, State.start, State.close]
  rw [← d.lines_eq_linesOf] at hcycles
  rw [← hcycles, ← hmessages]

end Division

theorem exists_division (bytes : List UInt8) : Nonempty (Division bytes) := by
  have hclean : ∀ line ∈ linesOf bytes, Clean line := fun _ => clean_of_mem_linesOf
  obtain ⟨ended, last, hmarked⟩ := Bytes.exists_marked lineFeed bytes
  obtain ⟨more, stretches, hmore, hmaximal, -, hlines⟩ := exists_carried hclean
  obtain ⟨stretches', hmaximal', hlines'⟩ := exists_idle_append hmore hmaximal
  refine ⟨⟨ended, last, stretches', hmarked, ?_, hmaximal'⟩⟩
  rw [hlines', hlines, linesOf, Bytes.cut_eq_parts hmarked]

theorem printed_call {w : World} {program : Path} {running : Program} {i : Invocation}
    {p : Parameters} (hstart : w.start program = .ok running)
    (hread : Parameters.read i.request = .ok p) :
    (Executable.call w program true i).printed =
      (read (running.run (Executable.arguments p) i.fixture).stdout).messages.map
        (⟨p.hash.text, ·⟩) := by
  simp [Executable.call, hstart, hread]

/-- Every output has a division, and whichever it is, the cycles, the messages and what a streamed
call prints are those of the division. -/
theorem read_division (bytes : List UInt8) :
    Nonempty (Division bytes) ∧ ∀ d : Division bytes,
      read bytes = ⟨(counts d.lines).getLast?, d.messages⟩ ∧
      ∀ (w : World) (program : Path) (running : Program) (i : Invocation) (p : Parameters),
        w.start program = .ok running → Parameters.read i.request = .ok p →
        (running.run (Executable.arguments p) i.fixture).stdout = bytes →
        (Executable.call w program true i).printed = d.messages.map (⟨p.hash.text, ·⟩) := by
  refine ⟨exists_division bytes, fun d => ⟨d.read_eq, ?_⟩⟩
  rintro w program running i p hstart hread rfl
  rw [printed_call hstart hread, d.read_eq]

/-- A program whose only message has two lines, with an idle line on either side. -/
def talkingLines : List (List Char) :=
  [['x'], logLead ++ ['a'], ['b'], "Run result: 0".toList, ['y'], cyclesLead ++ ['9']]

def talking : Program where
  file := "/bin/engine"
  run _ _ := ⟨Utf8.encode (talkingLines.flatMap (· ++ ['\n'])), [], .exited 0⟩

theorem read_division_talking :
    let w := { Executable.countingWorld with start := fun _ => .ok talking }
    let p := Executable.countingParameters
    (Executable.call w (.ofText "engine") true ⟨"", p.request⟩).printed = [⟨p.hash.text, "a\nb"⟩] ∧
    ∃ d : Division (talking.run [] "").stdout, (counts d.lines).getLast? = some 9 := by
  intro w p
  obtain ⟨⟨d⟩, hdivision⟩ := read_division (talking.run [] "").stdout
  obtain ⟨hread, hprinted⟩ := hdivision d
  have hlines : linesOf (talking.run [] "").stdout = talkingLines :=
    linesOf_encode (by unfold Clean; decide)
  have hreading : read (talking.run [] "").stdout = ⟨some 9, ["a\nb"]⟩ := by
    rw [read, hlines]
    decide
  have hd := hread.symm.trans hreading
  have hcall :=
    hprinted w (.ofText "engine") talking ⟨"", p.request⟩ p rfl (Parameters.read_request p) rfl
  refine ⟨?_, d, congrArg Reading.cycles hd⟩
  rw [hcall, show d.messages = ["a\nb"] from congrArg Reading.messages hd]
  rfl

end ScriptProbe.Transcript
