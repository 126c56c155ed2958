import ScriptProbe.Engine.Transcript
import ScriptProbe.Proofs.Text.Trim
import ScriptProbe.Proofs.Text.Utf8

/-! The scan of an output, line by line and block by block. -/
namespace ScriptProbe.Transcript

open ScriptProbe.Text

variable {s : State} {line text : List Char} {lines block : List (List Char)} {n : UInt64}

/-! ### Cycle counts -/

def Line.count? : Line → Option UInt64
  | .cycles n => some n
  | _ => none

/-- The cycle counts that some lines report, first to last. -/
def counts (lines : List (List Char)) : List UInt64 :=
  lines.filterMap fun line => (Line.classify line).count?

theorem mem_counts : n ∈ counts lines ↔ ∃ line ∈ lines, Line.classify line = .cycles n := by
  simp only [counts, List.mem_filterMap]
  refine exists_congr fun line => and_congr_right fun _ => ?_
  cases Line.classify line <;> simp [Line.count?]

/-- The state after some more lines. -/
def State.after (s : State) (lines : List (List Char)) : State :=
  lines.foldl (fun s line => s.step (Line.classify line)) s

theorem close_cycles (s : State) : s.close.cycles = s.cycles := by
  unfold State.close
  split <;> rfl

theorem step_cycles (s : State) (line : Line) : (s.step line).cycles = line.count?.or s.cycles := by
  cases line with
  | other text => cases h : s.pending <;> simp [State.step, Line.count?, h, close_cycles]
  | _ => simp [State.step, Line.count?, close_cycles]

/-- The last count that is reported stays. -/
theorem after_cycles (s : State) (lines : List (List Char)) :
    (s.after lines).cycles = (counts lines).getLast?.or s.cycles := by
  induction lines generalizing s with
  | nil => rfl
  | cons line lines ih =>
    refine (ih (s.step (Line.classify line))).trans ?_
    rw [step_cycles]
    cases h : (Line.classify line).count? with
    | none => simp [counts, h]
    | some n =>
      have hcounts : counts (line :: lines) = n :: counts lines := by simp [counts, h]
      rw [hcounts, List.getLast?_cons]
      cases (counts lines).getLast? <;> simp

theorem read_cycles (bytes : List UInt8) :
    (read bytes).cycles = (counts (linesOf bytes)).getLast? := by
  have h := after_cycles State.start (linesOf bytes)
  rw [show State.start.cycles = none from rfl, Option.or_none] at h
  exact (close_cycles _).trans h

end ScriptProbe.Transcript
