import ScriptProbe.Engine.Basic
import ScriptProbe.Proofs.Json.Printable
import ScriptProbe.Proofs.Json.Record
import ScriptProbe.Proofs.Json.RoundTrip

/-! Answers are read back from the text that they are written as, and make a report or a fault. -/
namespace ScriptProbe.Answer

open ScriptProbe.Json Record

variable {v : Json} {ms : List (String × Json)} {a : Answer}

theorem whole_view (a : Answer) : Whole a.view := by
  obtain ⟨cycle, error⟩ := a
  refine .obj fun m hm => ?_
  simp only [members, List.mem_cons, List.not_mem_nil, or_false] at hm
  rcases hm with rfl | rfl
  · cases cycle with
    | none => exact .null
    | some n =>
      have hn : n.toNat < 0x10000000000000000 := n.toNat_lt
      refine .int ⟨?_, ?_⟩ <;> omega
  · cases error with
    | none => exact .null
    | some text => exact .str text

theorem nests_view (a : Answer) (depth : Nat) : Nests (depth + 1) a.view := by
  obtain ⟨cycle, error⟩ := a
  refine .obj fun m hm => ?_
  simp only [members, List.mem_cons, List.not_mem_nil, or_false] at hm
  rcases hm with rfl | rfl
  · cases cycle <;> constructor
  · cases error <;> constructor

@[simp] theorem canonical_cycleView (cycle : Option UInt64) :
    canonical (cycleView cycle) = cycleView cycle := by
  cases cycle <;> rfl

@[simp] theorem canonical_errorView (error : Option String) :
    canonical (errorView error) = errorView error := by
  cases error <;> rfl

theorem canonical_view (a : Answer) : canonical a.view = a.view := by
  have horder : ¬"error" < "cycle" := by decide
  simp [view, members, canonical, canonicalMembers, Json.ofMembers, Json.insert, horder]

theorem parse_toText (a : Answer) : Json.parse a.toText = .ok a.view := by
  rw [toText, Json.parse_toText (whole_view a) (nests_view a 126), canonical_view]

theorem nullable_cycleView (cycle : Option UInt64) :
    nullable count (cycleView cycle) = .ok cycle := by
  cases cycle with
  | none => rfl
  | some n =>
    have hcount : count (.int n.toNat) = .ok n := by
      have hn := n.toNat_lt_size
      rw [count, if_pos (by omega), Int.toNat_natCast, UInt64.ofNat_toNat]
    rw [cycleView, nullable_eq_ok]
    exact Or.inr ⟨by simp, n, hcount, rfl⟩

theorem nullable_errorView (error : Option String) :
    nullable text (errorView error) = .ok error := by
  cases error <;> rfl

theorem nullable_text_eq_ok {error : Option String} :
    nullable text v = .ok error ↔ v = errorView error := by
  constructor
  · intro h
    rcases nullable_eq_ok.1 h with ⟨rfl, rfl⟩ | ⟨-, s, hs, rfl⟩
    · rfl
    · cases v with
      | str s' =>
        obtain rfl := Except.ok.inj hs
        rfl
      | _ => cases hs
  · rintro rfl
    exact nullable_errorView error

/-- The error of an answer is what stands under `error`, unless nothing does. -/
theorem find?_error (h : form (.obj ms) = .ok a) :
    (find? "error" ms = none ∧ a.error = none) ∨ find? "error" ms = some (errorView a.error) := by
  simp only [form, lenient_obj, ofMembers_seq, ofMembers_map, ofMembers_optional] at h
  obtain ⟨-, error, ⟨cycle, -, rfl⟩, herror, rfl⟩ := h
  rcases herror with ⟨hnone, rfl⟩ | ⟨v, hv, htext⟩
  · exact Or.inl ⟨hnone, rfl⟩
  · exact Or.inr (nullable_text_eq_ok.1 htext ▸ hv)

theorem error_eq_some (h : form (.obj ms) = .ok a) (said : String) :
    a.error = some said ↔ find? "error" ms = some (.str said) := by
  rcases find?_error h with ⟨hfind, herror⟩ | hfind
  · simp [hfind, herror]
  · rw [hfind]
    cases a.error <;> simp [errorView]

theorem error_eq_none (h : form (.obj ms) = .ok a) :
    a.error = none ↔ find? "error" ms = none ∨ find? "error" ms = some .null := by
  rcases find?_error h with ⟨hfind, herror⟩ | hfind
  · simp [hfind, herror]
  · rw [hfind]
    cases a.error <;> simp [errorView]

theorem read_eq_ok {raw : String} :
    read raw = .ok (v, a) ↔ ∃ ms, v = .obj ms ∧ Json.parse raw = .ok v ∧ form v = .ok a := by
  constructor
  · intro h
    unfold read at h
    split at h
    · cases h
    · next ms hparse =>
      split at h
      · cases h
      · next a' hform =>
        obtain ⟨rfl, rfl⟩ := Prod.mk.inj (Except.ok.inj h)
        exact ⟨ms, rfl, hparse, hform⟩
    · cases h
  · rintro ⟨ms, rfl, hparse, hform⟩
    simp only [read, hparse, hform]

/-- An answer text is rejected, tells of an error or tells of none. -/
theorem read_cases (raw : String) :
    (∃ defect, read raw = .error defect) ∨
      (∃ ms a text, read raw = .ok (.obj ms, a) ∧ a.error = some text) ∨
      ∃ ms a, read raw = .ok (.obj ms, a) ∧ a.error = none := by
  cases hread : read raw with
  | error defect => exact Or.inl ⟨defect, rfl⟩
  | ok found =>
    obtain ⟨v, a⟩ := found
    obtain ⟨ms, rfl, -, -⟩ := read_eq_ok.1 hread
    cases herror : a.error with
    | some text => exact Or.inr (Or.inl ⟨ms, a, text, rfl, herror⟩)
    | none => exact Or.inr (Or.inr ⟨ms, a, rfl, herror⟩)

/-- An answer is read whatever else is told behind it. -/
theorem form_members (a : Answer) (more : List (String × Json)) :
    form (.obj (a.members ++ more)) = .ok a := by
  have hcycle : find? "cycle" (a.members ++ more) = some (cycleView a.cycle) := rfl
  have herror : find? "error" (a.members ++ more) = some (errorView a.error) := by
    simp [find?, members]
  simp [form, hcycle, herror, nullable_cycleView, nullable_errorView]

theorem form_view (a : Answer) : form a.view = .ok a := by
  simpa [view] using form_members a []

theorem read_toText (a : Answer) : read a.toText = .ok (a.view, a) := by
  have hform := form_view a
  simp only [view] at hform
  simp only [read, parse_toText, view, hform]

/-- The answer that is made of an outcome, a count or any text, is read back from its text. The
document is an object of two members that is written as that text again, and no byte of it lies
below the space. -/
theorem read_ofOutcome (o : Except String UInt64) :
    ∃ members, read (ofOutcome o).toText = .ok (.obj members, ofOutcome o) ∧
      members.map (·.1) = ["cycle", "error"] ∧
      (Json.obj members).toText = (ofOutcome o).toText ∧
      ∀ b ∈ Text.Utf8.encode (ofOutcome o).toText.toList, 0x20 ≤ b.toNat :=
  ⟨(ofOutcome o).members, read_toText _, rfl, rfl, bytes_toText _⟩

theorem read_ofOutcome_controls :
    ∃ members,
      read (ofOutcome (.error "\x00\"\n")).toText = .ok (.obj members, ⟨none, some "\x00\"\n"⟩) ∧
      92 ∈ Text.Utf8.encode (Json.obj members).toText.toList ∧ 0x20 ≤ (92 : UInt8).toNat := by
  obtain ⟨members, hread, -, htext, hbytes⟩ := read_ofOutcome (.error "\x00\"\n")
  have hslash : 92 ∈ Text.Utf8.encode (ofOutcome (.error "\x00\"\n")).toText.toList := by
    decide +kernel
  exact ⟨members, hread, htext ▸ hslash, hbytes _ hslash⟩

end ScriptProbe.Answer

namespace ScriptProbe.Report

open ScriptProbe.Json

variable {raw text : String} {messages : List Message} {defect : Answer.Defect} {report : Report}
  {ms : List (String × Json)} {a : Answer}

/-- A report that has kept no messages. -/
def unheard (report : Report) : Report := { report with messages := [] }

theorem ofAnswer_of_rejected (h : Answer.read raw = .error defect) (messages : List Message) :
    ofAnswer raw messages = .error (.answer defect) := by
  simp only [ofAnswer, h]

theorem ofAnswer_of_reported (h : Answer.read raw = .ok (.obj ms, a)) (herror : a.error = some text)
    (messages : List Message) : ofAnswer raw messages = .error (.invocation (.reported text)) := by
  simp only [ofAnswer, h, herror]

theorem ofAnswer_of_clean (h : Answer.read raw = .ok (.obj ms, a)) (herror : a.error = none)
    (messages : List Message) : ofAnswer raw messages = .ok ⟨raw, .obj ms, a, messages⟩ := by
  simp only [ofAnswer, h, herror]

theorem ofAnswer_eq_defect :
    ofAnswer raw messages = .error (.answer defect) ↔ Answer.read raw = .error defect := by
  refine ⟨fun h => ?_, fun h => ofAnswer_of_rejected h messages⟩
  obtain ⟨defect', hread⟩ | ⟨ms, a, text, hread, herror⟩ | ⟨ms, a, hread, herror⟩ :=
    Answer.read_cases raw
  · rw [ofAnswer_of_rejected hread] at h
    cases h
    exact hread
  · rw [ofAnswer_of_reported hread herror] at h
    cases h
  · rw [ofAnswer_of_clean hread herror] at h
    cases h

theorem ofAnswer_eq_reported :
    ofAnswer raw messages = .error (.invocation (.reported text)) ↔
      ∃ ms a, Answer.read raw = .ok (.obj ms, a) ∧ find? "error" ms = some (.str text) := by
  constructor
  · intro h
    obtain ⟨defect, hread⟩ | ⟨ms, a, text', hread, herror⟩ | ⟨ms, a, hread, herror⟩ :=
      Answer.read_cases raw
    · rw [ofAnswer_of_rejected hread] at h
      cases h
    · rw [ofAnswer_of_reported hread herror] at h
      cases h
      obtain ⟨_, -, -, hform⟩ := Answer.read_eq_ok.1 hread
      exact ⟨ms, a, hread, (Answer.error_eq_some hform text).1 herror⟩
    · rw [ofAnswer_of_clean hread herror] at h
      cases h
  · rintro ⟨ms, a, hread, hfind⟩
    obtain ⟨_, -, -, hform⟩ := Answer.read_eq_ok.1 hread
    exact ofAnswer_of_reported hread ((Answer.error_eq_some hform text).2 hfind) messages

theorem ofAnswer_eq_report :
    ofAnswer raw messages = .ok report ↔
      ∃ ms a, Answer.read raw = .ok (.obj ms, a) ∧ Json.parse raw = .ok (.obj ms) ∧
        (find? "error" ms = none ∨ find? "error" ms = some .null) ∧
        report = ⟨raw, .obj ms, a, messages⟩ := by
  constructor
  · intro h
    obtain ⟨defect, hread⟩ | ⟨ms, a, text, hread, herror⟩ | ⟨ms, a, hread, herror⟩ :=
      Answer.read_cases raw
    · rw [ofAnswer_of_rejected hread] at h
      cases h
    · rw [ofAnswer_of_reported hread herror] at h
      cases h
    · rw [ofAnswer_of_clean hread herror] at h
      obtain ⟨_, -, hparse, hform⟩ := Answer.read_eq_ok.1 hread
      exact ⟨ms, a, hread, hparse, (Answer.error_eq_none hform).1 herror, (Except.ok.inj h).symm⟩
  · rintro ⟨ms, a, hread, -, hfind, rfl⟩
    obtain ⟨_, -, -, hform⟩ := Answer.read_eq_ok.1 hread
    exact ofAnswer_of_clean hread ((Answer.error_eq_none hform).2 hfind) messages

/-- The messages decide nothing. -/
theorem ofAnswer_unheard (raw : String) (messages : List Message) :
    (ofAnswer raw messages).map unheard = ofAnswer raw [] := by
  obtain ⟨defect, hread⟩ | ⟨ms, a, text, hread, herror⟩ | ⟨ms, a, hread, herror⟩ :=
    Answer.read_cases raw
  · rw [ofAnswer_of_rejected hread, ofAnswer_of_rejected hread]
    rfl
  · rw [ofAnswer_of_reported hread herror, ofAnswer_of_reported hread herror]
    rfl
  · rw [ofAnswer_of_clean hread herror, ofAnswer_of_clean hread herror]
    rfl

end ScriptProbe.Report
