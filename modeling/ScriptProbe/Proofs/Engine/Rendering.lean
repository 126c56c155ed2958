import ScriptProbe.Command.Session
import ScriptProbe.Proofs.Bytes.Cut
import ScriptProbe.Proofs.Engine.Transcript

/-! The lines that a run shows are themselves the output of an engine: they are read as what they
show. -/
namespace ScriptProbe.Transcript

open ScriptProbe.Text

variable {s : State} {line head : List Char} {more : List (List Char)} {bytes : List UInt8}

/-! ### Lines -/

/-- A line as it is read: without a line feed, and without line ends behind it. -/
def Clean (line : List Char) : Prop := '\n' ∉ line ∧ dropLineEnds line = line

theorem dropLineEnds_eq_self_iff :
    dropLineEnds line = line ↔ ∀ h : line ≠ [], ¬isLineEnd (line.getLast h) = true :=
  List.rdropWhile_eq_self_iff

theorem dropLineEnds_idempotent (cs : List Char) :
    dropLineEnds (dropLineEnds cs) = dropLineEnds cs :=
  List.rdropWhile_idempotent isLineEnd cs

theorem dropLineEnds_append (cs : List Char) (h : Clean line) (hne : line ≠ []) :
    dropLineEnds (cs ++ line) = cs ++ line := by
  refine dropTailWhile_append_of_last cs hne ?_
  simpa using dropLineEnds_eq_self_iff.1 h.2 hne

theorem Clean.of_append {cs : List Char} (h : Clean (cs ++ line)) : Clean line := by
  refine ⟨fun hmem => h.1 (List.mem_append_right cs hmem), dropLineEnds_eq_self_iff.2 fun hne => ?_⟩
  have hlast := dropLineEnds_eq_self_iff.1 h.2 (List.append_ne_nil_of_right_ne_nil cs hne)
  rwa [List.getLast_append_of_ne_nil _ hne] at hlast

theorem clean_of_mem_linesOf (h : line ∈ linesOf bytes) : Clean line := by
  obtain ⟨part, hpart, rfl⟩ := List.mem_map.1 h
  refine ⟨fun hmem => ?_, dropLineEnds_idempotent _⟩
  have hfeed := Utf8.mem_of_mem_lossy (by decide) (by decide) (mem_of_mem_dropTailWhile hmem)
  exact Bytes.mark_not_mem_of_mem_cut hpart hfeed

theorem encode_feeds (lines : List (List Char)) :
    Utf8.encode (lines.flatMap (· ++ ['\n'])) =
      (lines.map Utf8.encode).flatMap (· ++ [lineFeed]) := by
  induction lines with
  | nil => rfl
  | cons line lines ih =>
    simp only [Utf8.encode, List.flatMap_cons, List.flatMap_append, List.map_cons] at ih ⊢
    rw [ih]
    rfl

/-- Clean lines are read as they are written. -/
theorem linesOf_encode {lines : List (List Char)} (h : ∀ line ∈ lines, Clean line) :
    linesOf (Utf8.encode (lines.flatMap (· ++ ['\n']))) = lines := by
  have hfree : ∀ part ∈ lines.map Utf8.encode, lineFeed ∉ part := by
    refine List.forall_mem_map.2 fun line hline hmem => (h line hline).1 ?_
    exact Utf8.mem_of_mem_encode (by decide) hmem
  have hmarked : Bytes.Marked lineFeed (lines.map Utf8.encode) []
      (Utf8.encode (lines.flatMap (· ++ ['\n']))) :=
    ⟨by rw [encode_feeds, List.append_nil], hfree, List.not_mem_nil⟩
  have hread : ∀ line ∈ lines, dropLineEnds (Utf8.lossy (Utf8.encode line)) = line := by
    intro line hline
    rw [Utf8.lossy_encode, (h line hline).2]
  rw [linesOf, Bytes.cut_eq_parts hmarked]
  simpa [Bytes.parts, Function.comp_def] using List.map_congr_left hread

/-! ### Messages -/

/-- A line that carries a message on. -/
def Carries (line : List Char) : Prop := Clean line ∧ Line.classify line = .other line

/-- A message as the lines it was read from: the one that begins it, and those that carry it on. -/
structure Block where
  head : List Char
  more : List (List Char)
  head_clean : Clean head
  more_carries : ∀ line ∈ more, Carries line

namespace Block

variable (b : Block)

def text : List Char := State.joinLines (b.head :: b.more)

def lines : List (List Char) := (logLead ++ b.head) :: b.more

/-- Empty lines at the end are what a message loses when it is shown. -/
def shown : Block where
  head := b.head
  more := b.more.rdropWhile List.isEmpty
  head_clean := b.head_clean
  more_carries line h := b.more_carries line ((List.rdropWhile_prefix _ _).subset h)

theorem clean_of_mem_lines (h : line ∈ b.lines) : Clean line := by
  rcases List.mem_cons.1 h with rfl | h
  · have hlead : '\n' ∉ logLead := by decide
    refine ⟨List.not_mem_append hlead b.head_clean.1, ?_⟩
    by_cases hnil : b.head = []
    · rw [hnil]
      decide
    · exact dropLineEnds_append _ b.head_clean hnil
  · exact (b.more_carries line h).1

end Block

theorem joinLines_concat (head : List Char) (more : List (List Char)) (line : List Char) :
    State.joinLines (head :: (more ++ [line])) =
      State.joinLines (head :: more) ++ '\n' :: line := by
  induction more generalizing head with
  | nil => simp [State.joinLines, List.intercalate_cons_cons]
  | cons l more ih =>
    have hl := ih l
    simp only [State.joinLines, List.cons_append, List.intercalate_cons_cons] at hl ⊢
    simp [hl]

theorem dropLineEnds_joinLines (hhead : Clean head) (hmore : ∀ line ∈ more, Clean line) :
    dropLineEnds (State.joinLines (head :: more)) =
      State.joinLines (head :: more.rdropWhile List.isEmpty) := by
  induction more using List.reverseRecOn with
  | nil => simpa [State.joinLines] using hhead.2
  | append_singleton more line ih =>
    have hline : Clean line := hmore line (by simp)
    rw [joinLines_concat]
    by_cases hnil : line = []
    · rw [List.rdropWhile_concat_pos _ _ _ (by simp [hnil]), ← ih fun l hl =>
        hmore l (by simp [hl])]
      exact hnil ▸ List.rdropWhile_concat_pos isLineEnd _ '\n' rfl
    · rw [List.rdropWhile_concat_neg _ _ _ (by simp [hnil]), joinLines_concat]
      simpa using dropLineEnds_append (State.joinLines (head :: more) ++ ['\n']) hline hnil

theorem Block.dropLineEnds_text (b : Block) : dropLineEnds b.text = b.shown.text :=
  dropLineEnds_joinLines b.head_clean fun line h => (b.more_carries line h).1

theorem joinLines_feed (head : List Char) (more : List (List Char)) :
    State.joinLines (head :: more) ++ ['\n'] = (head :: more).flatMap (· ++ ['\n']) := by
  induction more generalizing head with
  | nil => simp [State.joinLines]
  | cons l more ih =>
    have hl := ih l
    simp only [State.joinLines, List.intercalate_cons_cons] at hl ⊢
    rw [List.flatMap_cons, ← hl]
    simp

/-! ### Reading -/

theorem eq_of_classify_log {message : List Char} (h : Line.classify line = .log message) :
    line = logLead ++ message := by
  unfold Line.classify at h
  split at h
  · next hlead =>
    cases h
    exact eq_append_of_after? hlead
  · repeat' split at h
    all_goals cases h

theorem eq_of_classify_other {text : List Char} (h : Line.classify line = .other text) :
    text = line := by
  unfold Line.classify at h
  repeat' split at h
  all_goals cases h
  rfl

/-- The messages of a state are made of blocks, also the one that is still open. -/
def Made (s : State) : Prop :=
  (∃ blocks : List Block, s.done = blocks.map Block.text) ∧
  ∀ lines, s.pending = some lines → ∃ b : Block, lines.reverse = b.head :: b.more

theorem made_start : Made State.start := ⟨⟨[], rfl⟩, by simp [State.start]⟩

theorem pending_close (s : State) : s.close.pending = none := by
  cases h : s.pending <;> simp [State.close, h]

theorem close_of_pending (h : s.pending = none) : s.close = s := by
  simp [State.close, h]

theorem made_close (h : Made s) : Made s.close := by
  refine ⟨?_, by simp [pending_close]⟩
  obtain ⟨⟨blocks, hdone⟩, hopen⟩ := h
  cases hp : s.pending with
  | none => exact ⟨blocks, by simpa [State.close, hp] using hdone⟩
  | some lines =>
    obtain ⟨b, hb⟩ := hopen lines hp
    exact ⟨b :: blocks, by simp [State.close, hp, hb, hdone, Block.text]⟩

/-- One more line begins a block, carries one on or completes it. -/
theorem made_step (h : Made s) (hline : Clean line) : Made (s.step (Line.classify line)) := by
  have hclose := made_close h
  cases hc : Line.classify line with
  | log message =>
    have hmessage : Clean message := (eq_of_classify_log hc ▸ hline).of_append
    refine ⟨hclose.1, fun lines hlines => ⟨⟨message, [], hmessage, by simp⟩, ?_⟩⟩
    rw [← Option.some.inj hlines]
    rfl
  | other text =>
    cases hp : s.pending with
    | none => simpa [State.step, hp] using hclose
    | some lines =>
      obtain ⟨b, hb⟩ := h.2 lines hp
      have hcarries : Carries line := ⟨hline, eq_of_classify_other hc ▸ hc⟩
      have hmore : ∀ l ∈ b.more ++ [line], Carries l := by
        intro l hl
        rcases List.mem_append.1 hl with hl | hl
        · exact b.more_carries l hl
        · exact List.mem_singleton.1 hl ▸ hcarries
      refine ⟨by simpa [State.step, hp] using h.1, fun kept hkept => ?_⟩
      simp only [State.step, hp, Option.some.injEq] at hkept
      refine ⟨⟨b.head, b.more ++ [line], b.head_clean, hmore⟩, ?_⟩
      rw [← hkept, List.reverse_cons, hb, eq_of_classify_other hc]
      rfl
  | cycles n => exact ⟨hclose.1, by simp [State.step, pending_close]⟩
  | warning message => exact hclose
  | status text => exact hclose

theorem made_after {lines : List (List Char)} (h : Made s) (hlines : ∀ line ∈ lines, Clean line) :
    Made (s.after lines) := by
  induction lines generalizing s with
  | nil => exact h
  | cons line lines ih =>
    have hstep := made_step h (hlines line List.mem_cons_self)
    exact ih hstep fun l hl => hlines l (List.mem_cons_of_mem _ hl)

theorem readLines_eq (lines : List (List Char)) :
    readLines lines = ⟨(State.start.after lines).close.cycles,
      (State.start.after lines).close.done.reverse.map String.ofList⟩ := rfl

theorem messages_read (bytes : List UInt8) :
    ∃ blocks : List Block, (read bytes).messages = blocks.map fun b => String.ofList b.text := by
  have hmade : Made (State.start.after (linesOf bytes)).close :=
    made_close (made_after made_start fun _ => clean_of_mem_linesOf)
  obtain ⟨⟨blocks, hdone⟩, -⟩ := hmade
  refine ⟨blocks.reverse, ?_⟩
  rw [read, readLines_eq, hdone, ← List.map_reverse, List.map_map]
  rfl

/-! ### Reading again -/

theorem after_append (s : State) (lines lines' : List (List Char)) :
    s.after (lines ++ lines') = (s.after lines).after lines' := List.foldl_append

theorem after_carries {lines : List (List Char)} (hp : s.pending = some lines)
    (h : ∀ line ∈ more, Carries line) :
    s.after more = { s with pending := some (more.reverse ++ lines) } := by
  induction more generalizing s lines with
  | nil => simp [State.after, ← hp]
  | cons line more ih =>
    have hline : s.step (Line.classify line) = { s with pending := some (line :: lines) } := by
      rw [(h line List.mem_cons_self).2]
      simp [State.step, hp]
    rw [State.after, List.foldl_cons, hline]
    refine (ih rfl fun l hl => h l (List.mem_cons_of_mem _ hl)).trans ?_
    simp

theorem classify_log (message : List Char) : Line.classify (logLead ++ message) = .log message := by
  rw [Line.classify, after?_append]

theorem after_block (s : State) (b : Block) :
    s.after b.lines = ⟨s.cycles, s.close.done, some (b.head :: b.more).reverse⟩ := by
  rw [State.after, Block.lines, List.foldl_cons, classify_log]
  refine (after_carries rfl b.more_carries).trans ?_
  simp [State.step, close_cycles]

/-- The lines of some blocks are read as their texts. -/
theorem after_blocks (s : State) (blocks : List Block) :
    (s.after (blocks.flatMap Block.lines)).close =
      ⟨s.cycles, (blocks.map Block.text).reverse ++ s.close.done, none⟩ := by
  induction blocks generalizing s with
  | nil =>
    have hpending := pending_close s
    have hcycles := close_cycles s
    simp [State.after, ← hpending, ← hcycles]
  | cons b blocks ih =>
    rw [List.flatMap_cons, after_append, ih, after_block]
    simp [State.close, Block.text]

/-! ### Cycles -/

theorem feed_not_mem_digits (n : Nat) : '\n' ∉ Nat.toDigits 10 n := by
  intro h
  have hdigit := Nat.isDigit_of_mem_toDigits (by decide) (by decide) h
  simp at hdigit

theorem feed_not_mem_oneDecimal (tenths : Nat) : '\n' ∉ (CycleText.oneDecimal tenths).toList := by
  have hdot : '\n' ∉ ".".toList := by decide
  simp only [CycleText.oneDecimal, String.toList_append, Nat.toString_eq_repr, Nat.toList_repr]
  exact List.not_mem_append (List.not_mem_append (feed_not_mem_digits _) hdot)
    (feed_not_mem_digits _)

theorem toList_bracketed (n : UInt64) (inner unit : String) :
    (Decimal.word n ++ ("(" ++ inner ++ (unit ++ ")"))).toList =
      Decimal.digits n.toNat ++ '(' :: (inner.toList ++ unit.toList ++ [')']) := by
  simp [Decimal.word]

/-- The digits of a count end its text, or the count in brackets follows them. -/
theorem cycleText_eq (n : UInt64) :
    ∃ suffix, (CycleText.text n).toList = Decimal.digits n.toNat ++ suffix ∧
      (suffix = [] ∨ ∃ inner, suffix = '(' :: (inner ++ [')']) ∧ '\n' ∉ inner) := by
  have hunit : '\n' ∉ "M".toList ∧ '\n' ∉ "K".toList := by decide
  rw [CycleText.text]
  by_cases hmega : CycleText.mega ≤ n.toNat
  · have htenths := feed_not_mem_oneDecimal (CycleText.tenths n CycleText.mega)
    rw [if_pos hmega]
    exact ⟨_, toList_bracketed n _ "M", Or.inr ⟨_, rfl, List.not_mem_append htenths hunit.1⟩⟩
  · by_cases hkilo : CycleText.kilo ≤ n.toNat
    · have htenths := feed_not_mem_oneDecimal (CycleText.tenths n CycleText.kilo)
      rw [if_neg hmega, if_pos hkilo]
      exact ⟨_, toList_bracketed n _ "K", Or.inr ⟨_, rfl, List.not_mem_append htenths hunit.2⟩⟩
    · rw [if_neg hmega, if_neg hkilo]
      exact ⟨[], by simp [Decimal.word], Or.inl rfl⟩

theorem leadingCount?_cycleText (n : UInt64) :
    leadingCount? (CycleText.text n).toList = some n := by
  obtain ⟨suffix, htext, hsuffix⟩ := cycleText_eq n
  have hall : ∀ c ∈ Decimal.digits n.toNat, c.isDigit = true := fun c hc =>
    Nat.isDigit_of_mem_toDigits (by decide) (by decide) hc
  have hstop : suffix.takeWhile Char.isDigit = [] := by
    rcases hsuffix with rfl | ⟨inner, rfl, -⟩
    · rfl
    · exact List.takeWhile_cons_of_neg (by decide)
  rw [leadingCount?, htext, List.takeWhile_append_of_pos hall, hstop, List.append_nil,
    Decimal.readWord?_digits]

/-- The words before a count of cycles are those that the reader looks for. -/
theorem toList_cyclesLine (n : UInt64) :
    (Report.cyclesLine (some n)).toList = cyclesLead ++ (CycleText.text n).toList := by
  have hlead : "Total cycles consumed:".toList ++ " ".toList = cyclesLead := rfl
  have hline : Report.cyclesLine (some n) =
      "Total cycles consumed:" ++ " " ++ CycleText.text n := rfl
  rw [hline, String.toList_append, String.toList_append, hlead]

theorem classify_cycles (n : UInt64) :
    Line.classify (Report.cyclesLine (some n)).toList = .cycles n := by
  have hlog : after? logLead (cyclesLead ++ (CycleText.text n).toList) = none := rfl
  rw [toList_cyclesLine, Line.classify, hlog, after?_append]
  simp only [Option.bind_some, leadingCount?_cycleText]

theorem clean_cycles (n : UInt64) : Clean (Report.cyclesLine (some n)).toList := by
  obtain ⟨suffix, htext, hsuffix⟩ := cycleText_eq n
  have hlead : '\n' ∉ cyclesLead := by decide
  have hfeed : '\n' ∉ suffix := by
    rcases hsuffix with rfl | ⟨inner, rfl, hinner⟩
    · exact List.not_mem_nil
    · simpa using hinner
  rw [toList_cyclesLine, htext]
  refine ⟨List.not_mem_append hlead (List.not_mem_append (feed_not_mem_digits _) hfeed), ?_⟩
  rcases hsuffix with rfl | ⟨inner, rfl, -⟩
  · have hne : Decimal.digits n.toNat ≠ [] := Nat.toDigits_ne_nil
    have hdigit := Nat.isDigit_of_mem_toDigits (by decide) (by decide) (List.getLast_mem hne)
    rw [List.append_nil]
    refine dropTailWhile_append_of_last _ hne (Bool.eq_false_iff.2 fun hend => ?_)
    rcases Bool.or_eq_true_iff.1 hend with h | h <;> rw [of_decide_eq_true h] at hdigit <;>
      simp at hdigit
  · have hsplit : cyclesLead ++ (Decimal.digits n.toNat ++ '(' :: (inner ++ [')'])) =
        (cyclesLead ++ Decimal.digits n.toNat ++ '(' :: inner) ++ [')'] := by simp
    rw [hsplit]
    exact dropTailWhile_append_of_last _ (List.cons_ne_nil _ _) rfl

/-! ### Renderings -/

/-- What a run shows of a reading: its messages, and its cycles if there are any. -/
def rendered (r : Reading) : String :=
  String.join (r.messages.map fun m => Report.logLine m ++ "\n") ++
    match r.cycles with
    | some n => Report.cyclesLine (some n) ++ "\n"
    | none => ""

/-- The closing line, if there is one. -/
def closing : Option UInt64 → List (List Char)
  | some n => [(Report.cyclesLine (some n)).toList]
  | none => []

theorem after_closing (s : State) (cycles : Option UInt64) :
    (s.after (closing cycles)).close =
      ⟨cycles.or s.close.cycles, s.close.done, s.close.pending⟩ := by
  cases cycles with
  | none => rfl
  | some n =>
    have hafter : s.after (closing (some n)) = { s.close with cycles := some n } := by
      rw [closing, State.after, List.foldl_cons, classify_cycles]
      rfl
    rw [hafter, Option.some_or]
    exact close_of_pending (pending_close s)

/-- A message is shown behind the words that the reader looks for, and loses the line ends that the
reader takes off a line. -/
theorem toList_logLine (message : String) :
    (Report.logLine message).toList = logLead ++ dropLineEnds message.toList := by
  have hlead : "Script log: ".toList = logLead := rfl
  have hends : Report.unended message = dropLineEnds message.toList := rfl
  rw [Report.logLine, String.toList_append, hlead, String.toList_ofList, hends]

theorem logLine_dropLineEnds (message : String) :
    Report.logLine (String.ofList (dropLineEnds message.toList)) = Report.logLine message := by
  rw [← String.toList_inj, toList_logLine, toList_logLine, String.toList_ofList,
    dropLineEnds_idempotent]

theorem logLine_text (b : Block) :
    (Report.logLine (String.ofList b.text)).toList ++ ['\n'] =
      b.shown.lines.flatMap (· ++ ['\n']) := by
  calc
    (Report.logLine (String.ofList b.text)).toList ++ ['\n']
      = logLead ++ (b.shown.text ++ ['\n']) := by
      rw [toList_logLine, String.toList_ofList, b.dropLineEnds_text, List.append_assoc]
    _ = logLead ++ (b.shown.head :: b.shown.more).flatMap (· ++ ['\n']) := by
      rw [Block.text, joinLines_feed]
    _ = b.shown.lines.flatMap (· ++ ['\n']) := by simp [Block.lines]

theorem rendered_toList (cycles : Option UInt64) (blocks : List Block) :
    (rendered ⟨cycles, blocks.map fun b => String.ofList b.text⟩).toList =
      ((blocks.map Block.shown).flatMap Block.lines ++ closing cycles).flatMap (· ++ ['\n']) := by
  have hlogs : (String.join ((blocks.map fun b => String.ofList b.text).map
      fun m => Report.logLine m ++ "\n")).toList =
      ((blocks.map Block.shown).flatMap Block.lines).flatMap (· ++ ['\n']) := by
    induction blocks with
    | nil => rfl
    | cons b blocks ih =>
      simp only [List.map_cons, String.join_cons, String.toList_append, ih, List.flatMap_cons,
        List.flatMap_append, ← logLine_text]
      rfl
  rw [List.flatMap_append, ← hlogs, rendered, String.toList_append]
  cases cycles with
  | none => rfl
  | some n => simp [closing]

theorem clean_of_mem_rendered {cycles : Option UInt64} {blocks : List Block}
    (h : line ∈ blocks.flatMap Block.lines ++ closing cycles) : Clean line := by
  rcases List.mem_append.1 h with h | h
  · obtain ⟨b, -, hb⟩ := List.mem_flatMap.1 h
    exact b.clean_of_mem_lines hb
  · cases cycles with
    | none => simp [closing] at h
    | some n => exact List.mem_singleton.1 h ▸ clean_cycles n

theorem read_rendered_blocks (cycles : Option UInt64) (blocks : List Block) :
    read (Utf8.encode (rendered ⟨cycles, blocks.map fun b => String.ofList b.text⟩).toList) =
      ⟨cycles, blocks.map fun b => String.ofList (dropLineEnds b.text)⟩ := by
  have hshown : (blocks.map Block.shown).map Block.text = blocks.map fun b =>
      dropLineEnds b.text := by
    simp [Block.dropLineEnds_text]
  rw [rendered_toList, read, linesOf_encode fun _ => clean_of_mem_rendered, readLines_eq,
    after_append, after_closing, after_blocks, hshown]
  simp [State.start, State.close, Function.comp_def]

/-- A rendering is read as the same cycles and the same messages, apart from the line ends behind
these. -/
theorem read_rendered_read (bytes : List UInt8) :
    read (Utf8.encode (rendered (read bytes)).toList) = ⟨(read bytes).cycles,
      (read bytes).messages.map fun m => String.ofList (dropLineEnds m.toList)⟩ := by
  obtain ⟨blocks, hblocks⟩ := messages_read bytes
  have hread : read bytes = ⟨(read bytes).cycles, blocks.map fun b => String.ofList b.text⟩ := by
    rw [← hblocks]
  have htexts := read_rendered_blocks (read bytes).cycles blocks
  rw [← hread] at htexts
  simp [htexts, hblocks, Function.comp_def]

/-- Line ends behind a message are not shown. -/
theorem rendered_dropLineEnds (cycles : Option UInt64) (messages : List String) :
    rendered ⟨cycles, messages.map fun m => String.ofList (dropLineEnds m.toList)⟩ =
      rendered ⟨cycles, messages⟩ := by
  simp [rendered, logLine_dropLineEnds, Function.comp_def]

end ScriptProbe.Transcript
