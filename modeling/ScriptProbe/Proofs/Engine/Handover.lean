import ScriptProbe.Proofs.Engine.Answer
import ScriptProbe.Proofs.Engine.Echo
import ScriptProbe.Proofs.Json.Order

/-! What crosses the boundary of a library: the text of a fixture always, and the texts of a request
unless one of them holds a NUL. The echo library gets them as they are, and what it says of them is
read as it is meant. -/
namespace ScriptProbe.Library

open ScriptProbe.Text

variable {l : Library} {path : Path} {f : Fixture} {r : Request} {i : Invocation} {streamed : Bool}
  {part : String}

/-! ### Fixtures -/

theorem holdsNul_toText (f : Fixture) : holdsNul f.toText = false := by
  rw [Bool.eq_false_iff, ne_eq, holdsNul_iff]
  intro hnul
  exact absurd (Json.bytes_toText f.document 0 hnul) (by decide)

/-- So only the texts of the request are ever complained of. -/
theorem offender?_invocation (f : Fixture) (r : Request) :
    offender? (parts (f.invocation r)) = offender? (chosen r) := by
  simp [offender?, parts, Fixture.invocation, holdsNul_toText]

/-! ### Calls through an engine -/

/-- The call that an engine makes. -/
def quietCall (i : Invocation) (streamed : Bool) : Call :=
  ⟨if streamed then some quietPrinter else none, i⟩

theorem handler_quietCall (i : Invocation) (streamed : Bool) :
    (quietCall i streamed).handler = quietPrinter := by
  cases streamed <;> rfl

theorem trace_of_offender (h : offender? (parts i) = some part) (l : Library) (path : Path)
    (printer : Option Printer) (freed : Nat) :
    l.trace path printer i freed = ⟨[], [], .answered (.error (.interiorNul part)), freed⟩ := by
  have hforeign := foreignCall_eq ⟨printer, i⟩
  simp only [h] at hforeign
  simp only [Library.trace, hforeign]

theorem invoke_of_offender (h : offender? (chosen r) = some part) (l : Library) (path : Path)
    (f : Fixture) (streamed : Bool) :
    (l.engine path).invoke f r streamed = ⟨.error (.invocation (.interiorNul part)), [], []⟩ := by
  have htrace := trace_of_offender ((offender?_invocation f r).trans h) l path
  have hcall : (l.engine path).call streamed (f.invocation r) =
      ⟨[], .error (.invocation (.interiorNul part)), []⟩ := by
    simp only [Library.engine, htrace]
    rfl
  rw [Engine.invoke_of_mute _ _ _ (by rw [hcall]), Engine.heard, hcall]
  rfl

theorem free_of_offender (h : offender? (parts i) = none) (printer : Option Printer) :
    ¬(⟨printer, i⟩ : Call).HoldsNul := by
  rw [holdsNul_iff_offender]
  rintro ⟨part, hpart⟩
  exact nomatch h.symm.trans hpart

theorem entered_of_free (h : offender? (parts i) = none) (l : Library) (path : Path)
    (printer : Option Printer) (freed : Nat) : (l.trace path printer i freed).entered = true := by
  have htrace := trace_of_free l path (free_of_offender h printer) freed
  rw [Call.trace] at htrace
  rw [htrace, Trace.entered, conclude_events rfl]
  simp [eventsOf]

/-- How a call is answered with what its library hands out. -/
def answerOf (path : Path) : ForeignText → Except InvocationFault String
  | some bytes => .ok (received (some bytes))
  | none => .error (.noResult path)

/-- A call ends alike for every printer that does not break down, which hears all that the library
says. -/
theorem ending_of_calm {c : Call} (hfree : ¬c.HoldsNul)
    (hcalm : Calm c.handler ((l.performance c).prints.filterMap message?)) (path : Path)
    (freed : Nat) :
    (c.trace l path freed).ending = .answered (answerOf path (l.performance c).result) ∧
      (c.trace l path freed).printed = (l.performance c).prints.filterMap message? := by
  have hdeliver := deliver_of_calm hcalm
  rw [trace_of_free l path hfree freed]
  refine ⟨?_, conclude_printed hdeliver⟩
  cases hresult : (l.performance c).result with
  | none => exact conclude_of_mute hdeliver hresult
  | some bytes => exact conclude_of_handed hdeliver hresult

theorem answer_of_free (h : offender? (parts i) = none) (l : Library) (path : Path)
    (streamed : Bool) :
    ((l.engine path).call streamed i).answer =
      (answerOf path (l.performance (quietCall i streamed)).result).mapError .invocation := by
  have hcalm : Calm (quietCall i streamed).handler
      ((l.performance (quietCall i streamed)).prints.filterMap message?) :=
    handler_quietCall i streamed ▸ calm_quietPrinter _
  have hending : (l.trace path (if streamed then some quietPrinter else none) i 0).ending = _ :=
    (ending_of_calm (free_of_offender h _) hcalm path 0).1
  simp only [Library.engine, hending]
  rfl

/-- A library finds the texts of a call in what it is handed. -/
structure Receives (i : Invocation) (call : ForeignCall) : Prop where
  fixture : String.ofList (Utf8.lossy call.fixture) = i.fixture
  group : String.ofList (Utf8.lossy call.group) = i.request.group
  hash : String.ofList (Utf8.lossy call.hash) = i.request.hash
  cycleLimit : String.ofList (Utf8.lossy call.cycleLimit) = i.request.cycleLimit

theorem receives_foreign (c : Call) : Receives c.invocation c.foreign := by
  constructor <;> rw [Call.foreign, Utf8.lossy_encode, String.ofList_toList]

theorem foreignCall_eq_error {fault : InvocationFault} (f : Fixture) (r : Request) :
    foreignCall (f.invocation r) = .error fault ↔
      ∃ part, offender? (chosen r) = some part ∧ fault = .interiorNul part := by
  rw [foreignCall_eq ⟨none, f.invocation r⟩, offender?_invocation]
  cases offender? (chosen r) <;> simp [eq_comm]

end ScriptProbe.Library

namespace ScriptProbe.Echo

open ScriptProbe.Text ScriptProbe.Json Library

variable {c : Call} {call : ForeignCall} {path : Path} {f : Fixture} {r : Request} {i : Invocation}
  {streamed : Bool} {part : String}

/-! ### What the library says -/

/-- What is said of the texts of a call. -/
def echoed (i : Invocation) : List (String × Json) :=
  [("group", .str i.request.group), ("hash", .str i.request.hash),
    ("tx_len", .int (Utf8.encode i.fixture.toList).length)]

/-- What is said of its outcome. -/
def verdict (i : Invocation) : Answer := Answer.ofOutcome (outcome i.request.cycleLimit.toList)

theorem document_foreign (c : Call) :
    document c.foreign = .obj ((verdict c.invocation).members ++ echoed c.invocation) := by
  simp only [document, Call.foreign, Utf8.lossy_encode, String.ofList_toList, Utf8.size_eq_length]
  rfl

/-- One of the two is told, the cycles or an error. -/
theorem verdict_either (i : Invocation) :
    ((verdict i).cycle.isSome ^^ (verdict i).error.isSome) = true := by
  rw [verdict]
  cases outcome i.request.cycleLimit.toList <;> rfl

theorem verdict_error (i : Invocation) :
    (verdict i).error ≠ none ↔
      Decimal.readWord? i.request.cycleLimit.toList = none ∨
        ∃ n, Decimal.readWord? i.request.cycleLimit.toList = some n ∧ n < cycles := by
  rw [verdict, outcome]
  cases hlimit : Decimal.readWord? i.request.cycleLimit.toList with
  | none => simp [Answer.ofOutcome]
  | some n => by_cases hn : n < cycles <;> simp [Answer.ofOutcome, hn]

/-! ### How it is read -/

theorem ascending_said (a : Answer) (i : Invocation) : Ascending (a.members ++ echoed i) := by
  have hkeys : (a.members ++ echoed i).map Prod.fst =
      ["cycle", "error", "group", "hash", "tx_len"] := rfl
  have hascending : ["cycle", "error", "group", "hash", "tx_len"].Pairwise (· < ·) := by decide
  rw [← hkeys, List.pairwise_map] at hascending
  exact hascending

theorem holds_length {n : Nat} (h : n < UInt64.size) : Holds n := by
  have hsize : UInt64.size = 0x10000000000000000 := rfl
  exact ⟨by omega, by omega⟩

theorem plain_members (a : Answer) : ∀ m ∈ a.members, Plain m.2 := by
  obtain ⟨cycle, error⟩ := a
  intro m hm
  simp only [Answer.members, List.mem_cons, List.not_mem_nil, or_false] at hm
  rcases hm with rfl | rfl
  · cases cycle with
    | none => trivial
    | some n => exact holds_length n.toNat_lt_size
  · cases error <;> trivial

theorem whole_said (a : Answer) (hsize : (Utf8.encode i.fixture.toList).length < UInt64.size) :
    Whole (.obj (a.members ++ echoed i)) := by
  refine .obj fun m hm => ?_
  rcases List.mem_append.1 hm with hm | hm
  · cases Answer.whole_view a with
    | obj h => exact h m hm
  · simp only [echoed, List.mem_cons, List.not_mem_nil, or_false] at hm
    rcases hm with rfl | rfl | rfl
    · exact .str _
    · exact .str _
    · exact .int (holds_length hsize)

theorem formed_said (a : Answer) (hsize : (Utf8.encode i.fixture.toList).length < UInt64.size) :
    Formed maxNesting (.obj (a.members ++ echoed i)) := by
  refine .obj (ascending_said a i) fun m hm => .plain ?_
  rcases List.mem_append.1 hm with hm | hm
  · exact plain_members a m hm
  · simp only [echoed, List.mem_cons, List.not_mem_nil, or_false] at hm
    rcases hm with rfl | rfl | rfl
    · trivial
    · trivial
    · exact holds_length hsize

theorem read_said (a : Answer) (hsize : (Utf8.encode i.fixture.toList).length < UInt64.size) :
    Answer.read (Json.obj (a.members ++ echoed i)).toText =
      .ok (.obj (a.members ++ echoed i), a) := by
  have hformed := formed_said a hsize
  have hparse := parse_toText (whole_said a hsize) hformed.nests
  rw [hformed.canonical] at hparse
  simp only [Answer.read, hparse, Answer.form_members]

/-! ### Calls -/

theorem answer_of_sounding (h : ¬Silent c) :
    answer c.foreign =
      some (Utf8.encode
        (Json.obj ((verdict c.invocation).members ++ echoed c.invocation)).toText.toList) := by
  rw [answer_eq, if_neg (mt (group_foreign c).1 h), document_foreign, toText, String.toList_ofList]

theorem answer_eq_none : answer c.foreign = none ↔ Silent c := by
  rw [← Option.not_isSome_iff_eq_none, answer_foreign, decide_eq_true_iff, not_not]

theorem result_eq_none (c : Call) :
    ((library.run c.foreign).result = none ↔ Silent c) ∧
    ((library.runWithPrinter c.foreign).result = none ↔ Silent c) := by
  simp only [library, answer_eq_none, and_self]

theorem engine_answer (h : offender? (parts i) = none) (path : Path) (streamed : Bool) :
    ((library.engine path).call streamed i).answer =
      (answerOf path (answer (quietCall i streamed).foreign)).mapError .invocation := by
  rw [answer_of_free h library path streamed, result_performance]

theorem answer_noResult (h : offender? (parts i) = none) :
    ((library.engine path).call streamed i).answer = .error (.invocation (.noResult path)) ↔
      i.request.group = "null" := by
  rw [engine_answer h]
  by_cases hsilent : Silent (quietCall i streamed)
  · rw [answer_eq_none.2 hsilent]
    exact iff_of_true rfl hsilent
  · rw [answer_of_sounding hsilent]
    exact iff_of_false nofun hsilent

theorem answer_sounding (h : offender? (parts i) = none) (hsounding : i.request.group ≠ "null")
    (path : Path) (streamed : Bool) :
    ((library.engine path).call streamed i).answer =
      .ok (Json.obj ((verdict i).members ++ echoed i)).toText := by
  have hsilent : ¬Silent (quietCall i streamed) := hsounding
  rw [engine_answer h, answer_of_sounding hsilent, answerOf, received_encode]
  rfl

/-- The text of a fixture holds no control character, so a call is refused exactly for a NUL in its
request, in the name of the first text that holds one, and then no library is entered. The echo
library gets every other call as it is. It says nothing where the group is `null`; otherwise it
gives back the group and the hash with the length of the fixture, and one of its cycles and an
error, which is told of a limit that is no count or that is too low. Lengths are those of texts in
memory, which fit a machine word. -/
theorem echoes (f : Fixture) (r : Request) (path : Path) (streamed : Bool) :
    let i := f.invocation r
    let bytes := Utf8.encode f.toText.toList
    let said := ((library.engine path).call streamed i).answer
    (∀ b ∈ bytes, 0x20 ≤ b.toNat) ∧
    (∀ fault, foreignCall i = .error fault ↔
      ∃ part, offender? (chosen r) = some part ∧ fault = .interiorNul part) ∧
    (∀ part, offender? (chosen r) = some part → ∀ l : Library,
      (∀ printer freed,
        l.trace path printer i freed = ⟨[], [], .answered (.error (.interiorNul part)), freed⟩) ∧
      (l.engine path).invoke f r streamed = ⟨.error (.invocation (.interiorNul part)), [], []⟩) ∧
    (offender? (chosen r) = none →
      (∀ (l : Library) printer freed, (l.trace path printer i freed).entered = true) ∧
      ∃ call, foreignCall i = .ok call ∧ Receives i call ∧
        ((library.run call).result = none ↔ r.group = "null") ∧
        ((library.runWithPrinter call).result = none ↔ r.group = "null") ∧
        (said = .error (.invocation (.noResult path)) ↔ r.group = "null") ∧
        (r.group ≠ "null" → bytes.length < UInt64.size →
          ∃ raw a, said = .ok raw ∧
            Answer.read raw = .ok (.obj (a.members ++
              [("group", .str r.group), ("hash", .str r.hash), ("tx_len", .int bytes.length)]), a) ∧
            (a.cycle.isSome ^^ a.error.isSome) = true ∧
            (a.error ≠ none ↔ Decimal.readWord? r.cycleLimit.toList = none ∨
              ∃ n, Decimal.readWord? r.cycleLimit.toList = some n ∧ n < cycles))) := by
  intro i bytes said
  refine ⟨Json.bytes_toText f.document, fun fault => foreignCall_eq_error f r, ?_, ?_⟩
  · intro part hpart l
    exact ⟨trace_of_offender ((offender?_invocation f r).trans hpart) l path,
      invoke_of_offender hpart l path f streamed⟩
  · intro hnone
    have hfree : offender? (parts i) = none := (offender?_invocation f r).trans hnone
    have hcall := foreignCall_of_free (free_of_offender hfree none)
    obtain ⟨hrun, hprinter⟩ := result_eq_none ⟨none, i⟩
    refine ⟨fun l printer freed => entered_of_free hfree l path printer freed, _, hcall,
      receives_foreign ⟨none, i⟩, hrun, hprinter, answer_noResult hfree, ?_⟩
    intro hsounding hsize
    exact ⟨_, verdict i, answer_sounding hfree hsounding path streamed, read_said (verdict i) hsize,
      verdict_either i, verdict_error i⟩

/-- An empty object is two bytes long. -/
theorem echoes_braces :
    ∃ raw a,
      ((library.engine (.ofText "echo.so")).call false
        (Fixture.invocation ⟨none, .obj []⟩ ⟨"lock", "\x01", "4096"⟩)).answer =
        .ok raw ∧
      Answer.read raw = .ok (.obj (a.members ++
        [("group", .str "lock"), ("hash", .str "\x01"), ("tx_len", .int 2)]), a) ∧
        a.error = none := by
  obtain ⟨-, -, -, h⟩ := echoes ⟨none, .obj []⟩ ⟨"lock", "\x01", "4096"⟩ (.ofText "echo.so") false
  obtain ⟨-, call, -, -, -, -, -, hanswer⟩ := h (by decide)
  obtain ⟨raw, a, hraw, hread, -, herror⟩ := hanswer (by decide) (by decide)
  have hlimit : Decimal.readWord? "4096".toList = some cycles := by decide +kernel
  refine ⟨raw, a, hraw, hread, ?_⟩
  by_contra hne
  obtain hnone | ⟨n, hn, hlow⟩ := herror.1 hne
  · exact nomatch hlimit.symm.trans hnone
  · obtain rfl := Option.some.inj (hlimit.symm.trans hn)
    exact absurd hlow (by decide)

end ScriptProbe.Echo
