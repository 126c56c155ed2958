import ScriptProbe.Proofs.Engine.Library
import ScriptProbe.Proofs.Json.Printable

/-! Calls of the echo library, one after another: which of them hand out a text, who hears their
messages and how they end. -/
namespace ScriptProbe.Echo

open ScriptProbe.Text Library

variable {c : Call} {path : Path} {breakdown : Option String} {words : String}

/-- The library has no answer to the call. -/
def Silent (c : Call) : Prop := c.invocation.request.group = "null"

instance (c : Call) : Decidable (Silent c) := inferInstanceAs (Decidable (_ = _))

/-- What the library has to say to the printer of a call, if there is one. -/
def spoken (c : Call) : List Message :=
  if c.printer.isSome then messages.map fun text => ⟨c.invocation.request.hash, text⟩ else []

theorem received_encode (s : String) : received (some (Utf8.encode s.toList)) = s := by
  rw [received, Option.getD_some, Utf8.lossy_encode, String.ofList_toList]

/-- Nothing that is written as JSON has a NUL in it. -/
theorem handBack_compact (v : Json) : handBack v.compact = some (Utf8.encode v.compact) := by
  have hfree : 0 ∉ Utf8.encode v.compact := fun hnul =>
    absurd (Json.bytes_of_printable (Json.printable_compact v) 0 hnul) (by decide)
  simp [handBack, hfree]

theorem answer_eq (call : ForeignCall) :
    answer call =
      if Utf8.lossy call.group = silentGroup then none
        else some (Utf8.encode (document call).compact) := by
  rw [answer, handBack_compact]

theorem group_foreign (c : Call) : Utf8.lossy c.foreign.group = silentGroup ↔ Silent c := by
  rw [Call.foreign, Utf8.lossy_encode, silentGroup, String.toList_inj]
  rfl

theorem answer_foreign (c : Call) : (answer c.foreign).isSome = decide (¬Silent c) := by
  by_cases hsilent : Silent c
  · simp [answer_eq, (group_foreign c).2 hsilent, hsilent]
  · have hne := mt (group_foreign c).1 hsilent
    simp [answer_eq, hne, hsilent]

theorem result_performance (c : Call) : (library.performance c).result = answer c.foreign := by
  cases hprinter : c.printer <;> simp [performance, library, hprinter]

theorem prints_performance (c : Call) :
    (library.performance c).prints.filterMap message? = spoken c := by
  cases hprinter : c.printer with
  | none => simp [performance, spoken, hprinter]
  | some printer =>
    have hprints : (library.performance c).prints =
        messages.map fun text => ⟨true, some c.foreign.hash, some (Utf8.encode text.toList)⟩ := by
      simp [performance, library, hprinter]
    simp [hprints, spoken, hprinter, message?, Function.comp_def, Call.foreign, received_encode]

/-- The library takes part in every call whose texts can be handed over. -/
theorem trace_free (path : Path) (h : ¬c.HoldsNul) (freed : Nat) :
    let t := c.trace library path freed
    ∃ breakdown, Delivered c.handler (spoken c) t.printed breakdown ∧
      t.events = eventsOf t.printed breakdown (decide (¬Silent c)) ∧
      (∀ words, breakdown = some words → t.ending = .raised words) ∧
      (breakdown = none → Silent c → t.ending = .answered (.error (.noResult path))) ∧
      (breakdown = none → ¬Silent c → ∃ text, t.ending = .answered (.ok text)) := by
  intro t
  obtain ⟨given, breakdown, hdeliver⟩ : ∃ given breakdown,
    deliver c.handler [] (library.performance c).prints = (given, breakdown) := ⟨_, _, rfl⟩
  have hdelivered := delivered_deliver hdeliver
  have hevents : (conclude library path c.handler (library.performance c) freed).events =
      eventsOf given breakdown (library.performance c).result.isSome := conclude_events hdeliver
  rw [prints_performance] at hdelivered
  rw [result_performance, answer_foreign] at hevents
  rw [show t = _ from trace_of_free library path h freed, conclude_printed hdeliver]
  refine ⟨breakdown, hdelivered, hevents, ?_, ?_, ?_⟩
  · rintro words rfl
    exact conclude_of_broke hdeliver
  · rintro rfl hsilent
    apply conclude_of_mute hdeliver
    rw [result_performance, ← Option.not_isSome_iff_eq_none, answer_foreign]
    simpa using hsilent
  · rintro rfl hsilent
    have hsome : (library.performance c).result.isSome = true := by
      rw [result_performance, answer_foreign]
      exact decide_eq_true hsilent
    obtain ⟨bytes, hbytes⟩ := Option.isSome_iff_exists.1 hsome
    exact ⟨_, conclude_of_handed hdeliver hbytes⟩

theorem counts_library : library.Counts := fun _ _ => rfl

/-- After every history of calls the library has got back each text that it handed out, and on the
way never one that was not out; its own count is that of the releases. A call with a NUL in one of
its texts does not enter it. In every other call the printer hears the messages up to its first
breakdown, one text is handed out and given back unless the library is silent, and only then the
words of the breakdown are raised, also where no text came. -/
theorem history_settled (path : Path) (calls : List Call) :
    Balanced (history library path 0 calls) ∧
    freedAfter library path 0 calls = (history library path 0 calls).count .released ∧
    ∀ c : Call,
      let freed := freedAfter library path 0 calls
      let freed' := freedAfter library path 0 (calls ++ [c])
      let t := c.trace library path freed
      (c.HoldsNul → freed' = freed ∧ t.entered = false ∧ t.printed = [] ∧
        ∃ part, t.ending = .answered (.error (.interiorNul part))) ∧
      (¬c.HoldsNul → freed' = freed + (if Silent c then 0 else 1) ∧ t.entered = true ∧
        ∃ breakdown, Delivered c.handler (spoken c) t.printed breakdown ∧
          t.events = eventsOf t.printed breakdown (decide (¬Silent c)) ∧
          (∀ words, breakdown = some words → t.ending = .raised words) ∧
          (breakdown = none → Silent c → t.ending = .answered (.error (.noResult path))) ∧
          (breakdown = none → ¬Silent c → ∃ text, t.ending = .answered (.ok text))) := by
  have hcount := freedAfter_eq counts_library path 0 calls
  rw [Nat.zero_add] at hcount
  refine ⟨balanced_history library path 0 calls, hcount, ?_⟩
  intro c freed freed' t
  have hgrowth : freed' = freed + t.events.count .released :=
    (freedAfter_concat library path 0 calls c).trans (freed_trace counts_library c)
  refine ⟨?_, ?_⟩
  · intro hnul
    obtain ⟨part, htrace⟩ := trace_of_nul library path hnul freed
    rw [show t = _ from htrace] at hgrowth ⊢
    exact ⟨hgrowth, rfl, rfl, part, rfl⟩
  · intro hfree
    obtain ⟨breakdown, hdelivered, hevents, hending⟩ := trace_free path hfree freed
    refine ⟨?_, ?_, breakdown, hdelivered, hevents, hending⟩
    · rw [hgrowth, hevents, count_released_eventsOf]
      by_cases hsilent : Silent c <;> simp [hsilent]
    · rw [Trace.entered, hevents]
      simp [eventsOf]

/-- A printer that breaks down over the second message. -/
def fragile : Printer := fun seen => if seen.length = 2 then some "enough" else none

/-- A call that the library answers, unless the group says otherwise. -/
def fragileCall (group : String) : Call := ⟨some fragile, "{}", group, "0x00", "5000"⟩

theorem fragile_breaks {group : String} {heard : List Message}
    (h : Delivered fragile (spoken (fragileCall group)) heard breakdown) :
    breakdown = some "enough" ∧ heard.length = 2 := by
  cases hbreakdown : breakdown with
  | none =>
    have hheard : heard = spoken (fragileCall group) := h.whole hbreakdown
    have hcalm := h.calm heard List.prefix_rfl (by simp [hheard, spoken, fragileCall, messages])
      (Or.inr hbreakdown)
    simp [hheard, spoken, fragileCall, messages, fragile] at hcalm
  | some words =>
    obtain ⟨-, hwords⟩ := h.broke words hbreakdown
    simp only [fragile, List.length_reverse] at hwords
    split at hwords
    · next hlength => exact ⟨hwords.symm, hlength⟩
    · cases hwords

theorem history_settled_fragile :
    freedAfter library (.ofText "echo.so") 0 [fragileCall "lock", fragileCall "null"] = 1 ∧
      ((fragileCall "lock").trace library (.ofText "echo.so") 0).printed.length = 2 ∧
      ((fragileCall "null").trace library (.ofText "echo.so") 1).ending = .raised "enough" := by
  have hlock : ¬(fragileCall "lock").HoldsNul := by decide
  have hnull : ¬(fragileCall "null").HoldsNul := by decide
  obtain ⟨-, -, hcalls⟩ := history_settled (.ofText "echo.so") []
  obtain ⟨-, -, hcalls'⟩ := history_settled (.ofText "echo.so") [fragileCall "lock"]
  obtain ⟨hfreed, -, breakdown, hheard, -⟩ := (hcalls (fragileCall "lock")).2 hlock
  obtain ⟨hfreed', -, breakdown', hheard', -, hraised, -⟩ := (hcalls' (fragileCall "null")).2 hnull
  have hone : freedAfter library (.ofText "echo.so") 0 [fragileCall "lock"] = 1 := hfreed
  refine ⟨?_, (fragile_breaks hheard).2, ?_⟩
  · rw [hone] at hfreed'
    exact hfreed'
  · rw [hone] at hheard' hraised
    exact hraised "enough" (fragile_breaks hheard').1

end ScriptProbe.Echo
