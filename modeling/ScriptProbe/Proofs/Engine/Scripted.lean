import Mathlib.Data.List.Induction
import ScriptProbe.Engine.Scripted
import ScriptProbe.Proofs.Engine.Answer
import ScriptProbe.Proofs.Engine.Parameters

/-! What a scripted engine answers: what was registered last for the hash decides, and no call bears
on another. -/
namespace ScriptProbe.Scripted

variable {s s' : Scripted} {regs : List (String × Performer)} {p : Performer} {q : Parameters}
    {i : Invocation}
  {d : Digest} {hash limit : String} {m n : UInt64} {streamed : Bool}

/-! ### Registrations -/

/-- The engine after some registrations in order, each under the text of a hash. -/
def built (regs : List (String × Performer)) : Except String Scripted :=
  regs.foldlM (fun s r => s.registerText r.1 r.2) empty

/-- What is registered last for a hash. -/
def last? (regs : List (String × Performer)) (hash : Digest) : Option Performer :=
  (regs.reverse.find? fun r => Digest.ofText? r.1 = some hash).map (·.2)

theorem last?_concat (regs : List (String × Performer)) (h : Digest.ofText? hash = some d)
    (other : Digest) :
    last? (regs ++ [(hash, p)]) other = if other = d then some p else last? regs other := by
  by_cases hother : other = d
  · simp [last?, h, hother]
  · simp [last?, h, hother, Ne.symm hother]

theorem lookup_filter_ne (known : List (Digest × Performer)) {other : Digest} (h : other ≠ d) :
    (known.filter (·.1 ≠ d)).lookup other = known.lookup other := by
  induction known with
  | nil => rfl
  | cons first known ih =>
    obtain ⟨key, found⟩ := first
    by_cases hkey : key = d
    · have hbeq : (other == key) = false := beq_eq_false_iff_ne.2 (hkey ▸ h)
      simpa [hkey, List.lookup_cons, hkey ▸ hbeq] using ih
    · rw [List.filter_cons_of_pos (by simpa using hkey), List.lookup_cons, List.lookup_cons, ih]

theorem lookup_register (s : Scripted) (d : Digest) (p : Performer) (other : Digest) :
    (s.register d p).performers.lookup other =
      if other = d then some p else s.performers.lookup other := by
  rw [register, List.lookup_cons]
  by_cases hother : other = d
  · simp [hother]
  · rw [beq_eq_false_iff_ne.2 hother, if_neg hother]
    exact lookup_filter_ne s.performers hother

theorem registerText_eq_ok :
    s.registerText hash p = .ok s' ↔ ∃ d, Digest.ofText? hash = some d ∧ s' = s.register d p := by
  rw [registerText, Parameters.readHash]
  cases Digest.ofText? hash <;> simp [eq_comm]

theorem built_concat_eq_ok {r : String × Performer} :
    built (regs ++ [r]) = .ok s' ↔ ∃ s, built regs = .ok s ∧ s.registerText r.1 r.2 = .ok s' := by
  have hbuilt : built (regs ++ [r]) = built regs >>= fun s => s.registerText r.1 r.2 := by
    simp [built]
  rw [hbuilt]
  cases built regs <;> simp [bind, Except.bind]

/-- Every engine can be built whose hashes can be read. -/
theorem exists_built_iff :
    (∃ s, built regs = .ok s) ↔ ∀ r ∈ regs, ∃ d, Digest.ofText? r.1 = some d := by
  induction regs using List.reverseRecOn with
  | nil => exact iff_of_true ⟨empty, rfl⟩ (by simp)
  | append_singleton regs r ih =>
    simp only [built_concat_eq_ok, registerText_eq_ok, List.forall_mem_append,
      List.forall_mem_singleton, ← ih]
    constructor
    · rintro ⟨s', s, hs, d, hd, -⟩
      exact ⟨⟨s, hs⟩, d, hd⟩
    · rintro ⟨⟨s, hs⟩, d, hd⟩
      exact ⟨_, s, hs, d, hd, rfl⟩

/-- What holds of the engine without scripts and outlives every registration holds of every
engine. -/
theorem built_induction {motive : List (String × Performer) → Scripted → Prop}
    (nil : motive [] empty)
    (register : ∀ regs s hash d p, Digest.ofText? hash = some d → motive regs s →
      motive (regs ++ [(hash, p)]) (s.register d p))
    (h : built regs = .ok s) : motive regs s := by
  induction regs using List.reverseRecOn generalizing s with
  | nil =>
    obtain rfl := Except.ok.inj h
    exact nil
  | append_singleton regs r ih =>
    obtain ⟨before, hbefore, hregister⟩ := built_concat_eq_ok.1 h
    obtain ⟨d, hd, rfl⟩ := registerText_eq_ok.1 hregister
    exact register regs before r.1 d r.2 hd (ih hbefore)

/-- A later registration takes the place of an earlier one, however either writes the hash. -/
theorem lookup_built (h : built regs = .ok s) (hash : Digest) :
    s.performers.lookup hash = last? regs hash := by
  refine built_induction
    (motive := fun regs s => s.performers.lookup hash = last? regs hash) rfl ?_ h
  intro regs s text d p hd ih
  rw [lookup_register, last?_concat regs hd, ih]

theorem calls_built (h : built regs = .ok s) : s.calls = [] :=
  built_induction (motive := fun _ s => s.calls = []) rfl (fun _ _ _ _ _ _ ih => ih) h

/-! ### Calls in a row -/

/-- The replies to some calls in order, streamed or not, and the engine after them. -/
def callAll (s : Scripted) : List (Bool × Invocation) → List Reply × Scripted
  | [] => ([], s)
  | (streamed, i) :: rest =>
    let (reply, s) := s.call streamed i
    let (replies, s) := s.callAll rest
    (reply :: replies, s)

/-- A call is recorded and changes no reply. -/
theorem callAll_eq (s : Scripted) (calls : List (Bool × Invocation)) :
    s.callAll calls =
      (calls.map fun c => s.reply c.1 c.2,
        { s with calls := (calls.map (·.2)).reverse ++ s.calls }) := by
  induction calls generalizing s with
  | nil => rfl
  | cons c calls ih =>
    simp only [callAll, call, ih, List.map_cons, List.reverse_cons, List.append_assoc,
      List.singleton_append]
    rfl

/-! ### One call -/

/-- What an invocation asks for: its fixture is JSON, its parameters can be read, and a script is
registered for their hash. -/
structure Asks (regs : List (String × Performer)) (i : Invocation) (q : Parameters)
    (p : Performer) : Prop where
  document : ∃ v, Json.parse i.fixture = .ok v
  parameters : Parameters.read i.request = .ok q
  performer : last? regs q.hash = some p

/-- The answer of a reply is read as an outcome. -/
def Tells (r : Reply) (o : Except String UInt64) : Prop :=
  ∃ raw document, r.answer = .ok raw ∧ Answer.read raw = .ok (document, Answer.ofOutcome o)

theorem tells_iff {o o' : Except String UInt64} {printed : List Message} :
    Tells (told printed o) o' ↔ o = o' := by
  have hinj : Answer.ofOutcome o = Answer.ofOutcome o' ↔ o = o' := by
    cases o <;> cases o' <;> simp [Answer.ofOutcome]
  simp [Tells, told, Answer.read_toText, hinj]

theorem select_eq (hs : built regs = .ok s) (h : Asks regs i q p) :
    s.select i =
      if q.maxCycles < p.cycles then
        .error ("ExceededMaximumCycles: expect cycles <= " ++ Text.Decimal.word q.maxCycles)
      else .ok p := by
  obtain ⟨v, hv⟩ := h.document
  have hlookup : s.performers.lookup q.hash = some p := (lookup_built hs q.hash).trans h.performer
  simp [select, hv, h.parameters, hlookup, Except.mapError, bind, Except.bind]

theorem select_eq_ok (hs : built regs = .ok s) :
    s.select i = .ok p ↔ ∃ q, Asks regs i q p ∧ p.cycles ≤ q.maxCycles := by
  constructor
  · intro h
    unfold select at h
    cases hv : Json.parse i.fixture with
    | error e => simp [hv] at h
    | ok v =>
      cases hq : Parameters.read i.request with
      | error defect => simp [hv, hq, Except.mapError, bind, Except.bind] at h
      | ok q =>
        cases hp : s.performers.lookup q.hash with
        | none => simp [hv, hq, hp, Except.mapError, bind, Except.bind] at h
        | some found =>
          have hasks : Asks regs i q found := ⟨⟨v, hv⟩, hq, (lookup_built hs q.hash).symm.trans hp⟩
          change s.select i = .ok p at h
          rw [select_eq hs hasks] at h
          split at h
          · cases h
          · next hcycles =>
            obtain rfl := Except.ok.inj h
            exact ⟨q, hasks, UInt64.not_lt.1 hcycles⟩
  · rintro ⟨q, hasks, hcycles⟩
    rw [select_eq hs hasks, if_neg (UInt64.not_lt.2 hcycles)]

theorem tells_ok_iff (hs : built regs = .ok s) :
    Tells (s.reply streamed i) (.ok n) ↔
      ∃ q p, Asks regs i q p ∧ p.cycles ≤ q.maxCycles ∧ p.error = none ∧ p.cycles = n := by
  have hperforms : ∀ p, outcomeOf p = .ok n ↔ p.error = none ∧ p.cycles = n := by
    intro p
    cases herror : p.error <;> simp [outcomeOf, herror]
  cases h : s.select i with
  | error text =>
    rw [reply_of_refused h, tells_iff]
    constructor
    · intro houtcome
      cases houtcome
    · rintro ⟨q, p, hasks, hcycles, -⟩
      rw [(select_eq_ok hs).2 ⟨q, hasks, hcycles⟩] at h
      cases h
  | ok p =>
    rw [reply_of_selected h, tells_iff, hperforms]
    constructor
    · intro houtcome
      obtain ⟨q, hasks, hcycles⟩ := (select_eq_ok hs).1 h
      exact ⟨q, p, hasks, hcycles, houtcome⟩
    · rintro ⟨q, p', hasks, hcycles, houtcome⟩
      obtain rfl := Except.ok.inj (h.symm.trans ((select_eq_ok hs).2 ⟨q, hasks, hcycles⟩))
      exact houtcome

/-- A larger budget changes nothing for a script that keeps within the smaller one. -/
theorem select_limit (hs : built regs = .ok s) (h : s.select i = .ok p)
    (hq : Parameters.read i.request = .ok q) (hlimit : Parameters.readLimit limit = .ok m)
    (hle : q.maxCycles ≤ m) :
    s.select ⟨i.fixture, { i.request with cycleLimit := limit }⟩ = .ok p := by
  obtain ⟨q', hasks, hcycles⟩ := (select_eq_ok hs).1 h
  obtain rfl := Except.ok.inj (hq.symm.trans hasks.parameters)
  exact (select_eq_ok hs).2
    ⟨_, ⟨hasks.document, Parameters.read_limit hq hlimit, hasks.performer⟩,
      UInt64.le_trans hcycles hle⟩

/-- Another text of the same hash is another name of the script, and the name goes with its
messages. -/
theorem select_hash {a b : String} (h : Digest.ofText? a = Digest.ofText? b) (s : Scripted)
    (fixture group limit : String) :
    s.select ⟨fixture, group, a, limit⟩ = s.select ⟨fixture, group, b, limit⟩ := by
  simp only [select, Parameters.read_hash h]

theorem reply_hash {a b : String} (h : Digest.ofText? a = Digest.ofText? b) (s : Scripted)
    (streamed : Bool) (fixture group limit : String) :
    let r := s.reply streamed ⟨fixture, group, a, limit⟩
    let r' := s.reply streamed ⟨fixture, group, b, limit⟩
    r.answer = r'.answer ∧ r.printed.map (·.text) = r'.printed.map (·.text) := by
  intro r r'
  have hselect := select_hash h s fixture group limit
  cases hb : s.select ⟨fixture, group, b, limit⟩ with
  | error text =>
    have hr : r = r' :=
      (reply_of_refused (hselect.trans hb) streamed).trans (reply_of_refused hb streamed).symm
    rw [hr]
    exact ⟨rfl, rfl⟩
  | ok p =>
    simp only [r, r', reply_of_selected (hselect.trans hb), reply_of_selected hb, told, true_and]
    cases streamed <;> simp [Function.comp_def]

theorem registerText_hash {a b : String} (h : Digest.ofText? a = Digest.ofText? b) (s : Scripted)
    (p : Performer) :
    (s.registerText a p).toOption = (s.registerText b p).toOption := by
  rw [registerText, registerText, Parameters.readHash, Parameters.readHash, h]
  cases Digest.ofText? b <;> rfl

/-! ### All calls -/

/-- Whatever an engine is built of and however often it is called, every call is recorded and is
answered as the first one would be. A call succeeds if its invocation asks for a script, and the one
registered last keeps within the budget and has no error; a larger budget changes nothing then. A
script that keeps within the budget prints its messages also where it fails, and one that does not
prints nothing. -/
theorem answers_registered (hs : built regs = .ok s) (calls : List (Bool × Invocation)) :
    (s.callAll calls).2.calls.reverse = calls.map (·.2) ∧
    (s.callAll calls).1 = calls.map (fun c => s.reply c.1 c.2) ∧
    (∀ streamed i,
      (∀ n, Tells (s.reply streamed i) (.ok n) ↔
        ∃ q p, Asks regs i q p ∧ p.cycles ≤ q.maxCycles ∧ p.error = none ∧ p.cycles = n) ∧
      (∀ q p, Asks regs i q p → p.cycles ≤ q.maxCycles →
        (s.reply streamed i).printed =
          (if streamed then p.messages.map (⟨i.request.hash, ·⟩) else []) ∧
        ∀ text, p.error = some text → Tells (s.reply streamed i) (.error text)) ∧
      (∀ q p, Asks regs i q p → q.maxCycles < p.cycles →
        (s.reply streamed i).printed = [] ∧
        Tells (s.reply streamed i)
          (.error ("ExceededMaximumCycles: expect cycles <= " ++ Text.Decimal.word q.maxCycles))) ∧
      ∀ n q limit m, Tells (s.reply streamed i) (.ok n) → Parameters.read i.request = .ok q →
        Parameters.readLimit limit = .ok m → q.maxCycles ≤ m →
        s.reply streamed ⟨i.fixture, { i.request with cycleLimit := limit }⟩ = s.reply streamed i) ∧
    ∀ cs ds, cs.map Char.toLower = ds.map Char.toLower →
      let hash := "0x" ++ String.ofList cs
      let other := "0x" ++ String.ofList ds
      (∀ p, (s.registerText hash p).toOption = (s.registerText other p).toOption) ∧
      ∀ streamed fixture group limit,
        let r := s.reply streamed ⟨fixture, group, hash, limit⟩
        let r' := s.reply streamed ⟨fixture, group, other, limit⟩
        r.answer = r'.answer ∧ r.printed.map (·.text) = r'.printed.map (·.text) := by
  refine ⟨?_, ?_, fun streamed i => ⟨fun n => tells_ok_iff hs, ?_, ?_, ?_⟩, ?_⟩
  · rw [callAll_eq, calls_built hs]
    simp
  · rw [callAll_eq]
  · intro q p hasks hcycles
    rw [reply_of_selected ((select_eq_ok hs).2 ⟨q, hasks, hcycles⟩)]
    refine ⟨rfl, fun text htext => tells_iff.2 ?_⟩
    rw [outcomeOf, htext]
  · intro q p hasks hcycles
    have hselect := select_eq hs hasks
    rw [if_pos hcycles] at hselect
    rw [reply_of_refused hselect]
    exact ⟨rfl, tells_iff.2 rfl⟩
  · intro n q limit m htells hq hlimit hle
    obtain ⟨q', p, hasks, hcycles, -⟩ := (tells_ok_iff hs).1 htells
    have hselect := (select_eq_ok hs).2 ⟨q', hasks, hcycles⟩
    rw [reply_of_selected hselect, reply_of_selected (select_limit hs hselect hq hlimit hle)]
  · intro cs ds hcase hash other
    have hhash : Digest.ofText? hash = Digest.ofText? other := Digest.ofText?_case hcase
    exact ⟨registerText_hash hhash s, reply_hash hhash s⟩

def sampleHash (c : Char) : String := "0x" ++ String.ofList (List.replicate 64 c)

/-- Two registrations of one hash in different letters. -/
def sampleRegs : List (String × Performer) :=
  [(sampleHash 'a', ⟨7, [], some "spent"⟩), (sampleHash 'A', ⟨42, ["first", "second"], none⟩)]

def sampleCall (limit : String) : Invocation := ⟨"\x7b\x7d", "type", sampleHash 'a', limit⟩

theorem asks_sampleCall {limit : String} (h : Parameters.readLimit limit = .ok m) :
    ∃ d, Asks sampleRegs (sampleCall limit) ⟨.type, d, m⟩ ⟨42, ["first", "second"], none⟩ := by
  have hdocument : (Json.parse "\x7b\x7d").toOption.isSome = true := by decide +kernel
  have hhash : Parameters.readHash (sampleHash 'a') = .ok ⟨List.replicate 32 0xAA, rfl⟩ := by
    decide +kernel
  have hlast : last? sampleRegs ⟨List.replicate 32 0xAA, rfl⟩ =
      some ⟨42, ["first", "second"], none⟩ := by
    decide +kernel
  obtain ⟨v, hv⟩ := Option.isSome_iff_exists.1 hdocument
  exact ⟨_, ⟨v, Json.toOption_eq_some.1 hv⟩, Parameters.read_eq_ok.2 ⟨rfl, hhash, h⟩, hlast⟩

/-- One call above the budget and one that succeeds. -/
theorem answers_registered_sampleRegs :
    ∃ s, built sampleRegs = .ok s ∧
      (s.callAll [(true, sampleCall "41"), (false, sampleCall "42")]).2.calls.reverse =
        [sampleCall "41", sampleCall "42"] ∧
      (s.reply true (sampleCall "41")).printed = [] ∧
      Tells (s.reply true (sampleCall "42")) (.ok 42) ∧
      (s.reply true (sampleCall "42")).printed =
        [⟨sampleHash 'a', "first"⟩, ⟨sampleHash 'a', "second"⟩] ∧
      s.reply true (sampleCall "+100") = s.reply true (sampleCall "42") := by
  have hhashes : ∀ r ∈ sampleRegs, ∃ d, Digest.ofText? r.1 = some d := by
    have hall : ∀ r ∈ sampleRegs, (Digest.ofText? r.1).isSome = true := by decide +kernel
    exact fun r hr => Option.isSome_iff_exists.1 (hall r hr)
  obtain ⟨s, hs⟩ := exists_built_iff.2 hhashes
  have hlimit : Parameters.readLimit "41" = .ok 41 ∧ Parameters.readLimit "42" = .ok 42 ∧
      Parameters.readLimit "+100" = .ok 100 := by decide +kernel
  obtain ⟨d, hless⟩ := asks_sampleCall hlimit.1
  obtain ⟨d', henough⟩ := asks_sampleCall hlimit.2.1
  obtain ⟨hcalls, -, hall, -⟩ :=
    answers_registered hs [(true, sampleCall "41"), (false, sampleCall "42")]
  obtain ⟨-, -, hexceeded, -⟩ := hall true (sampleCall "41")
  obtain ⟨hsucceeds, hprints, -, hlarger⟩ := hall true (sampleCall "42")
  have hcycles : (41 : UInt64) < 42 ∧ (42 : UInt64) ≤ 42 ∧ (42 : UInt64) ≤ 100 := by decide
  have htells := (hsucceeds 42).2 ⟨_, _, henough, hcycles.2.1, rfl, rfl⟩
  exact ⟨s, hs, hcalls, (hexceeded _ _ hless hcycles.1).1, htells,
    (hprints _ _ henough hcycles.2.1).1,
    hlarger 42 _ "+100" 100 htells henough.parameters hlimit.2.2 hcycles.2.2⟩

end ScriptProbe.Scripted
