import Mathlib.Data.List.Infix
import ScriptProbe.Engine.Library.Echo
import ScriptProbe.Engine.Library.Call
import ScriptProbe.Proofs.Text.Utf8

/-! Histories of library calls: every text that is handed out comes back once, however its call
ends, and a printer that has broken down is left alone. -/
namespace ScriptProbe.Library

open ScriptProbe.Text

variable {l : Library} {path : Path} {printer : Printer} {i : Invocation} {call : ForeignCall}
  {given messages : List Message} {breakdown : Option String} {words : String} {prints : List Print}
  {events : List Event} {p : Performance} {freed : Nat}

/-! ### Printers -/

/-- What a printer call says, if it reaches anybody. -/
def message? (p : Print) : Option Message :=
  if p.withContext then some ⟨received p.hash, received p.message⟩ else none

/-- The near side of a call: the messages that have come in, the latest first, and the words of a
breakdown, which are kept until the library is done. -/
structure Desk where
  seen : List Message
  parked : Option String

/-- The library may go on printing after a breakdown; nothing of it reaches the printer. -/
def Desk.take (printer : Printer) (d : Desk) (p : Print) : Desk :=
  match d.parked, message? p with
  | none, some m => ⟨m :: d.seen, printer (m :: d.seen)⟩
  | _, _ => d

/-- Of the messages `given` to it a printer has got `messages`: all of them, or those up to its
first breakdown. -/
structure Delivered (printer : Printer) (given messages : List Message)
    (breakdown : Option String) :
    Prop where
  front : messages <+: given
  calm : ∀ front, front <+: messages → front ≠ [] → front ≠ messages ∨ breakdown = none →
    printer front.reverse = none
  broke : ∀ words, breakdown = some words → messages ≠ [] ∧ printer messages.reverse = some words
  whole : breakdown = none → messages = given

theorem delivered_nil (printer : Printer) : Delivered printer [] [] none where
  front := List.prefix_rfl
  calm front hfront hne _ := absurd (List.prefix_nil.1 hfront) hne
  broke words h := by cases h
  whole _ := rfl

theorem take_of_parked {d : Desk} (h : d.parked = some words) (p : Print) :
    d.take printer p = d := by
  simp [Desk.take, h]

theorem take_of_mute {d : Desk} {p : Print} (h : message? p = none) : d.take printer p = d := by
  cases hparked : d.parked <;> simp [Desk.take, h, hparked]

/-- A printer call keeps up what has been delivered. -/
theorem delivered_take {d : Desk} (h : Delivered printer given d.seen.reverse d.parked)
    (p : Print) :
    Delivered printer (given ++ (message? p).toList) (d.take printer p).seen.reverse
      (d.take printer p).parked := by
  cases hmessage : message? p with
  | none =>
    rw [take_of_mute hmessage]
    simpa using h
  | some m =>
    cases hparked : d.parked with
    | some words =>
      rw [take_of_parked hparked]
      refine ⟨h.front.trans (List.prefix_append given _), h.calm, h.broke, ?_⟩
      intro hnone
      rw [hparked] at hnone
      cases hnone
    | none =>
      have hseen : d.seen.reverse = given := h.whole hparked
      have htake : d.take printer p = ⟨m :: d.seen, printer (m :: d.seen)⟩ := by
        simp [Desk.take, hmessage, hparked]
      rw [htake]
      simp only [List.reverse_cons, hseen, Option.toList_some]
      have hlast : printer (given ++ [m]).reverse = printer (m :: d.seen) := by simp [← hseen]
      refine ⟨List.prefix_rfl, ?_, ?_, fun _ => rfl⟩
      · intro front hfront hne hquiet
        rcases List.prefix_concat_iff.1 hfront with heq | hfront
        · subst heq
          rcases hquiet with hquiet | hquiet
          · exact absurd rfl hquiet
          · rw [hlast, hquiet]
        · exact h.calm front (hseen ▸ hfront) hne (Or.inr hparked)
      · intro words hwords
        exact ⟨by simp, by rw [hlast, hwords]⟩

theorem delivered_foldl {d : Desk} (h : Delivered printer given d.seen.reverse d.parked)
    (prints : List Print) :
    Delivered printer (given ++ prints.filterMap message?)
      (prints.foldl (Desk.take printer) d).seen.reverse
      (prints.foldl (Desk.take printer) d).parked := by
  induction prints generalizing d given with
  | nil => simpa using h
  | cons p prints ih =>
    have hstep := ih (delivered_take h p)
    cases hmessage : message? p <;> simpa [hmessage] using hstep

theorem foldl_take_of_parked {d : Desk} (h : d.parked = some words) (prints : List Print) :
    prints.foldl (Desk.take printer) d = d := by
  induction prints with
  | nil => rfl
  | cons p prints ih => rw [List.foldl_cons, take_of_parked h, ih]

/-- What the printer gets is what the desk takes in. -/
theorem deliver_eq_foldl (seen : List Message) (prints : List Print) :
    deliver printer seen prints =
      ((prints.foldl (Desk.take printer) ⟨seen, none⟩).seen.reverse,
        (prints.foldl (Desk.take printer) ⟨seen, none⟩).parked) := by
  induction prints generalizing seen with
  | nil => rfl
  | cons p prints ih =>
    rw [List.foldl_cons, deliver]
    by_cases hcontext : p.withContext
    · have htake : Desk.take printer ⟨seen, none⟩ p =
          ⟨⟨received p.hash, received p.message⟩ :: seen,
            printer (⟨received p.hash, received p.message⟩ :: seen)⟩ := by
        simp [Desk.take, message?, hcontext]
      rw [htake]
      cases hbreak : printer (⟨received p.hash, received p.message⟩ :: seen) with
      | none => simp [hcontext, hbreak, ih]
      | some words =>
        rw [foldl_take_of_parked rfl]
        simp [hcontext, hbreak]
    · have hmute : message? p = none := by simp [message?, hcontext]
      rw [take_of_mute hmute]
      simp [hcontext, ih]

theorem delivered_deliver (h : deliver printer [] prints = (messages, breakdown)) :
    Delivered printer (prints.filterMap message?) messages breakdown := by
  rw [deliver_eq_foldl] at h
  obtain ⟨rfl, rfl⟩ := Prod.mk.inj h
  simpa using delivered_foldl (d := ⟨[], none⟩) (delivered_nil printer) prints

/-- A printer that breaks down over none of some messages. -/
def Calm (printer : Printer) (given : List Message) : Prop :=
  ∀ front, front <+: given → front ≠ [] → printer front.reverse = none

theorem calm_quietPrinter (given : List Message) : Calm quietPrinter given := fun _ _ _ => rfl

theorem Delivered.of_calm (h : Delivered printer given messages breakdown)
    (hcalm : Calm printer given) :
    messages = given ∧ breakdown = none := by
  cases breakdown with
  | none => exact ⟨h.whole rfl, rfl⟩
  | some words =>
    obtain ⟨hne, hwords⟩ := h.broke words rfl
    exact nomatch hwords.symm.trans (hcalm messages h.front hne)

theorem deliver_of_calm (h : Calm printer (prints.filterMap message?)) :
    deliver printer [] prints = (prints.filterMap message?, none) := by
  obtain ⟨messages, breakdown, hdeliver⟩ :
    ∃ messages breakdown, deliver printer [] prints = (messages, breakdown) := ⟨_, _, rfl⟩
  obtain ⟨rfl, rfl⟩ := (delivered_deliver hdeliver).of_calm h
  exact hdeliver

/-! ### Events -/

/-- The events with which a library hands out a text, or none. -/
def handing : Bool → List Event
  | true => [.returned true, .released]
  | false => [.returned false]

/-- The events of a call in which a library takes part. -/
def eventsOf (messages : List Message) (breakdown : Option String) (handed : Bool) : List Event :=
  .entered :: messages.map .printed ++ (breakdown.map .brokeDown).toList ++ handing handed ++
    (breakdown.map .raised).toList

theorem takeText_events (l : Library) (path : Path) (freed : Nat) (t : ForeignText) :
    (takeText l path freed t).1 = handing t.isSome := by
  cases t <;> rfl

theorem conclude_events (h : deliver printer [] p.prints = (messages, breakdown)) :
    (conclude l path printer p freed).events = eventsOf messages breakdown p.result.isSome := by
  rw [conclude, h, eventsOf, ← takeText_events l path freed]
  cases breakdown <;> simp

theorem conclude_printed (h : deliver printer [] p.prints = (messages, breakdown)) :
    (conclude l path printer p freed).printed = messages := by
  rw [conclude, h]
  cases breakdown <;> rfl

/-- A breakdown goes before the want of a text. -/
theorem conclude_of_broke (h : deliver printer [] p.prints = (messages, some words)) :
    (conclude l path printer p freed).ending = .raised words := by
  rw [conclude, h]

theorem conclude_of_mute (h : deliver printer [] p.prints = (messages, none))
    (hresult : p.result = none) :
    (conclude l path printer p freed).ending = .answered (.error (.noResult path)) := by
  rw [conclude, h, hresult]
  rfl

theorem conclude_of_handed (h : deliver printer [] p.prints = (messages, none)) {bytes : List UInt8}
    (hresult : p.result = some bytes) :
    (conclude l path printer p freed).ending = .answered (.ok (received (some bytes))) := by
  rw [conclude, h, hresult]
  rfl

/-- However a call ends, the release function is called once with a text that came back, and not at
all without one. -/
theorem conclude_freed (l : Library) (path : Path) (printer : Printer) (p : Performance)
    (freed : Nat) :
    (conclude l path printer p freed).freed =
      if p.result.isSome then l.release p.result freed else freed := by
  obtain ⟨messages, breakdown, hdeliver⟩ :
    ∃ messages breakdown, deliver printer [] p.prints = (messages, breakdown) := ⟨_, _, rfl⟩
  rw [conclude, hdeliver]
  cases breakdown <;> cases p.result <;> rfl

/-! ### Balance -/

/-- Never more than one text is out, none comes back that is not out, and at the end none is out. -/
structure Balanced (events : List Event) : Prop where
  sane : ∀ front, front <+: events →
    front.count .released ≤ front.count (.returned true) ∧
      front.count (.returned true) ≤ front.count .released + 1
  settled : events.count (.returned true) = events.count .released

theorem Balanced.append {events' : List Event} (h : Balanced events) (h' : Balanced events') :
    Balanced (events ++ events') := by
  refine ⟨fun front hfront => ?_, ?_⟩
  · rcases List.prefix_or_prefix_of_prefix hfront (List.prefix_append events events')
      with hfront' | hfront'
    · exact h.sane front hfront'
    · obtain ⟨more, rfl⟩ := hfront'
      have hmore := h'.sane more ((List.prefix_append_right_inj events).1 hfront)
      have hsettled := h.settled
      rw [List.count_append, List.count_append]
      omega
  · rw [List.count_append, List.count_append, h.settled, h'.settled]

/-- Events that hand nothing out and give nothing back. -/
theorem balanced_of_idle (h : ∀ e ∈ events, e ≠ .returned true ∧ e ≠ .released) :
    Balanced events := by
  have hcount : ∀ front, front <+: events → front.count (.returned true) = 0 ∧
      front.count .released = 0 := by
    intro front hfront
    constructor
    · exact List.count_eq_zero.2 fun hmem => (h _ (hfront.subset hmem)).1 rfl
    · exact List.count_eq_zero.2 fun hmem => (h _ (hfront.subset hmem)).2 rfl
  refine ⟨fun front hfront => ?_, ?_⟩
  · obtain ⟨hreturned, hreleased⟩ := hcount front hfront
    omega
  · obtain ⟨hreturned, hreleased⟩ := hcount events List.prefix_rfl
    rw [hreturned, hreleased]

theorem balanced_handing (handed : Bool) : Balanced (handing handed) := by
  cases handed with
  | false => exact balanced_of_idle (by simp [handing])
  | true =>
    refine ⟨fun front hfront => ?_, rfl⟩
    rcases List.prefix_concat_iff.1 (show front <+: [.returned true] ++ [.released] from hfront)
      with rfl | hfront
    · decide
    rcases List.prefix_concat_iff.1 (show front <+: [] ++ [.returned true] from hfront)
      with rfl | hfront
    · decide
    · rw [List.prefix_nil.1 hfront]
      decide

theorem balanced_eventsOf (messages : List Message) (breakdown : Option String) (handed : Bool) :
    Balanced (eventsOf messages breakdown handed) := by
  have hfront :
      Balanced (.entered :: messages.map .printed ++ (breakdown.map .brokeDown).toList) := by
    apply balanced_of_idle
    intro e he
    simp only [List.mem_append, List.mem_cons, List.mem_map, Option.mem_toList,
      Option.map_eq_some_iff] at he
    rcases he with (rfl | ⟨m, -, rfl⟩) | ⟨words, -, rfl⟩ <;> simp
  have hback : Balanced (breakdown.map Event.raised).toList := by
    apply balanced_of_idle
    intro e he
    simp only [Option.mem_toList, Option.map_eq_some_iff] at he
    obtain ⟨words, -, rfl⟩ := he
    simp
  exact (hfront.append (balanced_handing handed)).append hback

theorem count_released_eventsOf (messages : List Message) (breakdown : Option String)
    (handed : Bool) :
    (eventsOf messages breakdown handed).count .released = if handed then 1 else 0 := by
  have hprinted : (messages.map Event.printed).count .released = 0 := List.count_eq_zero.2 (by simp)
  cases breakdown <;> cases handed <;> simp [eventsOf, handing, hprinted]

/-! ### Calls -/

/-- A call with a printer of its own, or without one. -/
structure Call where
  printer : Option Printer
  invocation : Invocation

namespace Call

def texts (c : Call) : List String :=
  [c.invocation.fixture, c.invocation.request.group, c.invocation.request.hash,
    c.invocation.request.cycleLimit]

/-- Some text of the call holds a NUL byte. -/
def HoldsNul (c : Call) : Prop := ∃ text ∈ c.texts, 0 ∈ Utf8.encode text.toList

instance (c : Call) : Decidable c.HoldsNul := inferInstanceAs (Decidable (∃ text ∈ c.texts, _))

/-- The texts as bytes. -/
def foreign (c : Call) : ForeignCall where
  fixture := Utf8.encode c.invocation.fixture.toList
  group := Utf8.encode c.invocation.request.group.toList
  hash := Utf8.encode c.invocation.request.hash.toList
  cycleLimit := Utf8.encode c.invocation.request.cycleLimit.toList

def trace (l : Library) (path : Path) (c : Call) (freed : Nat) : Trace :=
  l.trace path c.printer c.invocation freed

/-- Who hears the messages of the call. -/
def handler (c : Call) : Printer := c.printer.getD quietPrinter

end Call

/-- The events of calls that are made one after another, of a library that has got back `freed`
texts before them. -/
def history (l : Library) (path : Path) (freed : Nat) : List Call → List Event
  | [] => []
  | c :: calls =>
    let t := c.trace l path freed
    t.events ++ history l path t.freed calls

/-- The number of texts that the library has got back after the calls. -/
def freedAfter (l : Library) (path : Path) (freed : Nat) : List Call → Nat
  | [] => freed
  | c :: calls => freedAfter l path (c.trace l path freed).freed calls

variable {c : Call}

/-- Whether a text holds a NUL. -/
def holdsNul (text : String) : Bool := text.toList.contains '\x00'

theorem holdsNul_iff {text : String} : holdsNul text = true ↔ 0 ∈ Utf8.encode text.toList := by
  rw [holdsNul, List.contains_iff_mem, Utf8.zero_mem_encode]

/-- The texts of a request, each with the words for it, in the order in which they are handed
over. -/
def chosen (r : Request) : List (String × String) :=
  [("script group type", r.group), ("script hash", r.hash), ("cycle limit", r.cycleLimit)]

/-- Those of a call: the fixture goes first. -/
def parts (i : Invocation) : List (String × String) := ("fixture", i.fixture) :: chosen i.request

/-- The words for the first text that cannot be handed over. -/
def offender? (texts : List (String × String)) : Option String :=
  (texts.find? fun p => holdsNul p.2).map (·.1)

theorem offender?_eq_none {texts : List (String × String)} :
    offender? texts = none ↔ ∀ p ∈ texts, holdsNul p.2 = false := by
  simp [offender?]

theorem foreign_eq (part text : String) :
    foreign part text =
      if holdsNul text then .error (.interiorNul part) else .ok (Utf8.encode text.toList) := by
  simp only [foreign, List.contains_iff_mem, holdsNul_iff]

/-- A call is handed over unless one of its texts cannot be, and the first of those is complained
of. -/
theorem foreignCall_eq (c : Call) :
    foreignCall c.invocation =
      match offender? (parts c.invocation) with
      | some part => .error (.interiorNul part)
      | none => .ok c.foreign := by
  simp only [foreignCall, foreign_eq, offender?, parts, chosen]
  cases hfixture : holdsNul c.invocation.fixture with
  | true => simp [hfixture, bind, Except.bind]
  | false =>
    cases hgroup : holdsNul c.invocation.request.group with
    | true => simp [hfixture, hgroup, bind, Except.bind]
    | false =>
      cases hhash : holdsNul c.invocation.request.hash with
      | true => simp [hfixture, hgroup, hhash, bind, Except.bind]
      | false =>
        cases hlimit : holdsNul c.invocation.request.cycleLimit <;>
          simp [hfixture, hgroup, hhash, hlimit, bind, Except.bind, Call.foreign]

theorem holdsNul_iff_offender :
    c.HoldsNul ↔ ∃ part, offender? (parts c.invocation) = some part := by
  have hnone : offender? (parts c.invocation) = none ↔ ¬c.HoldsNul := by
    rw [offender?_eq_none]
    simp [Call.HoldsNul, Call.texts, parts, chosen, ← holdsNul_iff]
  rw [← Option.ne_none_iff_exists', ne_eq, hnone, not_not]

theorem foreignCall_of_free (h : ¬c.HoldsNul) : foreignCall c.invocation = .ok c.foreign := by
  rw [holdsNul_iff_offender, ← Option.ne_none_iff_exists', not_not] at h
  rw [foreignCall_eq, h]

theorem foreignCall_of_nul (h : c.HoldsNul) :
    ∃ part, foreignCall c.invocation = .error (.interiorNul part) := by
  obtain ⟨part, hpart⟩ := holdsNul_iff_offender.1 h
  exact ⟨part, by rw [foreignCall_eq, hpart]⟩

/-- A text with a NUL in it keeps the library from being entered. -/
theorem trace_of_nul (l : Library) (path : Path) (h : c.HoldsNul) (freed : Nat) :
    ∃ part, c.trace l path freed = ⟨[], [], .answered (.error (.interiorNul part)), freed⟩ := by
  obtain ⟨part, hpart⟩ := foreignCall_of_nul h
  refine ⟨part, ?_⟩
  simp only [Call.trace, Library.trace, hpart]

/-- What a library does in a call, as far as it is heard. -/
def performance (l : Library) (c : Call) : Performance :=
  match c.printer with
  | some _ => l.runWithPrinter c.foreign
  | none => { l.run c.foreign with prints := [] }

theorem trace_of_free (l : Library) (path : Path) (h : ¬c.HoldsNul) (freed : Nat) :
    c.trace l path freed = conclude l path c.handler (l.performance c) freed := by
  simp only [Call.trace, Library.trace, foreignCall_of_free h, Call.handler, performance]
  cases c.printer <;> rfl

theorem balanced_trace (l : Library) (path : Path) (c : Call) (freed : Nat) :
    Balanced (c.trace l path freed).events := by
  by_cases hnul : c.HoldsNul
  · obtain ⟨part, htrace⟩ := trace_of_nul l path hnul freed
    rw [htrace]
    exact balanced_of_idle (by simp)
  · rw [trace_of_free l path hnul, conclude_events rfl]
    exact balanced_eventsOf _ _ _

theorem balanced_history (l : Library) (path : Path) (freed : Nat) (calls : List Call) :
    Balanced (history l path freed calls) := by
  induction calls generalizing freed with
  | nil => exact balanced_of_idle (by simp [history])
  | cons c calls ih =>
    rw [history]
    exact (balanced_trace l path c freed).append (ih _)

/-! ### The library's own count -/

/-- A library whose release function counts the texts that it is given. -/
def Counts (l : Library) : Prop := ∀ t freed, l.release t freed = countReleased t freed

/-- In every call the count grows by the number of releases. -/
theorem freed_trace (hl : l.Counts) (c : Call) :
    (c.trace l path freed).freed = freed + (c.trace l path freed).events.count .released := by
  by_cases hnul : c.HoldsNul
  · obtain ⟨part, htrace⟩ := trace_of_nul l path hnul freed
    rw [htrace]
    rfl
  · rw [trace_of_free l path hnul, conclude_events rfl, count_released_eventsOf, conclude_freed]
    cases hresult : (l.performance c).result with
    | none => rfl
    | some bytes => exact hl _ _

theorem freedAfter_eq (hl : l.Counts) (path : Path) (freed : Nat) (calls : List Call) :
    freedAfter l path freed calls = freed + (history l path freed calls).count .released := by
  induction calls generalizing freed with
  | nil => rfl
  | cons c calls ih =>
    rw [freedAfter, history, ih, freed_trace hl, List.count_append, Nat.add_assoc]

theorem freedAfter_concat (l : Library) (path : Path) (freed : Nat) (calls : List Call) (c : Call) :
    freedAfter l path freed (calls ++ [c]) =
      (c.trace l path (freedAfter l path freed calls)).freed := by
  induction calls generalizing freed with
  | nil => rfl
  | cons first calls ih => exact ih _

end ScriptProbe.Library
