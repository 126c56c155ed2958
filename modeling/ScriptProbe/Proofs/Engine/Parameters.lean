import ScriptProbe.Engine.Executable
import ScriptProbe.Proofs.Text.Decimal
import ScriptProbe.Proofs.Text.Hex

/-! Which requests are read as parameters, and the request in the shortest words that says the
same. -/
namespace ScriptProbe.Parameters

open ScriptProbe.Text

variable {r : Request} {p q : Parameters} {s limit text : String} {m : UInt64} {d : Digest}
    {g : ScriptGroup}

theorem read_eq_ok :
    read r = .ok q ↔
      readGroup r.group = .ok q.group ∧ readHash r.hash = .ok q.hash ∧
        readLimit r.cycleLimit = .ok q.maxCycles := by
  obtain ⟨group, hash, maxCycles⟩ := q
  unfold read
  cases readGroup r.group <;> cases readHash r.hash <;> cases readLimit r.cycleLimit <;>
    simp [bind, Except.bind]

theorem read_limit (h : read r = .ok q) (hlimit : readLimit limit = .ok m) :
    read { r with cycleLimit := limit } = .ok { q with maxCycles := m } := by
  obtain ⟨hgroup, hhash, -⟩ := read_eq_ok.1 h
  exact read_eq_ok.2 ⟨hgroup, hhash, hlimit⟩

/-- Of the text of a hash only the bytes count. -/
theorem read_hash {hash hash' : String} (h : Digest.ofText? hash = Digest.ofText? hash')
    (group limit : String) :
    read ⟨group, hash, limit⟩ = read ⟨group, hash', limit⟩ := by
  simp only [read, readHash, h]

/-! ### The three texts -/

def GroupText (s : String) : Prop := s = "lock" ∨ s = "type"

def HexDigit (c : Char) : Prop := ('0' ≤ c ∧ c ≤ '9') ∨ ('a' ≤ c ∧ c ≤ 'f') ∨ ('A' ≤ c ∧ c ≤ 'F')

/-- The prefix `0x` and 64 hexadecimal digits of either case. -/
def HashText (s : String) : Prop :=
  ∃ digits : List Char, s.toList = '0' :: 'x' :: digits ∧ digits.length = 64 ∧
    ∀ c ∈ digits, HexDigit c

/-- The digits of a number, with a plus before them or not. -/
def CountText (s : String) (n : Nat) : Prop :=
  ∃ digits : List Char, digits ≠ [] ∧ (∀ c ∈ digits, '0' ≤ c ∧ c ≤ '9') ∧
    (s.toList = digits ∨ s.toList = '+' :: digits) ∧ Nat.ofDigitChars 10 digits 0 = n

def LimitText (s : String) : Prop := ∃ n, n < 0x10000000000000000 ∧ CountText s n

theorem readGroup_eq_ok : readGroup s = .ok g ↔ s = g.name := by
  constructor
  · intro h
    unfold readGroup ScriptGroup.ofName? at h
    split at h
    · next hfound =>
      obtain rfl := Except.ok.inj h
      split at hfound
      · next hs => rw [hs, ← Option.some.inj hfound]; rfl
      split at hfound
      · next hs => rw [hs, ← Option.some.inj hfound]; rfl
      · cases hfound
    · cases h
  · rintro rfl
    rw [readGroup, ScriptGroup.ofName?_name]

theorem exists_readGroup : (∃ g, readGroup s = .ok g) ↔ GroupText s := by
  simp only [readGroup_eq_ok]
  constructor
  · rintro ⟨g, rfl⟩
    cases g
    · exact Or.inl rfl
    · exact Or.inr rfl
  · rintro (rfl | rfl)
    · exact ⟨.lock, rfl⟩
    · exact ⟨.type, rfl⟩

theorem readHash_eq_ok : readHash s = .ok d ↔ Digest.ofText? s = some d := by
  unfold readHash
  cases Digest.ofText? s <;> simp

theorem readLimit_eq_ok : readLimit s = .ok m ↔ Decimal.readWord? s.toList = some m := by
  unfold readLimit
  cases Decimal.readWord? s.toList <;> simp

theorem hexDigit_iff {c : Char} : HexDigit c ↔ ∃ n, Hex.value? c = some n := by
  unfold HexDigit Hex.value?
  split
  · next h => simp [h]
  split
  · next h => simp [h]
  split
  · next h => simp [h]
  · next h h' h'' => simp [h, h', h'']

theorem isDigit_iff {c : Char} : c.isDigit = true ↔ '0' ≤ c ∧ c ≤ '9' := by
  rw [Char.isDigit, Bool.and_eq_true, decide_eq_true_eq, decide_eq_true_eq]
  exact Iff.rfl

/-- Pairs of digits are bytes. -/
theorem exists_decode? {digits : List Char} {n : Nat} (h : digits.length = 2 * n)
    (hdigits : ∀ c ∈ digits, HexDigit c) :
    ∃ bytes : List UInt8, bytes.length = n ∧ digits.map Char.toLower = Hex.encode bytes := by
  induction n generalizing digits with
  | zero => exact ⟨[], rfl, by rw [List.length_eq_zero_iff.1 h]; rfl⟩
  | succ n ih =>
    match digits, h with
    | high :: low :: rest, h =>
      obtain ⟨hhigh, hlow, hrest⟩ := by simpa [List.forall_mem_cons] using hdigits
      obtain ⟨a, ha⟩ := hexDigit_iff.1 hhigh
      obtain ⟨b, hb⟩ := hexDigit_iff.1 hlow
      obtain ⟨bytes, rfl, hbytes⟩ := ih (by simp only [List.length_cons] at h; omega) hrest
      exact ⟨UInt8.ofNat (16 * a + b) :: bytes, rfl, by rw [Hex.encode_pair ha hb, ← hbytes]; rfl⟩

/-- Lower-case digits are the digits of either case. -/
theorem hexDigit_toLower {digits : List Char} {bytes : List UInt8}
    (h : digits.map Char.toLower = Hex.encode bytes) : ∀ c ∈ digits, HexDigit c := by
  intro c hc
  have hlower : c.toLower ∈ Hex.encode bytes := h ▸ List.mem_map_of_mem hc
  obtain ⟨n, hn, hdigit⟩ := Hex.digit_of_mem_encode hlower
  rw [hexDigit_iff, ← Hex.value?_toLower, hdigit, Hex.value?_digit hn]
  exact ⟨n, rfl⟩

theorem exists_readHash : (∃ d, readHash s = .ok d) ↔ HashText s := by
  simp only [readHash_eq_ok, Digest.ofText?_eq_some]
  constructor
  · rintro ⟨d, digits, hs, hdigits⟩
    refine ⟨digits, hs, ?_, hexDigit_toLower hdigits⟩
    rw [← List.length_map Char.toLower, hdigits, Hex.length_encode, d.size_eq]
  · rintro ⟨digits, hs, hlength, hdigits⟩
    obtain ⟨bytes, hsize, hbytes⟩ := exists_decode? (n := 32) hlength hdigits
    exact ⟨⟨bytes, hsize⟩, digits, hs, hbytes⟩

theorem readLimit_iff : readLimit s = .ok m ↔ CountText s m.toNat := by
  simp only [readLimit_eq_ok, Decimal.readWord?_eq_some, CountText, isDigit_iff]

theorem exists_readLimit : (∃ m, readLimit s = .ok m) ↔ LimitText s := by
  simp only [readLimit_iff]
  constructor
  · rintro ⟨m, hm⟩
    exact ⟨m.toNat, m.toNat_lt, hm⟩
  · rintro ⟨n, hlt, hn⟩
    have hvalue : (UInt64.ofNat n).toNat = n := UInt64.toNat_ofNat_of_lt' hlt
    exact ⟨UInt64.ofNat n, by rwa [hvalue]⟩

/-! ### Complaints -/

/-- The words for the first of the three texts that is not as it should be. -/
inductive Objection (r : Request) : String → Prop
  | group (h : ¬GroupText r.group) :
    Objection r ("unknown variant `" ++ r.group ++ "`, expected `lock` or `type`")
  | hash (hgroup : GroupText r.group) (h : ¬HashText r.hash) :
    Objection r "Invalid script hash format!"
  | limit (hgroup : GroupText r.group) (hhash : HashText r.hash) (h : ¬LimitText r.cycleLimit) :
    Objection r "Invalid max cycle!"

theorem readGroup_of_not (h : ¬GroupText s) : readGroup s = .error (.unknownGroup s) := by
  cases hfound : ScriptGroup.ofName? s with
  | none => rw [readGroup, hfound]
  | some g => exact absurd (exists_readGroup.1 ⟨g, by rw [readGroup, hfound]⟩) h

theorem readHash_of_not (h : ¬HashText s) : readHash s = .error .malformedHash := by
  cases hfound : Digest.ofText? s with
  | none => rw [readHash, hfound]
  | some d => exact absurd (exists_readHash.1 ⟨d, by rw [readHash, hfound]⟩) h

theorem readLimit_of_not (h : ¬LimitText s) : readLimit s = .error .malformedLimit := by
  cases hfound : Decimal.readWord? s.toList with
  | none => rw [readLimit, hfound]
  | some m => exact absurd (exists_readLimit.1 ⟨m, by rw [readLimit, hfound]⟩) h

theorem exists_read :
    (∃ p, read r = .ok p) ↔ GroupText r.group ∧ HashText r.hash ∧ LimitText r.cycleLimit := by
  simp only [read_eq_ok, ← exists_readGroup, ← exists_readHash, ← exists_readLimit]
  constructor
  · rintro ⟨p, hgroup, hhash, hlimit⟩
    exact ⟨⟨_, hgroup⟩, ⟨_, hhash⟩, ⟨_, hlimit⟩⟩
  · rintro ⟨⟨g, hgroup⟩, ⟨d, hhash⟩, ⟨m, hlimit⟩⟩
    exact ⟨⟨g, d, m⟩, hgroup, hhash, hlimit⟩

theorem exists_error_of_objection (h : Objection r text) :
    ∃ defect, read r = .error defect ∧ defect.message = text := by
  cases h with
  | group h => exact ⟨.unknownGroup r.group, by rw [read, readGroup_of_not h]; rfl, rfl⟩
  | hash hgroup h =>
    obtain ⟨g, hg⟩ := exists_readGroup.2 hgroup
    exact ⟨.malformedHash, by rw [read, hg, readHash_of_not h]; rfl, rfl⟩
  | limit hgroup hhash h =>
    obtain ⟨g, hg⟩ := exists_readGroup.2 hgroup
    obtain ⟨d, hd⟩ := exists_readHash.2 hhash
    exact ⟨.malformedLimit, by rw [read, hg, hd, readLimit_of_not h]; rfl, rfl⟩

/-- The texts are looked at in their order, and the first that is wrong is complained of. -/
theorem exists_objection (h : ∀ p, read r ≠ .ok p) : ∃ text, Objection r text := by
  by_cases hgroup : GroupText r.group
  · by_cases hhash : HashText r.hash
    · have hlimit : ¬LimitText r.cycleLimit := fun hlimit => by
        obtain ⟨p, hp⟩ := exists_read.2 ⟨hgroup, hhash, hlimit⟩
        exact h p hp
      exact ⟨_, .limit hgroup hhash hlimit⟩
    · exact ⟨_, .hash hgroup hhash⟩
  · exact ⟨_, .group hgroup⟩

theorem objection_iff :
    Objection r text ↔ ∃ defect, read r = .error defect ∧ defect.message = text := by
  refine ⟨exists_error_of_objection, ?_⟩
  rintro ⟨defect, hread, rfl⟩
  obtain ⟨text, hobjection⟩ := exists_objection (r := r) (by simp [hread])
  obtain ⟨defect', hread', htext⟩ := exists_error_of_objection hobjection
  obtain rfl := Except.error.inj (hread.symm.trans hread')
  exact htext ▸ hobjection

/-! ### The shortest words -/

theorem group_request (h : read r = .ok p) : p.request.group = r.group :=
  (readGroup_eq_ok.1 (read_eq_ok.1 h).1).symm

theorem hash_request (h : read r = .ok p) :
    p.request.hash.toList = r.hash.toList.map Char.toLower := by
  obtain ⟨digits, hs, hdigits⟩ := Digest.ofText?_eq_some.1 (readHash_eq_ok.1 (read_eq_ok.1 h).2.1)
  have hprefix : Char.toLower '0' = '0' ∧ Char.toLower 'x' = 'x' := by decide
  rw [hs, List.map_cons, List.map_cons, hdigits, hprefix.1, hprefix.2]
  simp [request, Digest.text, Hex.prefixed]

theorem length_cycleLimit_request (h : read r = .ok p) :
    p.request.cycleLimit.length ≤ r.cycleLimit.length := by
  obtain ⟨ds, hne, hdigits, hs, hvalue⟩ :=
    Decimal.readWord?_eq_some.1 (readLimit_eq_ok.1 (read_eq_ok.1 h).2.2)
  have hle := Decimal.length_digits_le hne hdigits
  have htext : p.request.cycleLimit.length = (Decimal.digits p.maxCycles.toNat).length := by
    simp [request, Decimal.word]
  rw [htext, ← hvalue, ← String.length_toList]
  rcases hs with hs | hs
  · rwa [hs]
  · rw [hs, List.length_cons]
    omega

/-- Parameters, however they are worded, lead to the same call of a program. -/
theorem call_request (h : read r = .ok p) (w : World) (program : Path) (streamed : Bool)
    (fixture : String) :
    Executable.call w program streamed ⟨fixture, p.request⟩ =
      Executable.call w program streamed ⟨fixture, r⟩ := by
  simp only [Executable.call, read_request, h]

/-- The arguments in the shortest words. -/
def wording (p : Parameters) : List String :=
  ["--mode", "fast", "--tx-file", "-", "--script-group-type", p.request.group, "--script-hash",
    p.request.hash, "--max-cycles", p.request.cycleLimit]

theorem call_wording (h : read r = .ok p) {w : World} {program : Path} {running : Program}
    (hstart : w.start program = .ok running) (streamed : Bool) (fixture : String) :
    (Executable.call w program streamed ⟨fixture, r⟩).launches =
        [⟨running.file, p.wording, fixture⟩] ∧
      (Executable.call w program streamed ⟨fixture, r⟩).printed =
        if streamed then
          (Transcript.read (running.run p.wording fixture).stdout).messages.map
            (⟨p.request.hash, ·⟩)
        else [] := by
  rw [Executable.call_ran hstart h]
  exact ⟨rfl, rfl⟩

/-- What a program is called with, and whose messages it prints, is said in the shortest words. -/
theorem words_call (h : read r = .ok p) (w : World) (program : Path) (streamed : Bool)
    (fixture : String) :
    (∀ launch ∈ (Executable.call w program streamed ⟨fixture, r⟩).launches,
      launch.args = p.wording) ∧
    ∀ message ∈ (Executable.call w program streamed ⟨fixture, r⟩).printed,
      message.hash = p.request.hash := by
  cases hstart : w.start program with
  | error refusal => simp [Executable.call, h, hstart]
  | ok running =>
    obtain ⟨hlaunches, hprinted⟩ := call_wording h hstart streamed fixture
    rw [hlaunches, hprinted]
    refine ⟨by simp, ?_⟩
    cases streamed <;> simp

/-- A request is read as parameters exactly if its three texts are as they should be, and the first
that is not is complained of. Parameters that are read are read again from the request that says
them in the shortest words: the same group, the hash in lower case and a count no longer than
before. A program that starts is called once, with these words, and whatever it prints for a printer
goes by the hash in them. -/
theorem read_canonical (r : Request) :
    ((∃ p, read r = .ok p) ↔ GroupText r.group ∧ HashText r.hash ∧ LimitText r.cycleLimit) ∧
    (∀ text, (∃ defect, read r = .error defect ∧ defect.message = text) ↔ Objection r text) ∧
    ∀ p, read r = .ok p →
      p.request.group = r.group ∧ p.request.hash.toList = r.hash.toList.map Char.toLower ∧
      p.request.cycleLimit.length ≤ r.cycleLimit.length ∧ CountText r.cycleLimit p.maxCycles.toNat ∧
      read p.request = .ok p ∧ (∀ q, read p.request = .ok q → q.request = p.request) ∧
      ∀ (w : World) (program : Path) (streamed : Bool) (fixture : String),
        let reply := Executable.call w program streamed ⟨fixture, r⟩
        (∀ launch ∈ reply.launches, launch.args = p.wording) ∧
        (∀ message ∈ reply.printed, message.hash = p.request.hash) ∧
        Executable.call w program streamed ⟨fixture, p.request⟩ = reply ∧
        ∀ running, w.start program = .ok running →
          reply.launches = [⟨running.file, p.wording, fixture⟩] ∧
          reply.printed =
            if streamed then
              (Transcript.read (running.run p.wording fixture).stdout).messages.map
                (⟨p.request.hash, ·⟩)
            else [] := by
  refine ⟨exists_read, fun text => objection_iff.symm, fun p h => ?_⟩
  refine ⟨group_request h, hash_request h, length_cycleLimit_request h,
    readLimit_iff.1 (read_eq_ok.1 h).2.2, read_request p, fun q hq => ?_, ?_⟩
  · rw [Except.ok.inj ((read_request p).symm.trans hq)]
  · intro w program streamed fixture reply
    obtain ⟨hargs, hmessages⟩ := words_call h w program streamed fixture
    exact ⟨hargs, hmessages, call_request h w program streamed fixture,
      fun running hstart => call_wording h hstart streamed fixture⟩

/-- A request in capitals and with idle zeros. -/
def loudRequest : Request := ⟨"type", "0x" ++ String.ofList (List.replicate 64 'A'), "+0042"⟩

def quietRequest : Request := ⟨"type", "0x" ++ String.ofList (List.replicate 64 'a'), "42"⟩

theorem read_canonical_loudRequest :
    ∃ p, read loudRequest = .ok p ∧ p.request = quietRequest ∧ read quietRequest = .ok p := by
  have hhash : readHash loudRequest.hash = .ok ⟨List.replicate 32 0xAA, rfl⟩ :=
    readHash_eq_ok.2 (by decide +kernel)
  have hlimit : readLimit loudRequest.cycleLimit = .ok 42 := readLimit_eq_ok.2 (by decide +kernel)
  have hread : read loudRequest = .ok ⟨.type, ⟨List.replicate 32 0xAA, rfl⟩, 42⟩ :=
    read_eq_ok.2 ⟨rfl, hhash, hlimit⟩
  obtain ⟨-, -, hcanonical⟩ := read_canonical loudRequest
  obtain ⟨-, -, -, -, hagain, -⟩ := hcanonical _ hread
  have hquiet : request ⟨.type, ⟨List.replicate 32 0xAA, rfl⟩, 42⟩ = quietRequest := by
    decide +kernel
  exact ⟨_, hread, hquiet, hquiet ▸ hagain⟩

end ScriptProbe.Parameters
