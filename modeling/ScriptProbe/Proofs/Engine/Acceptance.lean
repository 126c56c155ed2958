import ScriptProbe.Proofs.Engine.Answer
import ScriptProbe.Proofs.Json.Order
import ScriptProbe.Proofs.Json.Range

/-! Which texts are taken for answers, told from the texts themselves, and what is complained of in
the others. -/
namespace ScriptProbe.Answer

open ScriptProbe.Json Record

variable {raw : String} {v : Json} {members : List (String × Json)} {key : String} {a : Answer}

/-! ### Objects as they are written -/

/-- The members of an object as its text has them, in order and each time they are told. -/
structure ObjectText (raw : String) where
  before : List Char
  inside : List Char
  entries : List Entry
  after : List Char
  blanks_before : Blanks before
  blanks_inside : Blanks inside
  blanks_after : Blanks after
  belongs : ∀ x ∈ entries, Text (maxNesting - 1) x.item.text x.item.value
  raw_eq : raw.toList = before ++ (enclosed '{' '}' inside (entries.map Entry.spaced) ++ after)

namespace ObjectText

variable (o : ObjectText raw)

def document : Json := ofMembers (o.entries.map Entry.member)

/-- The last member of a key. -/
def last? (key : String) : Option Entry := o.entries.reverse.find? (·.key = key)

theorem parse : Json.parse raw = .ok o.document :=
  parse_eq_ok_iff.2 ⟨o.before, _, o.after, o.blanks_before, o.blanks_after,
    .obj o.blanks_inside o.belongs, o.raw_eq⟩

theorem belongs_of_last? {x : Entry} (h : o.last? key = some x) :
    Text (maxNesting - 1) x.item.text x.item.value :=
  o.belongs x (List.mem_reverse.1 (List.mem_of_find?_eq_some h))

end ObjectText

theorem exists_objectText (h : Json.parse raw = .ok (.obj members)) :
    ∃ o : ObjectText raw, o.document = .obj members := by
  obtain ⟨before, text, after, hbefore, hafter, htext, hraw⟩ := parse_eq_ok_iff.1 h
  obtain ⟨inside, entries, hinside, hentries, hmembers, rfl⟩ := htext.obj_cases
  exact ⟨⟨before, inside, entries, after, hbefore, hinside, hafter, hentries, hraw⟩, hmembers⟩

theorem find?_foldl_insert (key : String) (entries : List Entry) (seen : List (String × Json)) :
    find? key ((entries.map Entry.member).foldl (fun ms m => insert m.1 m.2 ms) seen) =
      ((entries.reverse.find? (·.key = key)).map (·.item.value)).or (find? key seen) := by
  induction entries generalizing seen with
  | nil => rfl
  | cons x entries ih =>
    rw [List.map_cons, List.foldl_cons, ih, List.reverse_cons, List.find?_append]
    by_cases h : x.key = key
    · have hseen : find? key (insert x.member.1 x.member.2 seen) = some x.item.value :=
        h ▸ find?_insert_self x.key x.item.value seen
      cases entries.reverse.find? (·.key = key) <;> simp [hseen, h]
    · have hseen : find? key (insert x.member.1 x.member.2 seen) = find? key seen :=
        find?_insert_of_ne (Ne.symm h) _ _
      cases entries.reverse.find? (·.key = key) <;> simp [hseen, h]

/-- Of several members of a key the last one counts. -/
theorem ObjectText.find?_members (o : ObjectText raw) (h : o.document = .obj members)
    (key : String) :
    find? key members = (o.last? key).map (·.item.value) := by
  cases h
  rw [find?_foldl_insert]
  exact Option.or_none

/-! ### What is told of cycles and of the error -/

/-- A member that is absent or null tells nothing; any other one must say something. -/
inductive Tells {α : Type} (Says : List Char → α → Prop) : Option Entry → Option α → Prop
  | absent : Tells Says none none
  | null {x : Entry} (h : x.item.text = ['n', 'u', 'l', 'l']) : Tells Says (some x) none
  | told {x : Entry} {a : α} (h : Says x.item.text a) : Tells Says (some x) (some a)

/-- A number in digits only, without sign, point or exponent. -/
def Counts (text : List Char) (n : UInt64) : Prop :=
  (∀ c ∈ text, c.isDigit = true) ∧ Nat.ofDigitChars 10 text 0 = n.toNat

/-- A string between its quotes. -/
def Quotes (text : List Char) (s : String) : Prop :=
  ∃ chars, CharsText chars s.toList ∧ text = '"' :: (chars ++ ['"'])

theorem eq_of_count {n : UInt64} (h : count v = .ok n) : v = .int n.toNat := by
  cases v with
  | int k =>
    rw [count] at h
    split at h
    · next hk =>
      cases h
      rw [UInt64.toNat_ofNat_of_lt' (by omega), Int.toNat_of_nonneg hk.1]
    · cases h
  | _ => cases h

theorem nullable_count_eq_ok {cycle : Option UInt64} :
    nullable count v = .ok cycle ↔ v = cycleView cycle := by
  constructor
  · intro h
    rcases nullable_eq_ok.1 h with ⟨rfl, rfl⟩ | ⟨-, n, hn, rfl⟩
    · rfl
    · exact eq_of_count hn
  · rintro rfl
    exact nullable_cycleView cycle

/-- A field that reads null and what its member can say, and nothing else. -/
structure Faithful {α : Type} (form : Form α) (Says : List Char → α → Prop)
    (view : Option α → Json) : Prop where
  view_none : view none = .null
  said_iff {depth : Nat} {text : List Char} {v : Json} {a : α} (h : Text depth text v) :
    v = view (some a) ↔ Says text a
  form_iff {v : Json} {a : Option α} : nullable form v = .ok a ↔ v = view a

theorem faithful_count : Faithful count Counts cycleView where
  view_none := rfl
  said_iff h := h.nat_iff (UInt64.toNat_lt_size _)
  form_iff := nullable_count_eq_ok

theorem faithful_text : Faithful text Quotes errorView where
  view_none := rfl
  said_iff h := h.str_iff
  form_iff := nullable_text_eq_ok

/-- What the field is read as, its member tells. -/
theorem ObjectText.field_eq_ok {α : Type} {form : Form α} {Says : List Char → α → Prop}
    {view : Option α → Json} {a : Option α} (hfaithful : Faithful form Says view)
    (o : ObjectText raw) (h : o.document = .obj members) (key : String) :
    (Record.optional key form).ofMembers members = .ok a ↔ Tells Says (o.last? key) a := by
  rw [ofMembers_optional, o.find?_members h]
  cases hlast : o.last? key with
  | none =>
    constructor
    · rintro (⟨-, rfl⟩ | ⟨v, hv, -⟩)
      · exact .absent
      · cases hv
    · rintro ⟨⟩
      exact Or.inl ⟨rfl, rfl⟩
  | some x =>
    have htext := o.belongs_of_last? hlast
    simp only [Option.map_some, reduceCtorEq, false_and, false_or, Option.some.injEq,
      exists_eq_left', hfaithful.form_iff]
    cases a with
    | none =>
      rw [hfaithful.view_none, htext.null_iff]
      exact ⟨.null, fun h => by cases h; assumption⟩
    | some a =>
      rw [hfaithful.said_iff htext]
      exact ⟨.told, fun h => by cases h; assumption⟩

/-! ### The two fields -/

theorem ofObject_none {α : Type} (r : Record α) (members : List (String × Json)) :
    r.ofObject none members = (r.ofMembers members).mapError Flaw.mismatch := by
  unfold ofObject
  cases r.ofMembers members <;> rfl

theorem form_obj (members : List (String × Json)) : form (.obj members) =
    (gather (((Record.optional "cycle" count).ofMembers members).map Answer.mk)
      ((Record.optional "error" text).ofMembers members)).mapError Flaw.mismatch :=
  ofObject_none _ members

/-- A form that blames no part of a value, but the value itself. -/
def BlamesTop {α : Type} (form : Form α) : Prop := ∀ v m, form v = .error m → m.place = []

theorem blamesTop_count : BlamesTop count := by
  intro v m h
  cases v with
  | int k =>
    rw [count] at h
    split at h <;> cases h
    rfl
  | _ => cases h; rfl

theorem blamesTop_text : BlamesTop text := by
  intro v m h
  cases v <;> cases h <;> rfl

theorem BlamesTop.nullable {α : Type} {form : Form α} (h : BlamesTop form) :
    BlamesTop (nullable form) := by
  intro v m hm
  by_cases hnull : v = .null
  · subst hnull
    cases hm
  · have hmap : Json.nullable form v = (form v).map some := by
      cases v <;> first | exact absurd rfl hnull | rfl
    rw [hmap] at hm
    cases hv : form v with
    | ok a =>
      rw [hv] at hm
      cases hm
    | error m' =>
      rw [hv] at hm
      cases hm
      exact h v m hv

theorem fault_of_optional {α : Type} {form : Form α} {f : Flaw} (h : BlamesTop form)
    (hf : (optional key form).ofMembers members = .error f) :
    ∃ m, f = .fault key m ∧ m.place = [.member key] := by
  simp only [Record.optional, fieldOr] at hf
  split at hf
  · cases hf
  · next v _ =>
    cases hv : Json.nullable form v with
    | ok a =>
      rw [part_of_ok hv] at hf
      cases hf
    | error m =>
      rw [part_of_error hv] at hf
      cases hf
      exact ⟨_, rfl, by rw [Mismatch.under, h.nullable v m hv]⟩

namespace ObjectText

variable (o : ObjectText raw) (h : o.document = .obj members)
include h

theorem form_eq_ok :
    form (.obj members) = .ok a ↔ Tells Counts (o.last? "cycle") a.cycle ∧
    Tells Quotes (o.last? "error") a.error := by
  rw [form_obj, mapError_eq_ok, gather_eq_ok, ← o.field_eq_ok faithful_count h,
    ← o.field_eq_ok faithful_text h]
  constructor
  · rintro ⟨g, error, hg, herror, rfl⟩
    obtain ⟨cycle, hcycle, rfl⟩ := map_eq_ok.1 hg
    exact ⟨hcycle, herror⟩
  · rintro ⟨hcycle, herror⟩
    exact ⟨_, a.error, map_eq_ok.2 ⟨a.cycle, hcycle, rfl⟩, herror, rfl⟩

/-- A bad number of cycles is complained of, whatever is told of the error. -/
theorem form_of_cycle (hcycle : ∀ n, ¬Tells Counts (o.last? "cycle") n) :
    ∃ m, form (.obj members) = .error m ∧ m.place = [.member "cycle"] := by
  cases hc : (Record.optional "cycle" count).ofMembers members with
  | ok n => exact absurd ((o.field_eq_ok faithful_count h _).1 hc) (hcycle n)
  | error f =>
    obtain ⟨m, rfl, hplace⟩ := fault_of_optional blamesTop_count hc
    refine ⟨m, ?_, hplace⟩
    rw [form_obj, hc]
    cases he : (Record.optional "error" text).ofMembers members with
    | ok s => rfl
    | error g =>
      obtain ⟨m', rfl, -⟩ := fault_of_optional blamesTop_text he
      have horder : ¬"error" < "cycle" := by decide
      simp [Except.map, gather, Flaw.before, horder, Except.mapError, Flaw.mismatch]

theorem form_of_error {n : Option UInt64} (hcycle : Tells Counts (o.last? "cycle") n)
    (herror : ∀ s, ¬Tells Quotes (o.last? "error") s) :
    ∃ m, form (.obj members) = .error m ∧ m.place = [.member "error"] := by
  have hc := (o.field_eq_ok faithful_count h _).2 hcycle
  cases he : (Record.optional "error" text).ofMembers members with
  | ok s => exact absurd ((o.field_eq_ok faithful_text h _).1 he) (herror s)
  | error g =>
    obtain ⟨m, rfl, hplace⟩ := fault_of_optional blamesTop_text he
    refine ⟨m, ?_, hplace⟩
    rw [form_obj, hc, he]
    rfl

end ObjectText

/-! ### Answers -/

theorem read_of_form {m : Mismatch} (o : ObjectText raw) (h : o.document = .obj members)
    (hform : form (.obj members) = .error m) : read raw = .error (.badField m) := by
  simp only [read, o.parse, h, hform]

theorem read_of_kind (hparse : Json.parse raw = .ok v) (h : ∀ members, v ≠ .obj members) :
    read raw = .error (.notObject v.kind) := by
  simp only [read, hparse]

theorem read_of_not_object (h : ¬Nonempty (ObjectText raw)) :
    (∃ e, read raw = .error (.notJson e)) ∨ ∃ kind, read raw = .error (.notObject kind) := by
  cases hparse : Json.parse raw with
  | error e => exact Or.inl ⟨e, by simp only [read, hparse]⟩
  | ok v =>
    refine Or.inr ⟨v.kind, read_of_kind hparse ?_⟩
    rintro members rfl
    obtain ⟨o, -⟩ := exists_objectText hparse
    exact h ⟨o⟩

theorem find?_cycle (h : form (.obj members) = .ok a) :
    (find? "cycle" members = none ∧ a.cycle = none) ∨
    find? "cycle" members = some (cycleView a.cycle) := by
  simp only [form, lenient_obj, ofMembers_seq, ofMembers_map, ofMembers_optional] at h
  obtain ⟨-, error, ⟨cycle, hcycle, rfl⟩, -, rfl⟩ := h
  rcases hcycle with hnone | ⟨v, hv, hcount⟩
  · exact Or.inl hnone
  · exact Or.inr (nullable_count_eq_ok.1 hcount ▸ hv)

/-- What an answer says is what stands in the document, where null says as little as nothing. -/
theorem view_of_form (h : form (.obj members) = .ok a) :
    (find? "cycle" members).getD .null = cycleView a.cycle ∧
      (find? "error" members).getD .null = errorView a.error := by
  constructor
  · rcases find?_cycle h with ⟨hfind, hcycle⟩ | hfind
    · rw [hfind, hcycle]
      rfl
    · rw [hfind]
      rfl
  · rcases find?_error h with ⟨hfind, herror⟩ | hfind
    · rw [hfind, herror]
      rfl
    · rw [hfind]
      rfl

/-- A text is taken for an answer if and only if it is a JSON object, within the reader's bounds on
nesting, with no number that is too great and with whole characters only, whose last `cycle`, if
there is one, is null or written in digits only and held by 64 bits, and whose last `error`, if
there is one, is null or a string. A number is too great when its significand and the power of ten,
each of them rounded, have a product that rounds to a number beyond the largest. The document is the
whole object, the last member of each key, and the answer says what stands there. All other texts
are defects: no JSON, no object or a bad field, and the cycles are complained of before the error
is. -/
theorem read_exact (raw : String) (messages : List Message) :
    (∀ document a, read raw = .ok (document, a) ↔ ∃ o : ObjectText raw, document = o.document ∧
      Tells Counts (o.last? "cycle") a.cycle ∧ Tells Quotes (o.last? "error") a.error) ∧
    (∀ o : ObjectText raw, ∃ members,
      Json.parse raw = .ok (.obj members) ∧ o.document = .obj members ∧ Ascending members ∧
      (∀ key, find? key members = (o.last? key).map (·.item.value)) ∧
      ((∀ n, ¬Tells Counts (o.last? "cycle") n) →
        ∃ m, read raw = .error (.badField m) ∧ m.place = [.member "cycle"]) ∧
      ∀ n, Tells Counts (o.last? "cycle") n → (∀ s, ¬Tells Quotes (o.last? "error") s) →
        ∃ m, read raw = .error (.badField m) ∧ m.place = [.member "error"]) ∧
    (∀ members a, read raw = .ok (.obj members, a) →
      (find? "cycle" members).getD .null = cycleView a.cycle ∧
      (find? "error" members).getD .null = errorView a.error) ∧
    (¬Nonempty (ObjectText raw) →
      (∃ e, read raw = .error (.notJson e)) ∨ ∃ kind, read raw = .error (.notObject kind)) ∧
    (∀ defect, read raw = .error defect →
      Report.ofAnswer raw messages = .error (.answer defect)) ∧
    ∀ x : Numeral, x.value? = none ↔ x.TooGreat := by
  refine ⟨fun document a => ⟨fun h => ?_, ?_⟩, fun o => ?_, fun members a h => ?_,
    read_of_not_object, fun defect h => Report.ofAnswer_of_rejected h messages,
    fun _ => Numeral.value?_eq_none⟩
  · obtain ⟨members, rfl, hparse, hform⟩ := read_eq_ok.1 h
    obtain ⟨o, ho⟩ := exists_objectText hparse
    exact ⟨o, ho.symm, (o.form_eq_ok ho).1 hform⟩
  · rintro ⟨o, rfl, htells⟩
    exact read_eq_ok.2 ⟨_, rfl, o.parse, (o.form_eq_ok rfl).2 htells⟩
  · refine ⟨_, o.parse, rfl, ascending_foldl_insert _ List.Pairwise.nil, o.find?_members rfl,
      fun hcycle => ?_, fun n hcycle herror => ?_⟩
    · obtain ⟨m, hform, hplace⟩ := o.form_of_cycle rfl hcycle
      exact ⟨m, read_of_form o rfl hform, hplace⟩
    · obtain ⟨m, hform, hplace⟩ := o.form_of_error rfl hcycle herror
      exact ⟨m, read_of_form o rfl hform, hplace⟩
  · obtain ⟨_, hmembers, -, hform⟩ := read_eq_ok.1 h
    cases hmembers
    exact view_of_form hform

/-- An answer that tells of its cycles twice. -/
def toldTwice : String :=
  "\x7b\"cycle\":1.0,\"trace\":[1],\"cycle\":18446744073709551615,\"error\":null\x7d"

theorem read_exact_toldTwice : ∃ o : ObjectText toldTwice,
    Tells Counts (o.last? "cycle") (some 18446744073709551615) ∧
    Tells Quotes (o.last? "error") none := by
  have hanswer : (read toldTwice).toOption.map (·.2) = some ⟨some 18446744073709551615, none⟩ := by
    decide +kernel
  obtain ⟨⟨document, a⟩, hread, rfl⟩ := Option.map_eq_some_iff.1 hanswer
  obtain ⟨o, -, htells⟩ := ((read_exact toldTwice []).1 document _).1 (toOption_eq_some.1 hread)
  exact ⟨o, htells⟩

/-- Numbers that are not written as whole ones, and one that is too great. -/
example : ["1.0", "1e2", "-0", "18446744073709551616"].all (fun n =>
    match read ("\x7b\"cycle\":" ++ n ++ ",\"error\":5\x7d") with
    | .error (.badField m) => m.place = [.member "cycle"]
    | _ => false) = true := by decide +kernel

/-! ### Valid texts that are not taken -/

/-- An item without blanks. -/
def bare (text : List Char) (v : Json) : Item := ⟨[], text, [], v, blanks_nil, blanks_nil⟩

@[simp] theorem spaced_bare (text : List Char) (v : Json) : (bare text v).spaced = text := by
  simp [bare, Item.spaced]

/-- A member that is neither of the two. -/
def other (text : List Char) : Entry where
  before := []
  keyText := ['x']
  key := "x"
  gap := []
  item := bare text .null
  blanks_before := blanks_nil
  key_text := .cons (.itself (by decide) (by decide) (by decide)) .nil
  blanks_gap := blanks_nil

/-- An object of this member only. -/
def aside (text : List Char) : String := String.ofList (enclosed '{' '}' [] [(other text).spaced])

theorem valid_aside {text : List Char} (h : Valid text) : Valid (aside text).toList := by
  have hentries : ∀ x ∈ [other text], Valid x.item.text := List.forall_mem_singleton.2 h
  simpa [aside] using Valid.obj blanks_nil hentries

/-- What stops the reader in the member stops it in the whole. -/
theorem read_aside_of_stop {text : List Char} {f : Failure}
    (h : value (maxNesting - 1) (text ++ ['\x7d']) = .error f) :
    ∃ line column, read (aside text) = .error (.notJson ⟨f.defect, line, column⟩) := by
  have hkey : string ('x' :: '"' :: ':' :: (text ++ ['\x7d'])) =
      .ok ("x", ':' :: (text ++ ['\x7d'])) :=
    string_eq_ok.2 ⟨['x'], (other text).key_text, rfl⟩
  have hmember : member (value (maxNesting - 1)) ('"' :: 'x' :: '"' :: ':' :: (text ++ ['\x7d'])) =
      .error f := by
    simp only [member, List.tail_cons, hkey, skipBlanks_cons (c := ':') rfl, h]
  have hmembers : Json.members (value (maxNesting - 1)) ((other text).spaced ++ ['\x7d']) =
      .error f := by
    simp only [Entry.spaced, other, spaced_bare, List.nil_append, List.cons_append, Json.members,
      skipBlanks_cons (c := '"') rfl, hmember]
  have hvalue : value maxNesting ('{' :: ((other text).spaced ++ ['\x7d'])) = .error f :=
    (value_obj (skipBlanks_cons rfl _) _).trans hmembers
  have haside : (aside text).toList = '{' :: ((other text).spaced ++ ['\x7d']) := by
    simp [aside, enclosed]
  exact ⟨_, _, by simp only [read, Json.parse, document, haside, hvalue]; rfl⟩

/-- Arrays around a null, each in the next. -/
def nested : Nat → List Char
  | 0 => ['n', 'u', 'l', 'l']
  | n + 1 => enclosed '[' ']' [] [nested n]

theorem text_nested (n : Nat) : ∃ v, Text n (nested n) v := by
  induction n with
  | zero => exact ⟨_, .scalar .null⟩
  | succ n ih =>
    obtain ⟨v, hv⟩ := ih
    have hitems : ∀ x ∈ [bare (nested n) v], Text n x.text x.value := List.forall_mem_singleton.2 hv
    exact ⟨_, by simpa [nested] using Text.arr blanks_nil hitems⟩

theorem nested_succ (n : Nat) (rest : List Char) :
    nested (n + 1) ++ rest = '[' :: (nested n ++ ']' :: rest) := by
  simp [nested]

/-- One array more than may be nested is one too many. -/
theorem value_nested (depth : Nat) (rest : List Char) :
    ∃ left, value depth (nested (depth + 1) ++ rest) = .error ⟨.nestingLimit, left⟩ := by
  induction depth generalizing rest with
  | zero =>
    rw [nested_succ]
    exact ⟨_, rfl⟩
  | succ depth ih =>
    obtain ⟨left, hleft⟩ := ih (']' :: rest)
    refine ⟨left, ?_⟩
    rw [nested_succ] at hleft
    rw [nested_succ, nested_succ, value_arr (skipBlanks_cons rfl _),
      items_of_stop rfl (by decide) hleft]

/-- Ten to the power of 999. -/
def vast : Numeral where
  negative := false
  whole := ⟨['1'], by simp, by simp⟩
  fraction := none
  exponent := some ⟨false, .absent, ⟨['9', '9', '9'], by simp, by simp⟩⟩
  no_lead := by simp

/-- A string of one half of a surrogate pair. -/
def half : List Char := "\"\\ud800\"".toList

theorem valid_half : Valid half :=
  have hunit : UnitText ['d', '8', '0', '0'] 0xD800 :=
    .mk (show Text.Hex.value? 'd' = some 13 from rfl) (show Text.Hex.value? '8' = some 8 from rfl)
      (show Text.Hex.value? '0' = some 0 from rfl) (show Text.Hex.value? '0' = some 0 from rfl)
  .string (.unit hunit .nil)

/-- Valid texts, and what the reader has against them. -/
def untaken : List (List Char × Json.Defect) :=
  [(nested maxNesting, .nestingLimit), (vast.text, .numberOutOfRange), (half, .unfinishedSurrogate)]

theorem valid_of_untaken {x : List Char × Json.Defect} (h : x ∈ untaken) : Valid x.1 := by
  simp only [untaken, List.mem_cons, List.not_mem_nil, or_false] at h
  rcases h with rfl | rfl | rfl
  · obtain ⟨v, hv⟩ := text_nested maxNesting
    exact hv.valid
  · exact .number vast
  · exact valid_half

theorem read_untaken {x : List Char × Json.Defect} (h : x ∈ untaken) :
    ∃ line column, read (aside x.1) = .error (.notJson ⟨x.2, line, column⟩) := by
  simp only [untaken, List.mem_cons, List.not_mem_nil, or_false] at h
  rcases h with rfl | rfl | rfl
  · obtain ⟨left, hleft⟩ := value_nested (maxNesting - 1) ['\x7d']
    exact read_aside_of_stop hleft
  · have hvast : value (maxNesting - 1) (vast.text ++ ['\x7d']) = .error ⟨.numberOutOfRange, 1⟩ :=
      rfl
    exact read_aside_of_stop hvast
  · have hhalf : value (maxNesting - 1) (half ++ ['\x7d']) = .error ⟨.unfinishedSurrogate, 1⟩ := rfl
    exact read_aside_of_stop hhalf

/-- Not every valid object that tells nothing wrong is taken for an answer: the containers of one
nest too deep, a number of another is too great, and an escape of the last makes up no character. -/
theorem not_forall_valid_taken :
    (∀ x ∈ untaken, Valid (aside x.1).toList ∧
      ∃ line column, read (aside x.1) = .error (.notJson ⟨x.2, line, column⟩)) ∧
    ¬∀ text, Valid (aside text).toList → ∃ answer, read (aside text) = .ok answer := by
  refine ⟨fun x h => ⟨valid_aside (valid_of_untaken h), read_untaken h⟩, fun hall => ?_⟩
  obtain ⟨answer, hok⟩ := hall half (valid_aside valid_half)
  obtain ⟨line, column, herror⟩ :=
    read_untaken (x := (half, .unfinishedSurrogate)) (by simp [untaken])
  rw [hok] at herror
  cases herror

end ScriptProbe.Answer
