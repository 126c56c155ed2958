import ScriptProbe.Proofs.Json.Grammar

/-! What is written out in either layout belongs to the grammar, so it is read again, with the
members of every object in order. Nesting and whole numbers are the only bounds. -/
namespace ScriptProbe.Json

open ScriptProbe.Text

variable {v : Json} {depth : Nat}

/-! ### What a value is read as -/

/-- No floats, and whole numbers within 64 bits only. -/
inductive Whole : Json → Prop
  | null : Whole .null
  | bool (b : Bool) : Whole (.bool b)
  | int {n : Int} (h : Holds n) : Whole (.int n)
  | str (s : String) : Whole (.str s)
  | arr {items : List Json} (h : ∀ v ∈ items, Whole v) : Whole (.arr items)
  | obj {members : List (String × Json)} (h : ∀ m ∈ members, Whole m.2) : Whole (.obj members)

/-- Containers are nested no deeper than `depth`. -/
inductive Nests : Nat → Json → Prop
  | null {depth : Nat} : Nests depth .null
  | bool {depth : Nat} (b : Bool) : Nests depth (.bool b)
  | int {depth : Nat} (n : Int) : Nests depth (.int n)
  | float {depth : Nat} (x : Number.Binary64) : Nests depth (.float x)
  | str {depth : Nat} (s : String) : Nests depth (.str s)
  | arr {depth : Nat} {items : List Json} (h : ∀ v ∈ items, Nests depth v) :
    Nests (depth + 1) (.arr items)
  | obj {depth : Nat} {members : List (String × Json)} (h : ∀ m ∈ members, Nests depth m.2) :
    Nests (depth + 1) (.obj members)

mutual

/-- The same value with the members of every object in order, the last of each key. -/
def canonical : Json → Json
  | arr items => arr (canonicalItems items)
  | obj members => ofMembers (canonicalMembers members)
  | v => v

def canonicalItems : List Json → List Json
  | [] => []
  | v :: rest => canonical v :: canonicalItems rest

def canonicalMembers : List (String × Json) → List (String × Json)
  | [] => []
  | (key, v) :: rest => (key, canonical v) :: canonicalMembers rest

end

theorem canonicalItems_eq (items : List Json) : canonicalItems items = items.map canonical := by
  induction items with
  | nil => rfl
  | cons v rest ih => simp [canonicalItems, ih]

theorem canonicalMembers_eq (members : List (String × Json)) :
    canonicalMembers members = members.map fun m => (m.1, canonical m.2) := by
  induction members with
  | nil => rfl
  | cons m rest ih => simp [canonicalMembers, ih]

/-! ### Strings and whole numbers -/

theorem unitText_byte {n : Nat} (h : n < 256) :
    UnitText ('0' :: '0' :: Hex.ofByte (UInt8.ofNat n)) n := by
  have hbyte : (UInt8.ofNat n).toNat = n := by
    rw [UInt8.toNat_ofNat']
    omega
  have hzero : Hex.value? '0' = some 0 := rfl
  have hhigh : Hex.value? (Hex.digit (n / 16)) = some (n / 16) := Hex.value?_digit (by omega)
  have hlow : Hex.value? (Hex.digit (n % 16)) = some (n % 16) := Hex.value?_digit (by omega)
  have hsum : ((16 * 0 + 0) * 16 + n / 16) * 16 + n % 16 = n := by omega
  have hunit := UnitText.mk hzero hzero hhigh hlow
  rw [hsum] at hunit
  rwa [Hex.ofByte, hbyte]

theorem charText_escape (c : Char) : CharText (escape c) c := by
  unfold escape
  split
  · next h => exact .letter (by rw [h]; rfl)
  split
  · next h => exact .letter (by rw [h]; rfl)
  split
  · next h => exact .letter (by rw [h]; rfl)
  split
  · next h => exact .letter (by rw [h]; rfl)
  split
  · next h => exact .letter (by rw [h]; rfl)
  split
  · next h => exact .letter (by rw [h]; rfl)
  split
  · next h => exact .letter (by rw [h]; rfl)
  split
  · next h =>
    have hunit := CharText.unit (unitText_byte (n := c.toNat) (by omega)) (by omega) (by omega)
    rwa [Char.ofNat_toNat] at hunit
  · next hquote hslash _ _ _ _ _ hcontrol => exact .itself (by omega) hquote hslash

theorem charsText_escape (cs : List Char) : CharsText (cs.flatMap escape) cs := by
  induction cs with
  | nil => exact .nil
  | cons c cs ih => exact .cons (charText_escape c) ih

theorem scalar_strText (s : String) : Scalar (strText s) (.str s) := by
  simpa [strText] using Scalar.string (charsText_escape s.toList)

/-- The digits of a number, with or without a sign. -/
def digitsNumeral (negative : Bool) (n : Nat) : Numeral where
  negative
  whole := ⟨Nat.toDigits 10 n, Nat.toDigits_ne_nil, fun _ => isDigit_of_mem_digits⟩
  fraction := none
  exponent := none
  no_lead h := by rw [head_toDigits h]; rfl

theorem value?_digitsNumeral (negative : Bool) {n : Nat} (h : n < UInt64.size) :
    (digitsNumeral negative n).value? = wholeValue? negative n := by
  have hvalue : Nat.ofDigitChars 10 (Nat.toDigits 10 n) 0 < UInt64.size := by
    rwa [Nat.ofDigitChars_ten_toDigits]
  have hlead : (digitsNumeral negative n).lead = (n, []) := by
    rw [Numeral.lead, digitsNumeral, absorb_digits hvalue, Nat.ofDigitChars_ten_toDigits]
  rw [Numeral.value?, hlead]
  rfl

theorem scalar_intText {n : Int} (h : Holds n) : Scalar (intText n) (.int n) := by
  obtain ⟨hlow, hhigh⟩ := h
  have hlt : n.natAbs < UInt64.size := by
    change n.natAbs < 0x10000000000000000
    omega
  have hvalue : (digitsNumeral (n < 0) n.natAbs).value? = some (.int n) := by
    rw [value?_digitsNumeral _ hlt, wholeValue?]
    by_cases hn : n < 0
    · rw [if_neg (by simpa using hn), if_neg (by omega), Option.some.injEq, int.injEq]
      omega
    · rw [if_pos (by simpa using hn), Option.some.injEq, int.injEq]
      omega
  have htext : (digitsNumeral (n < 0) n.natAbs).text = intText n := by
    by_cases hn : n < 0 <;>
      simp [Numeral.text, Numeral.unsigned, digitsNumeral, intText, fractionText, exponentText, hn]
  exact htext ▸ .number hvalue

/-! ### Containers -/

/-- The blanks behind a content: the last one takes those before the end. -/
def behind (l : Layout) (level : Nat) (last : Bool) : List Char := if last then l.gap level else []

theorem blanks_behind (l : Layout) (level : Nat) (last : Bool) : Blanks (behind l level last) := by
  cases last with
  | true => exact l.blanks_gap level
  | false => exact blanks_nil

section arrange

variable {α β γ : Type} {make : Bool → α → β}

/-- Makes up the contents of a container, the last of which takes the blanks before the end. -/
def arrange (make : Bool → α → β) : List α → List β
  | [] => []
  | [a] => [make true a]
  | a :: b :: rest => make false a :: arrange make (b :: rest)

theorem map_arrange {f : β → γ} {g : α → γ} (h : ∀ last a, f (make last a) = g a) (as : List α) :
    (arrange make as).map f = as.map g := by
  induction as using arrange.induct with
  | case1 => rfl
  | case2 a => simp [arrange, h]
  | case3 a b rest ih => simp [arrange, h, ih]

theorem mem_arrange {as : List α} {x : β} (h : x ∈ arrange make as) :
    ∃ last, ∃ a ∈ as, x = make last a := by
  induction as using arrange.induct with
  | case1 => cases h
  | case2 a => exact ⟨true, a, List.mem_cons_self, List.mem_singleton.1 h⟩
  | case3 a b rest ih =>
    rcases List.mem_cons.1 h with rfl | h
    · exact ⟨false, a, List.mem_cons_self, rfl⟩
    · obtain ⟨last, c, hc, rfl⟩ := ih h
      exact ⟨last, c, List.mem_cons_of_mem _ hc, rfl⟩

theorem arrange_cons (a : α) (as : List α) : ∃ x xs, arrange make (a :: as) = x :: xs := by
  cases as <;> exact ⟨_, _, rfl⟩

theorem enclose_arrange (l : Layout) (opening closing : Char) (level : Nat) {text : α → List Char}
    {spaced : β → List Char}
    (h : ∀ last a, spaced (make last a) = l.gap (level + 1) ++ (text a ++ behind l level last))
    (as : List α) :
    l.enclose opening closing level (as.map text) =
      enclosed opening closing [] ((arrange make as).map spaced) := by
  induction as using arrange.induct with
  | case1 => rfl
  | case2 a => simp [arrange, Layout.enclose, enclosed, joinWith, h, behind]
  | case3 a b rest ih =>
    obtain ⟨x, xs, hcontents⟩ := @arrange_cons α β make b rest
    rw [hcontents] at ih
    simp only [List.map_cons, Layout.enclose, enclosed, List.cons_append, List.cons.injEq,
      true_and] at ih
    simp only [arrange, hcontents, List.map_cons, enclosed, remaining_cons, ← ih, h, Layout.enclose,
      joinWith.eq_3 _ _ (text b :: rest.map text) (by simp)]
    simp [behind]

end arrange

def itemOf (l : Layout) (level : Nat) (last : Bool) (v : Json) : Item where
  before := l.gap (level + 1)
  text := l.write (level + 1) v
  after := behind l level last
  value := canonical v
  blanks_before := l.blanks_gap _
  blanks_after := blanks_behind l level last

def entryOf (l : Layout) (level : Nat) (last : Bool) (m : String × Json) : Entry where
  before := l.gap (level + 1)
  keyText := m.1.toList.flatMap escape
  key := m.1
  gap := []
  item := ⟨l.space, l.write (level + 1) m.2, behind l level last, canonical m.2, l.blanks_space,
    blanks_behind l level last⟩
  blanks_before := l.blanks_gap _
  key_text := charsText_escape _
  blanks_gap := blanks_nil

theorem write_arr (l : Layout) (level : Nat) (items : List Json) :
    l.write level (.arr items) =
      enclosed '[' ']' [] ((arrange (itemOf l level) items).map Item.spaced) := by
  rw [Layout.write, Layout.writeItems_eq]
  have hspaced : ∀ last v, (itemOf l level last v).spaced =
      l.gap (level + 1) ++ (l.write (level + 1) v ++ behind l level last) := fun _ _ => rfl
  exact enclose_arrange l '[' ']' level hspaced items

theorem write_obj (l : Layout) (level : Nat) (members : List (String × Json)) :
    l.write level (.obj members) =
      enclosed '{' '}' [] ((arrange (entryOf l level) members).map Entry.spaced) := by
  rw [Layout.write, Layout.writeMembers_eq]
  refine enclose_arrange l '{' '}' level (fun last m => ?_) members
  simp [Entry.spaced, Item.spaced, entryOf, strText]

theorem canonical_arr (l : Layout) (level : Nat) (items : List Json) :
    canonical (.arr items) = .arr ((arrange (itemOf l level) items).map Item.value) := by
  have hvalue : ∀ last v, (itemOf l level last v).value = canonical v := fun _ _ => rfl
  rw [canonical, canonicalItems_eq, map_arrange hvalue]

theorem canonical_obj (l : Layout) (level : Nat) (members : List (String × Json)) :
    canonical (.obj members) =
      ofMembers ((arrange (entryOf l level) members).map Entry.member) := by
  have hmember : ∀ last m, (entryOf l level last m).member = (m.1, canonical m.2) := fun _ _ => rfl
  rw [canonical, canonicalMembers_eq, map_arrange hmember]

theorem text_write (l : Layout) (hv : Whole v) (hd : Nests depth v) (level : Nat) :
    Text depth (l.write level v) (canonical v) := by
  induction hv generalizing depth level with
  | null => exact .scalar .null
  | bool b =>
    cases b with
    | true => exact .scalar .yes
    | false => exact .scalar .no
  | int h => exact .scalar (scalar_intText h)
  | str s => exact .scalar (scalar_strText s)
  | arr h ih =>
    cases hd with
    | arr hd =>
      rw [write_arr, canonical_arr l level]
      refine .arr blanks_nil fun x hx => ?_
      obtain ⟨last, w, hw, rfl⟩ := mem_arrange hx
      exact ih w hw (hd w hw) (level + 1)
  | obj h ih =>
    cases hd with
    | obj hd =>
      rw [write_obj, canonical_obj l level]
      refine .obj blanks_nil fun x hx => ?_
      obtain ⟨last, m, hm, rfl⟩ := mem_arrange hx
      exact ih m hm (hd m hm) (level + 1)

theorem reads_write (l : Layout) (hv : Whole v) (hd : Nests depth v) (level : Nat) :
    Reads (value depth) (l.write level v) (canonical v) :=
  (text_write l hv hd level).reads

/-- An object ends where its brace stands, whatever follows. -/
theorem value_write (l : Layout) {members : List (String × Json)} (hv : Whole (.obj members))
    (hd : Nests (depth + 1) (.obj members)) (level : Nat) (rest : List Char) :
    value (depth + 1) (l.write level (.obj members) ++ rest) =
      .ok (canonical (.obj members), rest) := by
  cases hv with
  | obj hv =>
    cases hd with
    | obj hd =>
      rw [write_obj, canonical_obj l level]
      refine value_obj_complete (fun x hx => ?_) blanks_nil rest
      obtain ⟨last, m, hm, rfl⟩ := mem_arrange hx
      exact reads_write l (hv m hm) (hd m hm) (level + 1)

/-- Blanks behind the text do not count. -/
theorem document_write_blanks (l : Layout) (hv : Whole v) (hd : Nests maxNesting v) (level : Nat)
    {blanks : List Char} (h : Blanks blanks) :
    document (l.write level v ++ blanks) = .ok (canonical v) := by
  have hends : Ends blanks := by simpa using ends_blanks h ends_nil
  have hread := reads_write l hv hd level [] blanks blanks_nil hends
  have hskip : skipBlanks blanks = [] := by simpa [skipBlanks] using skipBlanks_append h []
  rw [List.nil_append] at hread
  simp [document, hread, hskip]

theorem document_write (l : Layout) (hv : Whole v) (hd : Nests maxNesting v) (level : Nat) :
    document (l.write level v) = .ok (canonical v) := by
  simpa using document_write_blanks l hv hd level blanks_nil

/-- The compact text of a value is read as the value in order. -/
theorem parse_toText (hv : Whole v) (hd : Nests maxNesting v) :
    parse v.toText = .ok (canonical v) := by
  rw [parse, toText, String.toList_ofList, compact_eq_write v 0, document_write _ hv hd]

/-- So is the indented text. -/
theorem parse_toPrettyText (hv : Whole v) (hd : Nests maxNesting v) :
    parse v.toPrettyText = .ok (canonical v) := by
  rw [parse, toPrettyText, String.toList_ofList, pretty_eq_write v 0, document_write _ hv hd]

end ScriptProbe.Json
