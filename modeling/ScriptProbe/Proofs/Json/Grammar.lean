import ScriptProbe.Proofs.Json.Characters
import ScriptProbe.Proofs.Json.Containers
import ScriptProbe.Proofs.Json.Numeral

/-! The grammar of JSON texts, containers nested to a given depth, no number out of range and no
half of a surrogate pair alone. The reader takes a text for a value if and only if the grammar
does. -/
namespace ScriptProbe.Json

variable {element : List Char → Read Json} {cs rest bound text after blanks : List Char} {v : Json}
    {depth : Nat}
  {seen : List Json} {members : List (String × Json)}

/-! ### Texts -/

/-- A value in a container, with the blanks on either side. -/
structure Item where
  before : List Char
  text : List Char
  after : List Char
  value : Json
  blanks_before : Blanks before
  blanks_after : Blanks after

def Item.spaced (x : Item) : List Char := x.before ++ (x.text ++ x.after)

/-- A key with its value, and the blanks between them and on either side. -/
structure Entry where
  before : List Char
  keyText : List Char
  key : String
  gap : List Char
  item : Item
  blanks_before : Blanks before
  key_text : CharsText keyText key.toList
  blanks_gap : Blanks gap

def Entry.spaced (x : Entry) : List Char :=
  x.before ++ '"' :: (x.keyText ++ '"' :: (x.gap ++ ':' :: x.item.spaced))

def Entry.member (x : Entry) : String × Json := (x.key, x.item.value)

/-- The contents of a container after the first one, its end and what follows it. -/
def remaining (closing : Char) (contents : List (List Char)) (rest : List Char) : List Char :=
  contents.flatMap (',' :: ·) ++ closing :: rest

/-- A container with these contents, or with blanks only. -/
def enclosed (opening closing : Char) (blanks : List Char) : List (List Char) → List Char
  | [] => opening :: (blanks ++ [closing])
  | content :: contents => opening :: (content ++ remaining closing contents [])

inductive Scalar : List Char → Json → Prop
  | null : Scalar ['n', 'u', 'l', 'l'] .null
  | yes : Scalar ['t', 'r', 'u', 'e'] (.bool true)
  | no : Scalar ['f', 'a', 'l', 's', 'e'] (.bool false)
  | number {x : Numeral} {v : Json} (h : x.value? = some v) : Scalar x.text v
  | string {text : List Char} {s : String} (h : CharsText text s.toList) :
    Scalar ('"' :: (text ++ ['"'])) (.str s)

inductive Text : Nat → List Char → Json → Prop
  | scalar {depth : Nat} {text : List Char} {v : Json} (h : Scalar text v) : Text depth text v
  | arr {depth : Nat} {blanks : List Char} {items : List Item} (hblanks : Blanks blanks)
    (h : ∀ x ∈ items, Text depth x.text x.value) :
    Text (depth + 1) (enclosed '[' ']' blanks (items.map Item.spaced)) (.arr (items.map Item.value))
  | obj {depth : Nat} {blanks : List Char} {entries : List Entry} (hblanks : Blanks blanks)
    (h : ∀ x ∈ entries, Text depth x.item.text x.item.value) :
    Text (depth + 1) (enclosed '{' '}' blanks (entries.map Entry.spaced))
      (ofMembers (entries.map Entry.member))

@[simp] theorem remaining_nil (closing : Char) (rest : List Char) :
    remaining closing [] rest = closing :: rest := rfl

@[simp] theorem remaining_cons (closing : Char) (content : List Char) (contents : List (List Char))
    (rest : List Char) :
    remaining closing (content :: contents) rest =
      ',' :: (content ++ remaining closing contents rest) := by
  simp [remaining]

@[simp] theorem enclosed_nil (opening closing : Char) (blanks rest : List Char) :
    enclosed opening closing blanks [] ++ rest = opening :: (blanks ++ closing :: rest) := by
  simp [enclosed]

@[simp] theorem enclosed_cons (opening closing : Char) (blanks content : List Char)
    (contents : List (List Char)) (rest : List Char) :
    enclosed opening closing blanks (content :: contents) ++ rest =
      opening :: (content ++ remaining closing contents rest) := by
  simp [enclosed, remaining]

/-! ### What is read belongs to the grammar -/

section sound

variable {Belongs : List Char → Json → Prop}
  (hread : ∀ {cs rest : List Char} {v : Json}, element cs = .ok (v, rest) →
    ∃ blanks text, Blanks blanks ∧ Belongs text v ∧ cs = blanks ++ (text ++ rest))
include hread

theorem exists_item (hafter : Blanks after) (h : element (skipBlanks cs) = .ok (v, after ++ rest)) :
    ∃ x : Item, x.value = v ∧ Belongs x.text x.value ∧ cs = x.spaced ++ rest := by
  obtain ⟨before, hbefore, hcs⟩ := exists_blanks cs
  obtain ⟨blanks, text, hblanks, htext, hskip⟩ := hread h
  refine ⟨⟨before ++ blanks, text, after, v, ?_, hafter⟩, rfl, htext, ?_⟩
  · exact List.forall_mem_append.2 ⟨hbefore, hblanks⟩
  · rw [hskip] at hcs
    simpa [Item.spaced] using hcs

/-- The items after the first one. -/
theorem moreItems_sound (h : moreItems element bound seen cs = .ok (v, rest)) :
    ∃ blanks, ∃ items : List Item, Blanks blanks ∧ (∀ x ∈ items, Belongs x.text x.value) ∧
      v = .arr (seen.reverse ++ items.map Item.value) ∧
      cs = blanks ++ remaining ']' (items.map Item.spaced) rest := by
  induction bound generalizing seen cs with
  | nil =>
    rcases moreItems_cases h with ⟨hend, rfl⟩ | ⟨_, _, _, _, _, hbound, -⟩
    · obtain ⟨blanks, hblanks, hcs⟩ := exists_blanks cs
      exact ⟨blanks, [], hblanks, by simp, by simp, by simpa [hend] using hcs⟩
    · cases hbound
  | cons b bound ih =>
    obtain ⟨blanks, hblanks, hcs⟩ := exists_blanks cs
    rcases moreItems_cases h with ⟨hend, rfl⟩ | ⟨_, _, more, w, rest', hbound, hcomma, hw, hmore⟩
    · exact ⟨blanks, [], hblanks, by simp, by simp, by simpa [hend] using hcs⟩
    · obtain ⟨-, rfl⟩ := List.cons.inj hbound
      obtain ⟨after, items, hafter, hitems, rfl, rfl⟩ := ih hmore
      obtain ⟨x, rfl, hx, rfl⟩ := exists_item hread hafter hw
      refine ⟨blanks, x :: items, hblanks, List.forall_mem_cons.2 ⟨hx, hitems⟩, by simp, ?_⟩
      rw [hcomma] at hcs
      simpa using hcs

theorem items_sound (h : items element cs = .ok (v, rest)) :
    ∃ blanks, ∃ items : List Item, Blanks blanks ∧ (∀ x ∈ items, Belongs x.text x.value) ∧
      v = .arr (items.map Item.value) ∧
      '[' :: cs = enclosed '[' ']' blanks (items.map Item.spaced) ++ rest := by
  rcases items_cases h with ⟨hend, rfl⟩ | ⟨w, rest', hw, hmore⟩
  · obtain ⟨blanks, hblanks, hcs⟩ := exists_blanks cs
    exact ⟨blanks, [], hblanks, by simp, rfl, by simpa [hend] using hcs⟩
  · obtain ⟨after, items, hafter, hitems, rfl, rfl⟩ := moreItems_sound hread hmore
    obtain ⟨x, rfl, hx, rfl⟩ := exists_item hread hafter hw
    exact ⟨[], x :: items, blanks_nil, List.forall_mem_cons.2 ⟨hx, hitems⟩, by simp, by simp⟩

theorem exists_entry {m : String × Json} (hafter : Blanks after)
    (hquote : (skipBlanks cs).head? = some '"')
    (h : member element (skipBlanks cs) = .ok (m, after ++ rest)) :
    ∃ x : Entry, x.member = m ∧ Belongs x.item.text x.item.value ∧ cs = x.spaced ++ rest := by
  obtain ⟨before, hbefore, hcs⟩ := exists_blanks cs
  obtain ⟨quoted, hquoted⟩ := List.head?_eq_some_iff.1 hquote
  obtain ⟨colon, sub, hkey, hcolon, hvalue⟩ := member_cases h
  rw [hquoted, List.tail_cons] at hkey
  obtain ⟨keyText, hkeyText, rfl⟩ := string_eq_ok.1 hkey
  obtain ⟨gap, hgap, hgapped⟩ := exists_blanks colon
  obtain ⟨blanks, text, hblanks, htext, rfl⟩ := hread hvalue
  refine ⟨⟨before, keyText, m.1, gap, ⟨blanks, text, after, m.2, hblanks, hafter⟩, hbefore,
    hkeyText, hgap⟩, rfl, htext, ?_⟩
  rw [hquoted, hgapped, hcolon] at hcs
  simpa [Entry.spaced, Item.spaced] using hcs

/-- The members after the first one. -/
theorem moreMembers_sound (h : moreMembers element bound members cs = .ok (v, rest)) :
    ∃ blanks, ∃ entries : List Entry, Blanks blanks ∧
      (∀ x ∈ entries, Belongs x.item.text x.item.value) ∧
      v = .obj ((entries.map Entry.member).foldl (fun ms m => insert m.1 m.2 ms) members) ∧
      cs = blanks ++ remaining '}' (entries.map Entry.spaced) rest := by
  induction bound generalizing members cs with
  | nil =>
    rcases moreMembers_cases h with ⟨hend, rfl⟩ | ⟨_, _, _, _, _, hbound, -⟩
    · obtain ⟨blanks, hblanks, hcs⟩ := exists_blanks cs
      exact ⟨blanks, [], hblanks, by simp, rfl, by simpa [hend] using hcs⟩
    · cases hbound
  | cons b bound ih =>
    obtain ⟨blanks, hblanks, hcs⟩ := exists_blanks cs
    rcases moreMembers_cases h
      with ⟨hend, rfl⟩ | ⟨_, _, more, m, rest', hbound, hcomma, hquote, hm, hmore⟩
    · exact ⟨blanks, [], hblanks, by simp, rfl, by simpa [hend] using hcs⟩
    · obtain ⟨-, rfl⟩ := List.cons.inj hbound
      obtain ⟨after, entries, hafter, hentries, rfl, rfl⟩ := ih hmore
      obtain ⟨x, rfl, hx, rfl⟩ := exists_entry hread hafter hquote hm
      refine ⟨blanks, x :: entries, hblanks, List.forall_mem_cons.2 ⟨hx, hentries⟩, rfl, ?_⟩
      rw [hcomma] at hcs
      simpa using hcs

theorem members_sound (h : Json.members element cs = .ok (v, rest)) :
    ∃ blanks, ∃ entries : List Entry, Blanks blanks ∧
      (∀ x ∈ entries, Belongs x.item.text x.item.value) ∧
      v = ofMembers (entries.map Entry.member) ∧
      '{' :: cs = enclosed '{' '}' blanks (entries.map Entry.spaced) ++ rest := by
  rcases members_cases h with ⟨hend, rfl⟩ | ⟨m, rest', hquote, hm, hmore⟩
  · obtain ⟨blanks, hblanks, hcs⟩ := exists_blanks cs
    exact ⟨blanks, [], hblanks, by simp, rfl, by simpa [hend] using hcs⟩
  · obtain ⟨after, entries, hafter, hentries, rfl, rfl⟩ := moreMembers_sound hread hmore
    obtain ⟨x, rfl, hx, rfl⟩ := exists_entry hread hafter hquote hm
    exact ⟨[], x :: entries, blanks_nil, List.forall_mem_cons.2 ⟨hx, hentries⟩, rfl, by simp⟩

end sound

/-- A value is a scalar, or a container over the reader of its parts. -/
theorem valueOver_sound {inner : Option (List Char → Read Json)}
    (h : valueOver inner cs = .ok (v, rest)) :
    (∃ text, Scalar text v ∧ skipBlanks cs = text ++ rest) ∨
      ∃ element more, inner = some element ∧
        ((skipBlanks cs = '[' :: more ∧ items element more = .ok (v, rest)) ∨
          (skipBlanks cs = '{' :: more ∧ Json.members element more = .ok (v, rest))) := by
  unfold valueOver at h
  split at h
  · cases h
  · next c more hskip =>
    rw [hskip]
    split at h
    · next hc =>
      obtain ⟨rfl, rfl⟩ := literal_eq_ok.1 h
      exact Or.inl ⟨_, .null, by simp [hc]⟩
    split at h
    · next hc =>
      obtain ⟨rfl, rfl⟩ := literal_eq_ok.1 h
      exact Or.inl ⟨_, .yes, by simp [hc]⟩
    split at h
    · next hc =>
      obtain ⟨rfl, rfl⟩ := literal_eq_ok.1 h
      exact Or.inl ⟨_, .no, by simp [hc]⟩
    split at h
    · next hc =>
      obtain ⟨x, hsign, rfl, hx⟩ := number_sound h
      exact Or.inl ⟨_, .number hx, by simp [Numeral.text, hsign, hc]⟩
    split at h
    · obtain ⟨x, hsign, heq, hx⟩ := number_sound h
      exact Or.inl ⟨_, .number hx, by simp [Numeral.text, hsign, heq]⟩
    split at h
    · next hc =>
      split at h
      · cases h
      · next hs =>
        cases h
        obtain ⟨text, htext, rfl⟩ := string_eq_ok.1 hs
        exact Or.inl ⟨_, .string htext, by simp [hc]⟩
    split at h
    · next hc =>
      split at h
      · cases h
      · exact Or.inr ⟨_, more, rfl, Or.inl ⟨by rw [hc], h⟩⟩
    split at h
    · next hc =>
      split at h
      · cases h
      · exact Or.inr ⟨_, more, rfl, Or.inr ⟨by rw [hc], h⟩⟩
    · cases h

theorem value_sound (h : value depth cs = .ok (v, rest)) :
    ∃ blanks text, Blanks blanks ∧ Text depth text v ∧ cs = blanks ++ (text ++ rest) := by
  induction depth generalizing cs v rest with
  | zero =>
    obtain ⟨blanks, hblanks, hcs⟩ := exists_blanks cs
    rcases valueOver_sound h with ⟨text, htext, hskip⟩ | ⟨_, _, hinner, -⟩
    · exact ⟨blanks, text, hblanks, .scalar htext, hskip ▸ hcs⟩
    · cases hinner
  | succ depth ih =>
    obtain ⟨blanks, hblanks, hcs⟩ := exists_blanks cs
    rcases valueOver_sound h
      with ⟨text, htext, hskip⟩ | ⟨_, _, hinner, ⟨hskip, hmore⟩ | ⟨hskip, hmore⟩⟩
    · exact ⟨blanks, text, hblanks, .scalar htext, hskip ▸ hcs⟩
    · cases hinner
      obtain ⟨inside, items, hinside, hitems, rfl, htext⟩ := items_sound ih hmore
      rw [hskip, htext] at hcs
      exact ⟨blanks, _, hblanks, .arr hinside hitems, hcs⟩
    · cases hinner
      obtain ⟨inside, entries, hinside, hentries, rfl, htext⟩ := members_sound ih hmore
      rw [hskip, htext] at hcs
      exact ⟨blanks, _, hblanks, .obj hinside hentries, hcs⟩

/-! ### What belongs to the grammar is read -/

theorem Scalar.opens (h : Scalar text v) : Opens text := by
  cases h with
  | null => exact ⟨_, _, rfl, by decide⟩
  | yes => exact ⟨_, _, rfl, by decide⟩
  | no => exact ⟨_, _, rfl, by decide⟩
  | @number x _ _ =>
    obtain ⟨c, ds, hchars, hc⟩ := x.whole.exists_cons
    unfold Numeral.text
    split
    · exact ⟨'-', _, rfl, by decide⟩
    · refine ⟨c, ds ++ _, by rw [Numeral.unsigned, hchars]; rfl, isBlank_of_isDigit hc, ?_, ?_⟩ <;>
        rintro rfl <;> simp at hc
  | string _ => exact ⟨_, _, rfl, by decide⟩

theorem Text.opens (h : Text depth text v) : Opens text := by
  cases h with
  | scalar h => exact h.opens
  | @arr _ _ items => cases items <;> exact ⟨_, _, rfl, by decide⟩
  | @obj _ _ entries => cases entries <;> exact ⟨_, _, rfl, by decide⟩

theorem valueOver_scalar {inner : Option (List Char → Read Json)} (h : Scalar text v)
    (hrest : Ends rest) :
    valueOver inner (text ++ rest) = .ok (v, rest) := by
  cases h with
  | null => rfl
  | yes => rfl
  | no => rfl
  | @number x _ hv =>
    have hnumber := number_complete x hrest hv
    unfold Numeral.text
    cases hsign : x.negative with
    | true =>
      rw [hsign] at hnumber
      exact hnumber
    | false =>
      obtain ⟨c, ds, hchars, hc⟩ := x.whole.exists_cons
      rw [hsign, Numeral.unsigned, hchars] at hnumber
      rw [if_neg (by decide), Numeral.unsigned, hchars]
      exact (valueOver_digit hc _).trans hnumber
  | @string text s htext =>
    have hstring : string (text ++ '"' :: rest) = .ok (s, rest) := string_eq_ok.2 ⟨text, htext, rfl⟩
    have hquoted : '"' :: (text ++ ['"']) ++ rest = '"' :: (text ++ '"' :: rest) := by simp
    rw [hquoted, valueOver, skipBlanks_cons rfl]
    simp [hstring]

/-- A container goes on or ends. -/
theorem ends_remaining (closing : Char)
    (h : closing.isDigit = false ∧ closing ≠ '.' ∧ closing ≠ 'e' ∧ closing ≠ 'E')
    (contents : List (List Char)) (rest : List Char) : Ends (remaining closing contents rest) := by
  cases contents with
  | nil => exact ends_cons h _
  | cons content contents => exact ends_cons (by decide) _

theorem Item.ends (x : Item) (items : List Item) (rest : List Char) :
    Ends (x.after ++ remaining ']' (items.map Item.spaced) rest) :=
  ends_blanks x.blanks_after (ends_remaining ']' (by decide) _ rest)

theorem moreItems_complete {items : List Item}
    (h : ∀ x ∈ items, Reads element x.text x.value ∧ Opens x.text) (hblanks : Blanks blanks)
    (rest bound : List Char) (seen : List Json)
    (hb : (blanks ++ remaining ']' (items.map Item.spaced) rest).length ≤ bound.length) :
    moreItems element bound seen (blanks ++ remaining ']' (items.map Item.spaced) rest) =
      .ok (.arr (seen.reverse ++ items.map Item.value), rest) := by
  induction items generalizing blanks bound seen with
  | nil =>
    cases bound with
    | nil => simp at hb
    | cons b bound => simpa using moreItems_end hblanks seen
  | cons x items ih =>
    rw [List.map_cons, remaining_cons] at hb ⊢
    cases bound with
    | nil => simp at hb
    | cons b bound =>
      obtain ⟨⟨hread, hopens⟩, hitems⟩ := List.forall_mem_cons.1 h
      have hlength : (x.after ++ remaining ']' (items.map Item.spaced) rest).length ≤
          bound.length := by
        simp only [Item.spaced, List.length_append, List.length_cons] at hb ⊢
        omega
      have hnext := @moreItems_next _ _ _ _ _ b bound _ hblanks x.blanks_before hread hopens
        (x.ends items rest) seen
      have htail := ih hitems x.blanks_after bound (x.value :: seen) hlength
      simpa [Item.spaced] using hnext.trans htail

/-- An array is read whatever follows it, if its items can be. -/
theorem value_arr_complete {items : List Item}
    (h : ∀ x ∈ items, Reads (value depth) x.text x.value ∧ Opens x.text) (hblanks : Blanks blanks)
    (rest : List Char) :
    value (depth + 1) (enclosed '[' ']' blanks (items.map Item.spaced) ++ rest) =
      .ok (.arr (items.map Item.value), rest) := by
  cases items with
  | nil =>
    have hskip : skipBlanks (blanks ++ ']' :: rest) = ']' :: rest := by
      rw [skipBlanks_append hblanks, skipBlanks_cons rfl]
    rw [List.map_nil, enclosed_nil, value_arr (skipBlanks_cons rfl _)]
    simp only [items, hskip]
    rfl
  | cons x items =>
    obtain ⟨⟨hread, hopens⟩, hitems⟩ := List.forall_mem_cons.1 h
    have hfirst := items_first x.blanks_before hread hopens (x.ends items rest)
    have htail := moreItems_complete hitems x.blanks_after rest _ [x.value] (Nat.le_refl _)
    rw [List.map_cons, enclosed_cons, value_arr (skipBlanks_cons rfl _)]
    simpa [Item.spaced] using hfirst.trans htail

theorem member_complete (x : Entry) (h : Reads element x.item.text x.item.value)
    (hrest : Ends rest) :
    member element ('"' :: (x.keyText ++ '"' :: (x.gap ++ ':' :: (x.item.spaced ++ rest)))) =
      .ok (x.member, x.item.after ++ rest) := by
  have hcolon : ∀ sub, skipBlanks (x.gap ++ ':' :: sub) = ':' :: sub := fun sub => by
    rw [skipBlanks_append x.blanks_gap, skipBlanks_cons rfl]
  have hvalue := h x.item.before (x.item.after ++ rest) x.item.blanks_before
    (ends_blanks x.item.blanks_after hrest)
  refine member_of_parts (string_eq_ok.2 ⟨x.keyText, x.key_text, rfl⟩) (hcolon _) ?_
  simpa [Item.spaced] using hvalue

theorem moreMembers_complete {entries : List Entry}
    (h : ∀ x ∈ entries, Reads element x.item.text x.item.value) (hblanks : Blanks blanks)
    (rest bound : List Char) (seen : List (String × Json))
    (hb : (blanks ++ remaining '}' (entries.map Entry.spaced) rest).length ≤ bound.length) :
    moreMembers element bound seen (blanks ++ remaining '}' (entries.map Entry.spaced) rest) =
      .ok (.obj ((entries.map Entry.member).foldl (fun ms m => insert m.1 m.2 ms) seen), rest) := by
  induction entries generalizing blanks bound seen with
  | nil =>
    cases bound with
    | nil => simp at hb
    | cons b bound => simpa using moreMembers_end hblanks seen
  | cons x entries ih =>
    rw [List.map_cons, remaining_cons] at hb ⊢
    cases bound with
    | nil => simp at hb
    | cons b bound =>
      obtain ⟨hread, hentries⟩ := List.forall_mem_cons.1 h
      have hlength : (x.item.after ++ remaining '}' (entries.map Entry.spaced) rest).length ≤
          bound.length := by
        simp only [Entry.spaced, Item.spaced, List.length_append, List.length_cons] at hb ⊢
        omega
      have hmember :=
        member_complete x hread (ends_remaining '}' (by decide) (entries.map Entry.spaced) rest)
      have hnext := @moreMembers_next _ _ _ bound _ _ b _ hblanks x.blanks_before hmember seen
      have htail := ih hentries x.item.blanks_after bound (insert x.key x.item.value seen) hlength
      simpa [Entry.spaced, Item.spaced, Entry.member] using hnext.trans htail

theorem value_obj_complete {entries : List Entry}
    (h : ∀ x ∈ entries, Reads (value depth) x.item.text x.item.value) (hblanks : Blanks blanks)
    (rest : List Char) :
    value (depth + 1) (enclosed '{' '}' blanks (entries.map Entry.spaced) ++ rest) =
      .ok (ofMembers (entries.map Entry.member), rest) := by
  cases entries with
  | nil =>
    have hskip : skipBlanks (blanks ++ '}' :: rest) = '}' :: rest := by
      rw [skipBlanks_append hblanks, skipBlanks_cons rfl]
    rw [List.map_nil, enclosed_nil, value_obj (skipBlanks_cons rfl _)]
    simp only [Json.members, hskip]
    rfl
  | cons x entries =>
    obtain ⟨hread, hentries⟩ := List.forall_mem_cons.1 h
    have hmember :=
      member_complete x hread (ends_remaining '}' (by decide) (entries.map Entry.spaced) rest)
    have hfirst := members_first x.blanks_before hmember
    have htail :=
      moreMembers_complete hentries x.item.blanks_after rest _ [x.member] (Nat.le_refl _)
    rw [List.map_cons, enclosed_cons, value_obj (skipBlanks_cons rfl _)]
    simpa [Entry.spaced, Item.spaced, ofMembers, insert, Entry.member] using hfirst.trans htail

/-- The reader takes a text of the grammar for the value that it stands for. -/
theorem Text.reads (h : Text depth text v) : Reads (value depth) text v := by
  induction h with
  | scalar h => exact reads_of_eq fun rest hrest =>
    value_of_valueOver (fun _ => valueOver_scalar h hrest) _
  | arr hblanks h ih =>
    exact reads_of_eq fun rest _ =>
      value_arr_complete (fun x hx => ⟨ih x hx, (h x hx).opens⟩) hblanks rest
  | obj hblanks h ih => exact reads_of_eq fun rest _ => value_obj_complete ih hblanks rest

/-! ### What a text tells of its value -/

theorem Text.unique {w : Json} (h : Text depth text v) (h' : Text depth text w) : v = w := by
  have hread := h.reads [] [] blanks_nil ends_nil
  rw [h'.reads [] [] blanks_nil ends_nil] at hread
  exact (Prod.mk.inj (Except.ok.inj hread)).1.symm

theorem Text.null_iff (h : Text depth text v) : v = .null ↔ text = ['n', 'u', 'l', 'l'] := by
  constructor
  · rintro rfl
    cases h with
    | scalar h =>
      cases h with
      | null => rfl
      | number hx => obtain ⟨_, ⟨⟩⟩ | ⟨_, ⟨⟩, _⟩ := Numeral.value?_cases hx
  · rintro rfl
    exact h.unique (.scalar .null)

theorem Text.str_iff {s : String} (h : Text depth text v) :
    v = .str s ↔ ∃ chars, CharsText chars s.toList ∧ text = '"' :: (chars ++ ['"']) := by
  constructor
  · rintro rfl
    cases h with
    | scalar h =>
      cases h with
      | string hs => exact ⟨_, hs, rfl⟩
      | number hx => obtain ⟨_, ⟨⟩⟩ | ⟨_, ⟨⟩, _⟩ := Numeral.value?_cases hx
  · rintro ⟨chars, hs, rfl⟩
    exact h.unique (.scalar (.string hs))

/-- Digits are the text of a whole number that is not below zero, and of such a number only. -/
theorem Text.nat_iff {n : Nat} (hn : n < UInt64.size) (h : Text depth text v) :
    v = .int n ↔ (∀ c ∈ text, c.isDigit = true) ∧ Nat.ofDigitChars 10 text 0 = n := by
  constructor
  · rintro rfl
    cases h with
    | scalar h =>
      cases h with
      | number hx =>
        obtain ⟨hdigits, -, hvalue⟩ := Numeral.value?_eq_int.1 ⟨hx, Int.natCast_nonneg n⟩
        exact ⟨hdigits, (Int.ofNat.inj hvalue).symm⟩
  · rintro ⟨hdigits, hvalue⟩
    have hopen : ∀ c cs, text = c :: cs → c.isDigit = true :=
      fun c cs heq => hdigits c (heq ▸ List.mem_cons_self)
    cases h with
    | scalar h =>
      cases h with
      | null => cases hopen _ _ rfl
      | yes => cases hopen _ _ rfl
      | no => cases hopen _ _ rfl
      | string hs => cases hopen _ _ rfl
      | number hx =>
        have hint := (Numeral.value?_eq_int.2 ⟨hdigits, hvalue ▸ hn, rfl⟩).1
        rw [hx, hvalue] at hint
        exact Option.some.inj hint
    | @arr _ _ items => cases items <;> cases hopen _ _ rfl
    | @obj _ _ entries => cases entries <;> cases hopen _ _ rfl

theorem Text.obj_cases (h : Text (depth + 1) text (.obj members)) :
    ∃ blanks, ∃ entries : List Entry, Blanks blanks ∧
      (∀ x ∈ entries, Text depth x.item.text x.item.value) ∧
      ofMembers (entries.map Entry.member) = .obj members ∧
      text = enclosed '{' '}' blanks (entries.map Entry.spaced) := by
  generalize hv : Json.obj members = v at h
  cases h with
  | scalar h =>
    subst hv
    cases h with
    | number hx => obtain ⟨_, ⟨⟩⟩ | ⟨_, ⟨⟩, _⟩ := Numeral.value?_cases hx
  | arr => cases hv
  | obj hblanks h => exact ⟨_, _, hblanks, h, rfl, rfl⟩

/-! ### Whole texts -/

theorem document_eq_ok_iff : document cs = .ok v ↔
    ∃ before text after, Blanks before ∧ Blanks after ∧ Text maxNesting text v ∧
      cs = before ++ (text ++ after) := by
  constructor
  · intro h
    unfold document at h
    split at h
    · cases h
    · next w rest hvalue =>
      split at h
      · next hend =>
        cases h
        obtain ⟨before, text, hbefore, htext, rfl⟩ := value_sound hvalue
        obtain ⟨after, hafter, hrest⟩ := exists_blanks rest
        rw [hend, List.append_nil] at hrest
        exact ⟨before, text, after, hbefore, hafter, htext, by rw [hrest]⟩
      · cases h
  · rintro ⟨before, text, after, hbefore, hafter, htext, rfl⟩
    have hends : Ends after := by simpa using ends_blanks hafter ends_nil
    have hskip : skipBlanks after = [] := by simpa [skipBlanks] using skipBlanks_append hafter []
    simp only [document, htext.reads before after hbefore hends, hskip]

theorem parse_eq_ok_iff {raw : String} : parse raw = .ok v ↔
    ∃ before text after, Blanks before ∧ Blanks after ∧ Text maxNesting text v ∧
      raw.toList = before ++ (text ++ after) := by
  rw [← document_eq_ok_iff]
  unfold parse
  cases document raw.toList <;> simp

/-! ### JSON by its syntax alone -/

/-- The inside of a string where any unit may be escaped, half of a pair too. -/
inductive UnitsText : List Char → Prop
  | nil : UnitsText []
  | char {text texts : List Char} {c : Char} (h : CharText text c) (hs : UnitsText texts) :
    UnitsText (text ++ texts)
  | unit {text texts : List Char} {n : Nat} (h : UnitText text n) (hs : UnitsText texts) :
    UnitsText ('\\' :: 'u' :: (text ++ texts))

/-- JSON to any depth, with numbers of any size and strings of any units. What its items stand for
is left open. -/
inductive Valid : List Char → Prop
  | scalar {text : List Char} {v : Json} (h : Scalar text v) : Valid text
  | number (x : Numeral) : Valid x.text
  | string {text : List Char} (h : UnitsText text) : Valid ('"' :: (text ++ ['"']))
  | arr {blanks : List Char} {items : List Item} (hblanks : Blanks blanks)
    (h : ∀ x ∈ items, Valid x.text) :
    Valid (enclosed '[' ']' blanks (items.map Item.spaced))
  | obj {blanks : List Char} {entries : List Entry} (hblanks : Blanks blanks)
    (h : ∀ x ∈ entries, Valid x.item.text) :
    Valid (enclosed '{' '}' blanks (entries.map Entry.spaced))

theorem Text.valid (h : Text depth text v) : Valid text := by
  induction h with
  | scalar h => exact .scalar h
  | arr hblanks _ ih => exact .arr hblanks ih
  | obj hblanks _ ih => exact .obj hblanks ih

end ScriptProbe.Json
