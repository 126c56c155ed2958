import ScriptProbe.Proofs.Json.Layout

/-! What one step of each reader comes to: the blanks it passes over, how it can end and what it can
go on with. -/
namespace ScriptProbe.Json

variable {element : List Char → Read Json} {cs rest more sub bound gap sep : List Char} {v : Json}
    {seen : List Json}
  {members : List (String × Json)}

/-! ### Blanks -/

/-- A reader takes a text for a value, whatever blanks stand before it and whatever follows. -/
def Reads (element : List Char → Read Json) (text : List Char) (v : Json) : Prop :=
  ∀ blanks rest, Blanks blanks → Ends rest → element (blanks ++ (text ++ rest)) = .ok (v, rest)

/-- The text begins with a character that is neither blank nor the end of a container. -/
def Opens (text : List Char) : Prop :=
  ∃ c cs, text = c :: cs ∧ isBlank c = false ∧ c ≠ ']' ∧ c ≠ '}'

theorem skipBlanks_append {blanks : List Char} (h : Blanks blanks) (cs : List Char) :
    skipBlanks (blanks ++ cs) = skipBlanks cs :=
  List.dropWhile_append_of_pos h

theorem ends_blanks {blanks : List Char} (h : Blanks blanks) (hrest : Ends rest) :
    Ends (blanks ++ rest) := by
  cases blanks with
  | nil => exact hrest
  | cons c cs =>
    have hc := h c List.mem_cons_self
    simp only [isBlank, Bool.or_eq_true, decide_eq_true_eq] at hc
    rcases hc with ((rfl | rfl) | rfl) | rfl <;> exact ends_cons (by decide) _

theorem valueOver_blanks {blanks : List Char} (h : Blanks blanks)
    (inner : Option (List Char → Read Json)) (cs : List Char) :
    valueOver inner (blanks ++ cs) = valueOver inner cs := by
  rw [valueOver, valueOver, skipBlanks_append h]

theorem exists_blanks (cs : List Char) : ∃ blanks, Blanks blanks ∧ cs = blanks ++ skipBlanks cs :=
  ⟨cs.takeWhile isBlank, fun c hc => List.all_eq_true.1 List.all_takeWhile c hc,
    List.takeWhile_append_dropWhile.symm⟩

/-! ### Literals -/

theorem literal_eq_ok {w : Json} {es : List Char} :
    literal w es cs = .ok (v, rest) ↔ v = w ∧ cs = es ++ rest := by
  induction es generalizing cs with
  | nil =>
    rw [literal, Except.ok.injEq, Prod.mk.injEq, List.nil_append]
    exact and_congr_left fun _ => eq_comm
  | cons e es ih =>
    cases cs with
    | nil => exact iff_of_false nofun nofun
    | cons c cs =>
      rw [literal]
      split
      · next hc => rw [ih, hc, List.cons_append, List.cons.injEq, and_iff_right rfl]
      · next hc => exact iff_of_false nofun fun h => hc (List.cons.inj h.2).1

/-! ### Arrays -/

theorem moreItems_cases (h : moreItems element bound seen cs = .ok (v, rest)) :
    (skipBlanks cs = ']' :: rest ∧ v = .arr seen.reverse) ∨
      ∃ b bound' more w rest', bound = b :: bound' ∧ skipBlanks cs = ',' :: more ∧
        element (skipBlanks more) = .ok (w, rest') ∧
        moreItems element bound' (w :: seen) rest' = .ok (v, rest) := by
  unfold moreItems at h
  split at h
  · cases h
  · cases h
  · next b bound' _ =>
    split at h
    · cases h
    · next hend =>
      obtain ⟨rfl, rfl⟩ := Prod.mk.inj (Except.ok.inj h)
      exact Or.inl ⟨hend, rfl⟩
    · next more hcomma =>
      split at h
      · cases h
      · cases h
      · split at h
        · cases h
        · next w rest' hw => exact Or.inr ⟨b, bound', more, w, rest', rfl, hcomma, hw, h⟩
    · cases h

theorem items_cases (h : items element cs = .ok (v, rest)) :
    (skipBlanks cs = ']' :: rest ∧ v = .arr []) ∨
      ∃ w rest', element (skipBlanks cs) = .ok (w, rest') ∧
        moreItems element rest' [w] rest' = .ok (v, rest) := by
  unfold items at h
  split at h
  · cases h
  · next hend =>
    obtain ⟨rfl, rfl⟩ := Prod.mk.inj (Except.ok.inj h)
    exact Or.inl ⟨hend, rfl⟩
  · split at h
    · cases h
    · next w rest' hw => exact Or.inr ⟨w, rest', hw, h⟩

theorem moreItems_end {b : Char} {bound : List Char} (hgap : Blanks gap) (seen : List Json) :
    moreItems element (b :: bound) seen (gap ++ ']' :: rest) = .ok (.arr seen.reverse, rest) := by
  rw [moreItems.eq_3 _ _ _ _ _ (by simp)]
  simp only [skipBlanks_append hgap, skipBlanks_cons (c := ']') rfl]

theorem moreItems_next {b : Char} {bound text : List Char} (hgap : Blanks gap) (hsep : Blanks sep)
    (h : Reads element text v) (hopens : Opens text) (hrest : Ends rest) (seen : List Json) :
    moreItems element (b :: bound) seen (gap ++ ',' :: (sep ++ (text ++ rest))) =
      moreItems element bound (v :: seen) rest := by
  obtain ⟨c, cs, rfl, hblank, hc, -⟩ := hopens
  have hvalue : element (c :: (cs ++ rest)) = .ok (v, rest) := h [] rest blanks_nil hrest
  rw [moreItems.eq_3 _ _ _ _ _ (by simp), skipBlanks_append hgap, skipBlanks_cons rfl]
  simp only [skipBlanks_append hsep, List.cons_append, skipBlanks_cons hblank]
  split
  · next heq => cases heq
  · next heq => exact absurd (List.cons.inj heq).1 hc
  · rw [hvalue]

theorem items_first {text : List Char} (hsep : Blanks sep) (h : Reads element text v)
    (hopens : Opens text) (hrest : Ends rest) :
    items element (sep ++ (text ++ rest)) = moreItems element rest [v] rest := by
  obtain ⟨c, cs, rfl, hblank, hc, -⟩ := hopens
  have hvalue : element (c :: (cs ++ rest)) = .ok (v, rest) := h [] rest blanks_nil hrest
  simp only [items, skipBlanks_append hsep, List.cons_append, skipBlanks_cons hblank]
  split
  · next heq => cases heq
  · next heq => exact absurd (List.cons.inj heq).1 hc
  · rw [hvalue]

theorem items_of_stop {c : Char} {f : Failure} (hblank : isBlank c = false) (hc : c ≠ ']')
    (h : element (c :: cs) = .error f) : items element (c :: cs) = .error f := by
  simp only [items, skipBlanks_cons hblank]
  split
  · next heq => cases heq
  · next heq => exact absurd (List.cons.inj heq).1 hc
  · rw [h]

/-! ### Objects -/

theorem member_cases {m : String × Json} (h : member element cs = .ok (m, rest)) :
    ∃ colon sub, string cs.tail = .ok (m.1, colon) ∧ skipBlanks colon = ':' :: sub ∧
      element sub = .ok (m.2, rest) := by
  unfold member at h
  split at h
  · cases h
  · next key colon hkey =>
    split at h
    · cases h
    · next sub hcolon =>
      split at h
      · cases h
      · next v rest' hv =>
        obtain ⟨rfl, rfl⟩ := Prod.mk.inj (Except.ok.inj h)
        exact ⟨colon, sub, hkey, hcolon, hv⟩
    · cases h

theorem moreMembers_cases (h : moreMembers element bound members cs = .ok (v, rest)) :
    (skipBlanks cs = '}' :: rest ∧ v = .obj members) ∨
      ∃ b bound' more m rest', bound = b :: bound' ∧ skipBlanks cs = ',' :: more ∧
        (skipBlanks more).head? = some '"' ∧ member element (skipBlanks more) = .ok (m, rest') ∧
        moreMembers element bound' (insert m.1 m.2 members) rest' = .ok (v, rest) := by
  unfold moreMembers at h
  split at h
  · cases h
  · cases h
  · next b bound' _ =>
    split at h
    · cases h
    · next hend =>
      obtain ⟨rfl, rfl⟩ := Prod.mk.inj (Except.ok.inj h)
      exact Or.inl ⟨hend, rfl⟩
    · next more hcomma =>
      split at h
      · cases h
      · cases h
      · next quoted hquote =>
        split at h
        · cases h
        · next k w rest' hm =>
          exact Or.inr ⟨b, bound', more, (k, w), rest', rfl, hcomma, hquote ▸ rfl, hquote ▸ hm, h⟩
      · cases h
    · cases h

theorem members_cases (h : Json.members element cs = .ok (v, rest)) :
    (skipBlanks cs = '}' :: rest ∧ v = .obj []) ∨
      ∃ m rest', (skipBlanks cs).head? = some '"' ∧
        member element (skipBlanks cs) = .ok (m, rest') ∧
        moreMembers element rest' [m] rest' = .ok (v, rest) := by
  unfold Json.members at h
  split at h
  · cases h
  · next hend =>
    obtain ⟨rfl, rfl⟩ := Prod.mk.inj (Except.ok.inj h)
    exact Or.inl ⟨hend, rfl⟩
  · next quoted hquote =>
    split at h
    · cases h
    · next k w rest' hm => exact Or.inr ⟨(k, w), rest', hquote ▸ rfl, hquote ▸ hm, h⟩
  · cases h

theorem moreMembers_end {b : Char} {bound : List Char} (hgap : Blanks gap)
    (seen : List (String × Json)) :
    moreMembers element (b :: bound) seen (gap ++ '}' :: rest) = .ok (.obj seen, rest) := by
  rw [moreMembers.eq_3 _ _ _ _ _ (by simp)]
  simp only [skipBlanks_append hgap, skipBlanks_cons (c := '}') rfl]

theorem member_of_parts {key : String} {colon : List Char} (hkey : string cs = .ok (key, colon))
    (hcolon : skipBlanks colon = ':' :: sub) (h : element sub = .ok (v, rest)) :
    member element ('"' :: cs) = .ok ((key, v), rest) := by
  simp only [member, List.tail_cons, hkey, hcolon, h]

theorem moreMembers_next {b : Char} {m : String × Json} (hgap : Blanks gap) (hsep : Blanks sep)
    (h : member element ('"' :: cs) = .ok (m, rest)) (seen : List (String × Json)) :
    moreMembers element (b :: bound) seen (gap ++ ',' :: (sep ++ '"' :: cs)) =
      moreMembers element bound (insert m.1 m.2 seen) rest := by
  rw [moreMembers.eq_3 _ _ _ _ _ (by simp), skipBlanks_append hgap, skipBlanks_cons rfl]
  simp only [skipBlanks_append hsep, skipBlanks_cons (c := '"') rfl, h]

theorem members_first {m : String × Json} (hsep : Blanks sep)
    (h : member element ('"' :: cs) = .ok (m, rest)) :
    Json.members element (sep ++ '"' :: cs) = moreMembers element rest [m] rest := by
  simp only [Json.members, skipBlanks_append hsep, skipBlanks_cons (c := '"') rfl, h]

/-! ### Values -/

theorem value_blanks {blanks : List Char} (h : Blanks blanks) (depth : Nat) (cs : List Char) :
    value depth (blanks ++ cs) = value depth cs := by
  cases depth <;> exact valueOver_blanks h _ cs

theorem reads_of_eq {depth : Nat} {text : List Char}
    (h : ∀ rest, Ends rest → value depth (text ++ rest) = .ok (v, rest)) :
    Reads (value depth) text v := by
  intro blanks rest hblanks hrest
  rw [value_blanks hblanks, h rest hrest]

/-- A value that is no container is read the same way at every depth. -/
theorem value_of_valueOver {cs : List Char} {r : Read Json} (h : ∀ inner, valueOver inner cs = r)
    (depth : Nat) : value depth cs = r := by
  cases depth <;> exact h _

theorem value_arr (h : skipBlanks cs = '[' :: more) (depth : Nat) :
    value (depth + 1) cs = items (value depth) more := by
  rw [value, valueOver, h]
  rfl

theorem value_obj (h : skipBlanks cs = '{' :: more) (depth : Nat) :
    value (depth + 1) cs = Json.members (value depth) more := by
  rw [value, valueOver, h]
  rfl

end ScriptProbe.Json
