import ScriptProbe.Proofs.Json.Place

/-! What is read from a text: containers within the nesting limit, and the members of every object
in ascending order. Such a value is read again from either of its texts. -/
namespace ScriptProbe.Json

variable {cs rest text : List Char} {v : Json} {key : String} {seen members : List (String × Json)}
    {depth : Nat}

/-- Each key once, in ascending order. -/
def Ascending (members : List (String × Json)) : Prop := members.Pairwise fun m n => m.1 < n.1

/-- Neither an array nor an object, and whole numbers within 64 bits only. -/
def Plain : Json → Prop
  | .arr _ | .obj _ => False
  | .int n => Holds n
  | _ => True

/-- Containers are nested no deeper than `depth`, and the members of every object ascend. -/
inductive Formed : Nat → Json → Prop
  | plain {depth : Nat} {v : Json} (h : Plain v) : Formed depth v
  | arr {depth : Nat} {items : List Json} (h : ∀ v ∈ items, Formed depth v) :
    Formed (depth + 1) (.arr items)
  | obj {depth : Nat} {members : List (String × Json)} (hkeys : Ascending members)
    (h : ∀ m ∈ members, Formed depth m.2) : Formed (depth + 1) (.obj members)

theorem Formed.nests (h : Formed depth v) : Nests depth v := by
  induction h with
  | @plain depth v h =>
    cases v with
    | arr _ => exact h.elim
    | obj _ => exact h.elim
    | _ => constructor
  | arr _ ih => exact .arr ih
  | obj _ _ ih => exact .obj ih

/-! ### Members in order -/

theorem mem_insert {m : String × Json} (h : m ∈ insert key v members) :
    m = (key, v) ∨ m ∈ members := by
  induction members with
  | nil => exact Or.inl (List.mem_singleton.1 h)
  | cons n members ih =>
    obtain ⟨k, w⟩ := n
    rw [insert] at h
    split at h
    · exact List.mem_cons.1 h
    split at h
    · exact (List.mem_cons.1 h).imp_right (List.mem_cons_of_mem _)
    · rcases List.mem_cons.1 h with rfl | h
      · exact Or.inr List.mem_cons_self
      · exact (ih h).imp_right (List.mem_cons_of_mem _)

theorem ascending_insert (h : Ascending members) : Ascending (insert key v members) := by
  induction members with
  | nil => exact List.pairwise_singleton _ _
  | cons n members ih =>
    obtain ⟨k, w⟩ := n
    obtain ⟨hfirst, hrest⟩ := List.pairwise_cons.1 h
    rw [insert]
    split
    · next hlt =>
      refine List.pairwise_cons.2 ⟨List.forall_mem_cons.2 ⟨hlt, fun m hm => ?_⟩, h⟩
      exact String.lt_trans hlt (hfirst m hm)
    split
    · next heq => exact List.pairwise_cons.2 ⟨heq ▸ hfirst, hrest⟩
    · next hnlt hne =>
      have hlt : k < key := by
        rcases Std.lt_trichotomy k key with hlt | heq | hlt
        · exact hlt
        · exact absurd heq.symm hne
        · exact absurd hlt hnlt
      refine List.pairwise_cons.2 ⟨fun m hm => ?_, ih hrest⟩
      rcases mem_insert hm with rfl | hm
      · exact hlt
      · exact hfirst m hm

/-- A key above all others goes to the end. -/
theorem insert_of_lt (h : ∀ m ∈ members, m.1 < key) :
    insert key v members = members ++ [(key, v)] := by
  induction members with
  | nil => rfl
  | cons n members ih =>
    obtain ⟨k, w⟩ := n
    obtain ⟨hk, hrest⟩ := List.forall_mem_cons.1 h
    have hnlt : ¬key < k := String.lt_asymm hk
    have hne : key ≠ k := Ne.symm (String.ne_of_lt hk)
    rw [insert, if_neg hnlt, if_neg hne, ih hrest]
    rfl

theorem foldl_insert (h : Ascending (seen ++ members)) :
    members.foldl (fun ms m => insert m.1 m.2 ms) seen = seen ++ members := by
  induction members generalizing seen with
  | nil => simp
  | cons m members ih =>
    have hlast : ∀ n ∈ seen, n.1 < m.1 := fun n hn =>
      (List.pairwise_append.1 h).2.2 n hn m List.mem_cons_self
    rw [List.foldl_cons, insert_of_lt hlast, ih (by simpa using h)]
    simp

theorem ofMembers_of_ascending (h : Ascending members) : ofMembers members = .obj members := by
  rw [ofMembers, foldl_insert (by simpa using h), List.nil_append]

/-- A value that is in order already is read as it stands. -/
theorem Formed.canonical (h : Formed depth v) : canonical v = v := by
  induction h with
  | @plain depth v h =>
    cases v with
    | arr _ => exact h.elim
    | obj _ => exact h.elim
    | _ => rfl
  | arr _ ih => rw [Json.canonical, canonicalItems_eq, List.map_congr_left ih, List.map_id']
  | @obj depth members hkeys _ ih =>
    have hmap : members.map (fun m => (m.1, Json.canonical m.2)) = members := by
      rw [List.map_congr_left fun m hm => by rw [ih m hm], List.map_id']
    rw [Json.canonical, canonicalMembers_eq, hmap, ofMembers_of_ascending hkeys]

/-! ### What the reader gives -/

theorem mem_foldl_insert {m : String × Json}
    (h : m ∈ members.foldl (fun ms m => insert m.1 m.2 ms) seen) :
    m ∈ seen ∨ m ∈ members := by
  induction members generalizing seen with
  | nil => exact Or.inl h
  | cons n members ih =>
    rcases ih h with h | h
    · rcases mem_insert h with rfl | h
      · exact Or.inr List.mem_cons_self
      · exact Or.inl h
    · exact Or.inr (List.mem_cons_of_mem _ h)

theorem ascending_foldl_insert (members : List (String × Json)) (h : Ascending seen) :
    Ascending (members.foldl (fun ms m => insert m.1 m.2 ms) seen) := by
  induction members generalizing seen with
  | nil => exact h
  | cons m members ih => exact ih (ascending_insert h)

theorem Scalar.plain (h : Scalar text v) : Plain v := by
  cases h with
  | number hx =>
    rcases Numeral.value?_cases hx with ⟨f, rfl⟩ | ⟨k, rfl, hk⟩
    · trivial
    · exact hk
  | _ => trivial

theorem Text.formed (h : Text depth text v) : Formed depth v := by
  induction h with
  | scalar h => exact .plain h.plain
  | arr hblanks h ih => exact .arr (List.forall_mem_map.2 ih)
  | obj hblanks h ih =>
    refine .obj (ascending_foldl_insert _ List.Pairwise.nil) fun m hm => ?_
    rcases mem_foldl_insert hm with hm | hm
    · cases hm
    · obtain ⟨x, hx, rfl⟩ := List.mem_map.1 hm
      exact ih x hx

theorem formed_value (h : value depth cs = .ok (v, rest)) : Formed depth v := by
  obtain ⟨blanks, text, -, htext, -⟩ := value_sound h
  exact htext.formed

theorem formed_parse {text : String} (h : parse text = .ok v) : Formed maxNesting v := by
  obtain ⟨rest, hvalue⟩ := parse_eq_ok h
  exact formed_value hvalue

/-! ### Reading again -/

theorem parse_toText_of_parse {text : String} (h : parse text = .ok v) (hwhole : Whole v) :
    parse v.toText = .ok v := by
  have hformed := formed_parse h
  rw [parse_toText hwhole hformed.nests, hformed.canonical]

/-- Blanks behind the indented text do not count. -/
theorem parse_toPrettyText_of_parse {text blanks : String} (h : parse text = .ok v)
    (hwhole : Whole v) (hblanks : Blanks blanks.toList) :
    parse (v.toPrettyText ++ blanks) = .ok v := by
  have hformed := formed_parse h
  have hread := document_write_blanks Layout.indented hwhole hformed.nests 0 hblanks
  rw [parse, toPrettyText, String.toList_append, String.toList_ofList, pretty_eq_write v 0, hread,
    hformed.canonical]

/-- Values that were read have the same compact text only if they are the same. -/
theorem toText_injective {text text' : String} {w : Json} (hv : parse text = .ok v)
    (hw : parse text' = .ok w) (hwholev : Whole v) (hwholew : Whole w) (h : v.toText = w.toText) :
    v = w := by
  have hread := parse_toText_of_parse hv hwholev
  rw [h, parse_toText_of_parse hw hwholew] at hread
  exact (Except.ok.inj hread).symm

end ScriptProbe.Json
