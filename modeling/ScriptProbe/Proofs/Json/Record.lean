import ScriptProbe.Json.Form

/-! When a record is read from an object or an array, and from which part each of its fields
comes. -/
namespace ScriptProbe.Json

variable {α β ε ε' : Type} {form : Form α} {r : Record α} {name : String} {a : α} {b : β} {v : Json}
  {members : List (String × Json)} {items rest : Items}

@[simp] theorem mapError_eq_ok {e : Except ε α} {f : ε → ε'} :
    e.mapError f = .ok a ↔ e = .ok a := by
  cases e with
  | ok x =>
    change Except.ok x = Except.ok a ↔ _
    simp only [Except.ok.injEq]
  | error _ => exact ⟨nofun, nofun⟩

theorem map_eq_ok {e : Except ε α} {f : α → β} : e.map f = .ok b ↔ ∃ a, e = .ok a ∧ f a = b := by
  cases e <;> simp [Except.map]

theorem toOption_eq_some {e : Except ε α} : e.toOption = some a ↔ e = .ok a := by
  cases e <;> simp [Except.toOption]

theorem part_of_ok {step : Step} (h : form v = .ok a) : form.part step v = .ok a := by
  rw [Form.part, h]
  rfl

theorem part_of_error {step : Step} {m : Mismatch} (h : form v = .error m) :
    form.part step v = .error (m.under step) := by
  rw [Form.part, h]
  rfl

theorem gather_eq_ok {f : Except Flaw (α → β)} {x : Except Flaw α} :
    gather f x = .ok b ↔ ∃ g a, f = .ok g ∧ x = .ok a ∧ g a = b := by
  cases f <;> cases x <;> simp [gather]

theorem nullable_eq_ok {a : Option α} :
    nullable form v = .ok a ↔
      (v = .null ∧ a = none) ∨ (v ≠ .null ∧ ∃ x, form v = .ok x ∧ a = some x) := by
  cases v with
  | null => simp [nullable, eq_comm]
  | _ => cases h : form _ <;> simp [nullable, h, Except.map, eq_comm]

namespace Record

/-! ### Objects -/

@[simp] theorem ofMembers_map {f : α → β} :
    (f <$> r).ofMembers members = .ok b ↔ ∃ a, r.ofMembers members = .ok a ∧ f a = b := by
  change (r.ofMembers members).map f = .ok b ↔ _
  cases r.ofMembers members <;> simp [Except.map]

@[simp] theorem ofMembers_seq {f : Record (α → β)} :
    (f <*> r).ofMembers members = .ok b ↔
      ∃ g a, f.ofMembers members = .ok g ∧ r.ofMembers members = .ok a ∧ g a = b :=
  gather_eq_ok

theorem ofMembers_fieldOr {ifAbsent ifEnded : Option α} :
    (fieldOr name ifAbsent ifEnded form).ofMembers members = .ok a ↔
      (find? name members = none ∧ ifAbsent = some a) ∨
        ∃ v, find? name members = some v ∧ form v = .ok a := by
  simp only [fieldOr]
  cases find? name members with
  | none => cases ifAbsent <;> simp
  | some v =>
    cases hv : form v with
    | error m => simp [part_of_error hv, hv]
    | ok x => simp [part_of_ok hv, hv]

@[simp] theorem ofMembers_field :
    (field name form).ofMembers members = .ok a ↔
      ∃ v, find? name members = some v ∧ form v = .ok a := by
  simp [field, ofMembers_fieldOr]

@[simp] theorem ofMembers_optional {a : Option α} :
    (optional name form).ofMembers members = .ok a ↔
      (find? name members = none ∧ a = none) ∨
        ∃ v, find? name members = some v ∧ nullable form v = .ok a := by
  rw [optional, ofMembers_fieldOr, Option.some.injEq, eq_comm (a := none)]

theorem ofObject_eq_ok {flaw : Option Flaw} :
    r.ofObject flaw members = .ok a ↔ r.ofMembers members = .ok a ∧ flaw = none := by
  cases h : r.ofMembers members <;> cases flaw <;> simp [ofObject, h]

@[simp] theorem lenient_obj {struct : String} :
    lenient struct r (.obj members) = .ok a ↔ r.ofMembers members = .ok a := by
  simp [lenient, ofObject_eq_ok]

@[simp] theorem strict_obj {struct : String} :
    strict struct r (.obj members) = .ok a ↔
      r.ofMembers members = .ok a ∧ r.stranger members = none := by
  simp [strict, ofObject_eq_ok]

/-! ### Arrays -/

@[simp] theorem ofItems_map {f : α → β} :
    (f <$> r).ofItems items = .ok (b, rest) ↔ ∃ a, r.ofItems items = .ok (a, rest) ∧ f a = b := by
  change (r.ofItems items >>= fun x => .ok (f x.1, x.2)) = .ok (b, rest) ↔ _
  cases h : r.ofItems items with
  | error e => simp [bind, Except.bind]
  | ok x =>
    simp only [bind, Except.bind, Except.ok.injEq, Prod.ext_iff]
    constructor
    · rintro ⟨hb, hrest⟩
      exact ⟨x.1, ⟨rfl, hrest⟩, hb⟩
    · rintro ⟨a, ⟨rfl, hrest⟩, hb⟩
      exact ⟨hb, hrest⟩

@[simp] theorem ofItems_seq {f : Record (α → β)} :
    (f <*> r).ofItems items = .ok (b, rest) ↔
      ∃ g more a, f.ofItems items = .ok (g, more) ∧ r.ofItems more = .ok (a, rest) ∧ g a = b := by
  change (f.ofItems items >>= fun x => r.ofItems x.2 >>= fun y => .ok (x.1 y.1, y.2)) =
    .ok (b, rest) ↔ _
  constructor
  · intro h
    cases hf : f.ofItems items with
    | error e => simp [hf, bind, Except.bind] at h
    | ok x =>
      cases hr : r.ofItems x.2 with
      | error e => simp [hf, hr, bind, Except.bind] at h
      | ok y =>
        simp only [hf, hr, bind, Except.bind, Except.ok.injEq, Prod.mk.injEq] at h
        obtain ⟨hb, rfl⟩ := h
        exact ⟨x.1, x.2, y.1, rfl, hr, hb⟩
  · rintro ⟨g, more, a, hf, hr, rfl⟩
    simp [hf, hr, bind, Except.bind]

theorem ofItems_fieldOr {ifAbsent : Option α} :
    (fieldOr name ifAbsent none form).ofItems items = .ok (a, rest) ↔
      ∃ v i, items = (v, i) :: rest ∧ form v = .ok a := by
  cases items with
  | nil => simp [fieldOr]
  | cons item more =>
    obtain ⟨v, i⟩ := item
    cases hv : form v with
    | error m =>
      simp only [fieldOr, part_of_error hv, List.cons.injEq, Prod.mk.injEq, reduceCtorEq, false_iff]
      rintro ⟨w, j, ⟨⟨rfl, rfl⟩, rfl⟩, hw⟩
      rw [hv] at hw
      cases hw
    | ok x =>
      simp only [fieldOr, part_of_ok hv, List.cons.injEq, Prod.mk.injEq, Except.ok.injEq]
      constructor
      · rintro ⟨rfl, rfl⟩
        exact ⟨v, i, ⟨⟨rfl, rfl⟩, rfl⟩, hv⟩
      · rintro ⟨w, j, ⟨⟨rfl, rfl⟩, rfl⟩, hw⟩
        exact ⟨Except.ok.inj (hv.symm.trans hw), rfl⟩

@[simp] theorem ofItems_field :
    (field name form).ofItems items = .ok (a, rest) ↔
      ∃ v i, items = (v, i) :: rest ∧ form v = .ok a :=
  ofItems_fieldOr

@[simp] theorem ofItems_optional {a : Option α} :
    (optional name form).ofItems items = .ok (a, rest) ↔
      ∃ v i, items = (v, i) :: rest ∧ nullable form v = .ok a :=
  ofItems_fieldOr

theorem ofArray_eq_ok {short : String} {items : List Json} :
    r.ofArray short items = .ok a ↔ r.ofItems items.zipIdx = .ok (a, []) := by
  unfold ofArray
  split <;> simp_all [refuse]

@[simp] theorem lenient_arr {struct : String} {items : List Json} :
    lenient struct r (.arr items) = .ok a ↔ r.ofItems items.zipIdx = .ok (a, []) :=
  ofArray_eq_ok

@[simp] theorem strict_arr {struct : String} {items : List Json} :
    strict struct r (.arr items) = .ok a ↔ r.ofItems items.zipIdx = .ok (a, []) :=
  ofArray_eq_ok

end Record

end ScriptProbe.Json
