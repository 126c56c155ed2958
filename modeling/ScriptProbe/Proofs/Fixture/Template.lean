import Mathlib.Data.List.Nodup
import ScriptProbe.Fixture.Template
import ScriptProbe.Proofs.Fixture.Marker

/-! The passes over a template, one at a time and in a row. -/
namespace ScriptProbe.Template

open ScriptProbe.Text Marker

variable {w : World} {t t' : Template} {pass : Pass} {rest : List Pass} {name : List Char}
  {known : List (List Char × Digest)} {seen names : List (List Char)}
  {given : List Char → List Char}

/-! ### Records -/

/-- Names and the hashes of their scripts. -/
def scripts (names : List (List Char)) : List (List Char × Digest) :=
  names.map fun name => (name, (TypeId.script name).hash)

theorem lookup_scripts (name : List Char) (names : List (List Char)) :
    (scripts names).lookup name =
      if name ∈ names then some (TypeId.script name).hash else none := by
  induction names with
  | nil => rfl
  | cons first names ih =>
    have hcons : scripts (first :: names) =
        (first, (TypeId.script first).hash) :: scripts names := rfl
    rw [hcons, List.lookup_cons]
    by_cases hfirst : name = first
    · subst hfirst
      simp
    · have hbeq : (name == first) = false := beq_eq_false_iff_ne.2 hfirst
      simp [hbeq, hfirst, ih]

/-- Names that are not known yet and of which none comes twice. -/
def Fresh (known : List (List Char × Digest)) (names : List (List Char)) : Prop :=
  names.Nodup ∧ ∀ name ∈ names, known.lookup name = none

theorem fresh_nil (known : List (List Char × Digest)) : Fresh known [] := ⟨List.nodup_nil, by simp⟩

/-- Names behind one that is recorded have to be fresh beside it. -/
theorem fresh_cons :
    Fresh known (name :: names) ↔
      known.lookup name = none ∧ Fresh ((name, (TypeId.script name).hash) :: known) names := by
  have hlookup : ∀ other, ((name, (TypeId.script name).hash) :: known).lookup other = none ↔
      other ≠ name ∧ known.lookup other = none := by
    intro other
    rw [List.lookup_cons]
    by_cases hother : other = name
    · simp [hother]
    · rw [beq_eq_false_iff_ne.2 hother]
      exact (and_iff_right hother).symm
  simp only [Fresh, List.nodup_cons, List.forall_mem_cons, hlookup]
  constructor
  · rintro ⟨⟨hmem, hnodup⟩, hname, hnames⟩
    exact ⟨hname, hnodup, fun n hn => ⟨fun heq => hmem (heq ▸ hn), hnames n hn⟩⟩
  · rintro ⟨hname, hnodup, hnames⟩
    exact ⟨⟨fun hmem => (hnames name hmem).1 rfl, hnodup⟩, hname, fun n hn => (hnames n hn).2⟩

theorem record_cons (h : known.lookup name = none) :
    record known (name :: names) = record ((name, (TypeId.script name).hash) :: known) names := by
  rw [record, h]
  rfl

theorem record_known (h : known.lookup name ≠ none) :
    record known (name :: names) = (known, some (.redefined (String.ofList name))) := by
  rw [record, if_pos (Option.isSome_iff_ne_none.2 h)]

theorem record_fresh (h : Fresh known names) :
    record known names = (scripts names.reverse ++ known, none) := by
  induction names generalizing known with
  | nil => rfl
  | cons name names ih =>
    obtain ⟨hname, hnames⟩ := fresh_cons.1 h
    rw [record_cons hname, ih hnames]
    simp [scripts]

/-- The fault is about the first name that is known by then. -/
theorem record_eq_some {fault : FixtureFault} :
    (record known names).2 = some fault ↔
      ∃ front name behind, names = front ++ name :: behind ∧ Fresh known front ∧
        ¬Fresh known (front ++ [name]) ∧ fault = .redefined (String.ofList name) := by
  induction names generalizing known with
  | nil => simp [record]
  | cons name names ih =>
    by_cases hname : known.lookup name = none
    · rw [record_cons hname, ih]
      constructor
      · rintro ⟨front, other, behind, rfl, hfront, hother, rfl⟩
        exact ⟨name :: front, other, behind, rfl, fresh_cons.2 ⟨hname, hfront⟩,
          fun h => hother (fresh_cons.1 h).2, rfl⟩
      · rintro ⟨front, other, behind, heq, hfront, hother, rfl⟩
        cases front with
        | nil =>
          obtain ⟨rfl, -⟩ := List.cons.inj heq
          exact absurd (fresh_cons.2 ⟨hname, fresh_nil _⟩) hother
        | cons first front =>
          obtain ⟨rfl, rfl⟩ := List.cons.inj heq
          exact ⟨front, other, behind, rfl, (fresh_cons.1 hfront).2,
            fun h => hother (fresh_cons.2 ⟨hname, h⟩), rfl⟩
    · rw [record_known hname]
      constructor
      · intro hfault
        exact ⟨[], name, names, rfl, fresh_nil known, fun h => hname (fresh_cons.1 h).1,
          (Option.some.inj hfault).symm⟩
      · rintro ⟨front, other, behind, heq, hfront, -, rfl⟩
        cases front with
        | nil => rw [(List.cons.inj heq).1]
        | cons first front =>
          obtain ⟨rfl, -⟩ := List.cons.inj heq
          exact absurd (fresh_cons.1 hfront).1 hname

/-- Names are recorded without a fault only if none of them is known and none comes twice. -/
theorem record_eq_none : (record known names).2 = none ↔ Fresh known names := by
  induction names generalizing known with
  | nil => simp [record, fresh_nil]
  | cons name names ih =>
    rw [fresh_cons]
    by_cases hname : known.lookup name = none
    · rw [record_cons hname, ih, and_iff_right hname]
    · simp [record_known hname, hname]

theorem record_scripts (seen names : List (List Char)) :
    record (scripts seen) names = (known, none) ↔
      (names.Nodup ∧ ∀ name ∈ names, name ∉ seen) ∧ known = scripts (names.reverse ++ seen) := by
  have hfresh : Fresh (scripts seen) names ↔ names.Nodup ∧ ∀ name ∈ names, name ∉ seen := by
    simp [Fresh, lookup_scripts]
  rw [← hfresh]
  constructor
  · intro h
    have hnames := record_eq_none.1 (congrArg Prod.snd h)
    rw [record_fresh hnames] at h
    exact ⟨hnames, by simpa [scripts] using (congrArg Prod.fst h).symm⟩
  · rintro ⟨hnames, rfl⟩
    rw [record_fresh hnames]
    simp [scripts]

/-! ### One pass -/

/-- The names that a pass finds in a text. -/
def found (pass : Pass) (text : List Char) : List (List Char) :=
  Marker.names (Marker.parts (find pass) text)

/-- Definitions are found alike with quotes around them and without. -/
theorem found_defineTypes (text : List Char) :
    found .defineTypes text = found .recordTypes text := by
  have hparts := parts_quotedAt? Pass.defineTypes.word text
  rw [found, find, hparts, names_unquote]
  rfl

theorem apply_recordTypes (w : World) (h : t.typeIds = scripts seen) :
    t.apply w .recordTypes = (t', none) ↔
      ((found .recordTypes t.text).Nodup ∧ ∀ name ∈ found .recordTypes t.text, name ∉ seen) ∧
        t' = { t with typeIds := scripts ((found .recordTypes t.text).reverse ++ seen) } := by
  have happly : t.apply w .recordTypes =
      ({ t with typeIds := (record t.typeIds (found .recordTypes t.text)).1 },
        (record t.typeIds (found .recordTypes t.text)).2) := rfl
  rw [happly, h]
  constructor
  · intro heq
    obtain ⟨rfl, hfault⟩ := Prod.mk.inj heq
    have hrecord := (record_scripts seen (found .recordTypes t.text)).1 (Prod.ext rfl hfault)
    exact ⟨hrecord.1, by rw [← hrecord.2]⟩
  · rintro ⟨hnames, rfl⟩
    rw [(record_scripts seen _).2 ⟨hnames, rfl⟩]

/-- Where nothing has been recorded yet, only names that come twice are a fault. -/
theorem apply_recordTypes_first (w : World) (h : t.typeIds = scripts []) :
    t.apply w .recordTypes = (t', none) ↔
      (found .recordTypes t.text).Nodup ∧
        t' = { t with typeIds := scripts (found .recordTypes t.text).reverse } := by
  rw [apply_recordTypes w h]
  simp only [List.not_mem_nil, not_false_eq_true, implies_true, and_true, List.append_nil]

theorem value_referTypes (h : t.typeIds = scripts seen) (name : List Char) :
    t.value w .referTypes name =
      if name ∈ seen then .ok (Hex.encode (TypeId.script name).hash.bytes)
      else .error (.undefined (String.ofList name)) := by
  rw [value, h, lookup_scripts]
  by_cases hname : name ∈ seen
  · rw [if_pos hname, if_pos hname]
  · rw [if_neg hname, if_neg hname]

theorem apply_fill (w : World) (t : Template) (h : pass ≠ .recordTypes) :
    t.apply w pass =
      match Marker.fill (t.value w pass) (Marker.parts (find pass) t.text) with
      | .ok text => ({ t with text }, none)
      | .error fault => (t, some fault) := by
  cases pass with
  | recordTypes => exact absurd rfl h
  | _ => rfl

/-- A pass that fills markers in goes through if there is a value for every name that it finds. -/
theorem apply_eq (h : pass ≠ .recordTypes)
    (hgiven : ∀ name text, t.value w pass name = .ok text → given name = text) :
    t.apply w pass = (t', none) ↔
      (∀ name ∈ found pass t.text, ∃ text, t.value w pass name = .ok text) ∧
        t' = { t with text := (Marker.parts (find pass) t.text).flatMap (Part.fill given) } := by
  rw [apply_fill w t h]
  constructor
  · intro heq
    cases hfill : Marker.fill (t.value w pass) (Marker.parts (find pass) t.text) with
    | error fault => simp [hfill] at heq
    | ok text =>
      have hvalues : ∀ name ∈ found pass t.text, ∃ text, t.value w pass name = .ok text :=
        fun name hname => value_of_fill hfill hname
      have hvalue : ∀ name ∈ found pass t.text, t.value w pass name = .ok (given name) := by
        intro name hname
        obtain ⟨text, htext⟩ := hvalues name hname
        rw [htext, hgiven name text htext]
      rw [fill_eq_ok hvalue] at heq
      exact ⟨hvalues, (Prod.mk.inj heq).1.symm⟩
  · rintro ⟨hvalues, rfl⟩
    have hvalue : ∀ name ∈ found pass t.text, t.value w pass name = .ok (given name) := by
      intro name hname
      obtain ⟨text, htext⟩ := hvalues name hname
      rw [htext, hgiven name text htext]
    rw [fill_eq_ok hvalue]

/-- There is a script for every name. -/
theorem apply_definitions (w : World) (t : Template) :
    t.apply w .defineTypes =
      ({ t with text := (Marker.parts (find .defineTypes) t.text).flatMap (Part.fill typeIdText) },
        none) := by
  have hvalue : ∀ name ∈ found .defineTypes t.text,
      t.value w .defineTypes name = .ok (typeIdText name) :=
    fun _ _ => rfl
  rw [apply_fill w t (by decide), fill_eq_ok hvalue]

/-! ### Passes in a row -/

theorem applyAll_cons_eq_ok :
    applyAll w (pass :: rest) t = .ok t' ↔
      ∃ next, t.apply w pass = (next, none) ∧ applyAll w rest next = .ok t' := by
  rw [applyAll]
  obtain ⟨next, fault, happly⟩ : ∃ next fault, t.apply w pass = (next, fault) := ⟨_, _, rfl⟩
  rw [happly]
  cases fault <;> simp

theorem applyAll_cons {next : Template} (h : t.apply w pass = (next, none)) :
    applyAll w (pass :: rest) t = applyAll w rest next := by
  rw [applyAll, h]

theorem applyAll_step {next : Template} {p : Prop}
    (h : ∀ t', t.apply w pass = (t', none) ↔ p ∧ t' = next) :
    applyAll w (pass :: rest) t = .ok t' ↔ p ∧ applyAll w rest next = .ok t' := by
  rw [applyAll_cons_eq_ok]
  constructor
  · rintro ⟨t'', happly, hrest⟩
    obtain ⟨hp, rfl⟩ := (h t'').1 happly
    exact ⟨hp, hrest⟩
  · rintro ⟨hp, hrest⟩
    exact ⟨next, (h next).2 ⟨hp, rfl⟩, hrest⟩

theorem applyAll_nil_eq_ok : applyAll w [] t = .ok t' ↔ t = t' := by
  simp [applyAll]

theorem applyAll_append (first rest : List Pass) :
    applyAll w (first ++ rest) t = .ok t' ↔
      ∃ next, applyAll w first t = .ok next ∧ applyAll w rest next = .ok t' := by
  induction first generalizing t with
  | nil => simp [applyAll]
  | cons pass first ih =>
    rw [List.cons_append, applyAll_cons_eq_ok]
    simp only [ih, applyAll_cons_eq_ok]
    constructor
    · rintro ⟨mid, hmid, next, hnext, hrest⟩
      exact ⟨next, ⟨mid, hmid, hnext⟩, hrest⟩
    · rintro ⟨next, ⟨mid, hmid, hnext⟩, hrest⟩
      exact ⟨mid, hmid, next, hnext, hrest⟩

theorem expand_eq_ok {text : String} :
    t.expand w = .ok text ↔ ∃ t', applyAll w passes t = .ok t' ∧ String.ofList t'.text = text := by
  rw [expand]
  cases applyAll w passes t <;> simp [Except.map]

/-- Only the recording pass records. -/
theorem apply_typeIds (h : pass ≠ .recordTypes) (happly : t.apply w pass = (t', none)) :
    t'.typeIds = t.typeIds := by
  rw [apply_fill w t h] at happly
  split at happly
  · exact (Prod.mk.inj happly).1 ▸ rfl
  · cases happly

theorem applyAll_files_typeIds (h : applyAll w [.data, .hash] t = .ok t') :
    t'.typeIds = t.typeIds := by
  obtain ⟨next, hdata, hrest⟩ := applyAll_cons_eq_ok.1 h
  obtain ⟨last, hhash, hnil⟩ := applyAll_cons_eq_ok.1 hrest
  obtain rfl := applyAll_nil_eq_ok.1 hnil
  rw [apply_typeIds (by decide) hhash, apply_typeIds (by decide) hdata]

/-- Every name that the definitions of a template are found under is recorded. -/
theorem applyAll_define (h : t.typeIds = scripts []) :
    applyAll w [.recordTypes, .defineTypes] t = .ok t' ↔
      (found .recordTypes t.text).Nodup ∧
        t' = { t with
          text := (Marker.parts (find .defineTypes) t.text).flatMap (Part.fill typeIdText)
          typeIds := scripts (found .recordTypes t.text).reverse } := by
  rw [applyAll_step fun _ => apply_recordTypes_first w h]
  refine and_congr_right fun _ => ?_
  rw [applyAll_cons (apply_definitions w _), applyAll_nil_eq_ok, eq_comm]

/-! ### Texts without an opening -/

theorem find_eq_none {cs : List Char} (pass : Pass) (h : ¬opening <:+: cs) :
    find pass cs = none := by
  cases pass with
  | defineTypes => exact quotedAt?_eq_none h
  | _ => exact at?_eq_none h

theorem parts_find (pass : Pass) (h : ¬opening <:+: t.text) :
    Marker.parts (find pass) t.text = t.text.map .char :=
  parts_eq_chars fun _ hds => find_eq_none pass fun hopening => h (hopening.trans hds.isInfix)

/-- No pass changes a text without an opening, and none finds fault with it. -/
theorem apply_unmarked (w : World) (pass : Pass) (h : ¬opening <:+: t.text) :
    t.apply w pass = (t, none) := by
  have hparts := parts_find pass h
  by_cases hpass : pass = .recordTypes
  · subst hpass
    simp only [apply, hparts, names_chars, record]
  · rw [apply_fill w t hpass, hparts, fill_chars]

theorem applyAll_unmarked (w : World) (order : List Pass) (h : ¬opening <:+: t.text) :
    applyAll w order t = .ok t := by
  induction order with
  | nil => rfl
  | cons pass order ih => rw [applyAll_cons (apply_unmarked w pass h), ih]

/-- Expansion leaves a text without an opening alone. -/
theorem expand_unmarked {text : String} (w : World) (path : Path) (h : ¬opening <:+: text.toList) :
    (ofText path text).expand w = .ok text :=
  expand_eq_ok.2 ⟨_, applyAll_unmarked w passes h, String.ofList_toList⟩

end ScriptProbe.Template
