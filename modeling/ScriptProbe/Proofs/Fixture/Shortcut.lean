import ScriptProbe.Proofs.Fixture.Ahead
import ScriptProbe.Proofs.Fixture.Pattern

/-! What a template asks of the world, and that a text without an opening asks nothing: loading a
file passes its expansion by, and comes to the same text. -/
namespace ScriptProbe.Marker

open ScriptProbe.Text

variable {p : Pattern} {pieces back : List Piece} {lead seen cs rest name : List Char}
    {ps : List Part} {ε : Type}

/-! ### Matches -/

/-- A pattern matches at the front of a text and leaves `rest`, in whichever of its ways. -/
def Pattern.Matches (p : Pattern) (cs name rest : List Char) : Prop :=
  (name, rest) ∈ (rests p.front cs).flatMap (naming p.back)

theorem suffix_of_mem_rests (h : rest ∈ rests pieces cs) : rest <:+ cs := by
  induction pieces generalizing cs with
  | nil =>
    obtain rfl := List.mem_singleton.1 h
    exact List.suffix_rfl
  | cons piece pieces ih =>
    have hafter : ∀ {lead}, rest ∈ (after? lead cs).toList.flatMap (rests pieces) →
        rest <:+ cs := by
      intro lead hmem
      obtain ⟨ds, hds, hrest⟩ := List.mem_flatMap.1 hmem
      obtain rfl := eq_append_of_after? (Option.mem_toList.1 hds)
      exact (ih hrest).trans (List.suffix_append lead ds)
    cases piece with
    | text lead => exact hafter h
    | maybe c =>
      rcases List.mem_append.1 h with h | h
      · exact hafter h
      · exact ih h

/-- A text among the pieces is part of every match. -/
theorem holds_of_mem_rests (hlead : .text lead ∈ pieces) (h : rest ∈ rests pieces cs) :
    ∃ passed, cs = passed ++ rest ∧ lead <:+: passed := by
  induction pieces generalizing cs with
  | nil => cases hlead
  | cons piece pieces ih =>
    have hafter : ∀ {front}, .text lead ∈ pieces →
        rest ∈ (after? front cs).toList.flatMap (rests pieces) →
        ∃ passed, cs = passed ++ rest ∧ lead <:+: passed := by
      intro front hmem hrest
      obtain ⟨ds, hds, hrest⟩ := List.mem_flatMap.1 hrest
      obtain ⟨passed, rfl, hpassed⟩ := ih hmem hrest
      refine ⟨front ++ passed, ?_, hpassed.trans (List.suffix_append front passed).isInfix⟩
      rw [eq_append_of_after? (Option.mem_toList.1 hds), List.append_assoc]
    rcases List.mem_cons.1 hlead with rfl | hmem
    · obtain ⟨ds, hds, hrest⟩ := List.mem_flatMap.1 h
      obtain ⟨passed, rfl⟩ := suffix_of_mem_rests hrest
      refine ⟨lead ++ passed, ?_, (List.prefix_append lead passed).isInfix⟩
      rw [eq_append_of_after? (Option.mem_toList.1 hds), List.append_assoc]
    · cases piece with
      | text front => exact hafter hmem h
      | maybe c =>
        rcases List.mem_append.1 h with h | h
        · exact hafter hmem h
        · exact ih hmem h

theorem suffix_of_mem_growing (h : (name, rest) ∈ growing back seen cs) : rest <:+ cs := by
  induction cs generalizing seen with
  | nil =>
    obtain ⟨ds, hds, heq⟩ := List.mem_map.1 h
    obtain ⟨-, rfl⟩ := Prod.mk.inj heq
    exact suffix_of_mem_rests hds
  | cons c cs ih =>
    rcases List.mem_append.1 h with h | h
    · obtain ⟨ds, hds, heq⟩ := List.mem_map.1 h
      obtain ⟨-, rfl⟩ := Prod.mk.inj heq
      exact suffix_of_mem_rests hds
    · split at h
      · cases h
      · exact (ih h).trans (List.suffix_cons c cs)

theorem suffix_of_mem_naming (h : (name, rest) ∈ naming back cs) : rest <:+ cs := by
  cases cs with
  | nil => exact absurd h List.not_mem_nil
  | cons c cs =>
    rw [naming] at h
    split at h
    · exact absurd h List.not_mem_nil
    · exact (suffix_of_mem_growing h).trans (List.suffix_cons c cs)

/-- What stands at the front of a pattern is part of all that it matches. -/
theorem Pattern.Matches.holds (h : p.Matches cs name rest) (hlead : .text lead ∈ p.front) :
    ∃ matched, cs = matched ++ rest ∧ lead <:+: matched := by
  obtain ⟨ds, hds, hname⟩ := List.mem_flatMap.1 h
  obtain ⟨passed, rfl, hpassed⟩ := holds_of_mem_rests hlead hds
  obtain ⟨more, rfl⟩ := suffix_of_mem_naming hname
  refine ⟨passed ++ more, (List.append_assoc passed more rest).symm, ?_⟩
  exact hpassed.trans (List.prefix_append passed more).isInfix

theorem fill_congr {value value' : List Char → Except ε (List Char)}
    (h : ∀ name ∈ names ps, value name = value' name) : fill value ps = fill value' ps := by
  have hfrom : ∀ seen, fillFrom value seen ps = fillFrom value' seen ps := by
    induction ps with
    | nil => exact fun seen => rfl
    | cons part ps ih =>
      intro seen
      cases part with
      | char c => exact ih h _
      | marker name =>
        obtain ⟨hname, hrest⟩ := List.forall_mem_cons.1 h
        rw [fillFrom, fillFrom, hname]
        cases value' name with
        | ok text => exact ih hrest _
        | error e => rfl
  exact hfrom []

end ScriptProbe.Marker

namespace ScriptProbe.Template

open Marker

variable {w w' : World} {t : Template} {pass : Pass} {order : List Pass}

/-! ### What is asked of the world -/

/-- The files that passes in a row ask for, up to the first fault. -/
def asked (w : World) : List Pass → Template → List Path
  | [], _ => []
  | pass :: rest, t =>
    t.files pass ++
      match t.apply w pass with
      | (next, none) => asked w rest next
      | (_, some _) => []

theorem readFile_congr {name : List Char}
    (h : w'.read (t.root.join (.ofText (String.ofList name))) =
      w.read (t.root.join (.ofText (String.ofList name)))) :
    t.readFile w' name = t.readFile w name := by
  simp only [readFile, h]

/-- A pass depends on the files that it asks for and on nothing else. -/
theorem apply_congr (h : ∀ path ∈ t.files pass, w'.read path = w.read path) :
    t.apply w' pass = t.apply w pass := by
  by_cases hpass : pass = .recordTypes
  · subst hpass
    rfl
  · have hvalue : ∀ name ∈ found pass t.text, t.value w' pass name = t.value w pass name := by
      intro name hname
      cases pass with
      | data => simp only [value, readFile_congr (h _ (List.mem_map_of_mem hname))]
      | hash => simp only [value, readFile_congr (h _ (List.mem_map_of_mem hname))]
      | recordTypes => rfl
      | defineTypes => rfl
      | referTypes => rfl
    rw [apply_fill w' t hpass, apply_fill w t hpass, fill_congr hvalue]

theorem applyAll_congr (h : ∀ path ∈ asked w order t, w'.read path = w.read path) :
    applyAll w' order t = applyAll w order t := by
  induction order generalizing t with
  | nil => rfl
  | cons pass order ih =>
    obtain ⟨hpass, hrest⟩ := List.forall_mem_append.1 h
    rw [applyAll, applyAll, apply_congr hpass]
    obtain ⟨next, fault, happly⟩ : ∃ next fault, t.apply w pass = (next, fault) := ⟨_, _, rfl⟩
    rw [happly] at hrest ⊢
    cases fault with
    | none => exact ih hrest
    | some fault => rfl

theorem expand_congr (h : ∀ path ∈ asked w passes t, w'.read path = w.read path) :
    t.expand w' = t.expand w := by
  rw [expand, expand, applyAll_congr h]

theorem asked_unmarked (w : World) (order : List Pass) (h : ¬opening <:+: t.text) :
    asked w order t = [] := by
  have hfiles : ∀ pass, t.files pass = [] := by
    intro pass
    cases pass <;> simp [files, parts_find _ h, names_chars]
  induction order with
  | nil => rfl
  | cons pass order ih =>
    rw [asked, hfiles, apply_unmarked w pass h]
    exact ih

/-! ### Patterns -/

theorem opening_mem_front (pass : Pass) : .text opening ∈ (pattern pass).front := by
  cases pass <;> decide

/-- All that a pattern matches holds an opening. -/
theorem opening_of_matches {cs name rest : List Char} (h : (pattern pass).Matches cs name rest) :
    ∃ matched, cs = matched ++ rest ∧ opening <:+: matched :=
  h.holds (opening_mem_front pass)

end ScriptProbe.Template

namespace ScriptProbe.Fixture

open Marker Template

variable {w w' : World} {path : Path}

/-- The text that a file comes to by expansion. -/
def expandedText (w : World) (path : Path) : Except Fault String := do
  let raw ← readFile w path
  ((Template.ofText path raw).expand w).mapError .fixture

/-- JSON is laid out anew, and any other text stays as it is. -/
def laidOut (text : String) : String :=
  match Json.parse text with
  | .ok v => v.toPrettyText
  | .error _ => text

theorem load_eq (w : World) (path : Path) :
    load w path = (do
      let text ← expandedText w path
      let document ← (parse text).mapError .fixture
      .ok ⟨some path, document⟩) := by
  rw [load, expandedText]
  cases readFile w path with
  | error fault => rfl
  | ok raw =>
    have hexpand := expand_eq_template w path raw
    simp only [bind, Except.bind, hexpand]

/-- The files that a fixture is made of: its own, and those that its expansion asks for. -/
def sources (w : World) (path : Path) : List Path :=
  path ::
    match readFile w path with
    | .ok raw => asked w passes (Template.ofText path raw)
    | .error _ => []

/-- A fixture is the same in all worlds that agree on the files it is made of. -/
theorem load_congr (h : ∀ p ∈ sources w path, w'.read p = w.read p) :
    load w' path = load w path := by
  obtain ⟨hpath, hasked⟩ := List.forall_mem_cons.1 h
  have hread : readFile w' path = readFile w path := by
    rw [readFile, readFile, World.readText, World.readText, hpath]
  have htext : expandedText w' path = expandedText w path := by
    rw [expandedText, expandedText, hread]
    cases hraw : readFile w path with
    | error fault => rfl
    | ok raw =>
      rw [hraw] at hasked
      simp only [bind, Except.bind, expand_congr hasked]
  rw [load_eq, load_eq, htext]

theorem expanded_eq (w : World) (path : Path) :
    Session.expanded w path = (expandedText w path).map laidOut := by
  rw [Session.expanded, expandedText]
  cases readFile w path with
  | error fault => rfl
  | ok raw =>
    simp only [bind, Except.bind]
    cases (Template.ofText path raw).expand w with
    | error fault => rfl
    | ok text =>
      simp only [Except.mapError, Except.map, laidOut]
      cases Json.parse text <;> rfl

theorem hasOpening_of_ne {raw text : String} (h : expand w path raw = .ok text) (hne : text ≠ raw) :
    hasOpening raw.toList = true := by
  rw [expand] at h
  split at h
  · assumption
  · exact absurd (Except.ok.inj h).symm hne

/-- A text without an opening holds nothing that a pattern matches. Its expansion gives it back,
asks for no file and so is the same in every world. Hence a file is loaded from the text that its
expansion comes to, although loading expands only texts with an opening, and the `expand` command is
given the same text. -/
theorem load_shortcut (w : World) (path : Path) :
    (∀ pass cs name rest, (pattern pass).Matches cs name rest →
      ∃ matched, cs = matched ++ rest ∧ opening <:+: matched) ∧
    (∀ text : String, ¬opening <:+: text.toList →
      (∀ pass ps, Scan (pattern pass) text.toList ps → ps = text.toList.map .char) ∧
      asked w passes (Template.ofText path text) = [] ∧
      (Template.ofText path text).expand w = .ok text) ∧
    (∀ (t : Template) (w' : World), (∀ p ∈ asked w passes t, w'.read p = w.read p) →
      t.expand w' = t.expand w) ∧
    (load w path = do
      let text ← expandedText w path
      let document ← (parse text).mapError .fixture
      .ok ⟨some path, document⟩) ∧
    Session.expanded w path = (expandedText w path).map laidOut ∧
    ∀ raw text, expand w path raw = .ok text →
      (Template.ofText path raw).expand w = .ok text ∧
      (text ≠ raw → hasOpening raw.toList = true) := by
  refine ⟨fun pass cs name rest => opening_of_matches, ?_, ?_, load_eq w path,
    expanded_eq w path, ?_⟩
  · intro text h
    refine ⟨?_, asked_unmarked w passes h, expand_unmarked w path h⟩
    intro pass ps hscan
    have hparts := parts_find (t := Template.ofText path text) pass h
    exact ((scan_pattern pass text.toList ps).1 hscan).trans hparts
  · exact fun t w' => expand_congr
  · intro raw text h
    exact ⟨(expand_eq_template w path raw).symm.trans h, hasOpening_of_ne h⟩

end ScriptProbe.Fixture
