import ScriptProbe.Command.Session
import ScriptProbe.Proofs.Fixture.Template
import ScriptProbe.Proofs.Json.Order
import ScriptProbe.Proofs.Json.Record

/-! A fixture is read again, as the same document, from every text that is written of it. -/
namespace ScriptProbe.Fixture

open ScriptProbe.Json

variable {w : World} {path : Path} {text raw : String} {f g : Fixture} {v : Json}

theorem ofText_eq_ok :
    ofText text = .ok f ↔ Json.parse text = .ok f.document ∧ f.source = none := by
  obtain ⟨source, document⟩ := f
  cases hparse : Json.parse text with
  | error e => simp [ofText, parse, hparse, Except.mapError, bind, Except.bind]
  | ok v => simp [ofText, parse, hparse, Except.mapError, bind, Except.bind, eq_comm, and_comm]

/-- A template that expands to JSON is laid out anew. -/
theorem expanded_of_parse (hread : readFile w path = .ok raw)
    (hexpand : (Template.ofText path raw).expand w = .ok text) (hparse : Json.parse text = .ok v) :
    Session.expanded w path = .ok v.toPrettyText := by
  simp only [Session.expanded, hread, hexpand, hparse, Except.mapError, bind, Except.bind]

theorem stdout_expand (h : Session.expanded w path = .ok text) :
    (Session.expand w path none).stdout = text ++ "\n" := by
  simp only [Session.expand, h, bind, Except.bind]
  rfl

theorem expand_target {target : Path} (h : Session.expanded w path = .ok text)
    (htarget : w.unwritable target = none) :
    Session.expand w path (some target) =
      { Outcome.silent with written := some (target, text ++ "\n") } := by
  simp only [Session.expand, h, htarget, bind, Except.bind]
  rfl

/-- A fixture of whole numbers is read again from the text that engines are given and from its
indented text, also where a template of it is expanded. So the text for engines stays as it is, and
tells the document. -/
theorem ofText_toText (hf : ofText text = .ok f) (hwhole : Whole f.document) :
    ofText f.toText = .ok f ∧
    ofText f.document.toPrettyText = .ok f ∧
    (∀ w path raw, readFile w path = .ok raw → (Template.ofText path raw).expand w = .ok text →
      ofText (Session.expand w path none).stdout = .ok f ∧
      ∀ target, w.unwritable target = none →
        ∃ written, (Session.expand w path (some target)).written = some (target, written) ∧
          ofText written = .ok f) ∧
    (∀ g, ofText f.toText = .ok g → g.toText = f.toText) ∧
    (∀ other g, ofText other = .ok g → Whole g.document →
      (g.toText = f.toText ↔ g.document = f.document)) := by
  obtain ⟨hparse, hsource⟩ := ofText_eq_ok.1 hf
  have hcompact : ofText f.toText = .ok f :=
    ofText_eq_ok.2 ⟨parse_toText_of_parse hparse hwhole, hsource⟩
  have hpretty : ∀ blanks : String, Blanks blanks.toList →
      ofText (f.document.toPrettyText ++ blanks) = .ok f := fun blanks hblanks =>
    ofText_eq_ok.2 ⟨parse_toPrettyText_of_parse hparse hwhole hblanks, hsource⟩
  have hline : Blanks "\n".toList := by simp [Blanks, isBlank]
  refine ⟨hcompact, ?_, ?_, ?_, ?_⟩
  · simpa using hpretty "" (by simp [Blanks])
  · intro w path raw hread hexpand
    have hexpanded := expanded_of_parse hread hexpand hparse
    refine ⟨?_, fun target htarget =>
      ⟨_, by rw [expand_target hexpanded htarget], hpretty "\n" hline⟩⟩
    rw [stdout_expand hexpanded]
    exact hpretty "\n" hline
  · intro g hg
    rw [Except.ok.inj (hcompact.symm.trans hg)]
  · intro other g hg hwholeg
    constructor
    · exact toText_injective (ofText_eq_ok.1 hg).1 hparse hwholeg hwhole
    · intro hdocument
      rw [toText, toText, hdocument]

/-- A text with a key given twice, out of order. -/
def unordered : String := "\x7b\n  \"b\": 1,\n  \"a\": [\n    -5\n  ],\n  \"b\": 0\n\x7d"

/-- The members as that text gives them. -/
def unorderedMembers : List (String × Json) :=
  [("b", .int 1), ("a", .arr [.int (-5)]), ("b", .int 0)]

def ordered : Fixture := ⟨none, .obj [("a", .arr [.int (-5)]), ("b", .int 0)]⟩

/-- A world in which every file holds that text, and every file can be written. -/
def unorderedWorld : World where
  environment _ := none
  read _ := .ok (Text.Utf8.encode unordered.toList)
  isFile _ := true
  unwritable _ := none
  start _ := .error .notFound
  library _ := .error "not found"

theorem whole_of_mem_unordered : ∀ m ∈ unorderedMembers, Whole m.2 := by
  intro m hm
  simp only [unorderedMembers, List.mem_cons, List.not_mem_nil, or_false] at hm
  rcases hm with rfl | rfl | rfl
  · exact .int ⟨by decide, by decide⟩
  · exact .arr (List.forall_mem_singleton.2 (.int ⟨by decide, by decide⟩))
  · exact .int ⟨by decide, by decide⟩

theorem whole_ordered : Whole ordered.document := by
  refine .obj fun m hm => whole_of_mem_unordered m ?_
  simp only [List.mem_cons, List.not_mem_nil, or_false] at hm
  rcases hm with rfl | rfl <;> simp [unorderedMembers]

theorem nests_unordered : Nests maxNesting (.obj unorderedMembers) := by
  refine .obj fun m hm => ?_
  simp only [unorderedMembers, List.mem_cons, List.not_mem_nil, or_false] at hm
  rcases hm with rfl | rfl | rfl
  · exact .int 1
  · exact .arr (List.forall_mem_singleton.2 (.int (-5)))
  · exact .int 0

theorem canonical_unordered : canonical (.obj unorderedMembers) = ordered.document := by
  have horder : "a" < "b" := by decide
  have horder' : ¬"b" < "a" := by decide
  simp [unorderedMembers, ordered, canonical, canonicalItems, canonicalMembers, ofMembers,
    Json.insert, horder, horder']

theorem ofText_unordered : ofText unordered = .ok ordered := by
  have htext : (Json.obj unorderedMembers).toPrettyText = unordered := by decide +kernel
  have hread := parse_toPrettyText (.obj whole_of_mem_unordered) nests_unordered
  rw [htext, canonical_unordered] at hread
  exact ofText_eq_ok.2 ⟨hread, rfl⟩

theorem expand_unordered :
    (Template.ofText (.ofText "tx.json") unordered).expand unorderedWorld = .ok unordered := by
  have hstart : Template.ofText (.ofText "tx.json") unordered =
      ⟨.ofText "", unordered.toList, []⟩ := by
    have hroot : (Path.parent? (.ofText "tx.json")).getD (.ofText ".") = (.ofText "") := by decide
    simp [Template.ofText, hroot]
  have hall :
      (Template.applyAll unorderedWorld Template.passes ⟨.ofText "", unordered.toList, []⟩).map
        (·.text) =
      .ok unordered.toList := by decide +kernel
  obtain ⟨last, hlast, htext⟩ := map_eq_ok.1 hall
  exact Template.expand_eq_ok.2 ⟨last, hstart ▸ hlast, by rw [htext, String.ofList_toList]⟩

theorem ofText_toText_unordered :
    ofText unordered = .ok ordered ∧ ofText ordered.toText = .ok ordered ∧
      ofText (Session.expand unorderedWorld (.ofText "tx.json") none).stdout = .ok ordered := by
  have hread : readFile unorderedWorld (.ofText "tx.json") = .ok unordered := by
    rw [readFile]
    rfl
  obtain ⟨hcompact, -, hexpand, -⟩ := ofText_toText ofText_unordered whole_ordered
  exact ⟨ofText_unordered, hcompact, (hexpand _ _ _ hread expand_unordered).1⟩

end ScriptProbe.Fixture
