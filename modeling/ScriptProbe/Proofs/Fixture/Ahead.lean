import ScriptProbe.Proofs.Fixture.Document
import ScriptProbe.Proofs.Json.Brace
import ScriptProbe.Proofs.Text.Utf8

/-! Expanding a template ahead of time and loading what was written comes to the same document as
loading the template itself. -/
namespace ScriptProbe.Fixture

open ScriptProbe.Json

variable {w : World} {path : Path} {text raw : String} {f : Fixture}

/-! ### Loading, step by step -/

theorem load_eq_ok :
    load w path = .ok f ↔
      ∃ raw text, readFile w path = .ok raw ∧ expand w path raw = .ok text ∧
        Json.parse text = .ok f.document ∧ f.source = some path := by
  obtain ⟨source, document⟩ := f
  simp only [load, parse]
  cases hread : readFile w path with
  | error e => simp [bind, Except.bind]
  | ok raw =>
    cases hexpand : expand w path raw with
    | error e => simp [hexpand, bind, Except.bind, Except.mapError]
    | ok text =>
      cases hparse : Json.parse text <;>
        simp [hexpand, hparse, bind, Except.bind, Except.mapError, eq_comm, and_comm]

theorem readFile_encode (h : w.read path = .ok (Text.Utf8.encode text.toList)) :
    readFile w path = .ok text := by
  have htext : w.readText path = .ok text := by
    simp [World.readText, h, bind, Except.bind, Text.Utf8.decode?_encode]
  rw [readFile, htext]
  rfl

/-- A text without an opening is not expanded on loading, and would come out of it as it is. -/
theorem expand_eq_template (w : World) (path : Path) (raw : String) :
    expand w path raw = (Template.ofText path raw).expand w := by
  rw [expand]
  split
  · rfl
  · next h => exact (Template.expand_unmarked w path (mt Marker.hasOpening_iff.2 h)).symm

/-- Where a text without an opening is loaded, no other file is asked for. -/
theorem load_unmarked (hread : readFile w path = .ok text) (h : ¬Marker.opening <:+: text.toList)
    {v : Json} (hparse : Json.parse text = .ok v) : load w path = .ok ⟨some path, v⟩ := by
  have hgate : expand w path text = .ok text := by
    rw [expand, if_neg (mt Marker.hasOpening_iff.1 h)]
  exact load_eq_ok.2 ⟨text, text, hread, hgate, hparse, rfl⟩

/-- A fixture that comes from a text or from a file. -/
inductive Obtained (f : Fixture) : Prop
  | text {text : String} (h : ofText text = .ok f)
  | file {w : World} {path : Path} (h : load w path = .ok f)

theorem Obtained.parse (h : Obtained f) : ∃ text, Json.parse text = .ok f.document := by
  cases h with
  | text h => exact ⟨_, (ofText_eq_ok.1 h).1⟩
  | file h =>
    obtain ⟨-, text, -, -, hparse, -⟩ := load_eq_ok.1 h
    exact ⟨text, hparse⟩

/-- Such a fixture is read again from the text that engines are given. -/
theorem Obtained.parse_toText (h : Obtained f) (hwhole : Whole f.document) :
    Json.parse f.toText = .ok f.document := by
  obtain ⟨text, hparse⟩ := h.parse
  exact parse_toText_of_parse hparse hwhole

/-! ### Expanding ahead -/

theorem not_opening_line {v : Json} (hv : Unmarked v) :
    ¬Marker.opening <:+: (v.toPrettyText ++ "\n").toList := by
  have hline : Shut "\n".toList := shut_of_not_mem (by decide)
  rw [String.toList_append]
  exact apart_iff_unlisted.1 ((shut_toPrettyText hv).append hline).apart

/-- What is written of a template that loads holds no opening, and loads as the same document in any
world and from any place. -/
theorem load_written {target : Path} (hload : load w path = .ok f) (hdocument : Unmarked f.document)
    (htarget : w.unwritable target = none) :
    ∃ written,
      Session.expand w path (some target) =
        { Outcome.silent with written := some (target, written) } ∧
      ¬Marker.opening <:+: written.toList ∧
      ∀ (w' : World) place, w'.read place = .ok (Text.Utf8.encode written.toList) →
        load w' place = .ok ⟨some place, f.document⟩ := by
  obtain ⟨raw, text, hread, hexpand, hparse, -⟩ := load_eq_ok.1 hload
  rw [expand_eq_template] at hexpand
  have hexpanded := expanded_of_parse hread hexpand hparse
  have hopening := not_opening_line hdocument
  have hwhole : Whole f.document := hdocument.whole (formed_parse hparse)
  refine ⟨f.document.toPrettyText ++ "\n", expand_target hexpanded htarget, hopening, ?_⟩
  intro w' place hplace
  have hline : Blanks "\n".toList := by simp [Blanks, isBlank]
  exact load_unmarked (readFile_encode hplace) hopening
    (parse_toPrettyText_of_parse hparse hwhole hline)

/-! ### A file of two bytes -/

def twoBytes : String := "\x7b\n  \"a\": \"\x7b\x7b data x \x7d\x7d\"\n\x7d"

/-- A world with a template for that file beside it. -/
def twoBytesWorld : World where
  environment _ := none
  read p := if p.text = "x" then .ok [1, 2] else .ok (Text.Utf8.encode twoBytes.toList)
  isFile _ := true
  unwritable _ := none
  start _ := .error .notFound
  library _ := .error "not found"

def twoBytesDocument : Json := .obj [("a", .str "0102")]

theorem unmarked_twoBytesDocument : Unmarked twoBytesDocument := by
  refine .obj ?_ ?_
  · exact List.forall_mem_singleton.2 (by decide)
  · exact List.forall_mem_singleton.2 (.str (by decide))

theorem expand_twoBytes :
    (Template.ofText (.ofText "tx.json") twoBytes).expand twoBytesWorld =
      .ok twoBytesDocument.toPrettyText := by
  have hall : (Template.applyAll twoBytesWorld Template.passes
      (Template.ofText (.ofText "tx.json") twoBytes)).map (·.text) =
        .ok twoBytesDocument.toPrettyText.toList := by
    decide +kernel
  obtain ⟨last, hlast, htext⟩ := map_eq_ok.1 hall
  exact Template.expand_eq_ok.2 ⟨last, hlast, by rw [htext, String.ofList_toList]⟩

theorem load_twoBytes :
    load twoBytesWorld (.ofText "tx.json") = .ok ⟨some (.ofText "tx.json"), twoBytesDocument⟩ := by
  have hread : readFile twoBytesWorld (.ofText "tx.json") = .ok twoBytes := readFile_encode rfl
  have hparse : Json.parse twoBytesDocument.toPrettyText = .ok twoBytesDocument := by
    have hwhole : Whole twoBytesDocument := .obj (List.forall_mem_singleton.2 (.str _))
    have hnests : Nests maxNesting twoBytesDocument := .obj (List.forall_mem_singleton.2 (.str _))
    rw [parse_toPrettyText hwhole hnests]
    rfl
  exact load_eq_ok.2 ⟨_, _, hread, (expand_eq_template _ _ _).trans expand_twoBytes, hparse, rfl⟩

/-- The template is gone from what is written, and with it the need for the file. -/
theorem load_written_twoBytes :
    ∃ written,
      Session.expand twoBytesWorld (.ofText "tx.json") (some (.ofText "out.json")) =
        { Outcome.silent with written := some ((.ofText "out.json"), written) } ∧
      ¬Marker.opening <:+: written.toList ∧
      ∀ (w' : World) place, w'.read place = .ok (Text.Utf8.encode written.toList) →
        load w' place = .ok ⟨some place, twoBytesDocument⟩ :=
  load_written load_twoBytes unmarked_twoBytesDocument rfl

end ScriptProbe.Fixture
