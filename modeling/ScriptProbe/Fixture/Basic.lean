import ScriptProbe.Chain.Form
import ScriptProbe.Fixture.Template

/-!
Fixtures: JSON documents, read from a text or from a file that may be a template, and their reading
as a mock transaction.
-/

namespace ScriptProbe

structure Fixture where
  source : Option Path
  document : Json

namespace Fixture

def parse (text : String) : Except FixtureFault Json := (Json.parse text).mapError .notJson

def ofText (text : String) : Except FixtureFault Fixture := do
  .ok ⟨none, ← parse text⟩

def readFile (w : World) (path : Path) : Except Fault String :=
  (w.readText path).mapError fun refusal => .file (.cannotReadFixture path refusal)

/-- Expands a template, and leaves a text without markers alone. -/
def expand (w : World) (path : Path) (text : String) : Except FixtureFault String :=
  if Marker.hasOpening text.toList then (Template.ofText path text).expand w else .ok text

def load (w : World) (path : Path) : Except Fault Fixture := do
  let text ← readFile w path
  let text ← (expand w path text).mapError .fixture
  let document ← (parse text).mapError .fixture
  .ok ⟨some path, document⟩

/-- The text that engines are given. -/
def toText (f : Fixture) : String := f.document.toText

def transaction (f : Fixture) : Except FixtureFault MockTransaction :=
  (MockTransaction.form f.document).mapError .notTransaction

end Fixture

end ScriptProbe
