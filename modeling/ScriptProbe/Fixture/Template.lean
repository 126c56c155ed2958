import ScriptProbe.Chain.TypeId
import ScriptProbe.Chain.View
import ScriptProbe.Fault
import ScriptProbe.Fixture.Marker

/-!
Templates: texts with markers for the bytes of a file, the hash of a file, the script of a Type ID
and the hash of such a script. They are expanded in five passes, in this order; file names are
relative to the directory of the template.
-/

namespace ScriptProbe

open ScriptProbe.Text

/-- A text on its way through the passes, with the Type IDs recorded so far. -/
structure Template where
  root : Path
  text : List Char
  typeIds : List (List Char × Digest)

namespace Template

/-- The template that stands at a path. -/
def ofText (path : Path) (text : String) : Template :=
  ⟨path.parent?.getD (.ofText "."), text.toList, []⟩

inductive Pass where
  | data
  | hash
  | recordTypes
  | defineTypes
  | referTypes
  deriving DecidableEq, Repr

/-- The word that a pass looks for. -/
def Pass.word : Pass → List Char
  | data => "data".toList
  | hash => "hash".toList
  | recordTypes => "def_type".toList
  | defineTypes => "def_type".toList
  | referTypes => "ref_type".toList

def readFile (w : World) (t : Template) (name : List Char) : Except FixtureFault (List UInt8) :=
  let path := t.root.join (.ofText (String.ofList name))
  (w.read path).mapError (.cannotRead path)

/-- Records names and the hashes of their scripts up to the first one that is known already. -/
def record : List (List Char × Digest) → List (List Char) →
    List (List Char × Digest) × Option FixtureFault
  | known, [] => (known, none)
  | known, name :: rest =>
    if (known.lookup name).isSome then (known, some (.redefined (String.ofList name)))
    else record ((name, (TypeId.script name).hash) :: known) rest

def typeIdText (name : List Char) : List Char := (TypeId.script name).view.pretty 0

/-- The text that stands in for a marker of a pass. -/
def value (w : World) (t : Template) : Pass → List Char → Except FixtureFault (List Char)
  | .data, name => (t.readFile w name).map Hex.encode
  | .hash, name => (t.readFile w name).map fun bytes => Hex.encode (chainHash bytes).bytes
  | .referTypes, name =>
    match t.typeIds.lookup name with
    | some d => .ok (Hex.encode d.bytes)
    | none => .error (.undefined (String.ofList name))
  | .recordTypes, name => .ok (typeIdText name)
  | .defineTypes, name => .ok (typeIdText name)

/-- How a pass recognises its markers. A definition takes the quotes around it away. -/
def find : Pass → List Char → Option (List Char × List Char)
  | .defineTypes => Marker.quotedAt? Pass.defineTypes.word
  | pass => Marker.at? pass.word

/-- The files that a pass asks for. -/
def files (t : Template) (pass : Pass) : List Path :=
  match pass with
  | .data | .hash =>
    (Marker.names (Marker.parts (find pass) t.text)).map fun name =>
      t.root.join (.ofText (String.ofList name))
  | _ => []

/-- One pass. Where it fails the text stays as it was, but Type IDs recorded before stay
recorded. -/
def apply (w : World) (pass : Pass) (t : Template) : Template × Option FixtureFault :=
  let parts := Marker.parts (find pass) t.text
  match pass with
  | .recordTypes =>
    let (known, fault) := record t.typeIds (Marker.names parts)
    ({ t with typeIds := known }, fault)
  | pass =>
    match Marker.fill (t.value w pass) parts with
    | .ok text => ({ t with text }, none)
    | .error fault => (t, some fault)

def passes : List Pass := [.data, .hash, .recordTypes, .defineTypes, .referTypes]

/-- Passes in order, up to the first fault. -/
def applyAll (w : World) : List Pass → Template → Except FixtureFault Template
  | [], t => .ok t
  | pass :: rest, t =>
    match t.apply w pass with
    | (t, none) => applyAll w rest t
    | (_, some fault) => .error fault

def expand (w : World) (t : Template) : Except FixtureFault String :=
  (applyAll w passes t).map fun t => String.ofList t.text

end Template

end ScriptProbe
