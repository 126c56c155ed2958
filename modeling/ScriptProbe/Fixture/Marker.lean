import ScriptProbe.Text.Blank

/-!
Markers in a text: `{{ word name }}`. A name ends as early as it can, holds no line feed and is not
empty; one space on either side of it belongs to the marker. Markers are found from the left and do
not overlap.
-/

namespace ScriptProbe.Marker

open ScriptProbe.Text

def opening : List Char := ['{', '{']

def closing : List Char := ['}', '}']

/-- What follows one leading space, or else the text itself. -/
def skipSpace : List Char → List Char
  | ' ' :: cs => cs
  | cs => cs

/-- What follows an end of a marker. -/
def afterEnd? (cs : List Char) : Option (List Char) :=
  match after? (' ' :: closing) cs with
  | some rest => some rest
  | none => after? closing cs

/-- The rest of a name that has begun with `seen` (last first), up to the first end of a marker. -/
def nameFrom? (seen : List Char) : List Char → Option (List Char × List Char)
  | [] => none
  | c :: cs =>
    match afterEnd? (c :: cs) with
    | some rest => some (seen.reverse, rest)
    | none => if c = '\n' then none else nameFrom? (c :: seen) cs

/-- A name and what follows the marker that it ends. -/
def name? : List Char → Option (List Char × List Char)
  | [] => none
  | c :: cs => if c = '\n' then none else nameFrom? [c] cs

/-- The name in a marker at the front of a text, and what follows the marker. -/
def at? (word cs : List Char) : Option (List Char × List Char) := do
  let cs ← after? opening cs
  let cs ← after? (word ++ [' ']) (skipSpace cs)
  name? cs

/-- What follows one leading quote, or else the text itself. -/
def skipQuote : List Char → List Char
  | '"' :: cs => cs
  | cs => cs

/-- A marker together with a double quote that touches it on either side. -/
def quotedAt? (word cs : List Char) : Option (List Char × List Char) :=
  (at? word (skipQuote cs)).map fun (name, rest) => (name, skipQuote rest)

/-- A text in parts: single characters, and the names of markers. -/
inductive Part where
  | char (c : Char)
  | marker (name : List Char)
  deriving DecidableEq, Repr

def Part.name? : Part → Option (List Char)
  | char _ => none
  | marker name => some name

/-- The parts of a text after those in `seen` (last first), with `skip` characters of a marker still
to be passed over. -/
def partsFrom (find : List Char → Option (List Char × List Char)) :
    List Part → Nat → List Char → List Part
  | seen, _, [] => seen.reverse
  | seen, skip + 1, _ :: cs => partsFrom find seen skip cs
  | seen, 0, c :: cs =>
    match find (c :: cs) with
    | none => partsFrom find (.char c :: seen) 0 cs
    | some (name, rest) => partsFrom find (.marker name :: seen) (cs.length - rest.length) cs

/-- The parts of a text, where `find` recognises a marker at the front of a text. -/
def parts (find : List Char → Option (List Char × List Char)) (cs : List Char) : List Part :=
  partsFrom find [] 0 cs

def names (parts : List Part) : List (List Char) := parts.filterMap Part.name?

/-- The text of some parts after what is in `seen` (last first). -/
def fillFrom (value : List Char → Except ε (List Char)) :
    List Char → List Part → Except ε (List Char)
  | seen, [] => .ok seen.reverse
  | seen, .char c :: rest => fillFrom value (c :: seen) rest
  | seen, .marker name :: rest =>
    match value name with
    | .ok text => fillFrom value (text.reverse ++ seen) rest
    | .error e => .error e

/-- The text again, with the text of `value` in the place of every marker; the first failure
counts. -/
def fill (value : List Char → Except ε (List Char)) (parts : List Part) : Except ε (List Char) :=
  fillFrom value [] parts

/-- Whether a text may hold markers at all. -/
def hasOpening : List Char → Bool
  | [] => false
  | c :: cs => (after? opening (c :: cs)).isSome || hasOpening cs

end ScriptProbe.Marker
