import ScriptProbe.Json.Mismatch

/-!
Forms: readings of a JSON value as a value of a given type. A record is described by its fields in
the order of their declaration. Written as an object, its members are visited in the order of their
keys, and fields that are absent are complained of last; written as an array, its items are the
fields in order.
-/

namespace ScriptProbe.Json

abbrev Form (α : Type) := Json → Except Mismatch α

/-- A mismatch of the value itself. -/
def refuse (problem : Problem) : Except Mismatch α := .error ⟨[], problem⟩

def refuseKind (v : Json) (expected : String) : Except Mismatch α :=
  refuse (.wrongKind v.shown expected)

/-- Reads a part that `step` leads to. -/
def Form.part (form : Form α) (step : Step) (v : Json) : Except Mismatch α :=
  (form v).mapError (Mismatch.under step)

def nullable (form : Form α) : Form (Option α)
  | .null => .ok none
  | v => (form v).map some

def list (form : Form α) : Form (List α)
  | .arr items => items.zipIdx.mapM fun (v, i) => form.part (.item i) v
  | v => refuseKind v "a sequence"

/-- One of some names, alone or as the key of a null. -/
def variant (cases : List (String × α)) : Form α :=
  let choose (name : String) : Except Mismatch α :=
    match cases.lookup name with
    | some a => .ok a
    | none => refuse (.unknownVariant name (cases.map (·.1)))
  fun
  | .str name => choose name
  | .obj [(name, v)] => do
    let a ← choose name
    match v with
    | .null => .ok a
    | v => .error ⟨[.member name], .wrongKind v.shown "unit"⟩
  | .obj _ => refuse (.wrongValue "map" "map with a single key")
  | v => refuseKind v "string or map"

/-- What keeps the members of an object from making up a record. -/
inductive Flaw where
  | fault (key : String) (m : Mismatch)
  | absent (name : String)

namespace Flaw

/-- A fault of a member goes before an absent field; of two faults the one of the lesser key counts,
and of two absent fields the one that was declared first. -/
def before : Flaw → Flaw → Flaw
  | fault k m, fault k' m' => if k' < k then fault k' m' else fault k m
  | fault k m, absent _ => fault k m
  | absent _, fault k m => fault k m
  | absent a, absent _ => absent a

def mismatch : Flaw → Mismatch
  | fault _ m => m
  | absent name => ⟨[], .missingField name⟩

end Flaw

/-- Applies what one reading gave to what the next one gave, or joins their flaws. -/
def gather : Except Flaw (α → β) → Except Flaw α → Except Flaw β
  | .ok f, .ok a => .ok (f a)
  | .ok _, .error g => .error g
  | .error f, .ok _ => .error f
  | .error f, .error g => .error (f.before g)

/-- The items of an array that are still to be read, each with its index. -/
abbrev Items := List (Json × Nat)

/-- Some fields of a record. A reading of items fails with nothing where they end too soon. -/
structure Record (α : Type) where
  names : List String
  ofMembers : List (String × Json) → Except Flaw α
  ofItems : Items → Except (Option Mismatch) (α × Items)

namespace Record

instance : Functor Record where
  map f r :=
    ⟨r.names, fun ms => (r.ofMembers ms).map f, fun items => do
      let (a, items) ← r.ofItems items
      .ok (f a, items)⟩

instance : Seq Record where
  seq f r :=
    let r := r ()
    ⟨f.names ++ r.names, fun ms => gather (f.ofMembers ms) (r.ofMembers ms), fun items => do
      let (f, items) ← f.ofItems items
      let (a, items) ← r.ofItems items
      .ok (f a, items)⟩

/-- A field that is named `name`, with its value where it is absent from an object (`ifAbsent`) and
where the items have ended (`ifEnded`). -/
def fieldOr (name : String) (ifAbsent ifEnded : Option α) (form : Form α) : Record α where
  names := [name]
  ofMembers ms :=
    match find? name ms with
    | none =>
      match ifAbsent with
      | some a => .ok a
      | none => .error (.absent name)
    | some v =>
      match form.part (.member name) v with
      | .ok a => .ok a
      | .error m => .error (.fault name m)
  ofItems
    | [] =>
      match ifEnded with
      | some a => .ok (a, [])
      | none => .error none
    | (v, i) :: rest =>
      match form.part (.item i) v with
      | .ok a => .ok (a, rest)
      | .error m => .error (some m)

def field (name : String) (form : Form α) : Record α := fieldOr name none none form

/-- A field that may be null, and absent from an object. -/
def optional (name : String) (form : Form α) : Record (Option α) :=
  fieldOr name (some none) none (nullable form)

/-- A field that may be left out. -/
def defaulted (name : String) (value : α) (form : Form α) : Record α :=
  fieldOr name (some value) (some value) form

/-- The least key that names no field. -/
def stranger (r : Record α) (members : List (String × Json)) : Option Flaw :=
  (members.find? fun m => !r.names.contains m.1).map fun m =>
    .fault m.1 ⟨[.member m.1], .unknownField m.1 r.names⟩

/-- Reads an object that has a flaw of its own already, perhaps. -/
def ofObject (r : Record α) (flaw : Option Flaw) (members : List (String × Json)) :
    Except Mismatch α :=
  match r.ofMembers members, flaw with
  | .ok a, none => .ok a
  | .ok _, some g => .error g.mismatch
  | .error f, none => .error f.mismatch
  | .error f, some g => .error (f.before g).mismatch

/-- Reads an array that holds all fields and no more; `short` says what was due when it is too
short. -/
def ofArray (r : Record α) (short : String) (items : List Json) : Except Mismatch α :=
  match r.ofItems items.zipIdx with
  | .error (some m) => .error m
  | .error none => refuse (.wrongLength items.length short)
  | .ok (a, []) => .ok a
  | .ok (_, _ :: _) => refuse (.wrongLength items.length "fewer elements in array")

def strict (name : String) (r : Record α) : Form α
  | .obj members => r.ofObject (r.stranger members) members
  | .arr items =>
    r.ofArray ("struct " ++ name ++ " with " ++ toString r.names.length ++ " elements") items
  | v => refuseKind v ("struct " ++ name)

/-- Passes over keys that name no field. -/
def lenient (name : String) (r : Record α) : Form α
  | .obj members => r.ofObject none members
  | .arr items =>
    r.ofArray ("struct " ++ name ++ " with " ++ toString r.names.length ++ " elements") items
  | v => refuseKind v ("struct " ++ name)

end Record

def pair (first : Form α) (second : Form β) : Form (α × β)
  | .arr items =>
    (Prod.mk <$> Record.field "0" first <*> Record.field "1" second).ofArray
      "a tuple of size 2" items
  | v => refuseKind v "a tuple of size 2"

end ScriptProbe.Json
