import ScriptProbe.Number.Shortest
import ScriptProbe.Text.Quoted

/-!
JSON values. An object keeps its members in the order in which they are written; one that is built
by `insert` has them in ascending order of their keys, one per key.
-/

namespace ScriptProbe

inductive Json where
  | null
  | bool (b : Bool)
  /-- A whole number between `-2 ^ 63` and `2 ^ 64 - 1`. -/
  | int (n : Int)
  | float (x : Number.Binary64)
  | str (s : String)
  | arr (items : List Json)
  | obj (members : List (String × Json))

namespace Json

/-- Places a member by its key; a later member takes the place of an earlier one of the same key. -/
def insert (key : String) (v : Json) : List (String × Json) → List (String × Json)
  | [] => [(key, v)]
  | (k, w) :: rest =>
    if key < k then (key, v) :: (k, w) :: rest
    else if key = k then (key, v) :: rest
    else (k, w) :: insert key v rest

/-- The member of the given key. -/
def find? (key : String) (members : List (String × Json)) : Option Json :=
  (members.find? (·.1 = key)).map (·.2)

def ofMembers (members : List (String × Json)) : Json :=
  obj (members.foldl (fun ms m => insert m.1 m.2 ms) [])

/-- A float is written out in places from `10 ^ -5` up to `10 ^ 16`. -/
def floatLayout : Number.Layout := ⟨-5, 15⟩

def floatText (x : Number.Binary64) : List Char := floatLayout.write x

def intText (n : Int) : List Char :=
  if n < 0 then '-' :: Nat.toDigits 10 n.natAbs else Nat.toDigits 10 n.natAbs

def kind : Json → String
  | null => "null"
  | bool _ => "boolean"
  | int _ => "number"
  | float _ => "number"
  | str _ => "string"
  | arr _ => "array"
  | obj _ => "object"

/-- How a message names a value that was found where another was due. -/
def shown : Json → String
  | null => "null"
  | bool b => "boolean `" ++ (if b then "true" else "false") ++ "`"
  | int n => "integer `" ++ String.ofList (intText n) ++ "`"
  | float x => "floating point `" ++ String.ofList (floatText x) ++ "`"
  | str s => "string " ++ Text.quoted s
  | arr _ => "sequence"
  | obj _ => "map"

end Json

end ScriptProbe
