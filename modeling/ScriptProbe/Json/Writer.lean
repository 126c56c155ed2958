import ScriptProbe.Json.Value
import ScriptProbe.Text.Hex

/-!
JSON text in two layouts: compact, and indented by two spaces a level.
-/

namespace ScriptProbe.Json

/-- Only the quote, the backslash and the controls below the space are escaped. -/
def escape (c : Char) : List Char :=
  if c = '"' then ['\\', '"']
  else if c = '\\' then ['\\', '\\']
  else if c = '\x08' then ['\\', 'b']
  else if c = '\x0c' then ['\\', 'f']
  else if c = '\n' then ['\\', 'n']
  else if c = '\r' then ['\\', 'r']
  else if c = '\t' then ['\\', 't']
  else if c.toNat < 0x20 then
    '\\' :: 'u' :: '0' :: '0' :: Text.Hex.ofByte (UInt8.ofNat c.toNat)
  else [c]

def strText (s : String) : List Char := '"' :: s.toList.flatMap escape ++ ['"']

/-- Texts with a separator between neighbours. -/
def joinWith (sep : List Char) : List (List Char) → List Char
  | [] => []
  | [t] => t
  | t :: rest => t ++ sep ++ joinWith sep rest

mutual

def compact : Json → List Char
  | null => ['n', 'u', 'l', 'l']
  | bool true => ['t', 'r', 'u', 'e']
  | bool false => ['f', 'a', 'l', 's', 'e']
  | int n => intText n
  | float x => floatText x
  | str s => strText s
  | arr items => '[' :: joinWith [','] (compactItems items) ++ [']']
  | obj members => '{' :: joinWith [','] (compactMembers members) ++ ['}']

def compactItems : List Json → List (List Char)
  | [] => []
  | v :: rest => compact v :: compactItems rest

def compactMembers : List (String × Json) → List (List Char)
  | [] => []
  | (key, v) :: rest => (strText key ++ ':' :: compact v) :: compactMembers rest

end

/-- A new line, indented to `level`. -/
def newline (level : Nat) : List Char := '\n' :: List.replicate (2 * level) ' '

/-- Entries one to a line between two brackets; an empty container stays on its line. -/
def block (opening closing : Char) (level : Nat) (entries : List (List Char)) : List Char :=
  match entries with
  | [] => [opening, closing]
  | entries =>
    opening :: newline (level + 1) ++ joinWith (',' :: newline (level + 1)) entries ++
      newline level ++ [closing]

mutual

def pretty (level : Nat) : Json → List Char
  | null => ['n', 'u', 'l', 'l']
  | bool true => ['t', 'r', 'u', 'e']
  | bool false => ['f', 'a', 'l', 's', 'e']
  | int n => intText n
  | float x => floatText x
  | str s => strText s
  | arr items => block '[' ']' level (prettyItems (level + 1) items)
  | obj members => block '{' '}' level (prettyMembers (level + 1) members)

def prettyItems (level : Nat) : List Json → List (List Char)
  | [] => []
  | v :: rest => pretty level v :: prettyItems level rest

def prettyMembers (level : Nat) : List (String × Json) → List (List Char)
  | [] => []
  | (key, v) :: rest =>
    (strText key ++ ':' :: ' ' :: pretty level v) :: prettyMembers level rest

end

def toText (v : Json) : String := String.ofList v.compact

def toPrettyText (v : Json) : String := String.ofList (v.pretty 0)

end ScriptProbe.Json
