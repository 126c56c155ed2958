import ScriptProbe.Text.Blank
import ScriptProbe.Text.Hex

/-!
The part of TOML that settings of one level are written in: keys without points, and strings,
integers and truth values. A document that uses more of the language is refused.
-/

namespace ScriptProbe.Toml

open ScriptProbe.Text

inductive Value where
  | str (s : String)
  | int (n : Int)
  | bool (b : Bool)
  deriving DecidableEq, Repr

/-- A result and the rest of the text. -/
abbrev Taken (α : Type) := Option (α × List Char)

def isBlank (c : Char) : Bool := c = ' ' || c = '\t'

def skipBlanks (cs : List Char) : List Char := cs.dropWhile isBlank

/-- What follows a line end: a line feed, alone or after a carriage return. -/
def afterNewline? : List Char → Option (List Char)
  | '\n' :: cs => some cs
  | '\r' :: '\n' :: cs => some cs
  | _ => none

/-- Characters that may stand for themselves wherever there is no special rule. -/
def isPlain (c : Char) : Bool := c = '\t' || (0x20 ≤ c.toNat && c.toNat ≠ 0x7F)

/-! ### Strings -/

/-- The character that a letter after a backslash stands for. -/
def simpleEscape? (c : Char) : Option Char :=
  if c = 'b' then some '\x08'
  else if c = 't' then some '\t'
  else if c = 'n' then some '\n'
  else if c = 'f' then some '\x0c'
  else if c = 'r' then some '\r'
  else if c = '"' then some '"'
  else if c = '\\' then some '\\'
  else none

/-- The value of hexadecimal digits. -/
def hexValue? (cs : List Char) : Option Nat :=
  cs.foldlM (fun n c => (Hex.value? c).map (16 * n + ·)) 0

/-- The character whose number is written in `width` hexadecimal digits. -/
def scalar (width : Nat) (cs : List Char) : Taken Char :=
  if (cs.take width).length < width then none
  else
    match hexValue? (cs.take width) with
    | some n =>
      if n < 0xD800 ∨ (0xDFFF < n ∧ n < 0x110000) then some (Char.ofNat n, cs.drop width) else none
    | none => none

/-- From after the backslash on. -/
def escaped : List Char → Taken Char
  | [] => none
  | c :: cs =>
    match simpleEscape? c with
    | some d => some (d, cs)
    | none => if c = 'u' then scalar 4 cs else if c = 'U' then scalar 8 cs else none

/-- A string on one line, from after the opening quote on; in a literal one nothing is escaped. -/
def lineString (quote : Char) (literal : Bool) : Nat → List Char → List Char → Taken String
  | 0, _, _ => none
  | _ + 1, _, [] => none
  | fuel + 1, seen, c :: cs =>
    if c = quote then some (String.ofList seen.reverse, cs)
    else if c = '\\' ∧ !literal then
      match escaped cs with
      | some (d, rest) => lineString quote literal fuel (d :: seen) rest
      | none => none
    else if isPlain c then lineString quote literal fuel (c :: seen) cs
    else none

/-- Drops blanks and line ends. -/
def skipBlankLines : List Char → List Char
  | [] => []
  | c :: cs =>
    if isBlank c then skipBlankLines cs
    else
      match c, cs with
      | '\n', cs => skipBlankLines cs
      | '\r', '\n' :: cs => skipBlankLines cs
      | c, cs => c :: cs

/-- What follows a line end that a backslash hides, with the blanks after it. -/
def afterHidden? (cs : List Char) : Option (List Char) :=
  (afterNewline? (skipBlanks cs)).map skipBlankLines

/-- A string of several lines, from after the opening quotes on. One or two quotes may stand within,
and right before the three that close it. -/
def blockString (quote : Char) (literal : Bool) : Nat → List Char → List Char → Taken String
  | 0, _, _ => none
  | _ + 1, _, [] => none
  | fuel + 1, seen, c :: cs =>
    if c = quote then
      let more := (cs.takeWhile (· = quote)).length
      let rest := cs.drop more
      if more < 2 then blockString quote literal fuel (List.replicate (more + 1) quote ++ seen) rest
      else if more < 5 then
        some (String.ofList (List.replicate (more - 2) quote ++ seen).reverse, rest)
      else none
    else if c = '\\' ∧ !literal then
      match afterHidden? cs with
      | some rest => blockString quote literal fuel seen rest
      | none =>
        match escaped cs with
        | some (d, rest) => blockString quote literal fuel (d :: seen) rest
        | none => none
    else
      match afterNewline? (c :: cs) with
      | some rest => blockString quote literal fuel ('\n' :: seen) rest
      | none => if isPlain c then blockString quote literal fuel (c :: seen) cs else none

/-- A line end right after the opening quotes does not count. -/
def skipFirstNewline (cs : List Char) : List Char := (afterNewline? cs).getD cs

/-- A string of any kind, from its opening quote on. -/
def string (cs : List Char) : Taken String :=
  match cs with
  | '"' :: '"' :: '"' :: rest => blockString '"' false (cs.length + 1) [] (skipFirstNewline rest)
  | '\'' :: '\'' :: '\'' :: rest => blockString '\'' true (cs.length + 1) [] (skipFirstNewline rest)
  | '"' :: rest => lineString '"' false (cs.length + 1) [] rest
  | '\'' :: rest => lineString '\'' true (cs.length + 1) [] rest
  | _ => none

/-! ### Integers -/

/-- Digits with single underscores between them, as a number. -/
def digitsValue? (base : Nat) (cs : List Char) : Option Nat :=
  if (split '_' cs).any List.isEmpty then none
  else (cs.filter (· ≠ '_')).foldlM (fun n c =>
    match Hex.value? c with
    | some d => if d < base then some (base * n + d) else none
    | none => none) 0

/-- Decimal digits do not begin with a zero unless there is only one. -/
def decimalValue? (cs : List Char) : Option Nat :=
  match cs with
  | '0' :: _ :: _ => none
  | cs => digitsValue? 10 cs

def intValue? (cs : List Char) : Option Int :=
  match cs with
  | '0' :: 'x' :: digits => (digitsValue? 16 digits).map Int.ofNat
  | '0' :: 'o' :: digits => (digitsValue? 8 digits).map Int.ofNat
  | '0' :: 'b' :: digits => (digitsValue? 2 digits).map Int.ofNat
  | '+' :: digits => (decimalValue? digits).map Int.ofNat
  | '-' :: digits => (decimalValue? digits).map fun n => -Int.ofNat n
  | digits => (decimalValue? digits).map Int.ofNat

/-- An integer of 64 bits with its sign. -/
def word? (cs : List Char) : Option Int :=
  (intValue? cs).filter fun n => decide (Int64.minValue.toInt ≤ n ∧ n ≤ Int64.maxValue.toInt)

/-! ### Documents -/

/-- What a value without quotes is made of. -/
def isWordChar (c : Char) : Bool := c.isAlphanum || c = '_' || c = '+' || c = '-'

def value (cs : List Char) : Taken Value :=
  match cs with
  | '"' :: _ | '\'' :: _ => (string cs).map fun (s, rest) => (.str s, rest)
  | cs =>
    let word := cs.takeWhile isWordChar
    let rest := cs.dropWhile isWordChar
    if word = "true".toList then some (.bool true, rest)
    else if word = "false".toList then some (.bool false, rest)
    else (word? word).map fun n => (.int n, rest)

def isKeyChar (c : Char) : Bool := c.isAlphanum || c = '_' || c = '-'

def key (cs : List Char) : Taken String :=
  match cs with
  | '"' :: rest => lineString '"' false (cs.length + 1) [] rest
  | '\'' :: rest => lineString '\'' true (cs.length + 1) [] rest
  | cs =>
    if (cs.takeWhile isKeyChar).isEmpty then none
    else some (String.ofList (cs.takeWhile isKeyChar), cs.dropWhile isKeyChar)

/-- What follows the end of a line, which may have a comment before it. -/
def afterLine? (cs : List Char) : Option (List Char) :=
  let cs := match skipBlanks cs with
    | '#' :: cs => cs.dropWhile isPlain
    | cs => cs
  match cs with
  | [] => some []
  | cs => afterNewline? cs

def assignment (cs : List Char) : Taken (String × Value) :=
  match key cs with
  | none => none
  | some (k, cs) =>
    match skipBlanks cs with
    | '=' :: cs =>
      match value (skipBlanks cs) with
      | none => none
      | some (v, cs) => (afterLine? cs).map fun rest => ((k, v), rest)
    | _ => none

/-- The assignments of a text after those in `seen` (last first). No key may be assigned twice. -/
def assignments : Nat → List (String × Value) → List Char → Option (List (String × Value))
  | 0, _, _ => none
  | fuel + 1, seen, cs =>
    match skipBlanks cs with
    | [] => some seen.reverse
    | c :: cs =>
      if c = '#' ∨ c = '\n' ∨ c = '\r' then
        match afterLine? (c :: cs) with
        | some rest => assignments fuel seen rest
        | none => none
      else
        match assignment (c :: cs) with
        | some ((k, v), rest) =>
          if (seen.lookup k).isSome then none else assignments fuel ((k, v) :: seen) rest
        | none => none

/-- One byte order mark at the front does not count. -/
def skipMark : List Char → List Char
  | [] => []
  | c :: cs => if c.toNat = 0xFEFF then cs else c :: cs

def document (text : String) : Option (List (String × Value)) :=
  assignments (text.length + 2) [] (skipMark text.toList)

end ScriptProbe.Toml
