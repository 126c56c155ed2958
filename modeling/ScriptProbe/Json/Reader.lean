import ScriptProbe.Json.Defect
import ScriptProbe.Json.Value
import ScriptProbe.Text.Hex

/-!
Reading JSON text. Containers may be nested `maxNesting` deep, and the first defect met from the
left is the one reported.
-/

namespace ScriptProbe.Json

open ScriptProbe.Number ScriptProbe.Text

def isBlank (c : Char) : Bool := c = ' ' || c = '\t' || c = '\n' || c = '\r'

def skipBlanks (cs : List Char) : List Char := cs.dropWhile isBlank

/-- The rest of a literal whose first letter has been read. -/
def literal (v : Json) : List Char → List Char → Read Json
  | [], cs => .ok (v, cs)
  | _ :: _, [] => stop .endInValue []
  | e :: es, c :: cs => if c = e then literal v es cs else stop .expectedIdent (c :: cs)

/-! ### Numbers -/

/-- Appends digits to a number while it stays below `bound`, and gives back those left over. -/
def absorb (bound : Nat) : Nat → List Char → Nat × List Char
  | n, [] => (n, [])
  | n, d :: ds =>
    let m := 10 * n + (d.toNat - 48)
    if m < bound then absorb bound m ds else (n, d :: ds)

/-- The number `10 ^ k`, rounded. -/
def powerOfTen (k : Nat) : Binary64 := (Binary64.nearest (Nat.pow 10 k) 1).getD .zero

/-- Divides by `10 ^ 308` until the exponent is no less than -308. -/
def sinkExponent : Nat → Binary64 → Int → Binary64 × Int
  | 0, f, e => (f, e)
  | fuel + 1, f, e =>
    if -308 ≤ e ∨ f.isZero then (f, e)
    else sinkExponent fuel ((f.div (powerOfTen 308)).getD .zero) (e + 308)

/-- The number `significand * 10 ^ e`: both factors are rounded, and so is the product or quotient
of them. -/
def scaled (significand : Nat) (e : Int) : Option Binary64 := do
  let f ← Binary64.nearest significand 1
  if f.isZero then some f
  else if 308 < e then none
  else if 0 ≤ e then f.mul (powerOfTen e.toNat)
  else
    let (f, e) := sinkExponent 4 f e
    if f.isZero then some f else f.div (powerOfTen (-e).toNat)

def floatOf (negative : Bool) (significand : Nat) (e : Int) (rest : List Char) : Read Json :=
  match scaled significand e with
  | some x => .ok (.float (x.withSign negative), rest)
  | none => stopBefore .numberOutOfRange rest

/-- Exponents below `2 ^ 31` are read. -/
def exponentBound : Nat := 0x80000000

/-- From after the `e` on. A greater exponent is not read to its end: the number is zero or out of
range. -/
def exponent (negative : Bool) (significand : Nat) (e : Int) (cs : List Char) : Read Json :=
  let (down, cs) := match cs with
    | '+' :: cs => (false, cs)
    | '-' :: cs => (true, cs)
    | cs => (false, cs)
  match cs with
  | [] => stop .endInValue []
  | c :: _ =>
    if !c.isDigit then stop .invalidNumber cs
    else
      let rest := cs.dropWhile Char.isDigit
      match absorb exponentBound 0 (cs.takeWhile Char.isDigit) with
      | (n, []) => floatOf negative significand (if down then e - n else e + n) rest
      | (_, _ :: left) =>
        if significand ≠ 0 ∧ !down then
          .error ⟨.numberOutOfRange, Utf8.size left + Utf8.size rest⟩
        else .ok (.float (Binary64.zero.withSign negative), rest)

/-- From after the point on. Digits that would overflow the significand are passed over. -/
def fraction (negative : Bool) (significand : Nat) (e : Int) (cs : List Char) : Read Json :=
  let digits := cs.takeWhile Char.isDigit
  let rest := cs.dropWhile Char.isDigit
  if digits.isEmpty then
    match cs with
    | [] => stop .endInValue []
    | cs => stop .invalidNumber cs
  else
    let (significand, left) := absorb UInt64.size significand digits
    let e := e - (digits.length - left.length : Nat)
    match rest with
    | c :: cs =>
      if c = 'e' ∨ c = 'E' then exponent negative significand e cs
      else floatOf negative significand e rest
    | [] => floatOf negative significand e []

/-- A number without fraction and exponent. Minus zero, and what no 64 bits hold, is a float. -/
def whole (negative : Bool) (n : Nat) (rest : List Char) : Read Json :=
  if !negative then .ok (.int n, rest)
  else if n = 0 ∨ 0x8000000000000000 < n then floatOf true n 0 rest
  else .ok (.int (-n), rest)

/-- From after the sign on. -/
def number (negative : Bool) (cs : List Char) : Read Json :=
  match cs with
  | [] => stop .endInValue []
  | c :: tail =>
    if !c.isDigit then stop .invalidNumber cs
    else
      let digits := cs.takeWhile Char.isDigit
      let rest := cs.dropWhile Char.isDigit
      if c = '0' ∧ digits.length ≠ 1 then stop .invalidNumber tail
      else
        let (significand, left) := absorb UInt64.size 0 digits
        match rest with
        | '.' :: cs => fraction negative significand left.length cs
        | d :: cs =>
          if d = 'e' ∨ d = 'E' then exponent negative significand left.length cs
          else if left.isEmpty then whole negative significand rest
          else floatOf negative significand left.length rest
        | [] =>
          if left.isEmpty then whole negative significand []
          else floatOf negative significand left.length []

/-! ### Strings -/

/-- Refuses what should have been four hexadecimal digits. All four bytes are taken before they are
looked at. -/
def stopInUnit (cs : List Char) : Except Failure α :=
  if Utf8.size cs < 4 then stop .endInString [] else .error ⟨.invalidEscape, Utf8.size cs - 4⟩

/-- Four hexadecimal digits. -/
def hexUnit (cs : List Char) : Read Nat :=
  match cs with
  | a :: b :: c :: d :: rest =>
    match Hex.value? a, Hex.value? b, Hex.value? c, Hex.value? d with
    | some a, some b, some c, some d => .ok (((16 * a + b) * 16 + c) * 16 + d, rest)
    | _, _, _, _ => stopInUnit cs
  | _ => stopInUnit cs

/-- The second half of a character written as two units. -/
def lowSurrogate (high : Nat) (cs : List Char) : Read Char :=
  match cs with
  | [] => stop .endInString []
  | '\\' :: [] => stop .endInString []
  | '\\' :: 'u' :: cs =>
    match hexUnit cs with
    | .error f => .error f
    | .ok (low, rest) =>
      if low < 0xDC00 ∨ 0xDFFF < low then stopBefore .loneSurrogate rest
      else .ok (Char.ofNat ((high - 0xD800) * 1024 + (low - 0xDC00) + 0x10000), rest)
  | '\\' :: cs => stop .unfinishedSurrogate cs
  | cs => stop .unfinishedSurrogate cs

/-- From after `\u` on. -/
def unicodeEscape (cs : List Char) : Read Char :=
  match hexUnit cs with
  | .error f => .error f
  | .ok (n, rest) =>
    if 0xDC00 ≤ n ∧ n ≤ 0xDFFF then stopBefore .loneSurrogate rest
    else if 0xD800 ≤ n ∧ n ≤ 0xDBFF then lowSurrogate n rest
    else .ok (Char.ofNat n, rest)

/-- The character that a letter after a backslash stands for. -/
def simpleEscape? (c : Char) : Option Char :=
  if c = '"' then some '"'
  else if c = '\\' then some '\\'
  else if c = '/' then some '/'
  else if c = 'b' then some '\x08'
  else if c = 'f' then some '\x0c'
  else if c = 'n' then some '\n'
  else if c = 'r' then some '\r'
  else if c = 't' then some '\t'
  else none

/-- One character of a string, or `none` for the closing quote. -/
def unit (cs : List Char) : Read (Option Char) :=
  match cs with
  | [] => stop .endInString []
  | '"' :: rest => .ok (none, rest)
  | '\\' :: [] => stop .endInString []
  | '\\' :: c :: rest =>
    match simpleEscape? c with
    | some d => .ok (some d, rest)
    | none =>
      if c = 'u' then
        match unicodeEscape rest with
        | .error f => .error f
        | .ok (d, rest) => .ok (some d, rest)
      else stop .invalidEscape (c :: rest)
  | c :: rest => if c.toNat < 0x20 then stop .controlCharacter cs else .ok (some c, rest)

/-- The characters up to the closing quote, after those in `seen` (last first). Each step takes at
least one character, so a first text no shorter than the second bounds their number. -/
def units : List Char → List Char → List Char → Read String
  | _, _, [] => stop .endInString []
  | [], _, cs => stop .endInString cs
  | _ :: bound, seen, cs =>
    match unit cs with
    | .error f => .error f
    | .ok (none, rest) => .ok (String.ofList seen.reverse, rest)
    | .ok (some c, rest) => units bound (c :: seen) rest

/-- From after the opening quote on. -/
def string (cs : List Char) : Read String := units cs [] cs

/-! ### Containers -/

section containers

variable (element : List Char → Read Json)

/-- What may follow an item, and the items after it. Each step takes at least one character, so a
first text no shorter than the last bounds their number. -/
def moreItems : List Char → List Json → List Char → Read Json
  | _, _, [] => stop .endInList []
  | [], _, cs => stop .endInList cs
  | _ :: bound, seen, cs =>
    match skipBlanks cs with
    | [] => stop .endInList []
    | ']' :: rest => .ok (.arr seen.reverse, rest)
    | ',' :: rest =>
      match skipBlanks rest with
      | [] => stop .endInValue []
      | ']' :: rest => stop .trailingComma (']' :: rest)
      | cs =>
        match element cs with
        | .error f => .error f
        | .ok (v, rest) => moreItems bound (v :: seen) rest
    | cs => stop .expectedListCommaOrEnd cs

/-- From after the opening bracket on. -/
def items (cs : List Char) : Read Json :=
  match skipBlanks cs with
  | [] => stop .endInList []
  | ']' :: rest => .ok (.arr [], rest)
  | cs =>
    match element cs with
    | .error f => .error f
    | .ok (v, rest) => moreItems element rest [v] rest

/-- A key, the colon and the value; the text begins with the key's quote. -/
def member (cs : List Char) : Read (String × Json) :=
  match string cs.tail with
  | .error f => .error f
  | .ok (key, rest) =>
    match skipBlanks rest with
    | [] => stop .endInObject []
    | ':' :: rest =>
      match element rest with
      | .error f => .error f
      | .ok (v, rest) => .ok ((key, v), rest)
    | cs => stop .expectedColon cs

/-- What may follow a member, and the members after it, bounded like `moreItems`. -/
def moreMembers : List Char → List (String × Json) → List Char → Read Json
  | _, _, [] => stop .endInObject []
  | [], _, cs => stop .endInObject cs
  | _ :: bound, seen, cs =>
    match skipBlanks cs with
    | [] => stop .endInObject []
    | '}' :: rest => .ok (.obj seen, rest)
    | ',' :: rest =>
      match skipBlanks rest with
      | [] => stop .endInValue []
      | '}' :: rest => stop .trailingComma ('}' :: rest)
      | '"' :: rest =>
        match member element ('"' :: rest) with
        | .error f => .error f
        | .ok ((key, v), rest) => moreMembers bound (insert key v seen) rest
      | cs => stop .keyNotString cs
    | cs => stop .expectedObjectCommaOrEnd cs

/-- From after the opening brace on. -/
def members (cs : List Char) : Read Json :=
  match skipBlanks cs with
  | [] => stop .endInObject []
  | '}' :: rest => .ok (.obj [], rest)
  | '"' :: rest =>
    match member element ('"' :: rest) with
    | .error f => .error f
    | .ok ((key, v), tail) => moreMembers element tail [(key, v)] tail
  | cs => stop .keyNotString cs

end containers

/-- A value whose containers hold what `inner` reads; without `inner` none may be opened. -/
def valueOver (inner : Option (List Char → Read Json)) (cs : List Char) : Read Json :=
  match skipBlanks cs with
  | [] => stop .endInValue []
  | c :: rest =>
    if c = 'n' then literal .null ['u', 'l', 'l'] rest
    else if c = 't' then literal (.bool true) ['r', 'u', 'e'] rest
    else if c = 'f' then literal (.bool false) ['a', 'l', 's', 'e'] rest
    else if c = '-' then number true rest
    else if c.isDigit then number false (c :: rest)
    else if c = '"' then
      match string rest with
      | .error f => .error f
      | .ok (s, rest) => .ok (.str s, rest)
    else if c = '[' then
      match inner with
      | none => stop .nestingLimit (c :: rest)
      | some element => items element rest
    else if c = '{' then
      match inner with
      | none => stop .nestingLimit (c :: rest)
      | some element => members element rest
    else stop .expectedValue (c :: rest)

/-- A value with containers nested at most `depth` deep. -/
def value : Nat → List Char → Read Json
  | 0 => valueOver none
  | depth + 1 => valueOver (some (value depth))

def maxNesting : Nat := 127

/-- The whole of a text, blanks around the value aside. -/
def document (cs : List Char) : Except Failure Json :=
  match value maxNesting cs with
  | .error f => .error f
  | .ok (v, rest) =>
    match skipBlanks rest with
    | [] => .ok v
    | cs => stop .trailingCharacters cs

def parse (text : String) : Except ReadError Json :=
  match document text.toList with
  | .error f => .error (f.within text.toList)
  | .ok v => .ok v

end ScriptProbe.Json
