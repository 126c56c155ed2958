import ScriptProbe.Text.Utf8

/-!
What makes a text no JSON, and where: a defect is noted with the bytes that follow the offending
place, from which its line and column in the whole text are found.
-/

namespace ScriptProbe.Json

inductive Defect where
  | endInList
  | endInObject
  | endInString
  | endInValue
  | expectedColon
  | expectedListCommaOrEnd
  | expectedObjectCommaOrEnd
  | expectedIdent
  | expectedValue
  | invalidEscape
  | invalidNumber
  | numberOutOfRange
  | controlCharacter
  | keyNotString
  | loneSurrogate
  | unfinishedSurrogate
  | trailingComma
  | trailingCharacters
  | nestingLimit
  deriving DecidableEq, Repr

def Defect.message : Defect → String
  | endInList => "EOF while parsing a list"
  | endInObject => "EOF while parsing an object"
  | endInString => "EOF while parsing a string"
  | endInValue => "EOF while parsing a value"
  | expectedColon => "expected `:`"
  | expectedListCommaOrEnd => "expected `,` or `]`"
  | expectedObjectCommaOrEnd => "expected `,` or `\x7d`"
  | expectedIdent => "expected ident"
  | expectedValue => "expected value"
  | invalidEscape => "invalid escape"
  | invalidNumber => "invalid number"
  | numberOutOfRange => "number out of range"
  | controlCharacter => "control character (\\u0000-\\u001F) found while parsing a string"
  | keyNotString => "key must be a string"
  | loneSurrogate => "lone leading surrogate in hex escape"
  | unfinishedSurrogate => "unexpected end of hex escape"
  | trailingComma => "trailing comma"
  | trailingCharacters => "trailing characters"
  | nestingLimit => "recursion limit exceeded"

/-- A defect, and how many bytes follow the offending place. -/
structure Failure where
  defect : Defect
  left : Nat
  deriving DecidableEq, Repr

/-- What a reader of part of a text gives: a result and the rest of the text. -/
abbrev Read (α : Type) := Except Failure (α × List Char)

/-- The offending place is the first byte of `rest`, or the end of the text. -/
def stop (defect : Defect) (rest : List Char) : Except Failure α :=
  .error ⟨defect, Text.Utf8.size rest - 1⟩

/-- The offending place is the last byte before `rest`. -/
def stopBefore (defect : Defect) (rest : List Char) : Except Failure α :=
  .error ⟨defect, Text.Utf8.size rest⟩

/-- A defect at a line and a column, both in bytes. -/
structure ReadError where
  defect : Defect
  line : Nat
  column : Nat
  deriving DecidableEq, Repr

/-- The line and the column reached after `n` more bytes. -/
def locate : List Char → Nat → Nat → Nat → Nat × Nat
  | [], _, line, column => (line, column)
  | c :: cs, n, line, column =>
    if n = 0 then (line, column)
    else if c = '\n' then locate cs (n - 1) (line + 1) 0
    else locate cs (n - c.utf8Size) line (column + min n c.utf8Size)

def Failure.within (f : Failure) (text : List Char) : ReadError :=
  let (line, column) := locate text (Text.Utf8.size text - f.left) 1 0
  ⟨f.defect, line, column⟩

def ReadError.message (e : ReadError) : String :=
  s!"{e.defect.message} at line {e.line} column {e.column}"

end ScriptProbe.Json
