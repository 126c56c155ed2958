import ScriptProbe.Json.Value

/-!
Why a JSON value does not have the form that was asked for, and in which part of it.
-/

namespace ScriptProbe.Json

/-- A step from a value into one of its parts. -/
inductive Step where
  | member (key : String)
  | item (index : Nat)
  deriving DecidableEq, Repr

namespace Step

def text : Step → String
  | member key => key
  | item index => "[" ++ toString index ++ "]"

/-- The text of a step that follows another one. -/
def next : Step → String
  | member key => "." ++ key
  | item index => "[" ++ toString index ++ "]"

end Step

/-- The value itself is written as a point. -/
def placeText : List Step → String
  | [] => "."
  | step :: rest => step.text ++ String.join (rest.map Step.next)

inductive Problem where
  | missingField (name : String)
  | unknownField (name : String) (known : List String)
  | wrongKind (found expected : String)
  | wrongValue (found expected : String)
  | wrongLength (length : Nat) (expected : String)
  | unknownVariant (name : String) (known : List String)
  /-- A fault of the text itself, in words of its own. -/
  | illFormed (reason : String)
  deriving DecidableEq, Repr

def ticked (s : String) : String := "`" ++ s ++ "`"

/-- The names that would have been right. -/
def choice : List String → String
  | [] => "there are none"
  | [a] => ticked a
  | [a, b] => ticked a ++ " or " ++ ticked b
  | names => "one of " ++ ", ".intercalate (names.map ticked)

def Problem.message : Problem → String
  | missingField name => "missing field " ++ ticked name
  | unknownField name known => "unknown field " ++ ticked name ++ ", expected " ++ choice known
  | wrongKind found expected => "invalid type: " ++ found ++ ", expected " ++ expected
  | wrongValue found expected => "invalid value: " ++ found ++ ", expected " ++ expected
  | wrongLength length expected => "invalid length " ++ toString length ++ ", expected " ++ expected
  | unknownVariant name known => "unknown variant " ++ ticked name ++ ", expected " ++ choice known
  | illFormed reason => reason

structure Mismatch where
  place : List Step
  problem : Problem
  deriving DecidableEq, Repr

namespace Mismatch

/-- The same mismatch, seen from the value that `step` leads out of. -/
def under (step : Step) (m : Mismatch) : Mismatch := { m with place := step :: m.place }

/-- The same problem, blamed on the whole value. -/
def atTop (m : Mismatch) : Mismatch := { m with place := [] }

def placeText (m : Mismatch) : String := Json.placeText m.place

def reason (m : Mismatch) : String := m.problem.message

end Mismatch

end ScriptProbe.Json
