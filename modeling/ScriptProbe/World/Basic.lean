import ScriptProbe.Text.Utf8
import ScriptProbe.World.Library
import ScriptProbe.World.Log
import ScriptProbe.World.Path
import ScriptProbe.World.Program

/-!
What surrounds a command: environment variables, files, programs that can be started and libraries
that can be opened. A world is given by its answers. Values of variables and names of files are
bytes; of the refusals those that files and programs are met with most have names of their own.
-/

namespace ScriptProbe

/-- Why the system refuses a request. -/
inductive Refusal where
  | notFound
  | denied
  | notDirectory
  | isDirectory
  | nameTooLong
  | nulInName
  | nulInArgument
  | notUtf8
  /-- Any other one, by the system's number for it, if it has one, and its words. -/
  | other (code : Option Nat) (words : String)
  deriving DecidableEq, Repr

namespace Refusal

/-- The system's words. -/
def systemText : Refusal → String
  | notFound => "No such file or directory"
  | denied => "Permission denied"
  | notDirectory => "Not a directory"
  | isDirectory => "Is a directory"
  | nameTooLong => "File name too long"
  | nulInName => "file name contained an unexpected NUL byte"
  | nulInArgument => "nul byte found in provided data"
  | notUtf8 => "stream did not contain valid UTF-8"
  | other _ words => words

/-- The system's number for a refusal of its own. -/
def number? : Refusal → Option Nat
  | notFound => some 2
  | denied => some 13
  | notDirectory => some 20
  | isDirectory => some 21
  | nameTooLong => some 36
  | nulInName | nulInArgument | notUtf8 => none
  | other code _ => code

def text (r : Refusal) : String :=
  match r.number? with
  | some n => r.systemText ++ " (os error " ++ toString n ++ ")"
  | none => r.systemText

end Refusal

structure World where
  environment : String → Option (List UInt8)
  /-- The home directory that the system has on record for the user. -/
  recordedHome : Option (List UInt8) := none
  /-- Which entries of the log are kept, if the environment says so in words that can be read. -/
  logFilter : Option Log.Filter := none
  read : Path → Except Refusal (List UInt8)
  isFile : Path → Bool
  /-- Why a file cannot be written. -/
  unwritable : Path → Option Refusal
  start : Path → Except Refusal Program
  /-- A library that cannot be opened is refused in the loader's words. -/
  library : Path → Except String Library
  /-- The words of the reader of settings for a text that it refuses. -/
  settingsRefusal : String → String := fun _ => ""

namespace World

/-- The value of a variable, where it is a text. -/
def value? (w : World) (name : String) : Option String :=
  ((w.environment name).bind Text.Utf8.decode?).map String.ofList

def readText (w : World) (p : Path) : Except Refusal String := do
  match Text.Utf8.decode? (← w.read p) with
  | some cs => .ok (String.ofList cs)
  | none => .error .notUtf8

end World

end ScriptProbe
