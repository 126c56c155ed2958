import ScriptProbe.Bytes.Cut
import ScriptProbe.Text.Blank
import ScriptProbe.Text.Decimal
import ScriptProbe.Text.Utf8

/-!
The output of an engine that runs as a program. It is read line by line: a script's message begins
with a line of its own kind and takes in the lines after it, up to the next line that the engine
itself wrote.
-/

namespace ScriptProbe.Transcript

open ScriptProbe.Text

inductive Line where
  | log (message : List Char)
  | cycles (n : UInt64)
  | warning (message : List Char)
  /-- Other words of the engine. -/
  | status (text : List Char)
  | other (text : List Char)
  deriving DecidableEq, Repr

def logLead : List Char := "Script log: ".toList
def cyclesLead : List Char := "Total cycles consumed: ".toList
def warningLead : List Char := "Potential format error found: ".toList
def statusLeads : List (List Char) :=
  ["Run result: ".toList, "The cell_index is not specified".toList]

/-- The number that a text begins with. -/
def leadingCount? (cs : List Char) : Option UInt64 :=
  Decimal.readWord? (cs.takeWhile Char.isDigit)

def Line.classify (cs : List Char) : Line :=
  match after? logLead cs with
  | some message => .log message
  | none =>
    match (after? cyclesLead cs).bind leadingCount? with
    | some n => .cycles n
    | none =>
      match after? warningLead cs with
      | some message => .warning message
      | none =>
        if statusLeads.any fun lead => (after? lead cs).isSome then .status cs else .other cs

/-- Lines end with a line feed; after the last one no line opens. -/
def lineFeed : UInt8 := 10

def isLineEnd (c : Char) : Bool := c = '\r' || c = '\n'

def dropLineEnds (cs : List Char) : List Char := dropTailWhile isLineEnd cs

/-- The lines of an output, decoded one by one and without the line ends. -/
def linesOf (bytes : List UInt8) : List (List Char) :=
  (Bytes.cut lineFeed bytes).map fun line => dropLineEnds (Utf8.lossy line)

/-- What has been read up to some line: the last cycle count, the messages that are complete (last
first) and the lines of the message that is still open (last first). -/
structure State where
  cycles : Option UInt64
  done : List (List Char)
  pending : Option (List (List Char))
  deriving DecidableEq, Repr

namespace State

def start : State := ⟨none, [], none⟩

def joinLines (lines : List (List Char)) : List Char := List.intercalate ['\n'] lines

/-- Completes the open message. -/
def close (s : State) : State :=
  match s.pending with
  | none => s
  | some lines => { s with done := joinLines lines.reverse :: s.done, pending := none }

def step (s : State) (line : Line) : State :=
  match line, s.pending with
  | .other text, some lines => { s with pending := some (text :: lines) }
  | .log message, _ => { s.close with pending := some [message] }
  | .cycles n, _ => { s.close with cycles := some n }
  | _, _ => s.close

end State

/-- The last cycle count, and the messages in order. -/
structure Reading where
  cycles : Option UInt64
  messages : List String
  deriving DecidableEq, Repr

def readLines (lines : List (List Char)) : Reading :=
  let s := (lines.foldl (fun s line => s.step (Line.classify line)) State.start).close
  ⟨s.cycles, s.done.reverse.map String.ofList⟩

def read (bytes : List UInt8) : Reading := readLines (linesOf bytes)

end ScriptProbe.Transcript
