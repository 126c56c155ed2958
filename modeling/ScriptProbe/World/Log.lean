/-!
The log: entries for whoever follows a command at work, and which of them are kept.
-/

namespace ScriptProbe.Log

/-- How much an entry matters, from the most to the least. -/
inductive Level where
  | error
  | warn
  | info
  | debug
  | trace
  deriving DecidableEq, Repr

namespace Level

def name : Level → String
  | error => "error"
  | warn => "warn"
  | info => "info"
  | debug => "debug"
  | trace => "trace"

def rank : Level → Nat
  | error => 0
  | warn => 1
  | info => 2
  | debug => 3
  | trace => 4

end Level

/-- An entry, without the time at which it was made; `source` names the part of the program that
made it. -/
structure Entry where
  level : Level
  source : String
  text : String
  deriving DecidableEq, Repr

/-- Which entries are kept. -/
abbrev Filter := Entry → Bool

/-- Keeps the entries that matter no less than the given level. -/
def upTo (least : Level) : Filter := fun e => e.level.rank ≤ least.rank

end ScriptProbe.Log
