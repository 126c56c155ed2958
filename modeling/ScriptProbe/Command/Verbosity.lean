import ScriptProbe.World.Log

/-!
How much a command says beside its result.
-/

namespace ScriptProbe

inductive Verbosity where
  | quiet
  | normal
  | verbose
  | debug
  deriving DecidableEq, Repr

namespace Verbosity

/-- Quiet goes before any number of requests for more. -/
def ofFlags (verbose : Nat) (quiet : Bool) : Verbosity :=
  if quiet then .quiet
  else match verbose with
    | 0 => .normal
    | 1 => .verbose
    | _ => .debug

/-- The least level of log entries that are kept. -/
def level : Verbosity → Log.Level
  | quiet => .error
  | normal => .warn
  | verbose => .info
  | debug => .debug

def isQuiet (v : Verbosity) : Bool := v == quiet

end Verbosity

end ScriptProbe
