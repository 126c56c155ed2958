/-!
Programs that can be started, and how they end.
-/

namespace ScriptProbe

/-- How a program ended. A signal may leave an image of its memory behind. -/
inductive Status where
  | exited (code : UInt8)
  | killed (signal : Nat) (dumped : Bool)
  deriving DecidableEq, Repr

namespace Status

/-- The names of the signals, from the first on. -/
def signals : List String :=
  ["SIGHUP", "SIGINT", "SIGQUIT", "SIGILL", "SIGTRAP", "SIGABRT", "SIGBUS", "SIGFPE", "SIGKILL",
    "SIGUSR1", "SIGSEGV", "SIGUSR2", "SIGPIPE", "SIGALRM", "SIGTERM", "SIGSTKFLT", "SIGCHLD",
    "SIGCONT", "SIGSTOP", "SIGTSTP", "SIGTTIN", "SIGTTOU", "SIGURG", "SIGXCPU", "SIGXFSZ",
    "SIGVTALRM", "SIGPROF", "SIGWINCH", "SIGIO", "SIGPWR", "SIGSYS"]

def isSuccess : Status → Bool
  | exited code => code == 0
  | killed .. => false

/-- Signals are counted from one. -/
def signalName? : Nat → Option String
  | 0 => none
  | n + 1 => signals[n]?

/-- A signal by its number, and by its name if it has one. -/
def signalText (signal : Nat) : String :=
  match signalName? signal with
  | some name => toString signal ++ " (" ++ name ++ ")"
  | none => toString signal

def text : Status → String
  | exited code => "exit status: " ++ toString code.toNat
  | killed signal dumped =>
    "signal: " ++ signalText signal ++ if dumped then " (core dumped)" else ""

example : (killed 6 true).text = "signal: 6 (SIGABRT) (core dumped)" := by decide

end Status

/-- All that a program leaves behind. -/
structure Exit where
  stdout : List UInt8
  stderr : List UInt8
  status : Status
  deriving DecidableEq, Repr

/-- A program that can be started: the file that holds it, and what it does with its arguments and
its input. -/
structure Program where
  file : String
  run : List String → String → Exit

end ScriptProbe
