import ScriptProbe.Chain.Basic
import ScriptProbe.Command.Verbosity
import ScriptProbe.World.Path

/-!
The commands and what each of them is told.
-/

namespace ScriptProbe

inductive Format where
  | text
  | json
  deriving DecidableEq, Repr

def Format.name : Format → String
  | text => "text"
  | json => "json"

inductive Shell where
  | bash
  | elvish
  | fish
  | powershell
  | zsh
  deriving DecidableEq, Repr

def Shell.name : Shell → String
  | bash => "bash"
  | elvish => "elvish"
  | fish => "fish"
  | powershell => "powershell"
  | zsh => "zsh"

/-- The script group to run. Its script is given by hash, or by the cell that holds it. -/
structure RunOptions where
  fixture : Path
  group : ScriptGroup
  hash : Option String
  side : Option CellSide
  index : Option Nat
  cycleLimit : Option String
  engine : Option String
  streamed : Bool
  format : Format
  skipCheck : Bool
  deriving DecidableEq, Repr

inductive Command where
  | run (options : RunOptions)
  | check (fixture : Path)
  | scriptHash (fixture : Path) (group : ScriptGroup) (side : CellSide) (index : Nat)
  | expand (fixture : Path) (output : Option Path)
  | completions (shell : Shell)
  deriving DecidableEq, Repr

structure Arguments where
  verbosity : Verbosity
  config : Option Path
  command : Command
  deriving DecidableEq, Repr

end ScriptProbe
