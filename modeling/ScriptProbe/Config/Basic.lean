import ScriptProbe.Config.Toml
import ScriptProbe.Engine.ModuleRef

/-!
Settings: the engine to call, the cycle budget and whether fixtures are checked first. They come
from a file; what a command line says goes before them.
-/

namespace ScriptProbe

structure Config where
  module : Option String
  maxCycles : Option UInt64
  preCheck : Option Bool
  deriving DecidableEq, Repr

namespace Config

def empty : Config := ⟨none, none, none⟩

/-- The cycle budget where none is given. -/
def standardMaxCycles : UInt64 := 70000000

/-- Takes one setting in; a key or a kind of value that is not known is refused. -/
def set? (c : Config) (key : String) (v : Toml.Value) : Option Config :=
  match key, v with
  | "module", .str s => some { c with module := some s }
  | "max_cycles", .int n =>
    if 0 ≤ n ∧ n < UInt64.size then some { c with maxCycles := some (UInt64.ofNat n.toNat) }
    else none
  | "pre_check", .bool b => some { c with preCheck := some b }
  | _, _ => none

def read? (text : String) : Option Config := do
  let settings ← Toml.document text
  settings.foldlM (fun c (key, v) => c.set? key v) empty

def load (w : World) (path : Path) : Except ConfigFault Config := do
  let text ← (w.readText path).mapError (.cannotRead path)
  match read? text with
  | some c => .ok c
  | none => .error (.cannotParse path (w.settingsRefusal text))

/-- Where settings are kept, in a directory for settings. -/
def fileName : Path := .ofText "ckb-debug-invoke/config.toml"

/-- The home directory: what the environment says goes before what is on record. -/
def home? (w : World) : Option Path :=
  ((w.environment "HOME").filter (· ≠ []) <|> w.recordedHome).map Path.mk

/-- The directory for settings. -/
def directory? (w : World) : Option Path :=
  match (w.environment "XDG_CONFIG_HOME").filter fun dir => Path.isAbsolute ⟨dir⟩ with
  | some dir => some ⟨dir⟩
  | none => (home? w).map fun home => home.join (.ofText ".config")

/-- The settings of a file that is named, which must exist, or else of the usual file if there is
one. -/
def discover (w : World) (named : Option Path) : Except ConfigFault Config :=
  match named with
  | some path => load w path
  | none =>
    match (directory? w).map fun dir => dir.join fileName with
    | some path => if w.isFile path then load w path else .ok empty
    | none => .ok empty

/-- The engine named on the command line, or else in the settings, or else the usual one. -/
def moduleRef (c : Config) (named : Option String) : Except ModuleFault ModuleRef :=
  match named <|> c.module with
  | some text => ModuleRef.read text
  | none => .ok ModuleRef.standard

def cycleBudget (c : Config) : UInt64 := c.maxCycles.getD standardMaxCycles

def checksFirst (c : Config) : Bool := c.preCheck.getD true

end Config

end ScriptProbe
