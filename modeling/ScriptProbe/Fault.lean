import ScriptProbe.Chain.Molecule
import ScriptProbe.Chain.Shown
import ScriptProbe.Engine.Answer
import ScriptProbe.World.Basic

/-!
All that can go wrong in a command, by the part that it goes wrong in, and the words for it.
-/

namespace ScriptProbe

/-- Why an engine cannot be reached. -/
inductive ModuleFault where
  | emptyReference
  | noPath
  | programNotFound (program : Path)
  | cannotOpen (library : Path) (reason : String)
  | missingSymbol (library : Path) (symbol : String)
  /-- In the engine's own words. -/
  | reported (text : String)
  deriving DecidableEq, Repr

/-- Why a call of an engine gave no success. -/
inductive InvocationFault where
  | cannotStart (program : Path) (refusal : Refusal)
  | interiorNul (part : String)
  | noResult (library : Path)
  /-- In the engine's own words. -/
  | reported (text : String)
  deriving DecidableEq, Repr

inductive FixtureFault where
  | notJson (e : Json.ReadError)
  | notTransaction (m : Json.Mismatch)
  | cannotRead (file : Path) (refusal : Refusal)
  | redefined (name : String)
  | undefined (name : String)
  deriving DecidableEq, Repr

/-- Where the mocked surroundings of a transaction do not match it. -/
inductive CheckFault where
  | badGroup (group : OutPoint) (defect : DepGroup.Defect)
  | depCount (mocked actual : Nat)
  | depMismatch (mocked actual : CellDep)
  | inputCount (mocked actual : Nat)
  | inputMismatch (index : Nat)
  | headerCount (mocked actual : Nat)
  deriving DecidableEq

/-- Why no script is found. -/
inductive LocateFault where
  | noLocator
  | outOfRange (side : CellSide) (index : Nat)
  | noTypeScript (side : CellSide) (index : Nat)
  deriving DecidableEq, Repr

inductive ConfigFault where
  | cannotRead (file : Path) (refusal : Refusal)
  | cannotParse (file : Path) (reason : String)
  deriving DecidableEq, Repr

inductive FileFault where
  | cannotReadFixture (file : Path) (refusal : Refusal)
  | cannotWrite (file : Path) (refusal : Refusal)
  /-- In the engine's own words. -/
  | reported (text : String)
  deriving DecidableEq, Repr

def ModuleFault.message : ModuleFault → String
  | emptyReference => "empty debugger module reference"
  | noPath => "debugger module reference has no path"
  | programNotFound program => "debugger executable " ++ program.text ++ " not found"
  | cannotOpen library reason => "cannot open " ++ library.text ++ ": " ++ reason
  | missingSymbol library symbol =>
    library.text ++ " does not export `" ++ symbol ++ "`: " ++ library.text ++
      ": undefined symbol: " ++ symbol
  | reported text => text

def InvocationFault.message : InvocationFault → String
  | cannotStart program refusal => "failed to start " ++ program.text ++ ": " ++ refusal.text
  | interiorNul part => part ++ " contains an interior NUL byte"
  | noResult library => library.text ++ " returned no result"
  | reported text => text

def FixtureFault.message : FixtureFault → String
  | notJson e => "not valid JSON: " ++ e.message
  | notTransaction m => "not a mock transaction at `" ++ m.placeText ++ "`: " ++ m.reason
  | cannotRead file refusal => "Read " ++ file.text ++ " failed: " ++ refusal.text
  | redefined name => "Type ID `" ++ name ++ "` is defined more than once"
  | undefined name => "Type ID `" ++ name ++ "` is referenced but never defined"

/-- A count on either side. -/
def countsText (mocked : Nat) (what : String) (actual : Nat) (note : String) : String :=
  toString mocked ++ " mock " ++ what ++ " for " ++ toString actual ++ " transaction " ++
    what ++ note

def CheckFault.message : CheckFault → String
  | badGroup group defect =>
    "dep group " ++ group.txHash.text ++ "#" ++ toString group.index.toNat ++
      " has invalid data: " ++ defect.message
  | depCount mocked actual => countsText mocked "cell deps" actual " (dep groups expanded)"
  | depMismatch mocked actual => "CellDeps " ++ mocked.shown ++ " != " ++ actual.shown
  | inputCount mocked actual => countsText mocked "inputs" actual ""
  | inputMismatch index => "inputs at index " ++ toString index ++ " is mismatched"
  | headerCount mocked actual => countsText mocked "header deps" actual ""

def LocateFault.message : LocateFault → String
  | noLocator => "provide either --script-hash, or both --cell-type and --cell-index"
  | outOfRange side index => side.name ++ " cell index " ++ toString index ++ " is out of range"
  | noTypeScript side index => side.name ++ " cell " ++ toString index ++ " has no type script"

def ConfigFault.message : ConfigFault → String
  | cannotRead file refusal => "Failed to read " ++ file.text ++ ": " ++ refusal.text
  | cannotParse file reason => "Failed to parse " ++ file.text ++ ": " ++ reason

def FileFault.message : FileFault → String
  | cannotReadFixture file refusal => "Failed to read fixture " ++ file.text ++ ": " ++ refusal.text
  | cannotWrite file refusal => "Failed to write " ++ file.text ++ ": " ++ refusal.text
  | reported text => text

inductive Fault where
  | module (cause : ModuleFault)
  | invocation (cause : InvocationFault)
  | answer (cause : Answer.Defect)
  | fixture (cause : FixtureFault)
  | check (cause : CheckFault)
  | locate (cause : LocateFault)
  | config (cause : ConfigFault)
  | file (cause : FileFault)
  /-- A fault of no kind of its own. -/
  | other (text : String)
  deriving DecidableEq

namespace Fault

/-- The words of a fault after those for its kind. -/
def message : Fault → String
  | module cause => "Failed to load debugger module: " ++ cause.message
  | invocation cause => "Script execution failed: " ++ cause.message
  | answer cause => "Malformed debugger result: " ++ cause.message
  | fixture cause => "Invalid fixture: " ++ cause.message
  | check cause => "Potential format error found: " ++ cause.message
  | locate cause => "Invalid arguments: " ++ cause.message
  | config cause => "Configuration error: " ++ cause.message
  | file cause => "File error: " ++ cause.message
  | other text => text

/-- What a report says of a fault: of a failed call only the engine's own words, else the whole
message. -/
def reportText : Fault → String
  | invocation cause => cause.message
  | fault => fault.message

end Fault

end ScriptProbe
