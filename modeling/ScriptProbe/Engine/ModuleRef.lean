import ScriptProbe.Fault

/-!
References to engines: `process:` or `library:` and a path, or a path alone, whose extension tells
which of the two is meant.
-/

namespace ScriptProbe

inductive ModuleRef where
  | process (path : Path)
  | library (path : Path)
  deriving DecidableEq, Repr

namespace ModuleRef

open ScriptProbe.Text

def processLead : List Char := "process:".toList

def libraryLead : List Char := "library:".toList

def libraryExtensions : List String := ["so", "dylib", "dll"]

/-- The engine that is called when none is named. -/
def standard : ModuleRef := .process (.ofText "ckb-debugger")

def path : ModuleRef → Path
  | process p => p
  | library p => p

def text : ModuleRef → String
  | process p => "process:" ++ p.text
  | library p => "library:" ++ p.text

def isLibraryPath (p : Path) : Bool :=
  match p.extension? with
  | some e => libraryExtensions.any fun name => e == Utf8.encode name.toList
  | none => false

/-- A path after a lead that has told the kind. -/
def withPath (kind : Path → ModuleRef) (cs : List Char) : Except ModuleFault ModuleRef :=
  if cs = [] then .error .noPath else .ok (kind (.ofText (String.ofList cs)))

def readChars (cs : List Char) : Except ModuleFault ModuleRef :=
  if cs = [] then .error .emptyReference
  else
    match after? processLead cs, after? libraryLead cs with
    | some rest, _ => withPath .process rest
    | none, some rest => withPath .library rest
    | none, none =>
      let p := Path.ofText (String.ofList cs)
      if isLibraryPath p then .ok (.library p) else .ok (.process p)

/-- Blanks around the reference do not count. -/
def read (text : String) : Except ModuleFault ModuleRef := readChars (trim text.toList)

end ModuleRef

end ScriptProbe
