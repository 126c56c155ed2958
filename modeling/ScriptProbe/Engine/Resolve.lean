import ScriptProbe.Engine.Library.Call
import ScriptProbe.Engine.ModuleRef
import ScriptProbe.Engine.Executable

/-!
From a reference to an engine that can be called.
-/

namespace ScriptProbe

namespace World

/-- Where a program may be: a path of several components is taken as it stands, and a bare name is
looked for in the directories of the search path. -/
def candidates (w : World) (program : Path) : List Path :=
  if 1 < program.components.length ∨ program.isAbsolute then [program]
  else
    match w.environment "PATH" with
    | none => []
    | some value => (Path.searchList value).map fun dir => dir.join program

def findProgram (w : World) (program : Path) : Option Path :=
  (w.candidates program).find? fun p => w.isFile p

end World

namespace ModuleRef

def resolve (w : World) : ModuleRef → Except ModuleFault Engine
  | process program =>
    match w.findProgram program with
    | some found => .ok (Executable.engine w found)
    | none => .error (.programNotFound program)
  | library path => (Library.openAt w path).map fun l => l.engine path

end ModuleRef

end ScriptProbe
