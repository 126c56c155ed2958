import ScriptProbe.Command.Arguments
import ScriptProbe.Command.Session

/-!
The command line in the world of the machine it runs on. Files are read before a command is carried
out; engines are not reached from here, so a run ends where it would start one.
-/

namespace ScriptProbe.Main

open ScriptProbe

/-- The system's refusal behind an error. -/
def refusalOf : IO.Error → Refusal
  | .noFileOrDirectory .. => .notFound
  | .permissionDenied .. => .denied
  | .inappropriateType _ code _ => if code = 20 then .notDirectory else .isDirectory
  | _ => .denied

def readFile (p : Path) : IO (Except Refusal (List UInt8)) := do
  try
    let bytes ← IO.FS.readBinFile p.text
    return .ok bytes.toList
  catch e => return .error (refusalOf e)

/-- What has been read so far. -/
structure Snapshot where
  env : List (String × String)
  files : List (Path × Except Refusal (List UInt8))

namespace Snapshot

def environment (s : Snapshot) (name : String) : Option (List UInt8) :=
  (s.env.lookup name).map fun value => Text.Utf8.encode value.toList

def file (s : Snapshot) (p : Path) : Except Refusal (List UInt8) :=
  (s.files.lookup p).getD (.error .notFound)

def world (s : Snapshot) : World where
  environment := s.environment
  read := s.file
  isFile p :=
    match s.file p with
    | .ok _ => true
    | .error _ => false
  unwritable _ := none
  start _ := .error .denied
  library p := .error (p.text ++ ": libraries are not opened")

def add (s : Snapshot) (p : Path) : IO Snapshot := do
  if (s.files.lookup p).isSome then return s
  return { s with files := (p, ← readFile p) :: s.files }

def addAll (s : Snapshot) (paths : List Path) : IO Snapshot := paths.foldlM add s

/-- The variables that commands look at. -/
def names : List String :=
  ["PATH", "HOME", "XDG_CONFIG_HOME", "CKB_DEBUG_MAX_CYCLES", "CKB_DEBUGGER_MODULE"]

def start : IO Snapshot := do
  let env ← names.filterMapM fun name => do
    return (← IO.getEnv name).map (name, ·)
  return ⟨env, []⟩

/-- A fixture with the files that its markers name. -/
def addFixture (s : Snapshot) (p : Path) : IO Snapshot := do
  let s ← s.add p
  match s.world.readText p with
  | .error _ => return s
  | .ok text =>
    let t := Template.ofText p text
    let s ← s.addAll (t.files .data)
    let (t, _) := t.apply s.world .data
    s.addAll (t.files .hash)

def addConfig (s : Snapshot) (named : Option Path) : IO Snapshot :=
  let usual := (Config.directory? s.world).map fun dir => dir.join Config.fileName
  s.addAll (named <|> usual).toList

/-- The places of the engine that is asked for. -/
def addEngine (s : Snapshot) (config : Option Path) (engine : Option String) : IO Snapshot :=
  match Config.discover s.world config with
  | .error _ => return s
  | .ok c =>
    match c.moduleRef engine with
    | .ok (.process program) => s.addAll (s.world.candidates program)
    | _ => return s

def addCommand (s : Snapshot) (a : Arguments) : IO Snapshot :=
  match a.command with
  | .run o => do
    let s ← s.addConfig a.config
    let s ← s.addFixture o.fixture
    s.addEngine a.config o.engine
  | .check p => s.addFixture p
  | .scriptHash p _ _ _ => s.addFixture p
  | .expand p _ => s.addFixture p
  | .completions _ => return s

end Snapshot

/-- Writes the file of an outcome. -/
def writeOut (o : Outcome) : IO Outcome := do
  match o.written with
  | none => return o
  | some (p, text) =>
    try
      IO.FS.writeFile p.text text
      return o
    catch e => return { o with fault := some (.file (.cannotWrite p (refusalOf e))) }

/-- What reaches the error output; the time at which an entry was made is left out. -/
def saidText (kept : Log.Filter) : Said → String
  | .entry e =>
    if kept e then e.level.name.toUpper ++ " " ++ e.source ++ ": " ++ e.text ++ "\n" else ""
  | .remark text => text

def usageText (why : Usage.Stop) : String :=
  match why with
  | .version => Usage.versionText
  | _ => "Usage: " ++ Usage.programName ++ " [OPTIONS] <COMMAND>\n"

end ScriptProbe.Main

open ScriptProbe in
def main (args : List String) : IO UInt32 := do
  let s ← Main.Snapshot.start
  match Usage.read s.world.value? args with
  | .error why =>
    if why.code = 0 then IO.print (Main.usageText why) else IO.eprint (Main.usageText why)
    return UInt32.ofNat why.code
  | .ok a =>
    let s ← s.addCommand a
    let o ← Main.writeOut (Session.perform s.world a)
    IO.print o.stdout
    let kept := Session.kept s.world a.verbosity
    IO.eprint (String.join (o.stderr.map (Main.saidText kept)) ++ Session.faultLine o)
    return UInt32.ofNat (Session.code o)
