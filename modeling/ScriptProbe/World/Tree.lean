import ScriptProbe.World.Basic

/-!
A tree of files held in memory, and the world it makes: paths are walked from the root or from a
current directory, and bare program names are looked for in the directories of a search path.
-/

namespace ScriptProbe

/-- The names that lead from the root to an entry, last first. -/
abbrev Place := List (List UInt8)

inductive Node where
  | directory
  | file (bytes : List UInt8)
  | program (p : Program)
  | library (l : Library)

/-- Entries by place; the root is always a directory. -/
structure Tree where
  entries : List (Place × Node)
  current : Place

namespace Tree

def node? (t : Tree) : Place → Option Node
  | [] => some .directory
  | place => (t.entries.find? (·.1 = place)).map (·.2)

def isDirectory (t : Tree) (place : Place) : Bool :=
  match t.node? place with
  | some .directory => true
  | _ => false

/-- Makes the directories up to a place that are missing. -/
def makeDirectories (t : Tree) : Place → Tree
  | [] => t
  | name :: parent =>
    let t := t.makeDirectories parent
    if (t.node? (name :: parent)).isSome then t
    else { t with entries := (name :: parent, .directory) :: t.entries }

/-- Puts an entry in its place, with the directories that lead there. -/
def insert (t : Tree) (place : Place) (node : Node) : Tree :=
  let t := t.makeDirectories place.tail
  { t with entries := (place, node) :: t.entries.filter (·.1 ≠ place) }

/-- The longest name that an entry may have, in bytes. -/
def maxName : Nat := 255

/-- The longest path that may be asked for, in bytes. -/
def maxPath : Nat := 4095

/-- Walks the pieces of a path from a place that exists. -/
def walk (t : Tree) : Place → List (List UInt8) → Except Refusal Place
  | place, [] => .ok place
  | place, piece :: rest =>
    if !t.isDirectory place then .error .notDirectory
    else if Path.idle piece then walk t place rest
    else if piece = Path.above then walk t place.tail rest
    else if maxName < piece.length then .error .nameTooLong
    else if (t.node? (piece :: place)).isSome then walk t (piece :: place) rest
    else .error .notFound

/-- Refuses paths that no system call takes. -/
def checkPath (p : Path) : Except Refusal Unit :=
  if p.bytes.contains 0 then .error .nulInName
  else if p.bytes = [] then .error .notFound
  else if maxPath < p.bytes.length then .error .nameTooLong
  else .ok ()

def start (t : Tree) (p : Path) : Place := if p.isAbsolute then [] else t.current

def find (t : Tree) (p : Path) : Except Refusal Node := do
  checkPath p
  let place ← t.walk (t.start p) p.pieces
  match t.node? place with
  | some node => .ok node
  | none => .error .notFound

def read (t : Tree) (p : Path) : Except Refusal (List UInt8) := do
  match ← t.find p with
  | .directory => .error .isDirectory
  | .file bytes => .ok bytes
  | .program _ | .library _ => .ok []

def isFile (t : Tree) (p : Path) : Bool :=
  match t.find p with
  | .ok .directory => false
  | .ok _ => true
  | .error _ => false

/-- Where a file of the given path would stand. A separator at the end asks for a directory, whether
there is one of that name or not. -/
def target (t : Tree) (p : Path) : Except Refusal Place := do
  checkPath p
  match p.pieces.reverse.dropWhile (· = []) with
  | [] => .error .isDirectory
  | last :: before =>
    let directory ← t.walk (t.start p) before.reverse
    if !t.isDirectory directory then .error .notDirectory
    else if p.endsInSeparator ∨ Path.idle last ∨ last = Path.above then .error .isDirectory
    else if maxName < last.length then .error .nameTooLong
    else
      let place := last :: directory
      if t.isDirectory place then .error .isDirectory else .ok place

def write (t : Tree) (p : Path) (bytes : List UInt8) : Except Refusal Tree :=
  (t.target p).map fun place => t.insert place (.file bytes)

/-- Where programs are looked for without a search path. -/
def defaultSearchPath : List UInt8 := Text.Utf8.encode "/bin:/usr/bin".toList

def startAt (t : Tree) (p : Path) : Except Refusal Program := do
  match ← t.find p with
  | .program program => .ok program
  | .directory | .file _ | .library _ => .error .denied

/-- Tries the directories of the search path in order. A directory without the program is passed
over, and so is a program that may not be started. When none is left the answer is `denied` if some
directory gave it, and otherwise that of the directory tried last. -/
def search (t : Tree) (name : Path) : Refusal → List Path → Except Refusal Program
  | last, [] => .error last
  | last, dir :: rest =>
    match t.startAt (dir.join name) with
    | .error .denied => search t name .denied rest
    | .error .notFound => search t name (if last = .denied then .denied else .notFound) rest
    | .error .notDirectory => search t name (if last = .denied then .denied else .notDirectory) rest
    | answer => answer

def program (t : Tree) (environment : String → Option (List UInt8)) (p : Path) :
    Except Refusal Program :=
  if p.bytes.contains 0 then .error .nulInArgument
  else if p.bytes = [] then .error .notFound
  else if p.bytes.contains Path.separator then t.startAt p
  else if maxName < p.bytes.length then .error .nameTooLong
  else t.search p .notFound (Path.searchList ((environment "PATH").getD defaultSearchPath))

/-- The least size of a file that could be a library. -/
def libraryHeaderSize : Nat := 64

/-- Libraries are opened by a path with a separator in it. -/
def openLibrary (t : Tree) (p : Path) : Except String Library :=
  let missing (r : Refusal) := p.text ++ ": cannot open shared object file: " ++ r.systemText
  if p.bytes.contains Path.separator then
    match t.find p with
    | .ok (.library l) => .ok l
    | .ok .directory => .error (p.text ++ ": cannot read file data: Is a directory")
    | .ok (.file bytes) =>
      if bytes.length < libraryHeaderSize then .error (p.text ++ ": file too short")
      else .error (p.text ++ ": invalid ELF header")
    | .ok (.program _) => .error (p.text ++ ": invalid ELF header")
    | .error r => .error (missing r)
  else .error (missing .notFound)

def world (t : Tree) (environment : String → Option (List UInt8)) : World where
  environment := environment
  read := t.read
  isFile := t.isFile
  unwritable p :=
    match t.target p with
    | .ok _ => none
    | .error r => some r
  start := t.program environment
  library := t.openLibrary

end Tree

end ScriptProbe
