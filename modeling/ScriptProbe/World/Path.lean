import ScriptProbe.Text.Blank
import ScriptProbe.Text.Utf8

/-!
Paths of files, with `/` between their components. A path keeps its bytes, which need not be those
of a text; runs of separators and points that stand for the directory they are in count for nothing,
save one point at the very front.
-/

namespace ScriptProbe

structure Path where
  bytes : List UInt8
  deriving DecidableEq, Repr

namespace Path

/-- The path that a text names. -/
def ofText (s : String) : Path := ⟨Text.Utf8.encode s.toList⟩

/-- A path as it is shown. What is no text in it is shown by replacement characters, so that two
paths may look alike. -/
def text (p : Path) : String := String.ofList (Text.Utf8.lossy p.bytes)

/-- The byte `/`. -/
abbrev separator : UInt8 := 0x2f

/-- The byte `.`. -/
abbrev point : UInt8 := 0x2e

/-- The bytes between neighbouring separators. -/
def pieces (p : Path) : List (List UInt8) := Text.split separator p.bytes

def joinPieces (pieces : List (List UInt8)) : List UInt8 := List.intercalate [separator] pieces

/-- Whether a piece counts for nothing. -/
def idle (piece : List UInt8) : Bool := piece == [] || piece == [point]

/-- The piece that stands for the directory above. -/
def above : List UInt8 := [point, point]

def isAbsolute (p : Path) : Bool := p.bytes.head? == some separator

def endsInSeparator (p : Path) : Bool := p.bytes.getLast? == some separator

/-- The pieces that count; the root is an empty one. -/
def components (p : Path) : List (List UInt8) :=
  match p.pieces with
  | [] => []
  | first :: rest =>
    let rest := rest.filter fun piece => !idle piece
    if first = [] ∧ ¬p.isAbsolute then rest else first :: rest

/-- Drops pieces at the end that count for nothing. -/
def dropIdle (pieces : List (List UInt8)) : List (List UInt8) :=
  (pieces.reverse.dropWhile idle).reverse

/-- The path without its last component; neither the root nor the empty path has one. -/
def parent? (p : Path) : Option Path :=
  match p.pieces with
  | [] => none
  | first :: rest =>
    match (dropIdle rest).reverse with
    | [] => if first = [] then none else some ⟨[]⟩
    | _ :: kept =>
      match dropIdle kept.reverse with
      | [] => some ⟨if first = [] then [separator] else first⟩
      | kept => some ⟨joinPieces (first :: kept)⟩

/-- The path `q`, taken from the directory `p` unless it is absolute. -/
def join (p q : Path) : Path :=
  if q.isAbsolute then q
  else if p.bytes = [] ∨ p.endsInSeparator then ⟨p.bytes ++ q.bytes⟩
  else ⟨p.bytes ++ separator :: q.bytes⟩

/-- The last component, if it is the name of a file or directory. -/
def fileName? (p : Path) : Option (List UInt8) :=
  match p.components.getLast? with
  | none => none
  | some name => if idle name ∨ name = above then none else some name

/-- What follows the last point of the file name, if anything stands before that point. -/
def extension? (p : Path) : Option (List UInt8) :=
  p.fileName?.bind fun name =>
    let tail := (name.reverse.takeWhile (· ≠ point)).reverse
    let stem := name.length - tail.length
    if stem ≤ 1 then none else some tail

/-- The directories of a search path, which colons part; an empty one stands for the current
directory. -/
def searchList (value : List UInt8) : List Path := (Text.split 0x3a value).map Path.mk

end Path

end ScriptProbe
