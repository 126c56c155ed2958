/-!
Libraries that can be opened. A library is known by the symbols it exports and by what its entry
points do with the texts of a call.
-/

namespace ScriptProbe

/-- A text handed over at the call boundary of a library: bytes up to a NUL, or no text at all. -/
abbrev ForeignText := Option (List UInt8)

/-- A call of the printer that was handed to a library; without its context it reaches nobody. -/
structure Print where
  withContext : Bool
  hash : ForeignText
  message : ForeignText
  deriving DecidableEq, Repr

/-- What a library does in one call: the printer calls, in order, and the text that it returns. -/
structure Performance where
  prints : List Print
  result : ForeignText
  deriving DecidableEq, Repr

/-- The four texts of a call, as bytes without a NUL. -/
structure ForeignCall where
  fixture : List UInt8
  group : List UInt8
  hash : List UInt8
  cycleLimit : List UInt8
  deriving DecidableEq, Repr

/-- A library that can be opened: the symbols it exports, what its two entry points do, and its
release function. -/
structure Library where
  exports : String → Bool
  run : ForeignCall → Performance
  runWithPrinter : ForeignCall → Performance
  /-- What releasing a text, or no text, makes of the number of texts that the library has got
  back. -/
  release : ForeignText → Nat → Nat

/-- A release function that counts the texts it is given. No text is none to be counted. -/
def Library.countReleased (t : ForeignText) (freed : Nat) : Nat :=
  match t with
  | some _ => freed + 1
  | none => freed

end ScriptProbe
