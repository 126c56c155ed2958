import ScriptProbe.Bytes.Cut
import ScriptProbe.Text.Hex
import ScriptProbe.World.Library

/-!
A library that plays back what its texts spell out. `%` and two digits stand for a byte, a tilde for
no text at all, and an exclamation mark for a message without a context. The fixture is the result,
and the group is a list of messages that commas end.
-/

namespace ScriptProbe.Playback

/-- Spelled bytes as they are meant. -/
def unescape : List UInt8 → List UInt8
  | [] => []
  | b :: rest =>
    if b = 0x25 then
      match rest with
      | h :: l :: rest =>
        match Text.Hex.value? (Char.ofNat h.toNat), Text.Hex.value? (Char.ofNat l.toNat) with
        | some high, some low => UInt8.ofNat (16 * high + low) :: unescape rest
        | _, _ => b :: unescape (h :: l :: rest)
      | rest => b :: rest
    else b :: unescape rest

/-- A text ends before its first NUL. -/
def upToNul (bytes : List UInt8) : List UInt8 := bytes.takeWhile (· ≠ 0)

def spelled (bytes : List UInt8) : ForeignText :=
  if bytes = [0x7e] then none else some (upToNul (unescape bytes))

def prints (call : ForeignCall) : List Print :=
  (Bytes.cut 0x2c call.group).map fun part => ⟨part ≠ [0x21], spelled call.hash, spelled part⟩

def library : Library where
  exports _ := true
  run call := ⟨[], spelled call.fixture⟩
  runWithPrinter call := ⟨prints call, spelled call.fixture⟩
  release := Library.countReleased

end ScriptProbe.Playback
