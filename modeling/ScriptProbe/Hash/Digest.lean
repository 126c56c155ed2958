import ScriptProbe.Text.Blank
import ScriptProbe.Text.Hex

/-!
Digests of 32 bytes and their hexadecimal texts.
-/

namespace ScriptProbe

structure Digest where
  bytes : List UInt8
  size_eq : bytes.length = 32
  deriving DecidableEq

namespace Digest

def ofBytes? (bytes : List UInt8) : Option Digest :=
  if h : bytes.length = 32 then some ⟨bytes, h⟩ else none

/-- The prefix `0x` and 64 digits. -/
def text (d : Digest) : String := Text.Hex.prefixed d.bytes

/-- The digits alone. -/
def plain (d : Digest) : String := Text.Hex.text d.bytes

/-- Accepts `0x` and exactly 64 digits of either case. -/
def ofText? (s : String) : Option Digest :=
  match Text.after? ['0', 'x'] s.toList with
  | none => none
  | some digits => (Text.Hex.decode? digits).bind ofBytes?

theorem ofBytes?_bytes (d : Digest) : ofBytes? d.bytes = some d := by
  simp [ofBytes?, d.size_eq]

theorem ofText?_text (d : Digest) : ofText? d.text = some d := by
  have h : Text.after? ['0', 'x'] ('0' :: 'x' :: Text.Hex.encode d.bytes) =
      some (Text.Hex.encode d.bytes) := Text.after?_append _ _
  simp [ofText?, text, Text.Hex.prefixed, h, ofBytes?_bytes]

end Digest

end ScriptProbe
