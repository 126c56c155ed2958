import ScriptProbe.Chain.Molecule
import ScriptProbe.Hash.Blake2b

/-!
The hash of a script, and the scripts that stand for named Type IDs.
-/

namespace ScriptProbe

def Script.hash (s : Script) : Digest := chainHash s.encode

namespace TypeId

/-- The code hash that marks a Type ID: its name in the last bytes. -/
def codeHash : Digest :=
  ⟨List.replicate 25 0 ++ [0x54, 0x59, 0x50, 0x45, 0x5f, 0x49, 0x44], by simp⟩

/-- The script whose args spell the name. -/
def script (name : List Char) : Script := ⟨codeHash, .type, Text.Utf8.encode name⟩

end TypeId

end ScriptProbe
