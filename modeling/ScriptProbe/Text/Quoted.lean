import ScriptProbe.Text.Hex
import ScriptProbe.Text.Unprintable

/-!
Text in double quotes, as messages show it: the quote and the backslash are escaped, and a character
that would not show is written by name or by number.
-/

namespace ScriptProbe.Text

def escapeChar (c : Char) : List Char :=
  if c = '"' then ['\\', '"']
  else if c = '\\' then ['\\', '\\']
  else if c = '\n' then ['\\', 'n']
  else if c = '\r' then ['\\', 'r']
  else if c = '\t' then ['\\', 't']
  else if c = '\x00' then ['\\', '0']
  else if Unprintable.isUnprintable c then '\\' :: 'u' :: '{' :: Hex.ofNat c.toNat ++ ['}']
  else [c]

def quoted (s : String) : String := String.ofList ('"' :: s.toList.flatMap escapeChar ++ ['"'])

end ScriptProbe.Text
