import ScriptProbe.Command.Usage

/-!
Scripts that teach a shell the words of the command line.
-/

namespace ScriptProbe.Completion

open ScriptProbe.Usage

/-- The spellings of the options of a level. -/
def spellings (l : Level) : List String :=
  l.options.flatMap fun o =>
    match o.short? with
    | some c => [String.ofList ['-', c], "--" ++ o.long]
    | none => ["--" ++ o.long]

/-- All words that may follow the name of the program. -/
def words : List String :=
  (top.commands ++ spellings top ++
    top.commands.flatMap fun name => ((levelOf? name).map spellings).getD []).eraseDups

def script : Shell → String
  | .bash => "complete -W \"" ++ " ".intercalate words ++ "\" " ++ programName ++ "\n"
  | .zsh =>
    "#compdef " ++ programName ++ "\ncompadd -- " ++ " ".intercalate words ++ "\n"
  | .fish =>
    String.join (words.map fun w => "complete -c " ++ programName ++ " -f -a '" ++ w ++ "'\n")
  | .elvish =>
    "set edit:completion:arg-completer[" ++ programName ++ "] = \x7b|@args| put " ++
      " ".intercalate words ++ " \x7d\n"
  | .powershell =>
    "Register-ArgumentCompleter -Native -CommandName '" ++ programName ++ "' -ScriptBlock \x7b " ++
      ", ".intercalate (words.map fun w => "'" ++ w ++ "'") ++ " \x7d\n"

end ScriptProbe.Completion
