import ScriptProbe.Command.Basic
import ScriptProbe.Text.Decimal

/-!
The options of the command line: their names, the values that they take, and the levels on which
they may stand.
-/

namespace ScriptProbe.Usage

/-- Why a command line is not carried out. The first two ask for a text and are no mistakes. -/
inductive Stop where
  | help
  | version
  | nothingGiven
  | noCommand
  | unknownCommand
  | unknownArgument
  | badValue
  | unreadableValue
  | unwantedValue
  | conflict
  | missingArgument
  deriving DecidableEq, Repr

def programName : String := "ckb-debug-invoke"

def versionText : String := programName ++ " 0.1.0\n"

def Stop.code : Stop → Nat
  | help => 0
  | version => 0
  | _ => 2

inductive Opt where
  | verbose
  | quiet
  | config
  | help
  | version
  | fixture
  | group
  | hash
  | side
  | index
  | cycleLimit
  | engine
  | streamed
  | format
  | skipCheck
  | output
  | shell
  deriving DecidableEq, Repr

/-- What an option does when it is met. -/
inductive Kind where
  | flag
  | count
  | value
  | stop (s : Stop)
  deriving DecidableEq, Repr

namespace Opt

def kind : Opt → Kind
  | verbose => .count
  | quiet | streamed | skipCheck => .flag
  | help => .stop .help
  | version => .stop .version
  | _ => .value

def long : Opt → String
  | verbose => "verbose"
  | quiet => "quiet"
  | config => "config"
  | help => "help"
  | version => "version"
  | fixture => "tx-file"
  | group => "script-group-type"
  | hash => "script-hash"
  | side => "cell-type"
  | index => "cell-index"
  | cycleLimit => "max-cycles"
  | engine => "module"
  | streamed => "with-printer"
  | format => "output"
  | skipCheck => "no-pre-check"
  | output => "output"
  | shell => ""

def short? : Opt → Option Char
  | verbose => some 'v'
  | quiet => some 'q'
  | help => some 'h'
  | version => some 'V'
  | fixture => some 'f'
  | group => some 's'
  | side => some 't'
  | index => some 'i'
  | output => some 'o'
  | _ => none

end Opt

/-- The value that goes by a name. -/
def named? (name : α → String) (all : List α) (text : String) : Option α :=
  all.find? fun a => name a = text

def group? (text : String) : Option ScriptGroup := ScriptGroup.ofName? text

def side? (text : String) : Option CellSide := CellSide.ofName? text

def format? : String → Option Format := named? Format.name [.text, .json]

def shell? : String → Option Shell :=
  named? Shell.name [.bash, .elvish, .fish, .powershell, .zsh]

def index? (text : String) : Option Nat := Text.Decimal.readBelow? UInt64.size text.toList

/-- What is wrong with a value. Paths may not be empty. -/
def Opt.fault? (o : Opt) (text : String) : Option Stop :=
  match o with
  | .config | .fixture | .output => if text = "" then some .badValue else none
  | .group => if (group? text).isNone then some .badValue else none
  | .side => if (side? text).isNone then some .badValue else none
  | .format => if (format? text).isNone then some .badValue else none
  | .shell => if (shell? text).isNone then some .badValue else none
  | .index => if (index? text).isNone then some .unreadableValue else none
  | _ => none

/-- What may stand on one level of a command line. -/
structure Level where
  options : List Opt
  /-- What an argument without a name of its own is. -/
  positional : Option Opt
  commands : List String
  required : List Opt

/-- Options of every level. -/
def everywhere : List Opt := [.verbose, .quiet, .config, .help]

def top : Level :=
  ⟨.version :: everywhere, none,
    ["run", "check", "script-hash", "expand", "completions", "help"], []⟩

/-- The level after a command; there is none after a name that is no command. -/
def levelOf? (command : String) : Option Level :=
  if command = "run" then
    some ⟨[.fixture, .group, .hash, .side, .index, .cycleLimit, .engine, .streamed, .format,
      .skipCheck] ++ everywhere, none, [], [.fixture]⟩
  else if command = "check" then some ⟨.fixture :: everywhere, none, [], [.fixture]⟩
  else if command = "script-hash" then
    some ⟨[.fixture, .group, .side, .index] ++ everywhere, none, [], [.fixture]⟩
  else if command = "expand" then
    some ⟨[.fixture, .output] ++ everywhere, none, [], [.fixture]⟩
  else if command = "completions" then some ⟨everywhere, some .shell, [], [.shell]⟩
  else none

namespace Level

def long? (l : Level) (name : String) : Option Opt := l.options.find? fun o => o.long = name

def short? (l : Level) (c : Char) : Option Opt := l.options.find? fun o => o.short? = some c

end Level

end ScriptProbe.Usage
