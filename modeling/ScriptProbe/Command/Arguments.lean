import ScriptProbe.Command.Usage
import ScriptProbe.Text.Blank

/-!
Reading a command line from left to right. A value that stands apart from its option is looked at
only when the next option comes, or at the end; so an argument that is not known at all is
complained of before it. A command reads the arguments after its name, and is complained of before
the level that it stands on.
-/

namespace ScriptProbe.Usage

open ScriptProbe.Text

/-- What has been read on one level. -/
structure State where
  given : List (Opt × String)
  verbose : Nat
  /-- An option whose value is not looked at yet, and the value if it has come. -/
  pending : Option (Opt × Option String)
  /-- After `--` no argument is an option. -/
  trailing : Bool
  deriving DecidableEq, Repr

namespace State

def start : State := ⟨[], 0, none, false⟩

def has (s : State) (o : Opt) : Bool := s.given.any (·.1 = o)

def value? (s : State) (o : Opt) : Option String := s.given.lookup o

/-- Whether the last option still waits for its value. -/
def awaits (s : State) : Bool :=
  match s.pending with
  | some (_, none) => true
  | _ => false

/-- The greatest count of one flag. -/
def maxCount : Nat := 255

/-- Takes an option in. Only the counted flag may be given again. -/
def accept (s : State) (o : Opt) (value : Option String) : Except Stop State :=
  match o.kind with
  | .stop why => .error why
  | .count => .ok { s with verbose := min (s.verbose + 1) maxCount }
  | .flag => if s.has o then .error .conflict else .ok { s with given := (o, "") :: s.given }
  | .value =>
    match value with
    | none => .error .badValue
    | some text =>
      if s.has o then .error .conflict
      else
        match o.fault? text with
        | some why => .error why
        | none => .ok { s with given := (o, text) :: s.given }

/-- Looks at the value that is still to be looked at. -/
def settle (s : State) : Except Stop State :=
  match s.pending with
  | none => .ok s
  | some (o, value) => { s with pending := none }.accept o value

def react (s : State) (o : Opt) (value : Option String) : Except Stop State := do
  (← s.settle).accept o value

/-- An option that takes a value, with the value that is attached to it, if one is. -/
def open? (s : State) (o : Opt) (attached : Option String) : Except Stop State :=
  match attached with
  | some text => s.react o (some text)
  | none => do .ok { (← s.settle) with pending := some (o, none) }

/-- The argument `--name` or `--name=value`, from after the dashes on. -/
def long (l : Level) (s : State) (cs : List Char) : Except Stop State :=
  let name := cs.takeWhile (· ≠ '=')
  let attached := match cs.dropWhile (· ≠ '=') with
    | [] => none
    | _ :: value => some (String.ofList value)
  match if name = [] then none else l.long? (String.ofList name) with
  | none => .error .unknownArgument
  | some o =>
    match o.kind, attached with
    | .value, attached => s.open? o attached
    | _, some _ => .error .unwantedValue
    | _, none => s.react o none

/-- A run of one-letter options, from after the dash on. What follows a letter that takes a value is
its value, less one equals sign. -/
def shorts (l : Level) (s : State) : List Char → Except Stop State
  | [] => .ok s
  | c :: cs =>
    match l.short? c with
    | none => .error .unknownArgument
    | some o =>
      match o.kind with
      | .value =>
        match cs with
        | [] => s.open? o none
        | '=' :: value => s.open? o (some (String.ofList value))
        | value => s.open? o (some (String.ofList value))
      | _ => do shorts l (← s.react o none) cs

/-- An argument that belongs to no option. -/
def stray (l : Level) (s : State) (arg : String) : Except Stop State :=
  match l.positional with
  | some o =>
    if s.has o ∨ s.pending.any (·.1 = o) then .error .unknownArgument
    else do .ok { (← s.settle) with pending := some (o, some arg) }
  | none =>
    if l.commands.isEmpty ∨ (s.trailing ∧ l.commands.contains arg) then .error .unknownArgument
    else .error .unknownCommand

def step (l : Level) (s : State) (arg : String) : Except Stop State :=
  if s.trailing then s.stray l arg
  else
    match arg.toList with
    | ['-', '-'] => .ok { s with trailing := true }
    | '-' :: '-' :: cs => s.long l cs
    | '-' :: c :: cs => s.shorts l (c :: cs)
    | _ =>
      match s.pending with
      | some (o, none) => .ok { s with pending := some (o, some arg) }
      | _ => s.stray l arg

end State

/-- What `help` does with the names after it. -/
def helpFor : List String → Stop
  | [] => .help
  | [name] => if top.commands.contains name then .help else .unknownCommand
  | _ => .unknownCommand

/-- Reads a level up to its end or to the name of a command, which comes with the arguments after
it. -/
def scan (l : Level) : State → List String → Except Stop (State × Option (String × List String))
  | s, [] => .ok (s, none)
  | s, arg :: rest =>
    if !s.trailing ∧ !s.awaits ∧ l.commands.contains arg then
      if arg = "help" then .error (helpFor rest) else .ok (s, some (arg, rest))
    else
      match s.step l arg with
      | .ok s => scan l s rest
      | .error why => .error why

/-- What a level lacks, or has too much of. -/
def State.validate (l : Level) (s : State) : Except Stop Unit :=
  if s.has .quiet ∧ 0 < s.verbose then .error .conflict
  else if s.has .hash ∧ (s.has .side ∨ s.has .index) then .error .conflict
  else if l.required.any fun o => !s.has o then .error .missingArgument
  else .ok ()

/-- The level of a command, read to its end. -/
def readLevel (l : Level) (args : List String) : Except Stop State := do
  let (s, _) ← scan l .start args
  let s ← s.settle
  s.validate l
  .ok s

/-- The command of a level that is free of faults; `environment` stands in for options that are
absent. -/
def command? (name : String) (s : State) (environment : String → Option String) :
    Option Command := do
  let path (o : Opt) : Option Path := (s.value? o).map Path.ofText
  if name = "completions" then
    some (.completions (← (s.value? .shell).bind shell?))
  else
    let fixture ← path .fixture
    let group := ((s.value? .group).bind group?).getD .lock
    let side := (s.value? .side).bind side?
    let index := (s.value? .index).bind index?
    if name = "run" then
      some (.run
        { fixture, group, side, index
          hash := s.value? .hash
          cycleLimit := s.value? .cycleLimit <|> environment "CKB_DEBUG_MAX_CYCLES"
          engine := s.value? .engine <|> environment "CKB_DEBUGGER_MODULE"
          streamed := s.has .streamed
          format := ((s.value? .format).bind format?).getD .text
          skipCheck := s.has .skipCheck })
    else if name = "check" then some (.check fixture)
    else if name = "script-hash" then
      some (.scriptHash fixture group (side.getD .input) (index.getD 0))
    else if name = "expand" then some (.expand fixture (path .output))
    else none

/-- The options of every level: what a command says of them goes before what stands in front of
it. -/
def combine (outer inner : State) (command : Command) : Arguments where
  verbosity :=
    Verbosity.ofFlags (if 0 < inner.verbose then inner.verbose else outer.verbose)
      (inner.has .quiet || outer.has .quiet)
  config := (inner.value? .config <|> outer.value? .config).map Path.ofText
  command := command

def read (environment : String → Option String) (args : List String) : Except Stop Arguments := do
  let (outer, found) ← scan top .start args
  match found with
  | none =>
    let outer ← outer.settle
    if outer.given.isEmpty ∧ outer.verbose = 0 then .error .nothingGiven else .error .noCommand
  | some (name, rest) =>
    match levelOf? name with
    | none => .error .unknownCommand
    | some level =>
      let inner ← readLevel level rest
      let outer ← outer.settle
      outer.validate top
      match command? name inner environment with
      | some command => .ok (combine outer inner command)
      | none => .error .missingArgument

end ScriptProbe.Usage
