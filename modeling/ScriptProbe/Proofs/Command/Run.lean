import ScriptProbe.Command.Session

/-! A run, stage by stage: its settings, its fixture, the check of the fixture, the hash of the
script and the call of the engine. -/
namespace ScriptProbe.Session

variable {w : World} {v : Verbosity} {config : Option Path} {c : Config} {o : RunOptions}
    {f : Fixture}
  {fault : Fault} {hash : String}

theorem run_of_unsettled {cause : ConfigFault} (h : Config.discover w config = .error cause) :
    run w v config o = .failed (.config cause) := by
  rw [run, h]
  rfl

theorem run_of_unloaded (hsettings : Config.discover w config = .ok c)
    (hload : Fixture.load w o.fixture = .error fault) : run w v config o = .failed fault := by
  rw [run, hsettings, hload]
  rfl

/-- What a run does from the settings and the loaded fixture on, but for the check. -/
def proceed (w : World) (v : Verbosity) (c : Config) (o : RunOptions) (f : Fixture) : Outcome :=
  Outcome.after (scriptHash v o f).1 <|
    match (scriptHash v o f).2 with
    | .ok hash => call w c o f hash
    | .error fault => .failed fault

theorem run_of_loaded (hsettings : Config.discover w config = .ok c)
    (hload : Fixture.load w o.fixture = .ok f) :
    run w v config o = Outcome.after (advice v c o f) (proceed w v c o f) := by
  rw [run, hsettings, hload]
  rfl

theorem after_after (said said' : List Said) (out : Outcome) :
    Outcome.after said (Outcome.after said' out) = Outcome.after (said ++ said') out := by
  simp only [Outcome.after, List.append_assoc]

theorem run_of_located (hsettings : Config.discover w config = .ok c)
    (hload : Fixture.load w o.fixture = .ok f) (h : (scriptHash v o f).2 = .ok hash) :
    run w v config o =
      Outcome.after (advice v c o f ++ (scriptHash v o f).1) (call w c o f hash) := by
  rw [run_of_loaded hsettings hload, proceed, h, after_after]

theorem run_of_unlocated (hsettings : Config.discover w config = .ok c)
    (hload : Fixture.load w o.fixture = .ok f) (h : (scriptHash v o f).2 = .error fault) :
    run w v config o = Outcome.after (advice v c o f ++ (scriptHash v o f).1) (.failed fault) := by
  rw [run_of_loaded hsettings hload, proceed, h, after_after]

theorem call_of_resolved {ref : ModuleRef} {e : Engine} (hnamed : c.moduleRef o.engine = .ok ref)
    (hopened : ref.resolve w = .ok e) (hash : String) :
    call w c o f hash =
      present o.format o.streamed (e.invoke f ⟨o.group.name, hash, cycleLimit c o⟩ o.streamed) := by
  rw [call, hnamed]
  change Outcome.ofExcept ((ref.resolve w).mapError .module >>= _) = _
  rw [hopened]
  rfl

/-- A run from end to end. -/
theorem run_of_resolved {ref : ModuleRef} {e : Engine}
    (hsettings : Config.discover w config = .ok c) (hload : Fixture.load w o.fixture = .ok f)
    (hlocated : (scriptHash v o f).2 = .ok hash) (hnamed : c.moduleRef o.engine = .ok ref)
    (hopened : ref.resolve w = .ok e) :
    run w v config o = Outcome.after (advice v c o f ++ (scriptHash v o f).1)
      (present o.format o.streamed
        (e.invoke f ⟨o.group.name, hash, cycleLimit c o⟩ o.streamed)) := by
  rw [run_of_located hsettings hload hlocated, call_of_resolved hnamed hopened]

end ScriptProbe.Session
