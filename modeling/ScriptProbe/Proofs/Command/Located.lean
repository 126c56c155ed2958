import ScriptProbe.Command.Arguments
import ScriptProbe.Proofs.Command.Report
import ScriptProbe.Proofs.Engine.Executable
import ScriptProbe.Proofs.Engine.Resolve

/-! The script of a run that is not told by its hash. The hash that goes to the engine is the one
that the command for hashes prints of the same cell, engines read it back, and so a program that can
be started is started. -/
namespace ScriptProbe.Session

variable {w : World} {v : Verbosity} {config : Option Path} {c : Config} {o : RunOptions}
    {f : Fixture}
  {hash : String} {script : Script}

/-! ### Where a script is looked for -/

/-- A type script is not looked for unless both its side and its index are told. -/
def Unplaced (o : RunOptions) : Prop := o.group = .type ∧ (o.side = none ∨ o.index = none)

theorem scriptHash_of_unplaced (hhash : o.hash = none) (h : Unplaced o) :
    (scriptHash v o f).2 = .error (.locate .noLocator) := by
  obtain ⟨fixture, group, named, side, index⟩ := o
  obtain ⟨rfl, hplace⟩ : group = .type ∧ (side = none ∨ index = none) := h
  obtain rfl : named = none := hhash
  rcases hplace with rfl | rfl
  · rfl
  · cases side <;> rfl

theorem scriptHash_of_placed (hhash : o.hash = none) (h : ¬Unplaced o) :
    (scriptHash v o f).2 =
      (locateHash f o.group (o.side.getD .input) (o.index.getD 0)).map Digest.text := by
  obtain ⟨fixture, group, named, side, index⟩ := o
  obtain rfl : named = none := hhash
  cases group with
  | lock => cases side <;> cases index <;> rfl
  | type =>
    have hplace : ¬(side = none ∨ index = none) := fun hplace => h ⟨rfl, hplace⟩
    cases side with
    | none => exact absurd (Or.inl rfl) hplace
    | some side =>
      cases index with
      | none => exact absurd (Or.inr rfl) hplace
      | some index => rfl

theorem locateHash_eq_ok {group : ScriptGroup} {side : CellSide} {index : Nat} {d : Digest} :
    locateHash f group side index = .ok d ↔
      ∃ tx script, f.transaction = .ok tx ∧ tx.locate group side index = .ok script ∧
        script.hash = d := by
  rw [locateHash]
  cases htx : f.transaction with
  | error fault => simp [Except.mapError, bind, Except.bind]
  | ok tx =>
    cases hlocate : tx.locate group side index <;>
      simp [MockTransaction.scriptHash, hlocate, Except.mapError, Except.map, bind, Except.bind]

theorem printHash_of_located {path : Path} {group : ScriptGroup} {side : CellSide} {index : Nat}
    {d : Digest} (hload : Fixture.load w path = .ok f) (h : locateHash f group side index = .ok d) :
    printHash w path group side index = .line d.text := by
  simp only [printHash, hload, h, bind, Except.bind, Outcome.ofExcept]

/-- The command for hashes that is told the same of a cell as a run. -/
theorem command?_scriptHash {s s' : Usage.State} {environment : String → Option String}
    (h : Usage.command? "run" s environment = some (.run o))
    (hsame : ∀ option ∈ [Usage.Opt.fixture, .group, .side, .index],
      s'.value? option = s.value? option)
    (environment' : String → Option String) :
    Usage.command? "script-hash" s' environment' =
      some (.scriptHash o.fixture o.group (o.side.getD .input) (o.index.getD 0)) := by
  have hfixture := hsame .fixture (by simp)
  have hgroup := hsame .group (by simp)
  have hside := hsame .side (by simp)
  have hindex := hsame .index (by simp)
  cases hpath : s.value? .fixture with
  | none => simp [Usage.command?, hpath] at h
  | some path =>
    simp only [Usage.command?, hpath, Option.map_some, Option.bind_eq_bind, Option.bind_some] at h
    obtain rfl := Command.run.inj (Option.some.inj h)
    simp [Usage.command?, hfixture, hpath, hgroup, hside, hindex]

/-! ### Runs -/

theorem read_request (script : Script) (hlimit : o.cycleLimit = none) (c : Config) :
    Parameters.read ⟨o.group.name, script.hash.text, cycleLimit c o⟩ =
      .ok ⟨o.group, script.hash, c.cycleBudget⟩ := by
  rw [cycleLimit, hlimit]
  exact Parameters.read_request ⟨o.group, script.hash, c.cycleBudget⟩

/-- A run that cannot look for its script starts nothing and fails, for that reason if not for an
earlier one. -/
theorem run_unplaced (hhash : o.hash = none) (h : Unplaced o) (w : World) (v : Verbosity)
    (config : Option Path) :
    ∃ remark fault, run w v config o = Outcome.after remark (.failed fault) ∧
      ∀ c f, Config.discover w config = .ok c → Fixture.load w o.fixture = .ok f →
        fault = .locate .noLocator := by
  cases hc : Config.discover w config with
  | error cause =>
    refine ⟨[], .config cause, ?_, fun c f hc' => by cases hc'⟩
    rw [run_of_unsettled hc]
    rfl
  | ok c =>
    cases hf : Fixture.load w o.fixture with
    | error fault =>
      refine ⟨[], fault, ?_, fun c f _ hf' => by cases hf'⟩
      rw [run_of_unloaded hc hf]
      rfl
    | ok f =>
      exact ⟨_, _, run_of_unlocated hc hf (scriptHash_of_unplaced hhash h), fun _ _ _ _ => rfl⟩

/-- All that comes of a hash that a run finds for itself. -/
structure Forwards (w : World) (o : RunOptions) (f : Fixture) (script : Script) (hash : String) :
    Prop where
  located : ∃ tx, f.transaction = .ok tx ∧
    tx.locate o.group (o.side.getD .input) (o.index.getD 0) = .ok script
  /-- What the command for hashes prints. -/
  printed : ∀ v config,
    perform w
      ⟨v, config, .scriptHash o.fixture o.group (o.side.getD .input) (o.index.getD 0)⟩ = .line hash
  /-- Where nothing is said of side or index, that command looks in the same place. -/
  asked : ∀ s environment, Usage.command? "run" s environment = some (.run o) → ∀ s' environment',
    (∀ option ∈ [Usage.Opt.fixture, .group, .side, .index], s'.value? option = s.value? option) →
    ∃ command, Usage.command? "script-hash" s' environment' = some command ∧
      ∀ v config, perform w ⟨v, config, command⟩ = .line hash
  read : Parameters.readHash hash = .ok script.hash
  canonical : script.hash.text = hash
  forwarded : ∀ v config c ref e, Config.discover w config = .ok c →
    c.moduleRef o.engine = .ok ref →
    ref.resolve w = .ok e →
    ∃ remark, run w v config o = Outcome.after remark
      (present o.format o.streamed (e.invoke f ⟨o.group.name, hash, cycleLimit c o⟩ o.streamed))
  accepted : o.cycleLimit = none → ∀ c : Config,
    Parameters.read ⟨o.group.name, hash, cycleLimit c o⟩ = .ok ⟨o.group, script.hash, c.cycleBudget⟩
  started : o.cycleLimit = none → ∀ v config c program found running,
    Config.discover w config = .ok c →
    c.moduleRef o.engine = .ok (.process program) → w.findProgram program = some found →
    w.start found = .ok running →
    (run w v config o).launches =
      [⟨running.file, Executable.arguments ⟨o.group, script.hash, c.cycleBudget⟩, f.toText⟩]

theorem forwards_of_located {tx : MockTransaction} (hhash : o.hash = none) (hplaced : ¬Unplaced o)
    (hload : Fixture.load w o.fixture = .ok f) (htx : f.transaction = .ok tx)
    (hscript : tx.locate o.group (o.side.getD .input) (o.index.getD 0) = .ok script) :
    Forwards w o f script script.hash.text := by
  have hfound := locateHash_eq_ok.2 ⟨tx, script, htx, hscript, rfl⟩
  have hlocated : ∀ v, (scriptHash v o f).2 = .ok script.hash.text := by
    intro v
    rw [scriptHash_of_placed hhash hplaced, hfound]
    rfl
  have hprinted : ∀ v config,
      perform w ⟨v, config, .scriptHash o.fixture o.group (o.side.getD .input) (o.index.getD 0)⟩ =
        .line script.hash.text :=
    fun v config => printHash_of_located hload hfound
  have hforwarded : ∀ v config c ref e, Config.discover w config = .ok c →
      c.moduleRef o.engine = .ok ref →
      ref.resolve w = .ok e → ∃ remark, run w v config o = Outcome.after remark
        (present o.format o.streamed
          (e.invoke f ⟨o.group.name, script.hash.text, cycleLimit c o⟩ o.streamed)) :=
    fun v config c ref e hc hnamed hopened =>
      ⟨_, run_of_resolved hc hload (hlocated v) hnamed hopened⟩
  refine ⟨⟨tx, htx, hscript⟩, hprinted, ?_, ?_, rfl, hforwarded, read_request script, ?_⟩
  · intro s environment hs s' environment' hvalues
    exact ⟨_, command?_scriptHash hs hvalues environment', hprinted⟩
  · rw [Parameters.readHash, Digest.ofText?_text]
  · intro hlimit v config c program found running hc hnamed hfound hstart
    have hresolved := ModuleRef.resolve_process_eq_ok.2 ⟨found, hfound, rfl⟩
    obtain ⟨remark, hrun⟩ := hforwarded v config c _ _ hc hnamed hresolved
    rw [hrun]
    exact Executable.launches_ran hstart (read_request script hlimit c) f o.streamed

/-- Of a run without a script hash: if a script is found, its hash goes to the engine as the command
for hashes prints it, and is read back. If a type script is asked for and half of its place is
missing, the run fails and starts nothing. -/
theorem run_located (hhash : o.hash = none) (w : World) :
    (∀ f v hash, Fixture.load w o.fixture = .ok f → (scriptHash v o f).2 = .ok hash →
      ∃ script, Forwards w o f script hash) ∧
    (o.group = .type → o.side = none ∨ o.index = none → ∀ v config,
      (run w v config o).launches = [] ∧ (run w v config o).fault ≠ none ∧
      ∀ c f, Config.discover w config = .ok c → Fixture.load w o.fixture = .ok f →
        (run w v config o).fault = some (.locate .noLocator)) := by
  constructor
  · intro f v hash hload hlocated
    have hplaced : ¬Unplaced o := by
      intro h
      rw [scriptHash_of_unplaced hhash h] at hlocated
      cases hlocated
    rw [scriptHash_of_placed hhash hplaced] at hlocated
    obtain ⟨d, hd, rfl⟩ := Json.map_eq_ok.1 hlocated
    obtain ⟨tx, script, htx, hscript, rfl⟩ := locateHash_eq_ok.1 hd
    exact ⟨script, forwards_of_located hhash hplaced hload htx hscript⟩
  · intro hgroup hplace v config
    obtain ⟨remark, fault, hrun, hfault⟩ := run_unplaced hhash ⟨hgroup, hplace⟩ w v config
    rw [hrun]
    refine ⟨rfl, Option.some_ne_none fault, ?_⟩
    intro c f hc hload
    rw [hfault c f hc hload]
    rfl

/-! ### A transaction with one input -/

def zeros : Json := .str (String.ofList ('0' :: 'x' :: List.replicate 64 '0'))

/-- A cell that anyone may spend, and that has no type. -/
def openCell : Json := .arr [.str "0x0", .arr [zeros, .str "data", .str "0x"], .null]

def spendingText : List Char :=
  (Json.arr [
    .arr [.arr [.arr [.arr [.str "0x0", .arr [zeros, .str "0x0"]], openCell, .str "0x", .null]],
      .arr [], .arr []],
    .arr [.str "0x0", .arr [], .arr [], .arr [], .arr [], .arr [], .arr []]]).compact

/-- A world with that transaction in every file, in which a program that counts cycles answers to
every name. -/
def spendingWorld : World :=
  { Executable.countingWorld with
    read := fun _ => .ok (Text.Utf8.encode spendingText)
    isFile := fun _ => true }

def spendingOptions : RunOptions :=
  { Report.fixedOptions with hash := none, cycleLimit := none, engine := some "/bin/engine" }

def openLock : Script := ⟨Executable.countingParameters.hash, .data, []⟩

theorem load_spending :
    ∃ f tx, Fixture.load spendingWorld spendingOptions.fixture = .ok f ∧ f.transaction = .ok tx ∧
      tx.locate .lock .input 0 = .ok openLock := by
  have hlocate :
      (Json.document spendingText).toOption.bind (fun v => (MockTransaction.form v).toOption.bind
      fun tx => (tx.locate .lock .input 0).toOption) = some openLock := by decide +kernel
  simp only [Option.bind_eq_some_iff, Json.toOption_eq_some] at hlocate
  obtain ⟨v, hv, tx, htx, hscript⟩ := hlocate
  have hread : Fixture.readFile spendingWorld spendingOptions.fixture =
      .ok (String.ofList spendingText) := by
    apply Fixture.readFile_encode
    rw [String.toList_ofList]
    rfl
  have hopening : ¬Marker.opening <:+: (String.ofList spendingText).toList := by
    rw [String.toList_ofList]
    decide +kernel
  have hparse : Json.parse (String.ofList spendingText) = .ok v := by
    rw [Json.parse, String.toList_ofList, hv]
  exact ⟨_, tx, Fixture.load_unmarked hread hopening hparse, Json.mapError_eq_ok.2 htx, hscript⟩

theorem run_located_spending :
    ∃ f hash, (scriptHash .normal spendingOptions f).2 = .ok hash ∧
      perform spendingWorld ⟨.normal, none, .scriptHash (.ofText "tx.json") .lock .input 0⟩ =
        .line hash ∧
      (run spendingWorld .normal none spendingOptions).launches =
        [⟨"/bin/engine", Executable.arguments ⟨.lock, openLock.hash, Config.standardMaxCycles⟩,
          f.toText⟩] := by
  obtain ⟨f, tx, hload, htx, hscript⟩ := load_spending
  have hlocated : (scriptHash .normal spendingOptions f).2 = .ok openLock.hash.text := by
    have hplaced : ¬Unplaced spendingOptions := fun h => by cases h.1
    have hfound := locateHash_eq_ok.2 ⟨tx, openLock, htx, hscript, rfl⟩
    exact (scriptHash_of_placed rfl hplaced).trans (congrArg (Except.map Digest.text) hfound)
  obtain ⟨script, h⟩ :=
    (run_located (o := spendingOptions) rfl spendingWorld).1 f .normal _ hload hlocated
  have hhash : script.hash = openLock.hash := by
    have htext := congrArg Digest.ofText? h.canonical
    rw [Digest.ofText?_text, Digest.ofText?_text] at htext
    exact Option.some.inj htext
  refine ⟨f, _, hlocated, h.printed .normal none, ?_⟩
  rw [← hhash]
  exact h.started rfl .normal none .empty (.ofText "/bin/engine")
    (.ofText "/bin/engine") Executable.counting rfl
    (by decide) (by decide) rfl

end ScriptProbe.Session
