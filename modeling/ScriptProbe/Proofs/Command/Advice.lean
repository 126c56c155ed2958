import ScriptProbe.Proofs.Command.Report
import ScriptProbe.Proofs.Engine.Executable
import ScriptProbe.Proofs.Engine.Resolve
import ScriptProbe.Proofs.Fixture.Shortcut

/-! The check of a fixture before a run is advice. With it or without it a run comes to the same
end, and all that it adds is one line of the error output, what the check says when it is asked for
on its own, and one entry of the log with the same words. -/
namespace ScriptProbe.Session

variable {w w' : World} {v : Verbosity} {config config' : Option Path} {c c' : Config}
    {o o' : RunOptions}
  {f : Fixture} {fault : Fault} {path : Path}

/-! ### Outputs -/

/-- What a command writes to the error output apart from the log: its remarks, then the line of its
fault. -/
def errorOutput (out : Outcome) : String := out.remarks ++ faultLine out

/-- Whether it reaches the error output: a remark always does, an entry of the log if it is kept. -/
def reaches (w : World) (v : Verbosity) : Said → Bool
  | .entry e => kept w v e
  | .remark _ => true

/-- What reaches the error output before the line of a fault. -/
def shown (w : World) (v : Verbosity) (out : Outcome) : List Said := out.stderr.filter (reaches w v)

theorem shown_congr (h : w'.logFilter = w.logFilter) (v : Verbosity) (out : Outcome) :
    shown w' v out = shown w v out := by
  have hreaches : reaches w' v = reaches w v := by
    funext said
    cases said <;> simp only [reaches, kept, h]
  rw [shown, shown, hreaches]

theorem shown_after (w : World) (v : Verbosity) (said : List Said) (out : Outcome) :
    shown w v (Outcome.after said out) = said.filter (reaches w v) ++ shown w v out := by
  simp [shown, Outcome.after]

theorem errorOutput_after (said : List Said) (out : Outcome) :
    errorOutput (Outcome.after said out) =
      String.join (said.filterMap Said.remark?) ++ errorOutput out := by
  simp [errorOutput, Outcome.remarks, Outcome.after, faultLine, String.append_assoc]

theorem entries_after (said : List Said) (out : Outcome) :
    (Outcome.after said out).entries = said.filterMap Said.entry? ++ out.entries := by
  simp [Outcome.entries, Outcome.after]

theorem errorOutput_failed (fault : Fault) :
    errorOutput (.failed fault) = "Error: " ++ (fault.message ++ "\n") := by
  simp [errorOutput, Outcome.remarks, Outcome.failed, Outcome.silent, faultLine,
    String.append_assoc]

theorem after_nil (out : Outcome) : Outcome.after [] out = out := rfl

/-! ### The check alone -/

theorem check_of_passed (hload : Fixture.load w path = .ok f) (h : checkFixture f = .ok ()) :
    check w path = .line ("OK " ++ path.text) := by
  simp only [check, hload, h, bind, Except.bind, Outcome.ofExcept]

theorem check_of_failed (hload : Fixture.load w path = .ok f) (h : checkFixture f = .error fault) :
    check w path = .failed fault := by
  simp only [check, hload, h, bind, Except.bind, Outcome.ofExcept]

/-! ### Advice -/

theorem advice_of_unchecked (h : c.checksFirst = false ∨ o.skipCheck = true) :
    advice v c o f = [] := by
  rcases h with h | h <;> simp [advice, h]

theorem advice_of_passed (h : checkFixture f = .ok ()) : advice v c o f = [] := by
  simp [advice, h]

theorem advice_of_failed (hchecks : c.checksFirst = true) (hskip : o.skipCheck = false)
    (h : checkFixture f = .error fault) :
    advice v c o f = .entry (checkEntry fault) :: remark v fault.message := by
  simp [advice, hchecks, hskip, h]

/-- The remarks in the advice of a check that failed. -/
theorem remarks_failed (v : Verbosity) (fault : Fault) :
    (.entry (checkEntry fault) :: remark v fault.message).filterMap Said.remark? =
      if v.isQuiet then [] else [fault.message ++ "\n"] := by
  rw [remark]
  cases v.isQuiet <;> rfl

theorem entries_failed (v : Verbosity) (fault : Fault) :
    (.entry (checkEntry fault) :: remark v fault.message).filterMap Said.entry? =
      [checkEntry fault] := by
  rw [remark]
  cases v.isQuiet <;> rfl

/-! ### Runs with and without the check -/

/-- Two runs, the first with the check and the second without it, that are otherwise the same: the
worlds differ at most in what files hold, the settings in whether fixtures are checked, and the
options in whether the check is left out. -/
structure Twins (w w' : World) (config config' : Option Path) (o o' : RunOptions) : Prop where
  world : ∃ read, w' = { w with read := read }
  settings : (Config.discover w' config').map (fun c => (c.module, c.maxCycles)) =
    (Config.discover w config).map fun c => (c.module, c.maxCycles)
  options : ∃ skip, o' = { o with skipCheck := skip }
  checked : ∀ c, Config.discover w config = .ok c → c.checksFirst = true ∧ o.skipCheck = false
  unchecked : ∀ c, Config.discover w' config' = .ok c → c.checksFirst = false ∨ o'.skipCheck = true

/-- Engines are found and called alike where nothing but the contents of files is different. -/
theorem resolve_of_read (read : Path → Except Refusal (List UInt8)) (ref : ModuleRef) :
    ref.resolve { w with read := read } = ref.resolve w := by
  cases ref <;> rfl

theorem proceed_congr (read : Path → Except Refusal (List UInt8)) (skip : Bool)
    (hmodule : c'.module = c.module) (hcycles : c'.maxCycles = c.maxCycles) :
    proceed { w with read := read } v c' { o with skipCheck := skip } f = proceed w v c o f := by
  have href : ∀ named, c'.moduleRef named = c.moduleRef named := fun named => by
    rw [Config.moduleRef, Config.moduleRef, hmodule]
  have hbudget : c'.cycleBudget = c.cycleBudget := by
    rw [Config.cycleBudget, Config.cycleBudget, hcycles]
  have hlimit : cycleLimit c' { o with skipCheck := skip } = cycleLimit c o := by
    rw [cycleLimit, cycleLimit, hbudget]
  have hcall : ∀ hash,
      call { w with read := read } c' { o with skipCheck := skip } f hash = call w c o f hash :=
    fun hash => by simp only [call, href, hlimit, resolve_of_read]
  simp only [proceed, hcall]
  rfl

/-- Of twins with the same fixture the first one is the second one after its advice. -/
theorem Twins.run_after (h : Twins w w' config config' o o') (v : Verbosity)
    (hc : Config.discover w config = .ok c) (hf : Fixture.load w o.fixture = .ok f)
    (hfixture : Fixture.load w' o.fixture = Fixture.load w o.fixture) :
    run w v config o = Outcome.after (advice v c o f) (run w' v config' o') := by
  obtain ⟨⟨read, rfl⟩, hsettings, ⟨skip, rfl⟩, -, hunchecked⟩ := h
  rw [hc] at hsettings
  cases hc' : Config.discover { w with read := read } config' with
  | error cause' => simp [hc', Except.map] at hsettings
  | ok c' =>
    obtain ⟨hmodule, hcycles⟩ : c'.module = c.module ∧ c'.maxCycles = c.maxCycles := by
      simpa [hc', Except.map] using hsettings
    have hbare := run_of_loaded (v := v) (o := { o with skipCheck := skip }) hc' (hfixture.trans hf)
    rw [advice_of_unchecked (hunchecked c' hc'), after_nil,
      proceed_congr read skip hmodule hcycles] at hbare
    rw [run_of_loaded hc hf, hbare]

/-- Otherwise both end before there is a fixture, in the same way. -/
theorem Twins.run_failed (h : Twins w w' config config' o o') (v : Verbosity)
    (hnone : ¬((∃ c, Config.discover w config = .ok c) ∧ ∃ f, Fixture.load w o.fixture = .ok f))
    (hfixture : Fixture.load w' o.fixture = Fixture.load w o.fixture) :
    run w v config o = run w' v config' o' := by
  obtain ⟨⟨read, rfl⟩, hsettings, ⟨skip, rfl⟩, -, -⟩ := h
  cases hc : Config.discover w config with
  | error cause =>
    rw [hc] at hsettings
    cases hc' : Config.discover { w with read := read } config' with
    | ok c' => simp [hc', Except.map] at hsettings
    | error cause' =>
      obtain rfl : cause' = cause := by simpa [hc', Except.map] using hsettings
      rw [run_of_unsettled hc, run_of_unsettled hc']
  | ok c =>
    rw [hc] at hsettings
    cases hc' : Config.discover { w with read := read } config' with
    | error cause' => simp [hc', Except.map] at hsettings
    | ok c' =>
      cases hf : Fixture.load w o.fixture with
      | error fault =>
        rw [run_of_unloaded hc hf]
        exact (run_of_unloaded (o := { o with skipCheck := skip }) hc' (hfixture.trans hf)).symm
      | ok f => exact absurd ⟨⟨c, hc⟩, ⟨f, hf⟩⟩ hnone

/-- Settings and fixture load, and the check on its own fails. -/
def Fails (w : World) (config : Option Path) (fixture : Path) : Prop :=
  (∃ c, Config.discover w config = .ok c) ∧ (∃ f, Fixture.load w fixture = .ok f) ∧
    code (check w fixture) ≠ 0

/-- Whether a run with the check has something to say of it. -/
def Warns (w : World) (v : Verbosity) (config : Option Path) (fixture : Path) : Prop :=
  v.isQuiet = false ∧ Fails w config fixture

theorem checkFixture_of_fails (hf : Fixture.load w path = .ok f) (h : Fails w config path) :
    ∃ fault, checkFixture f = .error fault := by
  cases hcheck : checkFixture f with
  | ok _ => exact absurd (congrArg code (check_of_passed hf hcheck)) h.2.2
  | error fault => exact ⟨fault, rfl⟩

theorem checkFixture_of_not_fails (hc : Config.discover w config = .ok c)
    (hf : Fixture.load w path = .ok f) (h : ¬Fails w config path) : checkFixture f = .ok () := by
  cases hcheck : checkFixture f with
  | ok _ => rfl
  | error fault =>
    have hcode : code (check w path) ≠ 0 := by
      simp [check_of_failed hf hcheck, code, Outcome.failed]
    exact absurd ⟨⟨c, hc⟩, ⟨f, hf⟩, hcode⟩ h

/-- Twins that load the same fixture end with the same status, print the same and start the same
programs with the same arguments and input. Apart from the log the one with the check writes one
line more to the error output, exactly if it is not quiet, settings and fixture load, and the check
on its own fails; the line is what the check on its own reports. Quiet or not, a check that fails
adds one entry to the log. -/
theorem run_advised (h : Twins w w' config config' o o')
    (hfixture : Fixture.load w' o.fixture = Fixture.load w o.fixture) (v : Verbosity) :
    let advised := run w v config o
    let bare := run w' v config' o'
    code advised = code bare ∧ advised.stdout = bare.stdout ∧ advised.launches = bare.launches ∧
    advised.fault = bare.fault ∧ advised.written = bare.written ∧
    (Warns w v config o.fixture →
      ∃ text, errorOutput (check w o.fixture) = "Error: " ++ (text ++ "\n") ∧
        errorOutput advised = text ++ "\n" ++ errorOutput bare) ∧
    (¬Warns w v config o.fixture → errorOutput advised = errorOutput bare) ∧
    (Fails w config o.fixture → ∃ fault, (check w o.fixture).fault = some fault ∧
      advised.entries = checkEntry fault :: bare.entries) ∧
    (¬Fails w config o.fixture → advised.entries = bare.entries) := by
  intro advised bare
  by_cases hloads : (∃ c, Config.discover w config = .ok c) ∧ ∃ f, Fixture.load w o.fixture = .ok f
  · obtain ⟨⟨c, hc⟩, f, hf⟩ := hloads
    obtain ⟨hchecks, hskip⟩ := h.checked c hc
    have hadvised : advised = Outcome.after (advice v c o f) bare := h.run_after v hc hf hfixture
    rw [hadvised]
    refine ⟨rfl, rfl, rfl, rfl, rfl, ?_, ?_, ?_, ?_⟩
    · rintro ⟨hloud, hfails⟩
      obtain ⟨fault, hcheck⟩ := checkFixture_of_fails hf hfails
      refine ⟨fault.message, by rw [check_of_failed hf hcheck, errorOutput_failed], ?_⟩
      rw [errorOutput_after, advice_of_failed hchecks hskip hcheck, remarks_failed, hloud]
      simp
    · intro hcalm
      rw [errorOutput_after]
      by_cases hfails : Fails w config o.fixture
      · obtain ⟨fault, hcheck⟩ := checkFixture_of_fails hf hfails
        have hquiet : v.isQuiet = true := by
          by_contra hloud
          exact hcalm ⟨by simpa using hloud, hfails⟩
        rw [advice_of_failed hchecks hskip hcheck, remarks_failed, hquiet]
        simp
      · rw [advice_of_passed (checkFixture_of_not_fails hc hf hfails)]
        simp
    · intro hfails
      obtain ⟨fault, hcheck⟩ := checkFixture_of_fails hf hfails
      refine ⟨fault, by rw [check_of_failed hf hcheck]; rfl, ?_⟩
      rw [entries_after, advice_of_failed hchecks hskip hcheck, entries_failed]
      rfl
    · intro hpasses
      rw [entries_after, advice_of_passed (checkFixture_of_not_fails hc hf hpasses)]
      simp
  · have heq : advised = bare := h.run_failed v hloads hfixture
    have hnone : ¬Fails w config o.fixture := fun hfails => hloads ⟨hfails.1, hfails.2.1⟩
    rw [heq]
    exact ⟨rfl, rfl, rfl, rfl, rfl, fun hwarns => absurd hwarns.2 hnone, fun _ => rfl,
      fun hfails => absurd hfails hnone, fun _ => rfl⟩

/-! ### Settings with and without the check -/

def settingsFile : Path := .ofText "settings.toml"

/-- A world with those settings, and the same text in every other file. -/
def settledWorld (settings text : String) : World :=
  { Report.fixedWorld "oops" with
    read := fun p =>
      if p = settingsFile then .ok (Text.Utf8.encode settings.toList)
      else .ok (Text.Utf8.encode text.toList)
    start := fun _ => .ok Executable.counting }

def checkedOptions : RunOptions := { Report.fixedOptions with skipCheck := false }

theorem discover_settled {settings text : String} (h : Config.read? settings = some c) :
    Config.discover (settledWorld settings text) (some settingsFile) = .ok c := by
  have htext : (settledWorld settings text).readText settingsFile = .ok settings := by
    simp [World.readText, settledWorld, bind, Except.bind, Text.Utf8.decode?_encode]
  simp only [Config.discover, Config.load, htext, h, Except.mapError, bind, Except.bind]

theorem read?_checking : Config.read? "pre_check = true" = some ⟨none, none, some true⟩ := by
  decide +kernel

theorem read?_trusting : Config.read? "pre_check = false" = some ⟨none, none, some false⟩ := by
  decide +kernel

theorem twins_settled (text : String) (h : o.skipCheck = false) :
    Twins (settledWorld "pre_check = true" text) (settledWorld "pre_check = false" text)
      (some settingsFile) (some settingsFile) o o where
  world := ⟨_, rfl⟩
  settings := by rw [discover_settled read?_checking, discover_settled read?_trusting]; rfl
  options := ⟨o.skipCheck, rfl⟩
  checked c hc := by
    rw [discover_settled read?_checking] at hc
    cases hc
    exact ⟨rfl, h⟩
  unchecked c hc := by
    rw [discover_settled read?_trusting] at hc
    cases hc
    exact Or.inl rfl

/-! ### A fixture that is no transaction -/

theorem load_braces (settings : String) :
    Fixture.load (settledWorld settings "\x7b\x7d") checkedOptions.fixture =
      .ok ⟨some (.ofText "tx.json"), .obj []⟩ := by
  have hread : Fixture.readFile (settledWorld settings "\x7b\x7d") (.ofText "tx.json") =
      .ok "\x7b\x7d" :=
    Fixture.readFile_encode rfl
  exact Fixture.load_unmarked hread (by decide) (by rfl)

theorem sources_braces (settings : String) :
    Fixture.sources (settledWorld settings "\x7b\x7d") checkedOptions.fixture =
      [checkedOptions.fixture] := by
  have hread : Fixture.readFile (settledWorld settings "\x7b\x7d") checkedOptions.fixture =
      .ok "\x7b\x7d" := Fixture.readFile_encode rfl
  rw [Fixture.sources, hread]
  exact congrArg _ (Template.asked_unmarked _ _ (by decide))

/-- The settings are no part of that fixture. -/
theorem load_braces_congr (settings settings' : String) :
    Fixture.load (settledWorld settings' "\x7b\x7d") checkedOptions.fixture =
      Fixture.load (settledWorld settings "\x7b\x7d") checkedOptions.fixture := by
  refine Fixture.load_congr fun p hp => ?_
  rw [sources_braces] at hp
  rw [List.mem_singleton.1 hp]
  rfl

def bracesFault : Fault := .fixture (.notTransaction ⟨[], .missingField "mock_info"⟩)

theorem checkFixture_braces (source : Option Path) :
    checkFixture ⟨source, .obj []⟩ = .error bracesFault := rfl

/-- An empty object is no transaction. The run goes on all the same. -/
theorem run_advised_settled :
    let advised :=
      run (settledWorld "pre_check = true" "\x7b\x7d") .normal (some settingsFile) checkedOptions
    let bare :=
      run (settledWorld "pre_check = false" "\x7b\x7d") .normal (some settingsFile) checkedOptions
    code advised = code bare ∧ advised.stdout = bare.stdout ∧
      errorOutput advised =
        "Invalid fixture: not a mock transaction at `.`: missing field `mock_info`\n" ++
          errorOutput bare ∧
      advised.entries = checkEntry bracesFault :: bare.entries := by
  intro advised bare
  have hfixture := load_braces_congr "pre_check = true" "pre_check = false"
  obtain ⟨hcode, hstdout, -, -, -, hwarns, -, hfails, -⟩ :=
    run_advised (twins_settled "\x7b\x7d" rfl) hfixture .normal
  have hcheck : check (settledWorld "pre_check = true" "\x7b\x7d") checkedOptions.fixture =
      .failed bracesFault := check_of_failed (load_braces _) (checkFixture_braces _)
  have hbad : Fails (settledWorld "pre_check = true" "\x7b\x7d") (some settingsFile)
      checkedOptions.fixture :=
    ⟨⟨_, discover_settled read?_checking⟩, ⟨_, load_braces _⟩, by rw [hcheck]; decide⟩
  obtain ⟨text, hreport, herror⟩ := hwarns ⟨rfl, hbad⟩
  obtain ⟨fault, hfault, hentries⟩ := hfails hbad
  rw [hcheck] at hreport hfault
  rw [errorOutput_failed, String.append_right_inj] at hreport
  obtain rfl : bracesFault = fault := Option.some.inj hfault
  refine ⟨hcode, hstdout, ?_, hentries⟩
  rw [herror, ← hreport]
  rfl

/-! ### A fixture that holds the settings -/

/-- The bytes of the settings, between quotes. -/
def holdingText : String := "\x7b\"x\":\"\x7b\x7b data settings.toml \x7d\x7d\"\x7d"

def heldText (settings : String) : List Char :=
  "\x7b\"x\":\"".toList ++
    (Text.Hex.encode (Text.Utf8.encode settings.toList) ++ "\"\x7d".toList)

def holdingTemplate : Template := Template.ofText (.ofText "tx.json") holdingText

theorem parts_holding :
    Marker.parts (Template.find .data) holdingTemplate.text =
      "\x7b\"x\":\"".toList.map .char ++
        .marker "settings.toml".toList :: "\"\x7d".toList.map .char := by
  decide +kernel

theorem value_holding (settings : String) :
    holdingTemplate.value (settledWorld settings holdingText) .data "settings.toml".toList =
      .ok (Text.Hex.encode (Text.Utf8.encode settings.toList)) := by
  have hpath : holdingTemplate.root.join (.ofText (String.ofList "settings.toml".toList)) =
      settingsFile := by decide +kernel
  have hread : (settledWorld settings holdingText).read settingsFile =
      .ok (Text.Utf8.encode settings.toList) := rfl
  simp only [Template.value, Template.readFile, hpath, hread, Except.mapError, Except.map]

theorem apply_holding (settings : String) :
    holdingTemplate.apply (settledWorld settings holdingText) .data =
      ({ holdingTemplate with text := heldText settings }, none) := by
  have hvalue : ∀ name ∈ Marker.names (Marker.parts (Template.find .data) holdingTemplate.text),
      holdingTemplate.value (settledWorld settings holdingText) .data name =
        .ok ((fun _ => Text.Hex.encode (Text.Utf8.encode settings.toList)) name) := by
    have hnames : Marker.names (Marker.parts (Template.find .data) holdingTemplate.text) =
        ["settings.toml".toList] := by
      rw [parts_holding]
      rfl
    rw [hnames]
    intro name hname
    rw [List.mem_singleton.1 hname]
    exact value_holding settings
  rw [Template.apply_fill _ _ (by decide), Marker.fill_eq_ok hvalue, parts_holding]
  rfl

theorem load_holding {settings : String} (h : ¬Marker.opening <:+: heldText settings)
    (hcompact : (Json.document (heldText settings)).toOption.map Json.compact =
      some (heldText settings)) :
    ∃ f, Fixture.load (settledWorld settings holdingText) (.ofText "tx.json") = .ok f ∧
      f.toText = String.ofList (heldText settings) := by
  have hexpand :
      Fixture.expand (settledWorld settings holdingText) (.ofText "tx.json") holdingText =
      .ok (String.ofList (heldText settings)) := by
    rw [Fixture.expand_eq_template, Template.expand_eq_ok]
    refine ⟨{ holdingTemplate with text := heldText settings }, ?_, rfl⟩
    exact (Template.applyAll_cons (apply_holding settings)).trans (Template.applyAll_unmarked _ _ h)
  obtain ⟨document, hdocument, htext⟩ := Option.map_eq_some_iff.1 hcompact
  have hparse : Json.parse (String.ofList (heldText settings)) = .ok document := by
    rw [Json.parse, String.toList_ofList, Json.toOption_eq_some.1 hdocument]
  exact ⟨⟨some (.ofText "tx.json"), document⟩,
    Fixture.load_eq_ok.2 ⟨_, _, Fixture.readFile_encode rfl, hexpand, hparse, rfl⟩,
    congrArg String.ofList htext⟩

def holdingOptions : RunOptions :=
  { checkedOptions with
    hash := some Executable.countingParameters.hash.text
    engine := some "/bin/engine" }

/-- A run over that fixture hands the settings to the engine. -/
theorem launches_holding {settings : String} (hsettings : Config.read? settings = some c)
    (h : ¬Marker.opening <:+: heldText settings)
    (hcompact : (Json.document (heldText settings)).toOption.map Json.compact =
      some (heldText settings)) :
    (run (settledWorld settings holdingText) .normal (some settingsFile) holdingOptions).launches =
      [⟨Executable.counting.file, Executable.arguments Executable.countingParameters,
        String.ofList (heldText settings)⟩] := by
  obtain ⟨f, hload, htext⟩ := load_holding h hcompact
  have hnamed : c.moduleRef holdingOptions.engine = .ok (.process (.ofText "/bin/engine")) := by
    have hread : ModuleRef.read "/bin/engine" = .ok (.process (.ofText "/bin/engine")) := by decide
    exact hread
  have hopened :
      (ModuleRef.process (.ofText "/bin/engine")).resolve (settledWorld settings holdingText) =
      .ok (Executable.engine (settledWorld settings holdingText) (.ofText "/bin/engine")) := by
    have hplace : (settledWorld settings holdingText).candidates (.ofText "/bin/engine") =
        [.ofText "/bin/engine"] := if_pos (by decide)
    refine ModuleRef.resolve_process_eq_ok.2 ⟨.ofText "/bin/engine", ?_, rfl⟩
    rw [World.findProgram, hplace]
    rfl
  have hlocated : (scriptHash .normal holdingOptions f).2 =
      .ok Executable.countingParameters.hash.text := rfl
  have hrequest : (⟨"lock", Executable.countingParameters.hash.text, "10"⟩ : Request) =
      Executable.countingParameters.request := by decide +kernel
  have hread := Parameters.read_request Executable.countingParameters
  rw [← hrequest] at hread
  rw [run_of_resolved (o := holdingOptions) (discover_settled hsettings) hload hlocated hnamed
    hopened, ← htext]
  exact Executable.launches_ran rfl hread f true

/-- With the log at its fullest a run tells of a check that fails twice, in the log and with a
remark. And where the settings of a fixture's check are part of the fixture, the engine is handed
another input. -/
theorem not_forall_advised :
    (¬∀ w w' config config' o o' v, Twins w w' config config' o o' →
      Fixture.load w' o.fixture = Fixture.load w o.fixture →
      (shown w v (run w v config o)).length ≤ (shown w' v (run w' v config' o')).length + 1) ∧
    ¬∀ w w' config config' o o' v, Twins w w' config config' o o' →
      (run w v config o).launches = (run w' v config' o').launches := by
  constructor
  · intro h
    have hfixture := load_braces_congr "pre_check = true" "pre_check = false"
    have htwins := twins_settled (o := checkedOptions) "\x7b\x7d" rfl
    have hadvised :=
      htwins.run_after .debug (discover_settled read?_checking) (load_braces _) hfixture
    have hle := h _ _ _ _ checkedOptions _ .debug htwins hfixture
    rw [hadvised, advice_of_failed rfl rfl (checkFixture_braces _)] at hle
    have htwo : ((.entry (checkEntry bracesFault) :: remark .debug bracesFault.message).filter
        (reaches (settledWorld "pre_check = true" "\x7b\x7d") .debug)).length = 2 := rfl
    have hfilter : (settledWorld "pre_check = false" "\x7b\x7d").logFilter =
        (settledWorld "pre_check = true" "\x7b\x7d").logFilter := rfl
    rw [shown_after, List.length_append, htwo, shown_congr hfilter] at hle
    omega
  · intro h
    have hsame := h _ _ _ _ holdingOptions _ .normal (twins_settled holdingText rfl)
    rw [launches_holding read?_checking (by decide +kernel) (by decide +kernel),
      launches_holding read?_trusting (by decide +kernel) (by decide +kernel)] at hsame
    have hinput := congrArg Launch.input (List.cons.inj hsame).1
    have hdifferent : heldText "pre_check = true" ≠ heldText "pre_check = false" := by
      decide +kernel
    exact hdifferent (String.ofList_injective hinput)

end ScriptProbe.Session
