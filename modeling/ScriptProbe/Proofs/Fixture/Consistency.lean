import Mathlib.Data.List.Perm.Basic
import ScriptProbe.Fixture.Check

/-! When the mocked surroundings of a transaction match it, and which fault is found where they do
not. -/
namespace ScriptProbe.MockTransaction

variable {tx : MockTransaction} {as bs deps common : List CellDep} {a b : CellDep}
    {fault : CheckFault}

/-! ### What is compared -/

/-- The data of a mocked dep lists out points, if the dep is a group. -/
def Lists (dep : MockCellDep) : Prop :=
  dep.cellDep.depType = .depGroup → ∃ points, DepGroup.decode dep.data = .ok points

/-- The out points that a mocked dep group lists. -/
def listed (dep : MockCellDep) : List OutPoint :=
  match dep.cellDep.depType, DepGroup.decode dep.data with
  | .depGroup, .ok points => points
  | _, _ => []

def mockedDeps (tx : MockTransaction) : List CellDep := tx.info.cellDeps.map MockCellDep.cellDep

/-- The cell deps of the transaction, and the code deps that its dep groups stand for. -/
def spelledDeps (tx : MockTransaction) : List CellDep :=
  tx.tx.cellDeps ++ tx.info.cellDeps.flatMap fun dep => (listed dep).map (⟨·, .code⟩)

structure DepsMatch (tx : MockTransaction) : Prop where
  lists : ∀ dep ∈ tx.info.cellDeps, Lists dep
  perm : tx.mockedDeps.Perm tx.spelledDeps

/-- The input that is mocked at an index. -/
def mockedInput? (tx : MockTransaction) (i : Nat) : Option CellInput :=
  tx.info.inputs[i]?.map MockInput.input

structure InputsMatch (tx : MockTransaction) : Prop where
  length : tx.info.inputs.length = tx.tx.inputs.length
  input : ∀ i < tx.tx.inputs.length, tx.mockedInput? i = tx.tx.inputs[i]?

def HeadersMatch (tx : MockTransaction) : Prop :=
  tx.info.headerDeps.length = tx.tx.headerDeps.length

/-- In ascending order of the binary forms. -/
def Ascending (deps : List CellDep) : Prop := deps.Pairwise fun a b => a.encode ≤ b.encode

/-- A fault of the cell deps: a group without out points, then the number of deps, then the first
difference of both sides in ascending order. -/
inductive DepFault (tx : MockTransaction) : CheckFault → Prop
  | group {before after : List MockCellDep} {dep : MockCellDep} {defect : DepGroup.Defect}
    (hdeps : tx.info.cellDeps = before ++ dep :: after) (hbefore : ∀ d ∈ before, Lists d)
    (hgroup : dep.cellDep.depType = .depGroup) (hdata : DepGroup.decode dep.data = .error defect) :
    DepFault tx (.badGroup dep.cellDep.outPoint defect)
  | count (hlists : ∀ dep ∈ tx.info.cellDeps, Lists dep)
    (hlength : tx.mockedDeps.length ≠ tx.spelledDeps.length) :
    DepFault tx (.depCount tx.mockedDeps.length tx.spelledDeps.length)
  | mismatch {common as bs : List CellDep} {a b : CellDep}
    (hlists : ∀ dep ∈ tx.info.cellDeps, Lists dep)
    (hlength : tx.mockedDeps.length = tx.spelledDeps.length)
    (hmocked : tx.mockedDeps.Perm (common ++ a :: as))
      (hactual : tx.spelledDeps.Perm (common ++ b :: bs))
    (has : Ascending (common ++ a :: as)) (hbs : Ascending (common ++ b :: bs)) (hne : a ≠ b) :
    DepFault tx (.depMismatch a b)

/-- A fault of the inputs: their number, then the least index at which they differ. -/
inductive InputFault (tx : MockTransaction) : CheckFault → Prop
  | count (hlength : tx.info.inputs.length ≠ tx.tx.inputs.length) :
    InputFault tx (.inputCount tx.info.inputs.length tx.tx.inputs.length)
  | mismatch {i : Nat} (hlength : tx.info.inputs.length = tx.tx.inputs.length)
    (hi : i < tx.tx.inputs.length) (hne : tx.mockedInput? i ≠ tx.tx.inputs[i]?)
    (hleast : ∀ j < i, tx.mockedInput? j = tx.tx.inputs[j]?) : InputFault tx (.inputMismatch i)

/-- The fault that is reported: cell deps go before inputs, and inputs before headers. -/
inductive Finding (tx : MockTransaction) : CheckFault → Prop
  | deps {fault : CheckFault} (h : DepFault tx fault) : Finding tx fault
  | inputs {fault : CheckFault} (hdeps : DepsMatch tx) (h : InputFault tx fault) : Finding tx fault
  | headers (hdeps : DepsMatch tx) (hinputs : InputsMatch tx) (h : ¬HeadersMatch tx) :
    Finding tx (.headerCount tx.info.headerDeps.length tx.tx.headerDeps.length)

/-! ### Cell deps in order -/

theorem encode_injective (h : a.encode = b.encode) : a = b := by
  obtain ⟨hpoint, hbyte⟩ := List.append_inj h (by simp)
  have hpoints : a.outPoint = b.outPoint := by
    have hdecode := congrArg OutPoint.decode? hpoint
    simpa [OutPoint.decode?_encode] using hdecode
  have htypes : a.depType = b.depType := by
    revert hbyte
    cases a.depType <;> cases b.depType <;> decide
  cases a
  cases b
  simp_all

theorem ascending_sortDeps (deps : List CellDep) : Ascending (sortDeps deps) := by
  have hsorted : (sortDeps deps).Pairwise fun a b => decide (a.encode ≤ b.encode) = true := by
    refine List.pairwise_mergeSort (fun a b c hab hbc => ?_) (fun a b => ?_) deps
    · exact decide_eq_true (List.le_trans (of_decide_eq_true hab) (of_decide_eq_true hbc))
    · simpa using List.le_total a.encode b.encode
  exact hsorted.imp of_decide_eq_true

theorem perm_sortDeps (deps : List CellDep) : (sortDeps deps).Perm deps := List.mergeSort_perm _ _

/-- Different deps have different binary forms, so their order leaves nothing open. -/
theorem sortDeps_eq (hperm : as.Perm bs) (h : Ascending bs) : sortDeps as = bs := by
  refine List.Perm.eq_of_pairwise ?_ (ascending_sortDeps as) h ((perm_sortDeps as).trans hperm)
  intro a b _ _ hab hba
  exact encode_injective (List.le_antisymm hab hba)

theorem sortDeps_eq_sortDeps : sortDeps as = sortDeps bs ↔ as.Perm bs := by
  constructor
  · intro h
    exact (perm_sortDeps as).symm.trans (h ▸ perm_sortDeps bs)
  · intro h
    exact sortDeps_eq (h.trans (perm_sortDeps bs).symm) (ascending_sortDeps bs)

theorem length_sortDeps (deps : List CellDep) : (sortDeps deps).length = deps.length :=
  (perm_sortDeps deps).length_eq

theorem firstDifference_eq_none (h : as.length = bs.length) :
    firstDifference as bs = none ↔ as = bs := by
  induction as generalizing bs with
  | nil => simp [List.length_eq_zero_iff.1 h.symm, firstDifference]
  | cons a as ih =>
    cases bs with
    | nil => simp at h
    | cons b bs =>
      by_cases hab : a = b
      · simp [firstDifference, hab, ih (Nat.succ.inj h)]
      · simp [firstDifference, hab]

theorem firstDifference_eq_some :
    firstDifference as bs = some (a, b) ↔
      ∃ common as' bs', as = common ++ a :: as' ∧ bs = common ++ b :: bs' ∧ a ≠ b := by
  constructor
  · intro h
    induction as generalizing bs with
    | nil => simp [firstDifference] at h
    | cons x as ih =>
      cases bs with
      | nil => simp [firstDifference] at h
      | cons y bs =>
        by_cases hxy : x = y
        · obtain ⟨common, as', bs', rfl, rfl, hne⟩ := ih (by simpa [firstDifference, hxy] using h)
          exact ⟨x :: common, as', bs', rfl, by rw [hxy]; rfl, hne⟩
        · obtain ⟨rfl, rfl⟩ : x = a ∧ y = b := by simpa [firstDifference, hxy] using h
          exact ⟨[], as, bs, rfl, rfl, hxy⟩
  · rintro ⟨common, as', bs', rfl, rfl, hne⟩
    induction common with
    | nil => simp [firstDifference, hne]
    | cons c common ih => simpa [firstDifference] using ih

/-! ### Dep groups -/

theorem groupMembers_of_lists {dep : MockCellDep} (h : Lists dep) :
    groupMembers dep = .ok ((listed dep).map (⟨·, .code⟩)) := by
  cases htype : dep.cellDep.depType with
  | code => simp [groupMembers, listed, htype]
  | depGroup =>
    obtain ⟨points, hpoints⟩ := h htype
    simp [groupMembers, listed, htype, hpoints]

theorem groupMembers_of_error {dep : MockCellDep} {defect : DepGroup.Defect}
    (hgroup : dep.cellDep.depType = .depGroup) (hdata : DepGroup.decode dep.data = .error defect) :
    groupMembers dep = .error (.badGroup dep.cellDep.outPoint defect) := by
  simp [groupMembers, hgroup, hdata]

theorem mapM_groupMembers {mocks : List MockCellDep} (h : ∀ dep ∈ mocks, Lists dep) :
    mocks.mapM groupMembers = .ok (mocks.map fun dep => (listed dep).map (⟨·, .code⟩)) := by
  induction mocks with
  | nil => rfl
  | cons dep mocks ih =>
    obtain ⟨hdep, hmocks⟩ := List.forall_mem_cons.1 h
    rw [List.mapM_cons, groupMembers_of_lists hdep, ih hmocks]
    rfl

/-- The first group without out points is the one complained of. -/
theorem mapM_groupMembers_of_error {before after : List MockCellDep} {dep : MockCellDep}
    (hbefore : ∀ d ∈ before, Lists d) (h : groupMembers dep = .error fault) :
    (before ++ dep :: after).mapM groupMembers = .error fault := by
  induction before with
  | nil =>
    rw [List.nil_append, List.mapM_cons, h]
    rfl
  | cons d before ih =>
    obtain ⟨hd, hrest⟩ := List.forall_mem_cons.1 hbefore
    rw [List.cons_append, List.mapM_cons, groupMembers_of_lists hd, ih hrest]
    rfl

theorem lists_or_first (mocks : List MockCellDep) :
    (∀ dep ∈ mocks, Lists dep) ∨ ∃ before dep after, mocks = before ++ dep :: after ∧
      (∀ d ∈ before, Lists d) ∧ dep.cellDep.depType = .depGroup ∧
        ∃ defect, DepGroup.decode dep.data = .error defect := by
  induction mocks with
  | nil => exact Or.inl (by simp)
  | cons dep mocks ih =>
    by_cases hdep : Lists dep
    · rcases ih with hall | ⟨before, d, after, rfl, hbefore, hd⟩
      · exact Or.inl (List.forall_mem_cons.2 ⟨hdep, hall⟩)
      · exact Or.inr ⟨dep :: before, d, after, rfl, List.forall_mem_cons.2 ⟨hdep, hbefore⟩, hd⟩
    · obtain ⟨hgroup, hnone⟩ := Classical.not_imp.1 hdep
      refine Or.inr ⟨[], dep, mocks, rfl, by simp, hgroup, ?_⟩
      cases hdata : DepGroup.decode dep.data with
      | error defect => exact ⟨defect, rfl⟩
      | ok points => exact absurd ⟨points, hdata⟩ hnone

theorem checkDeps_of_lists (h : ∀ dep ∈ tx.info.cellDeps, Lists dep) :
    tx.checkDeps =
      if tx.mockedDeps.length ≠ tx.spelledDeps.length then
        .error (.depCount tx.mockedDeps.length tx.spelledDeps.length)
      else
        match firstDifference (sortDeps tx.mockedDeps) (sortDeps tx.spelledDeps) with
        | some (a, b) => .error (.depMismatch a b)
        | none => .ok () := by
  simp only [checkDeps, mapM_groupMembers h, bind, Except.bind, ← List.flatMap_def, length_sortDeps,
    mockedDeps, spelledDeps]
  rfl

theorem checkDeps_of_group {before after : List MockCellDep} {dep : MockCellDep}
    {defect : DepGroup.Defect} (hdeps : tx.info.cellDeps = before ++ dep :: after)
    (hbefore : ∀ d ∈ before, Lists d) (hgroup : dep.cellDep.depType = .depGroup)
    (hdata : DepGroup.decode dep.data = .error defect) :
    tx.checkDeps = .error (.badGroup dep.cellDep.outPoint defect) := by
  rw [checkDeps, hdeps, mapM_groupMembers_of_error hbefore (groupMembers_of_error hgroup hdata)]
  rfl

/-- The cell deps match and pass, or the check stops at a fault of theirs. -/
theorem checkDeps_cases (tx : MockTransaction) :
    (DepsMatch tx ∧ tx.checkDeps = .ok ()) ∨
      ∃ fault, DepFault tx fault ∧ tx.checkDeps = .error fault := by
  rcases lists_or_first tx.info.cellDeps with
    hlists | ⟨before, dep, after, hdeps, hbefore, hgroup, defect, hdata⟩
  · have hcheck := checkDeps_of_lists hlists
    by_cases hlength : tx.mockedDeps.length = tx.spelledDeps.length
    · have hsorted : (sortDeps tx.mockedDeps).length = (sortDeps tx.spelledDeps).length := by
        simpa [length_sortDeps] using hlength
      rw [if_neg (by simpa using hlength)] at hcheck
      cases hfirst : firstDifference (sortDeps tx.mockedDeps) (sortDeps tx.spelledDeps) with
      | none =>
        have hperm := sortDeps_eq_sortDeps.1 ((firstDifference_eq_none hsorted).1 hfirst)
        exact Or.inl ⟨⟨hlists, hperm⟩, by rw [hcheck, hfirst]⟩
      | some difference =>
        obtain ⟨common, as, bs, has, hbs, hne⟩ := firstDifference_eq_some.1 hfirst
        have hfault := DepFault.mismatch hlists hlength (has ▸ (perm_sortDeps _).symm)
          (hbs ▸ (perm_sortDeps _).symm) (has ▸ ascending_sortDeps _)
            (hbs ▸ ascending_sortDeps _) hne
        exact Or.inr ⟨_, hfault, by rw [hcheck, hfirst]⟩
    · exact Or.inr ⟨_, .count hlists hlength, by rw [hcheck, if_pos hlength]⟩
  · have hcheck := checkDeps_of_group hdeps hbefore hgroup hdata
    exact Or.inr ⟨_, .group hdeps hbefore hgroup hdata, hcheck⟩

theorem checkDeps_eq_ok : tx.checkDeps = .ok () ↔ DepsMatch tx := by
  constructor
  · intro h
    rcases checkDeps_cases tx with ⟨hmatch, -⟩ | ⟨fault, -, hcheck⟩
    · exact hmatch
    · cases h.symm.trans hcheck
  · intro h
    have hsorted := sortDeps_eq_sortDeps.2 h.perm
    rw [checkDeps_of_lists h.lists, if_neg (by simp [h.perm.length_eq]), hsorted,
      (firstDifference_eq_none rfl).2 rfl]

theorem checkDeps_eq_error : tx.checkDeps = .error fault ↔ DepFault tx fault := by
  constructor
  · intro h
    rcases checkDeps_cases tx with ⟨-, hcheck⟩ | ⟨fault', hfault, hcheck⟩
    · cases h.symm.trans hcheck
    · exact Except.error.inj (hcheck.symm.trans h) ▸ hfault
  · intro h
    cases h with
    | group hdeps hbefore hgroup hdata => exact checkDeps_of_group hdeps hbefore hgroup hdata
    | count hlists hlength => rw [checkDeps_of_lists hlists, if_pos hlength]
    | mismatch hlists hlength hmocked hactual has hbs hne =>
      have hfirst := firstDifference_eq_some.2
        ⟨_, _, _, sortDeps_eq hmocked has, sortDeps_eq hactual hbs, hne⟩
      rw [checkDeps_of_lists hlists, if_neg (by simpa using hlength), hfirst]

/-! ### Inputs and headers -/

theorem firstMismatch_eq_none {k : Nat} {xs ys : List CellInput} (h : xs.length = ys.length) :
    firstMismatch k xs ys = none ↔ xs = ys := by
  induction xs generalizing k ys with
  | nil => simp [List.length_eq_zero_iff.1 h.symm, firstMismatch]
  | cons x xs ih =>
    cases ys with
    | nil => simp at h
    | cons y ys =>
      by_cases hxy : x = y
      · simp [firstMismatch, hxy, ih (Nat.succ.inj h)]
      · simp [firstMismatch, hxy]

theorem firstMismatch_eq_some {k i : Nat} {xs ys : List CellInput} (h : xs.length = ys.length) :
    firstMismatch k xs ys = some i ↔
      ∃ j, i = k + j ∧ xs[j]? ≠ ys[j]? ∧ ∀ l < j, xs[l]? = ys[l]? := by
  induction xs generalizing k ys with
  | nil => simp [List.length_eq_zero_iff.1 h.symm, firstMismatch]
  | cons x xs ih =>
    cases ys with
    | nil => simp at h
    | cons y ys =>
      by_cases hxy : x = y
      · rw [firstMismatch, if_pos hxy, ih (Nat.succ.inj h)]
        constructor
        · rintro ⟨j, rfl, hne, hleast⟩
          refine ⟨j + 1, by omega, by simpa using hne, fun l hl => ?_⟩
          cases l with
          | zero => simp [hxy]
          | succ l => simpa using hleast l (by omega)
        · rintro ⟨j, rfl, hne, hleast⟩
          cases j with
          | zero => simp [hxy] at hne
          | succ j =>
            exact ⟨j, by omega, by simpa using hne, fun l hl => by
              simpa using hleast (l + 1) (by omega)⟩
      · rw [firstMismatch, if_neg hxy]
        constructor
        · intro hi
          exact ⟨0, (Option.some.inj hi).symm, by simpa using hxy, by simp⟩
        · rintro ⟨j, rfl, -, hleast⟩
          cases j with
          | zero => rfl
          | succ j => exact absurd (by simpa using hleast 0 (by omega)) hxy

theorem mockedInput?_eq (tx : MockTransaction) (i : Nat) :
    tx.mockedInput? i = (tx.info.inputs.map MockInput.input)[i]? := List.getElem?_map.symm

theorem inputsMatch_iff : InputsMatch tx ↔ tx.info.inputs.map MockInput.input = tx.tx.inputs := by
  constructor
  · intro h
    refine List.ext_getElem? fun i => ?_
    rw [← mockedInput?_eq]
    by_cases hi : i < tx.tx.inputs.length
    · exact h.input i hi
    · have hnone : tx.info.inputs[i]? = none := List.getElem?_eq_none (by rw [h.length]; omega)
      rw [mockedInput?, hnone, List.getElem?_eq_none (by omega)]
      rfl
  · intro h
    refine ⟨by rw [← h, List.length_map], fun i _ => ?_⟩
    rw [mockedInput?_eq, h]

theorem checkInputs_eq_ok : tx.checkInputs = .ok () ↔ InputsMatch tx := by
  rw [inputsMatch_iff, checkInputs]
  split
  · next hlength =>
    refine iff_of_false nofun fun h => hlength ?_
    rw [h]
  · next hlength =>
    rw [← firstMismatch_eq_none (k := 0) (by simpa using hlength)]
    cases firstMismatch 0 (tx.info.inputs.map MockInput.input) tx.tx.inputs <;> simp

theorem checkInputs_eq_error : tx.checkInputs = .error fault ↔ InputFault tx fault := by
  by_cases hlength : tx.info.inputs.length = tx.tx.inputs.length
  · have hmapped : (tx.info.inputs.map MockInput.input).length = tx.tx.inputs.length := by
      simpa using hlength
    have hcheck : tx.checkInputs = .error fault ↔
        ∃ i, firstMismatch 0 (tx.info.inputs.map MockInput.input) tx.tx.inputs = some i ∧
          fault = .inputMismatch i := by
      rw [checkInputs, if_neg (by simpa using hlength)]
      cases firstMismatch 0 (tx.info.inputs.map MockInput.input) tx.tx.inputs <;> simp [eq_comm]
    rw [hcheck]
    simp only [firstMismatch_eq_some hmapped, ← mockedInput?_eq, Nat.zero_add]
    constructor
    · rintro ⟨_, ⟨i, rfl, hne, hleast⟩, rfl⟩
      refine .mismatch hlength (Nat.lt_of_not_le fun hi => hne ?_) hne hleast
      rw [mockedInput?, List.getElem?_eq_none (by omega), List.getElem?_eq_none hi]
      rfl
    · intro h
      cases h with
      | count hcount => exact absurd hlength hcount
      | mismatch _ _ hne hleast => exact ⟨_, ⟨_, rfl, hne, hleast⟩, rfl⟩
  · rw [checkInputs, if_pos (by simpa using hlength), List.length_map]
    constructor
    · intro h
      cases h
      exact .count hlength
    · intro h
      cases h with
      | count => rfl
      | mismatch h _ _ _ => exact absurd h hlength

theorem checkHeaders_eq_ok : tx.checkHeaders = .ok () ↔ HeadersMatch tx := by
  by_cases h : tx.info.headerDeps.length = tx.tx.headerDeps.length
    <;> simp [checkHeaders, HeadersMatch, h]

theorem checkHeaders_eq_error :
    tx.checkHeaders = .error fault ↔ ¬HeadersMatch tx ∧
      fault = .headerCount tx.info.headerDeps.length tx.tx.headerDeps.length := by
  by_cases h : tx.info.headerDeps.length = tx.tx.headerDeps.length <;>
    simp [checkHeaders, HeadersMatch, h, eq_comm]

/-! ### The verdict -/

theorem check_eq_ok : tx.check = .ok () ↔ DepsMatch tx ∧ InputsMatch tx ∧ HeadersMatch tx := by
  rw [← checkDeps_eq_ok, ← checkInputs_eq_ok, ← checkHeaders_eq_ok, check]
  cases tx.checkDeps <;> cases tx.checkInputs <;> simp [bind, Except.bind]

theorem check_eq_error : tx.check = .error fault ↔ Finding tx fault := by
  have hsteps : tx.check = .error fault ↔ tx.checkDeps = .error fault ∨
      (tx.checkDeps = .ok () ∧ tx.checkInputs = .error fault) ∨
      (tx.checkDeps = .ok () ∧ tx.checkInputs = .ok () ∧ tx.checkHeaders = .error fault) := by
    rw [check]
    cases tx.checkDeps <;> cases tx.checkInputs <;> simp [bind, Except.bind]
  rw [hsteps, checkDeps_eq_error, checkDeps_eq_ok, checkInputs_eq_error, checkInputs_eq_ok,
    checkHeaders_eq_error]
  constructor
  · rintro (h | ⟨hdeps, h⟩ | ⟨hdeps, hinputs, h, rfl⟩)
    · exact .deps h
    · exact .inputs hdeps h
    · exact .headers hdeps hinputs h
  · intro h
    cases h with
    | deps h => exact Or.inl h
    | inputs hdeps h => exact Or.inr (Or.inl ⟨hdeps, h⟩)
    | headers hdeps hinputs h => exact Or.inr (Or.inr ⟨hdeps, hinputs, h, rfl⟩)

/-- The same transaction with its cell deps, or the mocked ones, listed otherwise. -/
def withDeps (tx : MockTransaction) (deps : List CellDep) (mocks : List MockCellDep) :
    MockTransaction where
  info := { tx.info with cellDeps := mocks }
  tx := { tx.tx with cellDeps := deps }

theorem depsMatch_withDeps {mocks : List MockCellDep} (hdeps : deps.Perm tx.tx.cellDeps)
    (hmocks : mocks.Perm tx.info.cellDeps) : DepsMatch (tx.withDeps deps mocks) ↔ DepsMatch tx := by
  have hmocked : (tx.withDeps deps mocks).mockedDeps.Perm tx.mockedDeps := hmocks.map _
  have hspelled : (tx.withDeps deps mocks).spelledDeps.Perm tx.spelledDeps :=
    hdeps.append (hmocks.flatMap_right _)
  have hperm : (tx.withDeps deps mocks).mockedDeps.Perm (tx.withDeps deps mocks).spelledDeps ↔
      tx.mockedDeps.Perm tx.spelledDeps :=
    ⟨fun h => hmocked.symm.trans (h.trans hspelled), fun h => hmocked.trans (h.trans hspelled.symm)⟩
  constructor
  · intro h
    exact ⟨fun dep hdep => h.lists dep (hmocks.mem_iff.2 hdep), hperm.1 h.perm⟩
  · intro h
    exact ⟨fun dep hdep => h.lists dep (hmocks.mem_iff.1 hdep), hperm.2 h.perm⟩

/-- A mock transaction passes exactly if its cell deps, its inputs and the number of its headers
match their mocked counterparts, and the order of the cell deps on either side is of no account. One
that does not pass has the fault that is found first. -/
theorem check_verdict (tx : MockTransaction) :
    (tx.check = .ok () ↔ DepsMatch tx ∧ InputsMatch tx ∧ HeadersMatch tx) ∧
    (∀ fault, tx.check = .error fault ↔ Finding tx fault) ∧
    (∀ deps mocks, deps.Perm tx.tx.cellDeps → mocks.Perm tx.info.cellDeps →
      ((tx.withDeps deps mocks).check = .ok () ↔ tx.check = .ok ())) := by
  refine ⟨check_eq_ok, fun fault => check_eq_error, fun deps mocks hdeps hmocks => ?_⟩
  rw [check_eq_ok, check_eq_ok, depsMatch_withDeps hdeps hmocks, inputsMatch_iff, inputsMatch_iff]
  exact Iff.rfl

def sampleHash : Digest := ⟨List.replicate 32 1, rfl⟩

def samplePoint (index : UInt32) : OutPoint := ⟨sampleHash, index⟩

def sampleCell : CellOutput := ⟨0, ⟨sampleHash, .data, []⟩, none⟩

def sampleGroup (index : UInt32) : MockCellDep :=
  ⟨⟨samplePoint index, .depGroup⟩, sampleCell, DepGroup.encode [samplePoint 0], none⟩

def sampleMember : MockCellDep := ⟨⟨samplePoint 0, .code⟩, sampleCell, [], none⟩

/-- Two dep groups that share their one member, which is mocked twice. -/
def sharing : MockTransaction where
  info := ⟨[], [sampleGroup 1, sampleMember, sampleMember, sampleGroup 2], [], []⟩
  tx := ⟨0, [(sampleGroup 2).cellDep, (sampleGroup 1).cellDep], [], [], [], [], []⟩

theorem depsMatch_sharing : DepsMatch sharing := by
  have hdecode : DepGroup.decode (DepGroup.encode [samplePoint 0]) =
      .ok [samplePoint 0] := by decide
  refine ⟨fun dep hdep hgroup => ⟨[samplePoint 0], ?_⟩, by decide⟩
  simp only [sharing, List.mem_cons, List.not_mem_nil, or_false] at hdep
  rcases hdep with rfl | rfl | rfl | rfl
  · exact hdecode
  · cases hgroup
  · cases hgroup
  · exact hdecode

theorem check_sharing_reversed :
    (sharing.withDeps sharing.tx.cellDeps.reverse sharing.info.cellDeps.reverse).check =
      .ok () := by
  obtain ⟨hok, -, horder⟩ := check_verdict sharing
  have hinputs : InputsMatch sharing := ⟨rfl, by decide⟩
  exact (horder _ _ (List.reverse_perm _) (List.reverse_perm _)).2
    (hok.2 ⟨depsMatch_sharing, hinputs, rfl⟩)

end ScriptProbe.MockTransaction
