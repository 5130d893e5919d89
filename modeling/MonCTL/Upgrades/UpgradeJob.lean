import Mathlib.Data.List.Basic
import MonCTL.Lib.Runs

/-!
# Upgrade Jobs

A job upgrades nodes, one step for each. Its driver goes through the steps: a central is upgraded
over SSH, a collector's step is marked as waiting for the collector to report. The driver has loaded
the steps once and looks at its own copy of their statuses, which no report changes. A collector
asks which step is there for it, and reports for it; the endpoint looks up the step by the
collector's hostname, among the steps of running jobs, and settles the job when all its steps are
over. Only one job is active at a time.

An action is what happens between two commits of the driver, or a request. A step's `seen` is the
driver's copy of its status. Recorded are the hosts whose reports for a waiting step have not been
written down, and the steps that were started, or named to a collector, in a rolling job in which
another step had failed. Times and the cancelling of jobs are left out.
-/

namespace MonCTL.Upgrades

open List

/-! ### Jobs -/

/-- `action`. -/
inductive StepAction
  | upgradeCentral
  | upgradeCollector

inductive StepStatus
  | pending
  | running
  | waiting
  | completed
  | failed
  | skipped
  deriving DecidableEq

def StepStatus.isDone : StepStatus → Bool
  | .completed | .failed | .skipped => true
  | .pending | .running | .waiting => false

inductive JobStatus
  | pending
  | running
  | completed
  | failed
  deriving DecidableEq

inductive Strategy
  | rolling
  | allAtOnce
  deriving DecidableEq

/-- `UpgradeJobStep`, with the driver's copy of its status. -/
structure UpgradeJobStep where
  nodeHostname : String
  action : StepAction
  status : StepStatus := .pending
  seen : StepStatus := .pending
  outputLog : Option String := none
  errorMessage : Option String := none

def UpgradeJobStep.write (st : UpgradeJobStep) (status : StepStatus) : UpgradeJobStep :=
  { st with status, seen := status }

/-- Where the driver is: not started, about to go on with a step, upgrading a central, about to
hand a step over to its collector, or finished. -/
inductive DriverPhase
  | notStarted
  | loop (i : ℕ)
  | upgrading (i : ℕ)
  | handing (i : ℕ)
  | finished
  deriving DecidableEq

/-- The place of the step that the driver goes on with. -/
def DriverPhase.loopAt : DriverPhase → Option ℕ
  | .loop i => some i
  | .notStarted | .upgrading _ | .handing _ | .finished => none

/-- The place of the step that the driver is about to hand over. -/
def DriverPhase.handingAt : DriverPhase → Option ℕ
  | .handing i => some i
  | .notStarted | .loop _ | .upgrading _ | .finished => none

/-- The driver is at work. -/
def DriverPhase.Active (phase : DriverPhase) : Prop := phase ≠ .notStarted ∧ phase ≠ .finished

/-- `UpgradeJob` with its steps, its driver, and what is recorded. -/
structure UpgradeJob where
  strategy : Strategy
  steps : List UpgradeJobStep
  status : JobStatus := .pending
  errorMessage : Option String := none
  phase : DriverPhase := .notStarted
  failed : Bool := false
  unrecorded : List String := []
  startedAfterFailure : List ℕ := []

/-- What happens. -/
inductive UpgradeAction
  /-- The driver starts; the package may be gone. -/
  | start (packageFound : Bool)
  | next
  /-- A central is upgraded, with the log, or is not, with the error. -/
  | centralDone (result : Except String String)
  | handOver
  | check (host : String)
  | report (host : String) (completed : Bool) (outputLog errorMessage : Option String)

/-- The error message of a job. -/
def failedOn (nodes : List UpgradeJobStep) : String :=
  "Failed on nodes: " ++ ", ".intercalate (nodes.map UpgradeJobStep.nodeHostname)

namespace UpgradeJob

/-- One step has changed. -/
def setStep (j : UpgradeJob) (i : ℕ) (f : UpgradeJobStep → UpgradeJobStep) : UpgradeJob :=
  { j with steps := j.steps.modify i f }

/-- Another step has failed. -/
def otherFailed (j : UpgradeJob) (i : ℕ) : Bool :=
  j.steps.zipIdx.any fun e => e.2 ≠ i && e.1.status = .failed

/-- Record that a step is started or named to a collector. -/
def noteStart (j : UpgradeJob) (i : ℕ) : UpgradeJob :=
  if j.strategy = .rolling ∧ j.otherFailed i = true then
    { j with startedAfterFailure := i :: j.startedAfterFailure }
  else j

/-- The places of the steps of a host in one of some statuses. -/
def stepsOf (j : UpgradeJob) (host : String) (statuses : List StepStatus) : List ℕ :=
  (j.steps.zipIdx.filter fun e => e.1.nodeHostname = host ∧ e.1.status ∈ statuses).map Prod.snd

/-! ### The driver -/

/-- The end of `execute_upgrade_job`: the final status, from the driver's copies. -/
def conclude (j : UpgradeJob) : UpgradeJob :=
  if ∀ st ∈ j.steps, st.seen = .completed ∨ st.seen = .waiting then
    { j with status := .completed, phase := .finished }
  else
    { j with
      status := .failed
      errorMessage := some (failedOn (j.steps.filter (·.seen = .failed)))
      phase := .finished }

/-- The driver goes on with the step at a place, or comes to its end. -/
def next (j : UpgradeJob) (i : ℕ) : UpgradeJob :=
  match j.steps[i]? with
  | none => j.conclude
  | some st =>
    if j.failed = true ∧ j.strategy = .rolling then
      { j.setStep i (·.write .skipped) with phase := .loop (i + 1) }
    else
      let phase : DriverPhase := match st.action with
        | .upgradeCentral => .upgrading i
        | .upgradeCollector => .handing i
      { (j.setStep i (·.write .running)).noteStart i with phase }

def centralDone (j : UpgradeJob) (i : ℕ) : Except String String → UpgradeJob
  | .ok log =>
    { j.setStep i fun st => { st.write .completed with outputLog := some log } with
      phase := .loop (i + 1) }
  | .error e =>
    { j.setStep i fun st => { st.write .failed with errorMessage := some e } with
      phase := .loop (i + 1), failed := true }

/-- A step is handed over to its collector. -/
def handOver (j : UpgradeJob) (i : ℕ) : UpgradeJob :=
  { (j.setStep i fun st => { st.write .waiting with
        outputLog := some "Waiting for collector to pull upgrade" }).noteStart i with
    phase := .loop (i + 1) }

/-! ### The endpoints -/

/-- `check_available_upgrade`: the step it names. Two steps make it fail. -/
def available (j : UpgradeJob) (host : String) : Option ℕ :=
  if j.status = .running ∨ j.status = .pending then
    match j.stepsOf host [.pending, .waiting] with
    | [i] => some i
    | _ => none
  else none

/-- `check_available_upgrade`. -/
def check (j : UpgradeJob) (host : String) : UpgradeJob :=
  match j.available host with
  | some i => j.noteStart i
  | none => j

/-- The job is settled when all its steps are over. -/
def settle (j : UpgradeJob) : UpgradeJob :=
  if ∀ st ∈ j.steps, st.status.isDone = true then
    if ∃ st ∈ j.steps, st.status = .failed then
      { j with
        status := .failed
        errorMessage := some (failedOn (j.steps.filter (·.status = .failed))) }
    else { j with status := .completed }
  else j

/-- The step that `report_upgrade_result` finds. Two steps make it fail. -/
def reported (j : UpgradeJob) (host : String) : Option ℕ :=
  if j.status = .running then
    match j.stepsOf host [.waiting, .running] with
    | [i] => some i
    | _ => none
  else none

/-- `report_upgrade_result`. -/
def report (j : UpgradeJob) (host : String) (completed : Bool)
    (outputLog errorMessage : Option String) : UpgradeJob :=
  match j.reported host with
  | some i =>
    (j.setStep i fun st => { st with
      status := if completed then .completed else .failed
      outputLog, errorMessage }).settle
  | none =>
    if (j.stepsOf host [.waiting]).isEmpty then j
    else { j with unrecorded := host :: j.unrecorded }

def step (j : UpgradeJob) : UpgradeAction → Option UpgradeJob
  | .start packageFound => match j.phase with
      | .notStarted =>
        if packageFound then some { j with status := .running, phase := .loop 0 }
        else some { j with
          status := .failed
          errorMessage := some "Upgrade package not found"
          phase := .finished }
      | _ => none
  | .next => match j.phase with
      | .loop i => some (j.next i)
      | _ => none
  | .centralDone result => match j.phase with
      | .upgrading i => some (j.centralDone i result)
      | _ => none
  | .handOver => match j.phase with
      | .handing i => some (j.handOver i)
      | _ => none
  | .check host => some (j.check host)
  | .report host completed outputLog errorMessage =>
    some (j.report host completed outputLog errorMessage)

/-- A new job. -/
def create (strategy : Strategy) (nodes : List (String × StepAction)) : UpgradeJob where
  strategy
  steps := nodes.map fun node => { nodeHostname := node.1, action := node.2 }

/-- **A job tells the truth**: it is completed only if all its steps are, and failed at the end of
its driver if all are over and one has failed; every report for a waiting step is recorded; and a
rolling job starts nothing, and names nothing to a collector, after another step has failed. -/
structure Truthful (j : UpgradeJob) : Prop where
  completed : j.status = .completed → ∀ st ∈ j.steps, st.status = .completed
  failed : j.phase = .finished → (∀ st ∈ j.steps, st.status.isDone = true) →
    (∃ st ∈ j.steps, st.status = .failed) → j.status = .failed
  recorded : j.unrecorded = []
  rolling : j.startedAfterFailure = []

/-! ### The condition -/

/-- Nothing has failed in a rolling job beside a step. -/
def Clear (j : UpgradeJob) (i : ℕ) : Prop := j.strategy = .rolling → j.otherFailed i = false
  deriving Decidable

/-- **The condition**: when the driver concludes without having seen a failure, all steps are
completed; in a rolling job no step is started, handed over or named to a collector after a
collector has reported a failure; and a collector reports for one step that waits, while the job
runs, and has no other that waits or is about to. -/
def Keeps (j : UpgradeJob) : UpgradeAction → Prop
  | .start _ | .centralDone _ => True
  | .next => ∀ i ∈ j.phase.loopAt,
      if i < j.steps.length then j.failed = false → j.Clear i
      else (∀ st ∈ j.steps, st.seen = .completed ∨ st.seen = .waiting) →
        ∀ st ∈ j.steps, st.status ≠ .waiting ∧ st.status ≠ .failed
  | .handOver => ∀ i ∈ j.phase.handingAt, j.Clear i
  | .check host => ∀ i ∈ j.available host, j.Clear i
  | .report host _ _ _ => j.stepsOf host [.running] = [] ∧
      (j.stepsOf host [.waiting] ≠ [] → j.status = .running ∧
        (j.stepsOf host [.waiting]).length = 1)

instance (j : UpgradeJob) : ∀ a, Decidable (j.Keeps a)
  | .start _ | .centralDone _ => inferInstanceAs (Decidable True)
  | .next => inferInstanceAs (Decidable (∀ i ∈ j.phase.loopAt, ite _ _ _))
  | .handOver => inferInstanceAs (Decidable (∀ i ∈ j.phase.handingAt, j.Clear i))
  | .check host => inferInstanceAs (Decidable (∀ i ∈ j.available host, j.Clear i))
  | .report _ _ _ _ => inferInstanceAs (Decidable (_ ∧ (_ → _)))

/-! ### Changing one step -/

theorem getElem?_setStep (j : UpgradeJob) (i k : ℕ) (f : UpgradeJobStep → UpgradeJobStep) :
    (j.setStep i f).steps[k]? = if i = k then (j.steps[k]?).map f else j.steps[k]? := by
  rw [setStep, List.getElem?_modify]
  split
  · rfl
  · exact Option.map_id'

variable {i : ℕ}

theorem noteStart_of_clear {j : UpgradeJob} (h : j.Clear i) : j.noteStart i = j := by
  rw [noteStart, if_neg]
  rintro ⟨hrolling, hfailed⟩
  rw [h hrolling] at hfailed
  cases hfailed

theorem otherFailed_setStep (j : UpgradeJob) (i : ℕ) (f : UpgradeJobStep → UpgradeJobStep) :
    (j.setStep i f).otherFailed i = j.otherFailed i := by
  have hiff (j : UpgradeJob) : j.otherFailed i = true ↔
      ∃ k st, j.steps[k]? = some st ∧ k ≠ i ∧ st.status = .failed := by
    rw [otherFailed, any_eq_true]
    constructor
    · rintro ⟨⟨st, k⟩, hmem, hfailed⟩
      simp only [ne_eq, Bool.and_eq_true, decide_eq_true_eq] at hfailed
      exact ⟨k, st, List.mem_zipIdx_iff_getElem?.1 hmem, hfailed⟩
    · rintro ⟨k, st, hk, hne, hfailed⟩
      refine ⟨(st, k), List.mem_zipIdx_iff_getElem?.2 hk, ?_⟩
      simp only [ne_eq, Bool.and_eq_true, decide_eq_true_eq]
      exact ⟨hne, hfailed⟩
  rw [Bool.eq_iff_iff, hiff, hiff]
  refine exists_congr fun k => exists_congr fun st => ?_
  rw [getElem?_setStep]
  by_cases hk : i = k
  · exact ⟨fun h => absurd hk.symm h.2.1, fun h => absurd hk.symm h.2.1⟩
  · rw [if_neg hk]

variable {host : String}

theorem mem_stepsOf {j : UpgradeJob} {statuses : List StepStatus} :
    i ∈ j.stepsOf host statuses ↔
      ∃ st, j.steps[i]? = some st ∧ st.nodeHostname = host ∧ st.status ∈ statuses := by
  rw [stepsOf, mem_map]
  constructor
  · rintro ⟨⟨st, k⟩, hmem, rfl⟩
    obtain ⟨hzip, hst⟩ := List.mem_filter.1 hmem
    exact ⟨st, List.mem_zipIdx_iff_getElem?.1 hzip, of_decide_eq_true hst⟩
  · rintro ⟨st, hi, hst⟩
    exact ⟨(st, i), List.mem_filter.2 ⟨List.mem_zipIdx_iff_getElem?.2 hi, decide_eq_true hst⟩, rfl⟩

/-! ### The invariant -/

/-- A step that the driver is through with: a collector has it, or it is as the driver left it. -/
def Handled (st : UpgradeJobStep) : Prop :=
  st.seen = .waiting ∧ (st.status = .waiting ∨ st.status = .completed ∨ st.status = .failed) ∨
    st.status = st.seen ∧ st.seen.isDone = true

/-- What a step is like at its place, by where the driver is. -/
def Placed (phase : DriverPhase) (k : ℕ) (st : UpgradeJobStep) : Prop :=
  match phase with
  | .notStarted => st.status = .pending
  | .loop i => if k < i then Handled st else st.status = .pending
  | .upgrading i | .handing i =>
    if k < i then Handled st else if k = i then st.status = .running else st.status = .pending
  | .finished => True

/-- **The invariant**: the steps are as the driver's place says; what was skipped was skipped
because a step of the driver's own has failed; and while the driver is at work the job runs, or a
report has settled it after all steps. -/
structure Inv (j : UpgradeJob) : Prop where
  placed : ∀ (k : ℕ) (st : UpgradeJobStep), j.steps[k]? = some st → Placed j.phase k st
  inRange : ∀ i, j.phase = .upgrading i ∨ j.phase = .handing i → i < j.steps.length
  skipped : ∀ (k : ℕ) (st : UpgradeJobStep), j.steps[k]? = some st → st.status = .skipped →
    j.failed = true
  flag : j.failed = true → ∃ (k : ℕ) (st : UpgradeJobStep), j.steps[k]? = some st ∧
    st.status = .failed ∧ st.seen = .failed
  fresh : j.phase = .notStarted → j.status = .pending
  active : j.phase.Active → j.status = .running ∨
    ∀ (k : ℕ) (st : UpgradeJobStep), j.steps[k]? = some st → st.status.isDone = true
  verdict : j.phase = .finished → j.status = .completed ∨ j.status = .failed
  completed : j.status = .completed →
    ∀ (k : ℕ) (st : UpgradeJobStep), j.steps[k]? = some st → st.status = .completed
  recorded : j.unrecorded = []
  rolling : j.startedAfterFailure = []

variable {j : UpgradeJob}

theorem Inv.truthful (h : Inv j) : Truthful j where
  completed hstatus st hst := by
    obtain ⟨k, hk⟩ := getElem?_of_mem hst
    exact h.completed hstatus k st hk
  failed hfinished _ := by
    rintro ⟨st, hst, hfailed⟩
    refine (h.verdict hfinished).resolve_left fun hstatus => ?_
    obtain ⟨k, hk⟩ := getElem?_of_mem hst
    rw [h.completed hstatus k st hk] at hfailed
    cases hfailed
  recorded := h.recorded
  rolling := h.rolling

theorem Inv.create (strategy : Strategy) (nodes : List (String × StepAction)) :
    Inv (UpgradeJob.create strategy nodes) := by
  have hpending {k : ℕ} {st : UpgradeJobStep}
      (hk : (UpgradeJob.create strategy nodes).steps[k]? = some st) : st.status = .pending := by
    rw [UpgradeJob.create, getElem?_map] at hk
    obtain ⟨node, -, rfl⟩ := Option.map_eq_some_iff.1 hk
    rfl
  refine ⟨fun k st hk => hpending hk, nofun, fun k st hk hskipped => ?_, nofun, fun _ => rfl,
    fun hactive => absurd rfl hactive.1, nofun, nofun, rfl, rfl⟩
  rw [hpending hk] at hskipped
  cases hskipped

variable {k : ℕ} {st : UpgradeJobStep}

/-- A job with a step that is not over runs, as long as its driver is at work. -/
theorem Inv.running (h : Inv j) (hactive : j.phase.Active)
    (hk : j.steps[k]? = some st) (hopen : st.status.isDone = false) : j.status = .running := by
  refine (h.active hactive).resolve_right fun hdone => ?_
  rw [hdone k st hk] at hopen
  cases hopen

variable {phase : DriverPhase} {f : UpgradeJobStep → UpgradeJobStep} {failed : Bool}

theorem Inv.advance (h : Inv j) (hst : j.steps[i]? = some st)
    (hopen : st.status.isDone = false) (hactive : j.phase.Active)
    (hactive' : phase.Active) (hrange : ∀ n, phase = .upgrading n ∨ phase = .handing n → n = i)
    (hstep : Placed phase i (f st))
    (hrest : ∀ k st, k ≠ i → Placed j.phase k st → Placed phase k st)
    (hskipped : (f st).status = .skipped → failed = true) (hmono : j.failed = true → failed = true)
    (hflag : failed = true → j.failed = true ∨ (f st).status = .failed ∧ (f st).seen = .failed) :
    Inv { j.setStep i f with phase, failed } := by
  have hrunning := h.running hactive hst hopen
  have hcases {k : ℕ} {st' : UpgradeJobStep} (hk : (j.setStep i f).steps[k]? = some st') :
      k = i ∧ st' = f st ∨ k ≠ i ∧ j.steps[k]? = some st' := by
    rw [getElem?_setStep] at hk
    by_cases heq : i = k
    · subst heq
      rw [if_pos rfl, hst] at hk
      exact .inl ⟨rfl, (Option.some.inj hk).symm⟩
    · rw [if_neg heq] at hk
      exact .inr ⟨fun hki => heq hki.symm, hk⟩
  constructor
  case placed =>
    intro k st' hk
    rcases hcases hk with ⟨rfl, rfl⟩ | ⟨hne, hk⟩
    · exact hstep
    · exact hrest k st' hne (h.placed k st' hk)
  case inRange =>
    intro n hphase
    rw [hrange n hphase]
    exact (length_modify f j.steps i).symm ▸ (List.getElem?_eq_some_iff.1 hst).1
  case skipped =>
    intro k st' hk hskip
    rcases hcases hk with ⟨-, rfl⟩ | ⟨-, hk⟩
    · exact hskipped hskip
    · exact hmono (h.skipped k st' hk hskip)
  case flag =>
    intro hfailed
    rcases hflag hfailed with hbefore | hnow
    · obtain ⟨k, st', hk, hstatus, hseen⟩ := h.flag hbefore
      have hne : i ≠ k := fun heq => by
        subst heq
        rw [Option.some.inj (hst.symm.trans hk), hstatus] at hopen
        cases hopen
      refine ⟨k, st', ?_, hstatus, hseen⟩
      rw [getElem?_setStep, if_neg hne]
      exact hk
    · refine ⟨i, f st, ?_, hnow⟩
      rw [getElem?_setStep, if_pos rfl, hst]
      rfl
  case fresh => exact fun hphase => absurd hphase hactive'.1
  case active => exact fun _ => .inl hrunning
  case verdict => exact fun hphase => absurd hphase hactive'.2
  case completed =>
    intro hcompleted
    rw [show j.status = .completed from hcompleted] at hrunning
    cases hrunning
  case recorded => exact h.recorded
  case rolling => exact h.rolling

theorem placed_loop_succ
    (hphase : phase = .loop i ∨ phase = .upgrading i ∨ phase = .handing i) (hne : k ≠ i)
    (h : Placed phase k st) : Placed (.loop (i + 1)) k st := by
  have hlt : k < i + 1 ↔ k < i := by omega
  simp only [Placed, hlt]
  rcases hphase with rfl | rfl | rfl
  · exact h
  · simpa only [Placed, if_neg hne] using h
  · simpa only [Placed, if_neg hne] using h

theorem Inv.conclude (h : Inv j) (hphase : j.phase = .loop i) (hend : j.steps.length ≤ i)
    (hk : (∀ st ∈ j.steps, st.seen = .completed ∨ st.seen = .waiting) →
      ∀ st ∈ j.steps, st.status ≠ .waiting ∧ st.status ≠ .failed) : Inv j.conclude := by
  unfold UpgradeJob.conclude
  split
  next hseen =>
    refine ⟨fun _ _ _ => trivial, nofun, h.skipped, h.flag, nofun,
      fun hactive => absurd rfl hactive.2, fun _ => .inl rfl, fun _ k st hst => ?_, h.recorded, h.rolling⟩
    have hmem := mem_of_getElem? hst
    have hplaced := h.placed k st hst
    have hlt : k < i := Nat.lt_of_lt_of_le (List.getElem?_eq_some_iff.1 hst).1 hend
    rw [hphase] at hplaced
    simp only [Placed, if_pos hlt] at hplaced
    obtain ⟨hwaiting, hfailed⟩ := hk hseen st hmem
    rcases hplaced with ⟨-, hstatus | hstatus | hstatus⟩ | ⟨hsame, hdone⟩
    · exact absurd hstatus hwaiting
    · exact hstatus
    · exact absurd hstatus hfailed
    · rcases hseen st hmem with hcompleted | hcompleted
      · exact hsame.trans hcompleted
      · rw [hcompleted] at hdone
        cases hdone
  · exact ⟨fun _ _ _ => trivial, nofun, h.skipped, h.flag, nofun,
      fun hactive => absurd rfl hactive.2, fun _ => .inr rfl, nofun, h.recorded, h.rolling⟩

theorem Clear.setStep (h : j.Clear i) (f : UpgradeJobStep → UpgradeJobStep) :
    (j.setStep i f).Clear i := fun hrolling => by
  rw [otherFailed_setStep]
  exact h hrolling

theorem Inv.next (h : Inv j) (hphase : j.phase = .loop i) (hk : j.Keeps .next) :
    Inv (j.next i) := by
  have hactive : j.phase.Active := by
    rw [hphase]
    exact ⟨nofun, nofun⟩
  have hmay := hk i (by rw [hphase]; rfl)
  unfold UpgradeJob.next
  split
  next hnone =>
    have hend := List.getElem?_eq_none_iff.1 hnone
    rw [if_neg (Nat.not_lt.2 hend)] at hmay
    exact h.conclude hphase hend hmay
  next st hst =>
    rw [if_pos (List.getElem?_eq_some_iff.1 hst).1] at hmay
    have hpending : st.status = .pending := by
      have hplaced := h.placed i st hst
      rw [hphase] at hplaced
      simpa only [Placed, if_neg (Nat.lt_irrefl i)] using hplaced
    have hopen : st.status.isDone = false := by rw [hpending]; rfl
    split
    next hskip =>
      refine h.advance hst hopen hactive ⟨nofun, nofun⟩ nofun ?_
        (fun k st hne => placed_loop_succ (.inl hphase) hne) (fun _ => hskip.1) id .inl
      simp only [Placed, if_pos (Nat.lt_succ_self i)]
      exact .inr ⟨rfl, rfl⟩
    next hgo =>
      have hclear : j.Clear i := fun hrolling =>
        hmay (Bool.eq_false_iff.2 fun hfailed => hgo ⟨hfailed, hrolling⟩) hrolling
      rw [noteStart_of_clear (hclear.setStep _)]
      have hrest {phase : DriverPhase} (hbusy : phase = .upgrading i ∨ phase = .handing i) :
          ∀ k st, k ≠ i → Placed j.phase k st → Placed phase k st := by
        intro k st hne hplaced
        rw [hphase] at hplaced
        rcases hbusy with rfl | rfl
        · simpa only [Placed, if_neg hne] using hplaced
        · simpa only [Placed, if_neg hne] using hplaced
      cases st.action with
      | upgradeCentral =>
        refine h.advance hst hopen hactive ⟨nofun, nofun⟩ ?_ ?_ (hrest (.inl rfl)) nofun id .inl
        · rintro n (hn | hn)
          · exact (DriverPhase.upgrading.inj hn).symm
          · cases hn
        · simp only [Placed, if_neg (Nat.lt_irrefl i), if_true]
          rfl
      | upgradeCollector =>
        refine h.advance hst hopen hactive ⟨nofun, nofun⟩ ?_ ?_ (hrest (.inr rfl)) nofun id .inl
        · rintro n (hn | hn)
          · cases hn
          · exact (DriverPhase.handing.inj hn).symm
        · simp only [Placed, if_neg (Nat.lt_irrefl i), if_true]
          rfl

theorem Inv.leave (h : Inv j) (hphase : j.phase = .upgrading i ∨ j.phase = .handing i)
    (hin : i < j.steps.length)
    (hhandled : ∀ st, Handled (f st)) (hskipped : ∀ st, (f st).status ≠ .skipped)
    (hmono : j.failed = true → failed = true)
    (hflag : failed = true → j.failed = true ∨
      ∀ st, (f st).status = .failed ∧ (f st).seen = .failed) :
    Inv { j.setStep i f with phase := .loop (i + 1), failed } := by
  have hactive : j.phase.Active := by
    rcases hphase with hphase | hphase
    · rw [hphase]
      exact ⟨nofun, nofun⟩
    · rw [hphase]
      exact ⟨nofun, nofun⟩
  have hst := getElem?_eq_getElem hin
  have hrunning : j.steps[i].status = .running := by
    have hplaced := h.placed i _ hst
    rcases hphase with hphase | hphase
    · rw [hphase] at hplaced
      simpa only [Placed, if_neg (Nat.lt_irrefl i), if_true] using hplaced
    · rw [hphase] at hplaced
      simpa only [Placed, if_neg (Nat.lt_irrefl i), if_true] using hplaced
  refine h.advance hst (by rw [hrunning]; rfl) hactive ⟨nofun, nofun⟩ nofun ?_
    (fun k st hne => placed_loop_succ (.inr hphase) hne)
    (fun hskip => absurd hskip (hskipped _)) hmono (fun hfailed => (hflag hfailed).imp_right fun h => h _)
  simp only [Placed, if_pos (Nat.lt_succ_self i)]
  exact hhandled _

/-! ### Reports -/

theorem stepsOf_waiting_running (h : j.stepsOf host [.running] = []) :
    j.stepsOf host [.waiting, .running] = j.stepsOf host [.waiting] := by
  unfold stepsOf
  congr 1
  refine filter_congr fun e he => ?_
  have hnot : ¬(e.1.nodeHostname = host ∧ e.1.status = .running) := fun ⟨hhost, hrunning⟩ => by
    have hmem : e.2 ∈ j.stepsOf host [.running] :=
      mem_stepsOf.2 ⟨e.1, List.mem_zipIdx_iff_getElem?.1 he, hhost, by rw [hrunning]; exact .head _⟩
    rw [h] at hmem
    cases hmem
  rw [decide_eq_decide, mem_cons, mem_singleton, mem_singleton]
  exact ⟨fun ⟨hhost, hor⟩ => ⟨hhost, hor.resolve_right fun hrunning => hnot ⟨hhost, hrunning⟩⟩,
    fun ⟨hhost, hwaiting⟩ => ⟨hhost, .inl hwaiting⟩⟩

theorem Inv.settle (h : Inv j) (hactive : j.phase.Active) : Inv j.settle := by
  unfold UpgradeJob.settle
  split
  next hdone =>
    have hdone' (k : ℕ) (st : UpgradeJobStep) (hk : j.steps[k]? = some st) :
        st.status.isDone = true := hdone st (mem_of_getElem? hk)
    split
    · exact ⟨h.placed, h.inRange, h.skipped, h.flag, fun hphase => absurd hphase hactive.1,
        fun _ => .inr hdone', fun hphase => absurd hphase hactive.2, nofun, h.recorded, h.rolling⟩
    next hnone =>
      refine ⟨h.placed, h.inRange, h.skipped, h.flag, fun hphase => absurd hphase hactive.1,
        fun _ => .inr hdone', fun hphase => absurd hphase hactive.2, fun _ k st hk => ?_, h.recorded,
        h.rolling⟩
      have hfailed : st.status ≠ .failed := fun hfailed => hnone ⟨st, mem_of_getElem? hk, hfailed⟩
      have hskipped : st.status ≠ .skipped := fun hskipped => by
        obtain ⟨k', st', hk', hstatus, -⟩ := h.flag (h.skipped k st hk hskipped)
        exact hnone ⟨st', mem_of_getElem? hk', hstatus⟩
      have hstatus := hdone' k st hk
      cases hcase : st.status with
      | completed => rfl
      | failed => exact absurd hcase hfailed
      | skipped => exact absurd hcase hskipped
      | pending | running | waiting =>
        rw [hcase] at hstatus
        cases hstatus
  · exact h

theorem Placed.of_waiting {st' : UpgradeJobStep}
    (h : Placed phase k st) (hactive : phase.Active) (hwaiting : st.status = .waiting) :
    Handled st ∧ (Handled st' → Placed phase k st') := by
  unfold Placed at h ⊢
  cases phase with
  | notStarted => exact absurd rfl hactive.1
  | finished => exact absurd rfl hactive.2
  | loop n =>
    dsimp only at h ⊢
    split at h
    next hlt => exact ⟨h, fun h' => by rwa [if_pos hlt]⟩
    · rw [h] at hwaiting
      cases hwaiting
  | upgrading n | handing n =>
    dsimp only at h ⊢
    split at h
    next hlt => exact ⟨h, fun h' => by rwa [if_pos hlt]⟩
    · split at h
      · rw [h] at hwaiting
        cases hwaiting
      · rw [h] at hwaiting
        cases hwaiting

theorem Inv.record (h : Inv j) (hstatus : j.status = .running) (hactive : j.phase.Active)
    (hst : j.steps[i]? = some st) (hwaiting : st.status = .waiting)
    {status : StepStatus} (hreport : status = .completed ∨ status = .failed)
    (outputLog errorMessage : Option String) :
    Inv (j.setStep i fun st => { st with status, outputLog, errorMessage }) := by
  have hcases {k : ℕ} {st' : UpgradeJobStep}
      (hk : (j.setStep i fun st => { st with status, outputLog, errorMessage }).steps[k]? = some st') :
      k = i ∧ st'.status = status ∧ st'.seen = st.seen ∨ k ≠ i ∧ j.steps[k]? = some st' := by
    rw [getElem?_setStep] at hk
    by_cases heq : i = k
    · subst heq
      rw [if_pos rfl, hst] at hk
      obtain rfl := Option.some.inj hk
      exact .inl ⟨rfl, rfl, rfl⟩
    · rw [if_neg heq] at hk
      exact .inr ⟨fun hki => heq hki.symm, hk⟩
  constructor
  case placed =>
    intro k st' hk
    rcases hcases hk with ⟨rfl, hnew, hseen⟩ | ⟨hne, hk⟩
    · obtain ⟨hhandled, hplaced⟩ := (h.placed k st hst).of_waiting hactive hwaiting
      refine hplaced ?_
      rcases hhandled with ⟨hseen', -⟩ | ⟨hsame, hdone⟩
      · exact .inl ⟨hseen.trans hseen', .inr (by rwa [hnew])⟩
      · rw [← hsame, hwaiting] at hdone
        cases hdone
    · exact h.placed k st' hk
  case inRange =>
    intro n hphase
    exact (length_modify _ j.steps i).symm ▸ h.inRange n hphase
  case skipped =>
    intro k st' hk hskipped
    rcases hcases hk with ⟨-, hnew, -⟩ | ⟨-, hk⟩
    · rw [hnew] at hskipped
      subst hskipped
      rcases hreport with hreport | hreport
      · cases hreport
      · cases hreport
    · exact h.skipped k st' hk hskipped
  case flag =>
    intro hfailed
    obtain ⟨k, st', hk, hfailed', hseen⟩ := h.flag hfailed
    have hne : i ≠ k := fun heq => by
      subst heq
      rw [Option.some.inj (hst.symm.trans hk), hfailed'] at hwaiting
      cases hwaiting
    refine ⟨k, st', ?_, hfailed', hseen⟩
    rw [getElem?_setStep, if_neg hne]
    exact hk
  case fresh => exact fun hphase => absurd hphase hactive.1
  case active => exact fun _ => .inl hstatus
  case verdict => exact fun hphase => absurd hphase hactive.2
  case completed =>
    intro hcompleted
    rw [show j.status = .completed from hcompleted] at hstatus
    cases hstatus
  case recorded => exact h.recorded
  case rolling => exact h.rolling

theorem Inv.report (h : Inv j) {completed : Bool}
    {outputLog errorMessage : Option String}
    (hk : j.Keeps (.report host completed outputLog errorMessage)) :
    Inv (j.report host completed outputLog errorMessage) := by
  obtain ⟨hnone, hone⟩ := hk
  unfold UpgradeJob.report
  split
  next i hreported =>
    unfold reported at hreported
    split at hreported
    next hstatus =>
      rw [stepsOf_waiting_running hnone] at hreported
      have hmem : i ∈ j.stepsOf host [.waiting] := by
        split at hreported
        next i' hsteps =>
          cases hreported
          rw [hsteps]
          exact .head _
        · cases hreported
      obtain ⟨st, hst, -, hwaiting⟩ := mem_stepsOf.1 hmem
      have hactive : j.phase.Active := by
        constructor
        · intro hphase
          rw [h.fresh hphase] at hstatus
          cases hstatus
        · intro hphase
          rcases h.verdict hphase with hverdict | hverdict
          · rw [hstatus] at hverdict
            cases hverdict
          · rw [hstatus] at hverdict
            cases hverdict
      refine (h.record hstatus hactive hst (List.mem_singleton.1 hwaiting) ?_ _ _).settle hactive
      cases completed with
      | true => exact .inl rfl
      | false => exact .inr rfl
    · cases hreported
  next hreported =>
    split
    · exact h
    next hwaiting =>
      -- A single waiting step of a running job is found.
      have hne : j.stepsOf host [.waiting] ≠ [] := fun hnil => hwaiting (by rw [hnil]; rfl)
      obtain ⟨hstatus, hlength⟩ := hone hne
      obtain ⟨i, hsteps⟩ := List.length_eq_one_iff.1 hlength
      rw [reported, if_pos hstatus, stepsOf_waiting_running hnone, hsteps] at hreported
      cases hreported

/-! ### Runs -/

theorem Inv.step {j' : UpgradeJob} {a : UpgradeAction} (h : Inv j) (hk : j.Keeps a)
    (hs : j.step a = some j') : Inv j' := by
  cases a with
  | start packageFound =>
    simp only [UpgradeJob.step] at hs
    split at hs
    next hphase =>
      have hpending (k : ℕ) (st : UpgradeJobStep) (hk : j.steps[k]? = some st) :
          st.status = .pending := by
        have hplaced := h.placed k st hk
        rwa [hphase] at hplaced
      split at hs
      · cases hs
        exact ⟨fun k st hk => by simpa only [Placed, if_neg (Nat.not_lt_zero k)] using hpending k st hk,
          nofun, h.skipped, h.flag, nofun, fun _ => .inl rfl, nofun, nofun, h.recorded, h.rolling⟩
      · cases hs
        exact ⟨fun _ _ _ => trivial, nofun, h.skipped, h.flag, nofun,
          fun hactive => absurd rfl hactive.2, fun _ => .inr rfl, nofun, h.recorded, h.rolling⟩
    · cases hs
  | next =>
    simp only [UpgradeJob.step] at hs
    split at hs
    next i hphase =>
      cases hs
      exact h.next hphase hk
    · cases hs
  | centralDone result =>
    simp only [UpgradeJob.step] at hs
    split at hs
    next i hphase =>
      cases hs
      have hin := h.inRange i (.inl hphase)
      cases result with
      | ok log =>
        exact h.leave (f := fun st => { st.write .completed with outputLog := some log })
          (.inl hphase) hin (fun st => .inr ⟨rfl, rfl⟩) (fun st => StepStatus.noConfusion) id .inl
      | error e =>
        exact h.leave (f := fun st => { st.write .failed with errorMessage := some e })
          (.inl hphase) hin (fun st => .inr ⟨rfl, rfl⟩) (fun st => StepStatus.noConfusion)
          (fun _ => rfl) fun _ => .inr fun _ => ⟨rfl, rfl⟩
    · cases hs
  | handOver =>
    simp only [UpgradeJob.step] at hs
    split at hs
    next i hphase =>
      cases hs
      have hclear : j.Clear i := hk i (by rw [hphase]; rfl)
      rw [UpgradeJob.handOver, noteStart_of_clear (hclear.setStep _)]
      exact h.leave (f := fun st => { st.write .waiting with
          outputLog := some "Waiting for collector to pull upgrade" })
        (.inr hphase) (h.inRange i (.inr hphase)) (fun st => .inl ⟨rfl, .inl rfl⟩)
        (fun st => StepStatus.noConfusion) id .inl
    · cases hs
  | check host =>
    cases hs
    unfold UpgradeJob.check
    split
    next i havailable =>
      rw [noteStart_of_clear (hk i havailable)]
      exact h
    · exact h
  | report host completed outputLog errorMessage =>
    cases hs
    exact h.report hk

end UpgradeJob

open UpgradeJob

/-- **Jobs tell the truth.** After every run of a new job under the condition the job is completed
only with all its steps, failed when one has failed and all are over, and has lost no report; and a
rolling job has started nothing after a failure. -/
theorem truthful_of_run {strategy : Strategy} {nodes : List (String × StepAction)} {j : UpgradeJob}
    (h : Run step Keeps (create strategy nodes) j) : Truthful j :=
  (h.invariant (I := Inv) (.create strategy nodes) fun hinv hk hs => hinv.step hk hs).truthful

/-- A collector reports while the next central is upgraded, another one as soon as its step
waits. -/
theorem truthful_of_run_reports : ∃ j : UpgradeJob, j.status = .completed ∧
    j.phase = .finished ∧ j.steps.length = 3 ∧ Truthful j := by
  have h : ∃ j ∈ replay step Keeps (create .rolling [("worker1", .upgradeCollector),
      ("central1", .upgradeCentral), ("worker2", .upgradeCollector)])
      [.start true, .check "worker1", .next, .handOver, .check "worker1", .next,
        .report "worker1" true (some "loaded") none, .centralDone (.ok "SCP completed"), .next,
        .handOver, .report "worker2" true (some "loaded") none, .next],
      j.status = .completed ∧ j.phase = .finished ∧ j.steps.length = 3 := by
    decide +kernel
  obtain ⟨j, hj, hstatus, hphase, hlength⟩ := h
  exact ⟨j, hstatus, hphase, hlength, truthful_of_run (run_of_replay hj)⟩

/-- **Untruths.** A job is completed while its collector's step waits, and the collector's failure
is not recorded; and a rolling job hands a step over after another collector has failed. -/
theorem not_truthful :
    (∃ j, Run step (fun _ _ => True) (create .allAtOnce [("worker1", .upgradeCollector)]) j ∧
      j.status = .completed ∧ j.steps.map UpgradeJobStep.status = [.waiting] ∧
      j.unrecorded = ["worker1"] ∧ ¬Truthful j) ∧
    (∃ j, Run step (fun _ _ => True) (create .rolling [("worker1", .upgradeCollector),
        ("worker2", .upgradeCollector)]) j ∧
      j.steps.map UpgradeJobStep.status = [.failed, .waiting] ∧ ¬Truthful j) := by
  refine ⟨?_, ?_⟩
  · have h : ∃ j ∈ replay step (fun _ _ => True) (create .allAtOnce [("worker1", .upgradeCollector)])
        [.start true, .next, .handOver, .next, .report "worker1" false none (some "no space")],
        j.status = .completed ∧ j.steps.map UpgradeJobStep.status = [.waiting] ∧
          j.unrecorded = ["worker1"] := by
      decide +kernel
    obtain ⟨j, hj, hstatus, hsteps, hlost⟩ := h
    refine ⟨j, run_of_replay hj, hstatus, hsteps, hlost, fun htrue => ?_⟩
    rw [htrue.recorded] at hlost
    cases hlost
  · have h : ∃ j ∈ replay step (fun _ _ => True) (create .rolling [("worker1", .upgradeCollector),
          ("worker2", .upgradeCollector)])
        [.start true, .next, .handOver, .report "worker1" false none (some "no space"), .next,
          .handOver],
        j.steps.map UpgradeJobStep.status = [.failed, .waiting] ∧ j.startedAfterFailure = [1, 1] := by
      decide +kernel
    obtain ⟨j, hj, hsteps, hstarted⟩ := h
    refine ⟨j, run_of_replay hj, hsteps, fun htrue => ?_⟩
    rw [htrue.rolling] at hstarted
    cases hstarted

end MonCTL.Upgrades
