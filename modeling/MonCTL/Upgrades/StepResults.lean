import Mathlib.Data.List.Nodup
import Mathlib.Data.List.Perm.Basic
import MonCTL.Lib.Runs

/-!
# Results of OS Install Steps

An OS install job hands a step of a collector's node out by marking it as awaiting the collector.
The collector polls for it, which looks up whose node is calling, and posts the result, which does
not. The endpoint reads the step, turns the request down unless the step awaits its collector,
writes the result with the package flags and the audit rows, commits, and starts a task that
advances the job. Reading and committing are different moments, and so are the loading and the
writing of the task, which goes by what it has loaded.

Each action is one of these moments of a request or a task, or something that the job's driver
writes: it hands out a step, skips it, or works on one of a central. A step is named by its place.
Recorded are the accepted results, the tasks that are over, and the steps that have stopped
awaiting their collector. What the driver records about centrals, times and messages of jobs are
left out.
-/

namespace MonCTL.Upgrades.StepResults

open List Option

/-! ### Jobs -/

/-- `action`. -/
inductive StepAction
  | install
  | reboot
  | healthCheck
  deriving DecidableEq

inductive StepStatus
  | pending
  | running
  | awaitingCollector
  | completed
  | failed
  | skipped
  deriving DecidableEq

inductive JobStatus
  | running
  | awaitingApproval
  | completed
  | failed
  deriving DecidableEq

/-- The strategies that a request can choose. -/
inductive Strategy
  | rolling
  | testFirst
  deriving DecidableEq

/-- `OsInstallJobStep`. -/
structure OsInstallJobStep where
  nodeHostname : String
  isCentral : Bool
  action : StepAction
  isTestNode : Bool := false
  status : StepStatus := .pending
  outputLog : Option String := none
  errorMessage : Option String := none

/-- `OsAvailableUpdate`. -/
structure OsAvailableUpdate where
  nodeHostname : String
  packageName : String
  isInstalled : Bool := false

/-- `OsInstallAudit`. -/
structure OsInstallAudit where
  nodeHostname : String
  packageName : String
  installedBy : String

/-! ### Callers -/

/-- The collectors with their addresses, and the nodes with theirs. -/
structure Nodes where
  collectors : List (String × List String) := []
  systemVersions : List (String × String) := []
  deriving DecidableEq

/-- Who calls: the collector's hostname, and the address that the request comes from. -/
structure Caller where
  hostname : String
  ip : String
  deriving DecidableEq

/-- The node of an address. -/
def Nodes.ofIp (nodes : Nodes) (ip : String) : List String :=
  if ip = "" then []
  else ((nodes.systemVersions.find? fun v => v.2 = ip).map Prod.fst).toList

/-- `_resolve_node_hostnames`. It fails when two collectors have the hostname. -/
def resolveNodeHostnames (nodes : Nodes) (caller : Caller) : Option (List String) :=
  let records := if caller.hostname = "" then []
    else nodes.collectors.filter fun c => c.1 = caller.hostname
  match records with
  | _ :: _ :: _ => none
  | [(_, ip :: _)] =>
    some ((caller.hostname :: nodes.ofIp ip ++ nodes.ofIp caller.ip).filter (· ≠ ""))
  | _ => some ((caller.hostname :: nodes.ofIp caller.ip).filter (· ≠ ""))

/-! ### Results -/

/-- `StepResultRequest`, with the one who sends it. -/
structure StepResult where
  step : ℕ
  completed : Bool
  outputLog : Option String := none
  errorMessage : Option String := none
  caller : Caller
  deriving DecidableEq

def StepResult.status (r : StepResult) : StepStatus := if r.completed then .completed else .failed

/-- A result that has been written, with the node and the action of its step. -/
structure Accepted where
  result : StepResult
  nodeHostname : String
  action : StepAction
  deriving DecidableEq

/-- Whether packages have been installed. -/
def Accepted.installs (a : Accepted) : Bool := a.result.completed && a.action = .install

/-- A job with what is around it, the requests that have passed the check, the tasks with what they
have loaded, and what is recorded. -/
structure State where
  nodes : Nodes
  strategy : Strategy
  packageNames : List String
  startedBy : Option String
  steps : List OsInstallJobStep
  status : JobStatus := .running
  updates : List OsAvailableUpdate := []
  audit : List OsInstallAudit := []
  inFlight : List StepResult := []
  tasks : List (ℕ × Option (List OsInstallJobStep)) := []
  accepted : List Accepted := []
  advanced : List ℕ := []
  left : List ℕ := []

/-- What happens. -/
inductive Action
  /-- A request reads its step, and looks at its status. -/
  | post (r : StepResult)
  | commit (n : ℕ)
  /-- A request fails before it commits. -/
  | abort (n : ℕ)
  /-- A task loads the job. -/
  | load (n : ℕ)
  | advance (n : ℕ)
  /-- The driver hands out or skips a step of a collector, or writes one of a central. -/
  | drive (i : ℕ) (status : StepStatus)
  /-- The driver or the operator changes the status of the job. -/
  | setJob (status : JobStatus)

variable {i k : ℕ} {f : OsInstallJobStep → OsInstallJobStep} {st : OsInstallJobStep} {s' : State}

namespace State

def write (s : State) (i : ℕ) (f : OsInstallJobStep → OsInstallJobStep) : State :=
  { s with
    steps := s.steps.modify i f
    left := if ∃ st ∈ s.steps[i]?, st.status = .awaitingCollector ∧
        (f st).status ≠ .awaitingCollector then s.left ++ [i] else s.left }

/-- Several steps are given a status. -/
def setAll (s : State) (is : List ℕ) (status : StepStatus) : State :=
  is.foldl (fun s i => s.write i fun st => { st with status }) s

/-- `report_step_result` up to its check of the status. -/
def post (s : State) (r : StepResult) : State :=
  match s.steps[r.step]? with
  | some st => if st.status = .awaitingCollector then { s with inFlight := s.inFlight ++ [r] } else s
  | none => s

/-- An update whose package has been installed. -/
def flag (packageNames : List String) (a : Accepted) (u : OsAvailableUpdate) : OsAvailableUpdate :=
  if a.installs = true ∧ u.nodeHostname = a.nodeHostname ∧ u.packageName ∈ packageNames then
    { u with isInstalled := true }
  else u

def auditRows (packageNames : List String) (startedBy : Option String) (a : Accepted) :
    List OsInstallAudit :=
  if a.installs then packageNames.map fun p => ⟨a.nodeHostname, p, startedBy.getD "system"⟩ else []

/-- The rest of `report_step_result`, with the task it starts. -/
def commit (s : State) (n : ℕ) : Option State :=
  match s.inFlight[n]? with
  | none => none
  | some r => match s.steps[r.step]? with
    | none => none
    | some st =>
      let a : Accepted := ⟨r, st.nodeHostname, st.action⟩
      let s' := s.write r.step fun st => { st with
        status := r.status, outputLog := r.outputLog, errorMessage := r.errorMessage }
      some { s' with
        inFlight := s.inFlight.eraseIdx n
        updates := s.updates.map (flag s.packageNames a)
        audit := s.audit ++ auditRows s.packageNames s.startedBy a
        accepted := s.accepted ++ [a]
        tasks := s.tasks ++ [(r.step, none)] }

/-- What `advance_collector_job` does with what it has loaded: it waits for an approval, gives up
after a failure, hands out a step, leaves a central's step to the driver, finishes the job, or does
nothing. -/
inductive Decision
  | pause
  | failFast (steps : List ℕ)
  | handOut (i : ℕ)
  | drive
  | finish
  | nothing

def firstPending (steps : List OsInstallJobStep) : Option (OsInstallJobStep × ℕ) :=
  steps.zipIdx.find? fun e => e.1.status = .pending

/-- The steps that are given up. -/
def openSteps (steps : List OsInstallJobStep) : List ℕ :=
  (steps.zipIdx.filter fun e => e.1.status = .pending ∨ e.1.status = .awaitingCollector).map Prod.snd

def decide (strategy : Strategy) (steps : List OsInstallJobStep) : Decision :=
  if strategy = .testFirst ∧ (∃ st ∈ steps, st.isTestNode = true ∧ st.status = .completed) ∧
      ∃ st ∈ steps, st.isTestNode = false ∧ st.status = .pending then .pause
  else if ∃ st ∈ steps, st.status = .failed then .failFast (openSteps steps)
  else match firstPending steps with
    | some (st, i) => if st.isCentral then .drive else .handOut i
    | none =>
      if ∃ st ∈ steps, st.status = .awaitingCollector ∨ st.status = .running then .nothing
      else .finish

/-- The writes of `advance_collector_job`. -/
def carryOut (s : State) : Decision → State
  | .pause => { s with status := .awaitingApproval }
  | .failFast steps => { s.setAll steps .skipped with status := .failed }
  | .handOut i => s.setAll [i] .awaitingCollector
  | .finish => { s with status := .completed }
  | .drive | .nothing => s

/-- A task loads the job, and is over unless the job runs. -/
def load (s : State) (n : ℕ) : Option State :=
  match s.tasks[n]? with
  | some (r, none) =>
    if s.status = .running then some { s with tasks := s.tasks.set n (r, some s.steps) }
    else some { s with tasks := s.tasks.eraseIdx n, advanced := s.advanced ++ [r] }
  | _ => none

/-- A task does what it has to. -/
def advance (s : State) (n : ℕ) : Option State :=
  match s.tasks[n]? with
  | some (r, some steps) => some { s.carryOut (decide s.strategy steps) with
      tasks := s.tasks.eraseIdx n, advanced := s.advanced ++ [r] }
  | _ => none

def drive (s : State) (i : ℕ) (status : StepStatus) : Option State :=
  match s.steps[i]? with
  | some st =>
    if st.isCentral = true ∧ status ≠ .awaitingCollector ∨
        st.isCentral = false ∧ (status = .awaitingCollector ∨ status = .skipped) then
      some (s.setAll [i] status)
    else none
  | none => none

def step (s : State) : Action → Option State
  | .post r => some (s.post r)
  | .commit n => s.commit n
  | .abort n => some { s with inFlight := s.inFlight.eraseIdx n }
  | .load n => s.load n
  | .advance n => s.advance n
  | .drive i status => s.drive i status
  | .setJob status => some { s with status }

/-- A job that starts: nothing has been handed out. -/
structure IsNew (s : State) : Prop where
  pending : ∀ st ∈ s.steps, st.status = .pending
  accepted : s.accepted = []
  inFlight : s.inFlight = []
  tasks : s.tasks = []
  advanced : s.advanced = []
  left : s.left = []
  audit : s.audit = []

/-- **Finished once**: a step stops awaiting its collector at most once and has at most one accepted
result, which gives it its status and comes from the step's node; a collector's step is completed or
failed only through a result; the flags and the audit rows are those of the accepted results; and
each of these has one task that advances the job. -/
structure FinishedOnce (s₀ s : State) : Prop where
  left : s.left.Nodup
  once : (s.accepted.map fun a => a.result.step).Nodup
  verdict : ∀ a ∈ s.accepted, ∃ st, s.steps[a.result.step]? = some st ∧
    st.nodeHostname = a.nodeHostname ∧ st.status = a.result.status ∧
    st.outputLog = a.result.outputLog ∧ st.errorMessage = a.result.errorMessage
  origin : ∀ (i : ℕ) (st : OsInstallJobStep), s.steps[i]? = some st → st.isCentral = false →
    st.status = .completed ∨ st.status = .failed → ∃ a ∈ s.accepted, a.result.step = i
  node : ∀ a ∈ s.accepted, ∃ hostnames, resolveNodeHostnames s.nodes a.result.caller = some hostnames ∧
    a.nodeHostname ∈ hostnames
  flags : s.updates = s.accepted.foldl (fun us a => us.map (flag s.packageNames a)) s₀.updates
  audit : s.audit = s.accepted.flatMap (auditRows s.packageNames s.startedBy)
  advances : (s.advanced ++ s.tasks.map Prod.fst).Perm (s.accepted.map fun a => a.result.step)

/-! ### The condition -/

def Has (s : State) (i : ℕ) (status : StepStatus) : Prop := ∃ st ∈ s.steps[i]?, st.status = status
  deriving Decidable

def FromNode (s : State) (r : StepResult) : Prop := ∃ st ∈ s.steps[r.step]?,
  ∃ hostnames ∈ resolveNodeHostnames s.nodes r.caller, st.nodeHostname ∈ hostnames
  deriving Decidable

/-- The steps that a task hands out or gives up are still as they must be. -/
def May (s : State) : Decision → Prop
  | .handOut i => s.Has i .pending
  | .failFast is => ∀ i ∈ is, s.Has i .pending ∨ s.Has i .awaitingCollector
  | .pause | .drive | .finish | .nothing => True

instance (s : State) : ∀ d, Decidable (s.May d)
  | .handOut i => inferInstanceAs (Decidable (s.Has i .pending))
  | .failFast is =>
    inferInstanceAs (Decidable (∀ i ∈ is, s.Has i .pending ∨ s.Has i .awaitingCollector))
  | .pause | .drive | .finish | .nothing => inferInstanceAs (Decidable True)

/-- **The condition**: a result is written only while its step still awaits its collector, and only
for the caller's own node; a task hands out, and the driver hands out or skips, only steps that are
still pending; and a task gives up only steps that are as it has loaded them. -/
def Keeps (s : State) : Action → Prop
  | .commit n => ∀ r ∈ s.inFlight[n]?, s.Has r.step .awaitingCollector ∧ s.FromNode r
  | .advance n => ∀ task ∈ s.tasks[n]?, ∀ steps ∈ task.2, s.May (decide s.strategy steps)
  | .drive i _ => ∀ st ∈ s.steps[i]?, st.isCentral = false → st.status = .pending
  | .post _ | .abort _ | .load _ | .setJob _ => True

instance (s : State) : ∀ a, Decidable (s.Keeps a)
  | .commit _ => inferInstanceAs (Decidable (∀ r ∈ _, _ ∧ _))
  | .advance n => inferInstanceAs
      (Decidable (∀ task ∈ s.tasks[n]?, ∀ steps ∈ task.2, s.May (decide s.strategy steps)))
  | .drive i _ => inferInstanceAs (Decidable (∀ st ∈ s.steps[i]?, _ → _))
  | .post _ | .abort _ | .load _ | .setJob _ => inferInstanceAs (Decidable True)

/-! ### The invariant -/

/-- **The invariant**: each step is finished once; a step that is pending or awaits its collector
has no result and has not stopped awaiting before, and a central's step never has; and tasks have
loaded the steps of the right nodes. -/
structure Inv (s₀ s : State) : Prop extends FinishedOnce s₀ s where
  fresh : ∀ (i : ℕ) (st : OsInstallJobStep), s.steps[i]? = some st →
    st.status = .pending ∨ st.status = .awaitingCollector ∨ st.isCentral = true →
    i ∉ s.left ∧ ∀ a ∈ s.accepted, a.result.step ≠ i
  central : ∀ (i : ℕ) (st : OsInstallJobStep), s.steps[i]? = some st → st.isCentral = true →
    st.status ≠ .awaitingCollector
  copies : ∀ task ∈ s.tasks, ∀ steps ∈ task.2, ∀ (i : ℕ) (st : OsInstallJobStep),
    steps[i]? = some st → ∃ st', s.steps[i]? = some st' ∧ st'.isCentral = st.isCentral

variable {s₀ s : State}

theorem Inv.start (h : s.IsNew) : Inv s s where
  left := by
    rw [h.left]
    exact .nil
  once := by
    rw [h.accepted]
    exact .nil
  verdict := by
    rw [h.accepted]
    nofun
  origin i st hst _ hdone := by
    rw [h.pending st (mem_of_getElem? hst)] at hdone
    rcases hdone with hdone | hdone
    · cases hdone
    · cases hdone
  node := by
    rw [h.accepted]
    nofun
  flags := by
    rw [h.accepted]
    rfl
  audit := by
    rw [h.accepted, h.audit]
    rfl
  advances := by
    rw [h.accepted, h.advanced, h.tasks]
    exact .nil
  fresh i st hst _ := by
    rw [h.accepted, h.left]
    exact ⟨nofun, nofun⟩
  central i st hst _ hawaiting := by
    rw [h.pending st (mem_of_getElem? hst)] at hawaiting
    cases hawaiting
  copies := by
    rw [h.tasks]
    nofun

theorem getElem?_write (s : State) (i k : ℕ) (f : OsInstallJobStep → OsInstallJobStep) :
    (s.write i f).steps[k]? = if i = k then (s.steps[k]?).map f else s.steps[k]? := by
  rw [write, List.getElem?_modify]
  split
  · rfl
  · exact Option.map_id'

theorem of_getElem?_write {st' : OsInstallJobStep} (hst : s.steps[i]? = some st)
    (h : (s.write i f).steps[k]? = some st') : k = i ∧ st' = f st ∨ k ≠ i ∧
    s.steps[k]? = some st' := by
  rw [getElem?_write] at h
  by_cases heq : i = k
  · subst heq
    rw [if_pos rfl, hst] at h
    exact .inl ⟨rfl, (some.inj h).symm⟩
  · rw [if_neg heq] at h
    exact .inr ⟨fun hki => heq hki.symm, h⟩

theorem exists_getElem?_write (h : s.steps[k]? = some st) :
    (s.write i f).steps[k]? = some (if i = k then f st else st) := by
  rw [getElem?_write, h]
  split
  · rfl
  · rfl

theorem left_write (s : State) (i : ℕ) (f : OsInstallJobStep → OsInstallJobStep) :
    (s.write i f).left = s.left ∨ (s.write i f).left = s.left ++ [i] ∧
      ∃ st, s.steps[i]? = some st ∧ st.status = .awaitingCollector ∧
        (f st).status ≠ .awaitingCollector := by
  rw [write]
  dsimp only
  split
  next h =>
    obtain ⟨st, hst, hleaves⟩ := h
    exact .inr ⟨rfl, st, hst, hleaves⟩
  · exact .inl rfl

theorem Inv.nodup_left_write (h : Inv s₀ s) (i : ℕ) (f : OsInstallJobStep → OsInstallJobStep) :
    (s.write i f).left.Nodup := by
  rcases left_write s i f with hleft | ⟨hleft, st, hst, hawaiting, -⟩
  · rw [hleft]
    exact h.left
  · rw [hleft]
    refine List.nodup_append.2 ⟨h.left, nodup_singleton i, ?_⟩
    rintro k hk k' hk' rfl
    rw [List.mem_singleton.1 hk'] at hk
    exact (h.fresh i st hst (.inr (.inl hawaiting))).1 hk

theorem notMem_left_write (hne : k ≠ i) (h : k ∉ s.left) : k ∉ (s.write i f).left := by
  rcases left_write s i f with hleft | ⟨hleft, -⟩
  · rwa [hleft]
  · rw [hleft, mem_append, mem_singleton]
    exact fun hmem => hmem.elim h hne

variable {steps : List OsInstallJobStep}

theorem Inv.copies_write (h : Inv s₀ s)
    (hf : ∀ st, (f st).isCentral = st.isCentral)
    {task : ℕ × Option (List OsInstallJobStep)} (htask : task ∈ s.tasks) (hsteps : steps ∈ task.2)
    (hst : steps[k]? = some st) :
    ∃ st', (s.write i f).steps[k]? = some st' ∧ st'.isCentral = st.isCentral := by
  obtain ⟨st', hst', hcentral⟩ := h.copies task htask steps hsteps k st hst
  refine ⟨_, exists_getElem?_write hst', ?_⟩
  split
  · rw [hf, hcentral]
  · exact hcentral

/-- Statuses that a step may get from a task or the driver. -/
def MayBecome (st : OsInstallJobStep) (status : StepStatus) : Prop :=
  st.isCentral = true ∧ status ≠ .awaitingCollector ∨
    st.isCentral = false ∧ (st.status = .pending ∧ status = .awaitingCollector ∨
      (st.status = .pending ∨ st.status = .awaitingCollector) ∧ status = .skipped)

theorem Inv.setStatus (h : Inv s₀ s) {status : StepStatus}
    (hst : s.steps[i]? = some st) (hmay : MayBecome st status) :
    Inv s₀ (s.write i fun st => { st with status }) := by
  have hfresh := h.fresh i st hst (by
    rcases hmay with ⟨hcentral, -⟩ | ⟨-, ⟨hpending, -⟩ | ⟨hopen, -⟩⟩
    · exact .inr (.inr hcentral)
    · exact .inl hpending
    · exact hopen.imp_right .inl)
  refine { h with
    left := h.nodup_left_write i _
    verdict := ?verdict, origin := ?origin, fresh := ?fresh, central := ?central, copies := ?copies }
  case verdict =>
    intro a ha
    obtain ⟨st', hst', hverdict⟩ := h.verdict a ha
    refine ⟨st', ?_, hverdict⟩
    rw [getElem?_write, if_neg fun heq => hfresh.2 a ha heq.symm]
    exact hst'
  case origin =>
    intro k st' hst' hcollector hdone
    rcases of_getElem?_write hst hst' with ⟨rfl, rfl⟩ | ⟨-, hst'⟩
    · rcases hmay with ⟨hcentral, -⟩ | ⟨-, ⟨-, rfl⟩ | ⟨-, rfl⟩⟩
      · exact absurd (hcentral.symm.trans hcollector) (by decide)
      · rcases hdone with hdone | hdone
        · cases hdone
        · cases hdone
      · rcases hdone with hdone | hdone
        · cases hdone
        · cases hdone
    · exact h.origin k st' hst' hcollector hdone
  case fresh =>
    intro k st' hst' hopen
    rcases of_getElem?_write hst hst' with ⟨rfl, rfl⟩ | ⟨hne, hst'⟩
    · refine ⟨?_, hfresh.2⟩
      rcases left_write s k fun st => { st with status } with hleft | ⟨-, st', hst', hawaiting, hnot⟩
      · rw [hleft]
        exact hfresh.1
      · obtain rfl := some.inj (hst.symm.trans hst')
        rcases hmay with ⟨hcentral, -⟩ | ⟨hcollector, ⟨hpending, -⟩ | ⟨-, rfl⟩⟩
        · exact absurd hawaiting (h.central k st hst hcentral)
        · rw [hpending] at hawaiting
          cases hawaiting
        · rcases hopen with hopen | hopen | hopen
          · cases hopen
          · cases hopen
          · exact absurd (hcollector.symm.trans hopen) (by decide)
    · obtain ⟨hleft, haccepted⟩ := h.fresh k st' hst' hopen
      exact ⟨notMem_left_write hne hleft, haccepted⟩
  case central =>
    intro k st' hst' hcentral
    rcases of_getElem?_write hst hst' with ⟨rfl, rfl⟩ | ⟨-, hst'⟩
    · rcases hmay with ⟨-, hstatus⟩ | ⟨hcollector, -⟩
      · exact hstatus
      · exact absurd (hcollector.symm.trans hcentral) (by decide)
    · exact h.central k st' hst' hcentral
  case copies =>
    intro task htask steps hsteps k st' hst'
    exact h.copies_write (f := fun st => { st with status }) (fun _ => rfl) htask hsteps hst'

theorem MayBecome.skipped
    (h : st.status = .pending ∨ st.status = .awaitingCollector) : MayBecome st .skipped := by
  cases hcentral : st.isCentral with
  | true => exact .inl ⟨hcentral, nofun⟩
  | false => exact .inr ⟨hcentral, .inr ⟨h, rfl⟩⟩

variable {is : List ℕ}

theorem Inv.setAll_skipped (h : Inv s₀ s) (hnodup : is.Nodup)
    (hopen : ∀ i ∈ is, s.Has i .pending ∨ s.Has i .awaitingCollector) :
    Inv s₀ (s.setAll is .skipped) := by
  induction is generalizing s with
  | nil => exact h
  | cons i is ih =>
    obtain ⟨hnot, hnodup⟩ := List.nodup_cons.1 hnodup
    have hst : ∃ st, s.steps[i]? = some st ∧
        (st.status = .pending ∨ st.status = .awaitingCollector) := by
      rcases hopen i (.head _) with ⟨st, hst, hstatus⟩ | ⟨st, hst, hstatus⟩
      · exact ⟨st, hst, .inl hstatus⟩
      · exact ⟨st, hst, .inr hstatus⟩
    obtain ⟨st, hst, hstatus⟩ := hst
    refine ih (h.setStatus hst (.skipped hstatus)) hnodup fun k hk => ?_
    have hne : ¬i = k := fun heq => hnot (heq ▸ hk)
    have hhas {status : StepStatus} (h : s.Has k status) :
        (s.write i fun st => { st with status := .skipped }).Has k status := by
      obtain ⟨st', hst', hstatus'⟩ := h
      exact ⟨st', by rw [Option.mem_def, getElem?_write, if_neg hne]; exact hst', hstatus'⟩
    exact (hopen k (.tail _ hk)).imp hhas hhas

theorem nodup_openSteps (steps : List OsInstallJobStep) : (openSteps steps).Nodup := by
  refine (List.filter_sublist.map Prod.snd).nodup ?_
  rw [zipIdx_map_snd]
  exact nodup_range'

variable {strategy : Strategy}

theorem of_decide_eq_handOut
    (h : decide strategy steps = .handOut i) : ∃ st, steps[i]? = some st ∧ st.isCentral = false :=
    by
  unfold decide at h
  split at h
  · cases h
  · split at h
    · cases h
    · split at h
      next st k hfirst =>
        split at h
        · cases h
        next hcollector =>
          cases h
          exact ⟨st, List.mem_zipIdx_iff_getElem?.1 (mem_of_find?_eq_some hfirst),
            Bool.eq_false_iff.2 hcollector⟩
      · split at h
        · cases h
        · cases h

theorem of_decide_eq_failFast
    (h : decide strategy steps = .failFast is) : is = openSteps steps := by
  unfold decide at h
  split at h
  · cases h
  · split at h
    · cases h
      rfl
    · split at h
      · split at h
        · cases h
        · cases h
      · split at h
        · cases h
        · cases h

variable {n : ℕ}

theorem perm_eraseIdx {α : Type} {l : List α} {a : α} (h : l[n]? = some a) :
    (a :: l.eraseIdx n).Perm l := by
  obtain ⟨hn, rfl⟩ := List.getElem?_eq_some_iff.1 h
  exact getElem_cons_eraseIdx_perm hn

theorem Inv.endTask (h : Inv s₀ s) {r : ℕ} {copy : Option (List OsInstallJobStep)}
    (htask : s.tasks[n]? = some (r, copy)) : Inv s₀
    { s with tasks := s.tasks.eraseIdx n, advanced := s.advanced ++ [r] } := by
  refine { h with advances := ?_, copies := fun task htask => h.copies task (mem_of_mem_eraseIdx htask) }
  have hperm := (perm_eraseIdx htask).map Prod.fst
  rw [append_assoc]
  exact (hperm.append_left s.advanced).trans h.advances

theorem Inv.carryOut (h : Inv s₀ s) {d : Decision}
    (hd : decide s.strategy steps = d)
    (hcopies : ∀ (i : ℕ) (st : OsInstallJobStep), steps[i]? = some st →
      ∃ st', s.steps[i]? = some st' ∧ st'.isCentral = st.isCentral)
    (hk : s.May d) : Inv s₀ (s.carryOut d) := by
  cases d with
  | pause => exact { h with }
  | failFast is =>
    have hinv := h.setAll_skipped (by rw [of_decide_eq_failFast hd]; exact nodup_openSteps _) hk
    exact { hinv with }
  | handOut i =>
    obtain ⟨st, hst, hcollector⟩ := of_decide_eq_handOut hd
    obtain ⟨st', hst', hsame⟩ := hcopies i st hst
    obtain ⟨st'', hst'', hpending⟩ := hk
    obtain rfl := some.inj (hst'.symm.trans hst'')
    exact h.setStatus hst' (.inr ⟨hsame.trans hcollector, .inl ⟨hpending, rfl⟩⟩)
  | finish => exact { h with }
  | drive | nothing => exact h

theorem tasks_setAll (s : State) (is : List ℕ) (status : StepStatus) :
    (s.setAll is status).tasks = s.tasks ∧ (s.setAll is status).advanced = s.advanced := by
  induction is generalizing s with
  | nil => exact ⟨rfl, rfl⟩
  | cons i is ih => exact ih (s.write i fun st => { st with status })

theorem tasks_carryOut (s : State) (d : Decision) :
    (s.carryOut d).tasks = s.tasks ∧ (s.carryOut d).advanced = s.advanced := by
  cases d with
  | failFast is => exact tasks_setAll s is .skipped
  | handOut i => exact tasks_setAll s [i] .awaitingCollector
  | pause | drive | finish | nothing => exact ⟨rfl, rfl⟩

theorem Inv.advance (h : Inv s₀ s) (hk : s.Keeps (.advance n))
    (hs : s.advance n = some s') : Inv s₀ s' := by
  unfold State.advance at hs
  split at hs
  next r steps htask =>
    cases hs
    have hcopies := h.copies _ (mem_of_getElem? htask) steps rfl
    have hinv := h.carryOut rfl hcopies (hk _ htask steps rfl)
    obtain ⟨htasks, hadvanced⟩ := tasks_carryOut s (decide s.strategy steps)
    rw [← htasks, ← hadvanced]
    exact hinv.endTask (by rw [htasks]; exact htask)
  · cases hs

theorem Inv.commit (h : Inv s₀ s) (hk : s.Keeps (.commit n))
    (hs : s.commit n = some s') : Inv s₀ s' := by
  unfold State.commit at hs
  split at hs
  · cases hs
  next r hr =>
    split at hs
    · cases hs
    next st hst =>
      cases hs
      obtain ⟨⟨st', hst', hawaiting⟩, st'', hst'', hostnames, hresolve, hnode⟩ := hk r hr
      obtain rfl := some.inj (hst.symm.trans hst')
      obtain rfl := some.inj (hst.symm.trans hst'')
      obtain ⟨hleft, hnew⟩ := h.fresh r.step st hst (.inr (.inl hawaiting))
      have hcollector : st.isCentral = false :=
        Bool.eq_false_iff.2 fun hcentral => h.central r.step st hst hcentral hawaiting
      have hmem {a : Accepted} (ha : a ∈ s.accepted ++ [⟨r, st.nodeHostname, st.action⟩]) :
          a ∈ s.accepted ∨ a = ⟨r, st.nodeHostname, st.action⟩ :=
        (List.mem_append.1 ha).imp_right List.mem_singleton.1
      refine {
        left := h.nodup_left_write r.step _
        once := ?once, verdict := ?verdict, origin := ?origin, node := ?node, flags := ?flags
        audit := ?audit, advances := ?advances, fresh := ?fresh, central := ?central
        copies := ?copies }
      case once =>
        rw [map_append, nodup_append]
        refine ⟨h.once, nodup_singleton _, ?_⟩
        rintro i hi k hk rfl
        obtain ⟨a, ha, rfl⟩ := List.mem_map.1 hi
        exact hnew a ha (List.mem_singleton.1 hk)
      case verdict =>
        intro a ha
        rcases hmem ha with ha | rfl
        · obtain ⟨st', hst', hverdict⟩ := h.verdict a ha
          refine ⟨st', ?_, hverdict⟩
          change (s.write r.step _).steps[a.result.step]? = some st'
          rw [getElem?_write, if_neg fun heq => hnew a ha heq.symm]
          exact hst'
        · refine ⟨_, exists_getElem?_write hst, ?_⟩
          rw [if_pos rfl]
          exact ⟨rfl, rfl, rfl, rfl⟩
      case origin =>
        intro k st' hst' hcollector' hdone
        rcases of_getElem?_write hst hst' with ⟨rfl, -⟩ | ⟨-, hst'⟩
        · exact ⟨_, mem_append_right _ (.head _), rfl⟩
        · obtain ⟨a, ha, hstep⟩ := h.origin k st' hst' hcollector' hdone
          exact ⟨a, mem_append_left _ ha, hstep⟩
      case node =>
        intro a ha
        rcases hmem ha with ha | rfl
        · exact h.node a ha
        · exact ⟨hostnames, hresolve, hnode⟩
      case flags =>
        dsimp only
        rw [foldl_append, foldl_cons, foldl_nil, h.flags]
        rfl
      case audit =>
        dsimp only
        rw [flatMap_append, flatMap_singleton, h.audit]
        rfl
      case advances =>
        dsimp only
        rw [map_append, map_append, ← append_assoc]
        exact h.advances.append_right _
      case fresh =>
        intro k st' hst' hopen
        rcases of_getElem?_write hst hst' with ⟨rfl, rfl⟩ | ⟨hne, hst'⟩
        · rcases hopen with hopen | hopen | hopen
          · simp only [StepResult.status] at hopen
            split at hopen
            · cases hopen
            · cases hopen
          · simp only [StepResult.status] at hopen
            split at hopen
            · cases hopen
            · cases hopen
          · exact absurd (hcollector.symm.trans hopen) (by decide)
        · obtain ⟨hleft', hother⟩ := h.fresh k st' hst' hopen
          refine ⟨notMem_left_write hne hleft', fun a ha => ?_⟩
          rcases hmem ha with ha | rfl
          · exact hother a ha
          · exact hne.symm
      case central =>
        intro k st' hst' hcentral
        rcases of_getElem?_write hst hst' with ⟨rfl, rfl⟩ | ⟨-, hst'⟩
        · exact absurd (hcollector.symm.trans hcentral) (by decide)
        · exact h.central k st' hst' hcentral
      case copies =>
        intro task htask steps hsteps k st' hst'
        rcases List.mem_append.1 htask with htask | htask
        · exact h.copies_write (f := fun st => { st with
            status := r.status, outputLog := r.outputLog, errorMessage := r.errorMessage })
            (fun _ => rfl) htask hsteps hst'
        · rw [List.mem_singleton.1 htask] at hsteps
          cases hsteps

theorem Inv.step {a : Action} (h : Inv s₀ s) (hk : s.Keeps a) (hs : s.step a = some s') :
    Inv s₀ s' := by
  cases a with
  | post r =>
    cases hs
    unfold State.post
    split
    · split
      · exact { h with }
      · exact h
    · exact h
  | commit n => exact h.commit hk hs
  | abort n =>
    cases hs
    exact { h with }
  | load n =>
    simp only [State.step, State.load] at hs
    split at hs
    next r htask =>
      split at hs
      · cases hs
        refine { h with advances := ?_, copies := ?_ }
        · dsimp only
          rw [map_set]
          have hmap : (s.tasks.map Prod.fst).set n r = s.tasks.map Prod.fst := by
            refine ext_getElem? fun k => ?_
            rw [getElem?_set, getElem?_map]
            split
            next heq =>
              subst heq
              rw [length_map, htask, if_pos (List.getElem?_eq_some_iff.1 htask).1]
              rfl
            · rfl
          rw [hmap]
          exact h.advances
        · intro task hmem steps hsteps i st hst
          rcases mem_or_eq_of_mem_set hmem with hmem | rfl
          · exact h.copies task hmem steps hsteps i st hst
          · obtain rfl := some.inj hsteps
            exact ⟨st, hst, rfl⟩
      · cases hs
        exact h.endTask htask
    · cases hs
  | advance n => exact h.advance hk hs
  | drive i status =>
    simp only [State.step, State.drive] at hs
    split at hs
    next st hst =>
      split at hs
      next hmay =>
        cases hs
        refine h.setStatus hst (hmay.imp_right fun ⟨hcollector, hstatus⟩ => ⟨hcollector, ?_⟩)
        have hpending := hk st hst hcollector
        exact hstatus.imp (fun h => ⟨hpending, h⟩) fun h => ⟨.inl hpending, h⟩
      · cases hs
    · cases hs
  | setJob status =>
    cases hs
    exact { h with }

end State

open State

/-- **Finished once.** After every run of a new job under the condition each step has stopped
awaiting its collector at most once, through one result of its own node, with its flags, audit rows
and one task. -/
theorem finishedOnce_of_run {s₀ s : State} (hnew : s₀.IsNew) (h : Run State.step State.Keeps s₀ s) :
    FinishedOnce s₀ s :=
  (h.invariant (I := Inv s₀) (.start hnew) fun hinv hk hs => hinv.step hk hs).toFinishedOnce

/-- A rolling job with two collectors, of which the first is known by its address. -/
def twoCollectors : State where
  nodes := {
    collectors := [("worker1", ["10.0.0.1"]), ("worker2.local", ["10.0.0.2"])]
    systemVersions := [("worker1", "10.0.0.1"), ("worker2", "10.0.0.2")] }
  strategy := .rolling
  packageNames := ["openssl"]
  startedBy := some "admin"
  steps := [{ nodeHostname := "worker1", isCentral := false, action := .install },
    { nodeHostname := "worker2", isCentral := false, action := .install }]
  updates := [⟨"worker1", "openssl", false⟩, ⟨"worker2", "openssl", false⟩]

theorem twoCollectors_isNew : twoCollectors.IsNew where
  pending := by decide
  accepted := rfl
  inFlight := rfl
  tasks := rfl
  advanced := rfl
  left := rfl
  audit := rfl

/-- The result of a step of the job, sent from an address. -/
def resultFrom (ip : String) (step : ℕ) (completed : Bool) : StepResult where
  step
  completed
  outputLog := none
  errorMessage := none
  caller := ⟨"", ip⟩

/-- Both collectors finish their steps; a retry after the first result is turned down. -/
theorem finishedOnce_of_run_both : ∃ s : State,
    s.steps.map OsInstallJobStep.status = [.completed, .completed] ∧ s.accepted.length = 2 ∧
    s.advanced = [0, 1] ∧ FinishedOnce twoCollectors s := by
  have h : ∃ s ∈ replay State.step State.Keeps twoCollectors
      [.drive 0 .awaitingCollector, .post (resultFrom "10.0.0.1" 0 true), .commit 0,
        .post (resultFrom "10.0.0.1" 0 true), .load 0, .advance 0,
        .post (resultFrom "10.0.0.2" 1 true), .commit 0, .load 0, .advance 0],
      s.steps.map OsInstallJobStep.status = [.completed, .completed] ∧ s.accepted.length = 2 ∧
        s.advanced = [0, 1] := by
    decide +kernel
  obtain ⟨s, hs, hstatus, haccepted, hadvanced⟩ := h
  exact ⟨s, hstatus, haccepted, hadvanced,
    finishedOnce_of_run twoCollectors_isNew (run_of_replay hs)⟩

/-- **Twice, and by another node.** Two requests that have both read the step before either commits
are both accepted; and a collector finishes the step of another one's node. -/
theorem not_finishedOnce : (∃ s : State, Run State.step (fun _ _ => True) twoCollectors s ∧
      (s.accepted.map fun a => a.result.step) = [0, 0] ∧ s.audit.length = 1 ∧
      s.steps.map OsInstallJobStep.status = [.failed, .pending] ∧ ¬FinishedOnce twoCollectors s) ∧
    (∃ s : State, Run State.step (fun _ _ => True) twoCollectors s ∧
      s.steps.map OsInstallJobStep.status = [.completed, .pending] ∧
      s.accepted.map (fun a => a.result.caller.ip) = ["10.0.0.2"] ∧
      ¬FinishedOnce twoCollectors s) := by
  refine ⟨?_, ?_⟩
  · have h : ∃ s ∈ replay State.step (fun _ _ => True) twoCollectors
        [.drive 0 .awaitingCollector, .post (resultFrom "10.0.0.1" 0 true),
          .post (resultFrom "10.0.0.1" 0 false), .commit 0, .commit 0],
        (s.accepted.map fun a => a.result.step) = [0, 0] ∧ s.audit.length = 1 ∧
          s.steps.map OsInstallJobStep.status = [.failed, .pending] := by
      decide +kernel
    obtain ⟨s, hs, haccepted, haudit, hstatus⟩ := h
    refine ⟨s, run_of_replay hs, haccepted, haudit, hstatus, fun hfinished => ?_⟩
    have honce := hfinished.once
    rw [haccepted] at honce
    exact absurd honce (by decide)
  · have h : ∃ s ∈ replay State.step (fun _ _ => True) twoCollectors
        [.drive 0 .awaitingCollector, .post (resultFrom "10.0.0.2" 0 true), .commit 0],
        s.steps.map OsInstallJobStep.status = [.completed, .pending] ∧
          s.accepted.map (fun a => a.result.caller.ip) = ["10.0.0.2"] ∧
          s.accepted = [⟨resultFrom "10.0.0.2" 0 true, "worker1", .install⟩] ∧
          s.nodes = twoCollectors.nodes := by
      decide +kernel
    obtain ⟨s, hs, hstatus, hip, haccepted, hnodes⟩ := h
    refine ⟨s, run_of_replay hs, hstatus, hip, fun hfinished => ?_⟩
    obtain ⟨hostnames, hresolve, hnode⟩ := hfinished.node _ (by rw [haccepted]; exact .head _)
    rw [hnodes] at hresolve
    obtain rfl : ["worker2"] = hostnames := some.inj hresolve
    exact absurd hnode (by decide)

end MonCTL.Upgrades.StepResults
