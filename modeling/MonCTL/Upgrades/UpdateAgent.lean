import MonCTL.Upgrades.StepResults

/-!
# The Update Agent of a Collector

The agent of a collector's node polls central for a step, carries it out through the sidecar of its
host, and then reports the result. It keeps no record of what it has started. So a step whose report
does not get to central is handed to the agent again, and a host that goes down between its reboot
call and the report is rebooted once more.

The agent and central take their steps one after another, in any order; reports are under way
between them, may be lost, and arrive also after the agent has stopped waiting for the answer. What
happens at central is the system of `StepResults`, for each of several jobs. Recorded is what has
been started, and whether its result had been accepted then.
-/

namespace MonCTL.Upgrades.UpdateAgent

open List StepResults

/-! ### The agent -/

/-- A step of a job. -/
structure Task where
  job : ℕ
  step : ℕ
  deriving DecidableEq

/-- What the agent is doing. Its second report of a step is the one after an error. -/
inductive Agent
  | idle
  | received (t : Task) (action : StepAction)
  | acted (t : Task) (action : StepAction) (outcome : Except String String) (second : Bool)
  | waiting (t : Task) (action : StepAction) (result : StepResult) (second : Bool)

/-- A step that has been started, and whether its result had been accepted before. -/
structure Started where
  task : Task
  action : StepAction
  reported : Bool

/-- The jobs at central, the agent, the reports that are under way, and what has been started. -/
structure State where
  jobs : List StepResults.State
  agent : Agent := .idle
  sent : List (ℕ × StepResult) := []
  started : List Started := []

/-- What happens. -/
inductive Event
  /-- `get_my_tasks` hands a step to the agent. -/
  | poll (t : Task)
  /-- The step is carried out, with an output or an error. -/
  | act (outcome : Except String String)
  /-- The sidecar is not reached. -/
  | fail (message : String)
  | send
  | arrive (n : ℕ)
  | drop (n : ℕ)
  /-- The agent gets an answer to its report, whatever it says. -/
  | answered
  /-- The agent gets no answer to its report. -/
  | unanswered (message : String)
  | crash
  | central (job : ℕ) (a : Action)

namespace State

/-- The result of a task has been accepted. -/
def reported (s : State) (t : Task) : Bool :=
  s.jobs[t.job]?.any fun j => j.accepted.any fun a => a.result.step = t.step

/-- A step awaits the collector, and the job runs. -/
def Offered (caller : Caller) (s : State) (t : Task) : Prop :=
  ∃ j ∈ s.jobs[t.job]?, j.status = .running ∧ ∃ st ∈ j.steps[t.step]?,
    st.status = .awaitingCollector ∧
      ∃ hostnames ∈ resolveNodeHostnames j.nodes caller, st.nodeHostname ∈ hostnames

instance (caller : Caller) (s : State) (t : Task) : Decidable (s.Offered caller t) :=
  inferInstanceAs (Decidable (∃ j ∈ s.jobs[t.job]?, _ ∧ ∃ st ∈ j.steps[t.step]?, _ ∧
    ∃ hostnames ∈ resolveNodeHostnames j.nodes caller, _))

/-- No step before this one is offered. -/
def First (caller : Caller) (s : State) (t : Task) : Prop :=
  ∀ job < s.jobs.length, ∀ step < t.step, ¬s.Offered caller ⟨job, step⟩

instance (caller : Caller) (s : State) (t : Task) : Decidable (s.First caller t) :=
  inferInstanceAs (Decidable (∀ job < s.jobs.length, ∀ step < t.step, _))

def actionOf (s : State) (t : Task) : Option StepAction :=
  s.jobs[t.job]?.bind fun j => j.steps[t.step]?.map OsInstallJobStep.action

end State

/-- What is sent to the sidecar is recorded. -/
def record (s : State) (t : Task) : StepAction → List Started
  | .install => s.started ++ [⟨t, .install, s.reported t⟩]
  | .reboot => s.started ++ [⟨t, .reboot, s.reported t⟩]
  | .healthCheck => s.started

/-- What is reported of a step. -/
def outcomeOf : StepAction → Except String String → Except String String
  | .install, outcome => outcome
  | .reboot, outcome => outcome.map fun _ => "Reboot initiated"
  | .healthCheck, _ => .ok "Node healthy (agent running)"

/-- `_report`. -/
def resultOf (caller : Caller) (t : Task) : Except String String → StepResult
  | .ok output => ⟨t.step, true, some output, none, caller⟩
  | .error message => ⟨t.step, false, none, some message, caller⟩

/-- The system. -/
def step (caller : Caller) (s : State) : Event → Option State
  | .poll t =>
    match s.agent, s.actionOf t with
    | .idle, some action =>
      if s.Offered caller t ∧ s.First caller t then some { s with agent := .received t action }
      else none
    | _, _ => none
  | .act outcome =>
    match s.agent with
    | .received t action => some { s with
        agent := .acted t action (outcomeOf action outcome) false
        started := record s t action }
    | _ => none
  | .fail message =>
    match s.agent with
    | .received t action => some { s with agent := .acted t action (.error message) false }
    | _ => none
  | .send =>
    match s.agent with
    | .acted t action outcome second => some { s with
        agent := .waiting t action (resultOf caller t outcome) second
        sent := s.sent ++ [(t.job, resultOf caller t outcome)] }
    | _ => none
  | .arrive n =>
    match s.sent[n]? with
    | some (job, r) => some { s with
        jobs := s.jobs.modify job fun j => j.post r
        sent := s.sent.eraseIdx n }
    | none => none
  | .drop n => some { s with sent := s.sent.eraseIdx n }
  | .answered =>
    match s.agent with
    | .waiting t _ r _ =>
      if (t.job, r) ∈ s.sent ∨ ∃ j ∈ s.jobs[t.job]?, r ∈ j.inFlight then none
      else some { s with agent := .idle }
    | _ => none
  | .unanswered message =>
    match s.agent with
    | .waiting t action _ false => some { s with agent := .acted t action (.error message) true }
    | .waiting _ _ _ true => some { s with agent := .idle }
    | _ => none
  | .crash => some { s with agent := .idle }
  | .central job a =>
    match s.jobs[job]? with
    | some j => (j.step a).map fun j' => { s with jobs := s.jobs.set job j' }
    | none => none

/-! ### What is to hold -/

/-- **Once per step**: each reboot step is started at most once, and no install step after its
result has been accepted. -/
structure OncePerStep (s : State) : Prop where
  reboots : ((s.started.filter (·.action = .reboot)).map Started.task).Nodup
  installs : ∀ e ∈ s.started, e.action = .install → e.reported = false

/-- Nothing has been handed out yet. -/
structure IsNew (s : State) : Prop where
  jobs : ∀ j ∈ s.jobs, j.IsNew
  agent : s.agent = .idle
  sent : s.sent = []
  started : s.started = []

/-! ### The condition -/

/-- The task that the agent has started and not finished reporting. -/
def Agent.busyWith : Agent → Option (Task × StepAction)
  | .idle => none
  | .received _ _ => none
  | .acted t action _ _ => some (t, action)
  | .waiting t action _ _ => some (t, action)

def State.Awaits (s : State) (t : Task) : Prop :=
  ∃ j ∈ s.jobs[t.job]?, j.Has t.step .awaitingCollector

instance (s : State) (t : Task) : Decidable (s.Awaits t) :=
  inferInstanceAs (Decidable (∃ j ∈ s.jobs[t.job]?, _))

/-- A report of a task is under way, or is being processed. -/
def State.UnderWay (s : State) (t : Task) : Prop :=
  (∃ m ∈ s.sent, m.1 = t.job ∧ m.2.step = t.step) ∨
    ∃ j ∈ s.jobs[t.job]?, ∃ r ∈ j.inFlight, r.step = t.step

instance (s : State) (t : Task) : Decidable (s.UnderWay t) :=
  inferInstanceAs (Decidable (_ ∨ ∃ j ∈ s.jobs[t.job]?, ∃ r ∈ j.inFlight, _))

/-- The agent is not busy with a reboot step that it has started and that still awaits it. -/
def State.MayStop (s : State) : Prop :=
  ∀ e ∈ s.started, e.action = .reboot → s.agent.busyWith = some (e.task, .reboot) →
    ¬s.Awaits e.task

instance (s : State) : Decidable s.MayStop :=
  inferInstanceAs (Decidable (∀ e ∈ s.started, _ → _ → _))

/-- A step that a task hands out is still pending. -/
def StillPending (j : StepResults.State) : StepResults.State.Decision → Prop
  | .handOut i => j.Has i .pending
  | .pause | .failFast _ | .drive | .finish | .nothing => True

instance (j : StepResults.State) : ∀ d, Decidable (StillPending j d)
  | .handOut i => inferInstanceAs (Decidable (j.Has i .pending))
  | .pause | .failFast _ | .drive | .finish | .nothing => inferInstanceAs (Decidable True)

/-- Central hands out only steps that are still pending. -/
def HandsOutPending (j : StepResults.State) : Action → Prop
  | .drive i status => status = .awaitingCollector → j.Has i .pending
  | .advance n => ∀ task ∈ j.tasks[n]?, ∀ steps ∈ task.2,
      StillPending j (StepResults.State.decide j.strategy steps)
  | .post _ | .commit _ | .abort _ | .load _ | .setJob _ => True

instance (j : StepResults.State) : ∀ a, Decidable (HandsOutPending j a)
  | .drive i status => inferInstanceAs (Decidable (status = .awaitingCollector → j.Has i .pending))
  | .advance n => inferInstanceAs (Decidable (∀ task ∈ j.tasks[n]?, ∀ steps ∈ task.2,
      StillPending j (StepResults.State.decide j.strategy steps)))
  | .post _ | .commit _ | .abort _ | .load _ | .setJob _ => inferInstanceAs (Decidable True)

/-- What the agent has received and not started. -/
def Agent.holds : Agent → Option Task
  | .received t _ => some t
  | .idle | .acted .. | .waiting .. => none

/-- A result of another collector is not for what the agent has received. -/
def State.Foreign (s : State) (job : ℕ) : Action → Prop
  | .post r => s.agent.holds ≠ some ⟨job, r.step⟩
  | .commit _ | .abort _ | .load _ | .advance _ | .drive .. | .setJob _ => True

instance (s : State) (job : ℕ) : ∀ a, Decidable (s.Foreign job a)
  | .post r => inferInstanceAs (Decidable (s.agent.holds ≠ some ⟨job, r.step⟩))
  | .commit _ | .abort _ | .load _ | .advance _ | .drive .. | .setJob _ =>
    inferInstanceAs (Decidable True)

/-- The report that the agent waits for is its second one. -/
def Agent.isLast : Agent → Bool
  | .waiting _ _ _ second => second
  | .idle | .received .. | .acted .. => false

/-- **The condition**: the agent neither goes down nor stops waiting for an answer after a reboot call
as long as the step still awaits it; an install step is not handed to it while a report of it is
under way, and no other collector posts a result of it; and central hands out only steps that are
still pending. -/
def Keeps (s : State) : Event → Prop
  | .poll t => s.actionOf t = some .install → ¬s.UnderWay t
  | .answered | .crash => s.MayStop
  | .unanswered _ => s.agent.isLast = true → s.MayStop
  | .central job a => (∀ j ∈ s.jobs[job]?, HandsOutPending j a) ∧ s.Foreign job a
  | .act _ | .fail _ | .send | .arrive _ | .drop _ => True

instance (s : State) : ∀ e, Decidable (Keeps s e)
  | .poll t => inferInstanceAs (Decidable (s.actionOf t = some .install → ¬s.UnderWay t))
  | .answered | .crash => inferInstanceAs (Decidable s.MayStop)
  | .unanswered _ => inferInstanceAs (Decidable (s.agent.isLast = true → s.MayStop))
  | .central job a => inferInstanceAs
      (Decidable ((∀ j ∈ s.jobs[job]?, HandsOutPending j a) ∧ s.Foreign job a))
  | .act _ | .fail _ | .send | .arrive _ | .drop _ => inferInstanceAs (Decidable True)

/-! ### Steps at central -/

/-- How a step of a job may change: one of a central does not come to await a collector, and one of a
collector does so only from pending, which it does not become again. -/
structure Evolves (st st' : OsInstallJobStep) : Prop where
  isCentral : st'.isCentral = st.isCentral
  central : st.isCentral = true → st.status ≠ .awaitingCollector → st'.status ≠ .awaitingCollector
  pending : st.isCentral = false → st'.status = .pending → st.status = .pending
  awaiting : st.isCentral = false → st'.status = .awaitingCollector →
    st.status = .pending ∨ st.status = .awaitingCollector

theorem Evolves.refl (st : OsInstallJobStep) : Evolves st st :=
  ⟨rfl, fun _ h => h, fun _ h => h, fun _ h => .inr h⟩

theorem Evolves.trans {st₁ st₂ st₃ : OsInstallJobStep} (h : Evolves st₁ st₂)
    (h' : Evolves st₂ st₃) :
    Evolves st₁ st₃ where
  isCentral := h'.isCentral.trans h.isCentral
  central hc hs := h'.central (h.isCentral.trans hc) (h.central hc hs)
  pending hc hs := h.pending hc (h'.pending (h.isCentral.trans hc) hs)
  awaiting hc hs := by
    rcases h'.awaiting (h.isCentral.trans hc) hs with hs | hs
    · exact .inl (h.pending hc hs)
    · exact h.awaiting hc hs

theorem Evolves.done {st st' : OsInstallJobStep} (hcentral : st'.isCentral = st.isCentral)
    (hpending : st'.status ≠ .pending) (hawaiting : st'.status ≠ .awaitingCollector) :
    Evolves st st' :=
  ⟨hcentral, fun _ _ => hawaiting, fun _ h => absurd h hpending, fun _ h => absurd h hawaiting⟩

def EvolveAll (j j' : StepResults.State) : Prop :=
  ∀ i : ℕ, (∀ st, j.steps[i]? = some st → ∃ st', j'.steps[i]? = some st' ∧ Evolves st st') ∧
    ∀ st', j'.steps[i]? = some st' → ∃ st, j.steps[i]? = some st ∧ Evolves st st'

variable {j j' : StepResults.State}

theorem EvolveAll.refl (h : j'.steps = j.steps) : EvolveAll j j' := by
  intro i
  rw [h]
  exact ⟨fun st hst => ⟨st, hst, .refl st⟩, fun st hst => ⟨st, hst, .refl st⟩⟩

theorem EvolveAll.trans {j₁ j₂ j₃ : StepResults.State} (h : EvolveAll j₁ j₂)
    (h' : EvolveAll j₂ j₃) :
    EvolveAll j₁ j₃ := by
  intro i
  refine ⟨fun st hst => ?_, fun st hst => ?_⟩
  · obtain ⟨st', hst', he⟩ := (h i).1 st hst
    obtain ⟨st'', hst'', he'⟩ := (h' i).1 st' hst'
    exact ⟨st'', hst'', he.trans he'⟩
  · obtain ⟨st', hst', he'⟩ := (h' i).2 st hst
    obtain ⟨st'', hst'', he⟩ := (h i).2 st' hst'
    exact ⟨st'', hst'', he.trans he'⟩

theorem evolveAll_write {i : ℕ} {f : OsInstallJobStep → OsInstallJobStep}
    (hf : ∀ st, j.steps[i]? = some st → Evolves st (f st)) : EvolveAll j (j.write i f) := by
  intro k
  rw [StepResults.State.getElem?_write]
  by_cases hk : i = k
  · rw [if_pos hk, ← hk]
    refine ⟨fun st hst => ⟨f st, by rw [hst]; rfl, hf st hst⟩, fun st' hst' => ?_⟩
    obtain ⟨st, hst, rfl⟩ := Option.map_eq_some_iff.1 hst'
    exact ⟨st, hst, hf st hst⟩
  · rw [if_neg hk]
    exact ⟨fun st hst => ⟨st, hst, .refl st⟩, fun st hst => ⟨st, hst, .refl st⟩⟩

theorem evolveAll_skipped (j : StepResults.State) (is : List ℕ) : EvolveAll j
    (j.setAll is .skipped) := by
  induction is generalizing j with
  | nil => exact .refl rfl
  | cons i is ih =>
    have hfirst : EvolveAll j (j.write i fun st => { st with status := .skipped }) :=
      evolveAll_write fun st _ => .done rfl (fun h => by cases h) (fun h => by cases h)
    exact hfirst.trans (ih _)

/-- What central keeps of the steps of a job: none of its own awaits a collector, tasks have loaded
the steps of the right nodes, results are posted of steps of collectors that have been handed out,
and accepted results leave them done. -/
structure JobInv (j : StepResults.State) : Prop where
  central : ∀ (i : ℕ) (st : OsInstallJobStep), j.steps[i]? = some st → st.isCentral = true →
    st.status ≠ .awaitingCollector
  copies : ∀ task ∈ j.tasks, ∀ steps ∈ task.2, ∀ (i : ℕ) (st : OsInstallJobStep),
    steps[i]? = some st → ∃ st', j.steps[i]? = some st' ∧ st'.isCentral = st.isCentral
  inFlight : ∀ r ∈ j.inFlight, ∃ st, j.steps[r.step]? = some st ∧ st.isCentral = false ∧
    st.status ≠ .pending
  accepted : ∀ a ∈ j.accepted, ∃ st, j.steps[a.result.step]? = some st ∧ st.isCentral = false ∧
    st.status ≠ .pending ∧ st.status ≠ .awaitingCollector

/-- What a step does to a job. -/
structure Stepped (j : StepResults.State) (a : Action) (j' : StepResults.State) : Prop where
  steps : EvolveAll j j'
  tasks : ∀ task ∈ j'.tasks, ∀ steps ∈ task.2, steps = j.steps ∨ ∃ task' ∈ j.tasks, steps ∈ task'.2
  inFlight : ∀ r ∈ j'.inFlight, r ∈ j.inFlight ∨ a = .post r ∧ j.Has r.step .awaitingCollector
  accepted : ∀ x ∈ j'.accepted, x ∈ j.accepted ∨ x.result ∈ j.inFlight ∧
    ∃ st, j'.steps[x.result.step]? = some st ∧ st.status ≠ .pending ∧
      st.status ≠ .awaitingCollector

variable {a : Action}

theorem Stepped.of_eq (hsteps : j'.steps = j.steps) (htasks : ∀ task ∈ j'.tasks, ∀ steps ∈ task.2,
      steps = j.steps ∨ ∃ task' ∈ j.tasks, steps ∈ task'.2)
    (hinFlight : ∀ r ∈ j'.inFlight, r ∈ j.inFlight) (haccepted : j'.accepted = j.accepted) :
    Stepped j a j' :=
  ⟨.refl hsteps, htasks, fun r hr => .inl (hinFlight r hr), fun x hx => .inl (haccepted ▸ hx)⟩

theorem tasks_of_mem {tasks : List (ℕ × Option (List OsInstallJobStep))}
    (h : ∀ task ∈ tasks, task ∈ j.tasks) : ∀ task ∈ tasks, ∀ steps ∈ task.2,
      steps = j.steps ∨ ∃ task' ∈ j.tasks, steps ∈ task'.2 :=
  fun task htask _ hsteps => .inr ⟨task, h task htask, hsteps⟩

theorem setAll_rest (j : StepResults.State) (is : List ℕ) (status : StepStatus) :
    (j.setAll is status).tasks = j.tasks ∧ (j.setAll is status).inFlight = j.inFlight ∧
      (j.setAll is status).accepted = j.accepted := by
  induction is generalizing j with
  | nil => exact ⟨rfl, rfl, rfl⟩
  | cons i is ih => exact ih (j.write i fun st => { st with status })

theorem evolveAll_handOut {i : ℕ} (hcollector : ∀ st, j.steps[i]? = some st → st.isCentral = false)
    (hpending : j.Has i .pending) : EvolveAll j (j.setAll [i] .awaitingCollector) := by
  refine evolveAll_write fun st hst => ?_
  obtain ⟨st', hst', hp⟩ := hpending
  obtain rfl := Option.some.inj (hst.symm.trans hst')
  refine ⟨rfl, fun hc => ?_, (fun _ h => by cases h), fun _ _ => .inl hp⟩
  exact absurd ((hcollector st hst).symm.trans hc) (by decide)

theorem Stepped.of_steps {k : StepResults.State} (h : EvolveAll j k)
    (hrest : k.tasks = j.tasks ∧ k.inFlight = j.inFlight ∧ k.accepted = j.accepted)
    (hsteps : j'.steps = k.steps) (htasks : ∀ task ∈ j'.tasks, task ∈ k.tasks)
    (hinFlight : j'.inFlight = k.inFlight) (haccepted : j'.accepted = k.accepted) :
    Stepped j a j' where
  steps := h.trans (.refl hsteps)
  tasks := tasks_of_mem fun task htask => hrest.1 ▸ htasks task htask
  inFlight r hr := by
    rw [hinFlight, hrest.2.1] at hr
    exact .inl hr
  accepted x hx := by
    rw [haccepted, hrest.2.2] at hx
    exact .inl hx

/-- **What a step of central does**, if it hands out only what is pending. -/
theorem JobInv.stepped (h : JobInv j)
    (hk : HandsOutPending j a) (hs : j.step a = some j') : Stepped j a j' := by
  cases a with
  | post r =>
    cases hs
    rw [StepResults.State.post]
    split
    next st hst =>
      split
      next hawaiting =>
        refine ⟨.refl rfl, tasks_of_mem fun _ h => h, fun r' hr' => ?_, fun _ h => .inl h⟩
        rcases List.mem_append.1 hr' with hr' | hr'
        · exact .inl hr'
        · obtain rfl := List.mem_singleton.1 hr'
          exact .inr ⟨rfl, st, hst, hawaiting⟩
      · exact .of_eq rfl (tasks_of_mem fun _ h => h) (fun _ h => h) rfl
    · exact .of_eq rfl (tasks_of_mem fun _ h => h) (fun _ h => h) rfl
  | commit n =>
    have hs : j.commit n = some j' := hs
    rw [StepResults.State.commit] at hs
    split at hs
    · cases hs
    next r hr =>
      split at hs
      · cases hs
      next st hst =>
        cases hs
        have hstatus : r.status ≠ .pending ∧ r.status ≠ .awaitingCollector := by
          rw [StepResult.status]
          split <;> decide
        have hwrite : EvolveAll j (j.write r.step fun st => { st with
            status := r.status, outputLog := r.outputLog, errorMessage := r.errorMessage }) :=
          evolveAll_write fun _ _ => .done rfl hstatus.1 hstatus.2
        refine ⟨hwrite.trans (.refl rfl),
          fun task htask steps hsteps => ?_, fun r' hr' => .inl (mem_of_mem_eraseIdx hr'),
          fun x hx => ?_⟩
        · rcases List.mem_append.1 htask with htask | htask
          · exact .inr ⟨task, htask, hsteps⟩
          · rw [List.mem_singleton.1 htask] at hsteps
            cases hsteps
        · rcases List.mem_append.1 hx with hx | hx
          · exact .inl hx
          · obtain rfl := List.mem_singleton.1 hx
            have hput := (StepResults.State.exists_getElem?_write (i := r.step) (f := fun st =>
              { st with status := r.status, outputLog := r.outputLog, errorMessage := r.errorMessage })
              hst).trans (by rw [if_pos rfl])
            exact .inr ⟨mem_of_getElem? hr, _, hput, hstatus.1, hstatus.2⟩
  | abort n =>
    cases hs
    exact .of_eq rfl (tasks_of_mem fun _ h => h) (fun _ h => mem_of_mem_eraseIdx h) rfl
  | load n =>
    have hs : j.load n = some j' := hs
    rw [StepResults.State.load] at hs
    split at hs
    next r hr =>
      split at hs
      · cases hs
        refine .of_eq rfl (fun task htask steps hsteps => ?_) (fun _ h => h) rfl
        rcases mem_or_eq_of_mem_set htask with htask | rfl
        · exact .inr ⟨task, htask, hsteps⟩
        · exact .inl (Option.some.inj hsteps).symm
      · cases hs
        exact .of_eq rfl (tasks_of_mem fun _ h => mem_of_mem_eraseIdx h) (fun _ h => h) rfl
    · cases hs
  | advance n =>
    have hs : j.advance n = some j' := hs
    rw [StepResults.State.advance] at hs
    split at hs
    next r steps hr =>
      cases hs
      have htask := mem_of_getElem? hr
      have hpending := hk _ hr steps rfl
      cases hd : StepResults.State.decide j.strategy steps with
      | pause =>
        exact .of_steps (.refl rfl) ⟨rfl, rfl, rfl⟩ rfl (fun _ h => mem_of_mem_eraseIdx h)
          rfl rfl
      | failFast is =>
        exact .of_steps (evolveAll_skipped j is) (setAll_rest j is .skipped) rfl
          (fun _ h => (setAll_rest j is .skipped).1 ▸ mem_of_mem_eraseIdx h) rfl rfl
      | handOut i =>
        rw [hd] at hpending
        obtain ⟨st, hst, hcollector⟩ := StepResults.State.of_decide_eq_handOut hd
        obtain ⟨st', hst', hsame⟩ := h.copies _ htask steps rfl i st hst
        refine .of_steps (evolveAll_handOut (fun st'' hst'' => ?_) hpending)
          (setAll_rest j [i] .awaitingCollector) rfl
          (fun _ h => (setAll_rest j [i] .awaitingCollector).1 ▸ mem_of_mem_eraseIdx h) rfl rfl
        obtain rfl := Option.some.inj (hst'.symm.trans hst'')
        exact hsame.trans hcollector
      | drive =>
        exact .of_steps (.refl rfl) ⟨rfl, rfl, rfl⟩ rfl (fun _ h => mem_of_mem_eraseIdx h)
          rfl rfl
      | finish =>
        exact .of_steps (.refl rfl) ⟨rfl, rfl, rfl⟩ rfl (fun _ h => mem_of_mem_eraseIdx h)
          rfl rfl
      | nothing =>
        exact .of_steps (.refl rfl) ⟨rfl, rfl, rfl⟩ rfl (fun _ h => mem_of_mem_eraseIdx h)
          rfl rfl
    · cases hs
  | drive i status =>
    have hs : j.drive i status = some j' := hs
    rw [StepResults.State.drive] at hs
    split at hs
    next st hst =>
      split at hs
      next hallowed =>
        cases hs
        refine .of_steps (k := j.setAll [i] status) ?_ (setAll_rest j [i] status) rfl
          (fun _ h => h) rfl rfl
        by_cases hawaiting : status = .awaitingCollector
        · subst hawaiting
          refine evolveAll_handOut (fun st' hst' => ?_) (hk rfl)
          obtain rfl := Option.some.inj (hst.symm.trans hst')
          rcases hallowed with ⟨-, hnot⟩ | ⟨hcollector, -⟩
          · exact absurd rfl hnot
          · exact hcollector
        · refine evolveAll_write fun st' hst' => ?_
          obtain rfl := Option.some.inj (hst.symm.trans hst')
          refine ⟨rfl, fun _ _ => hawaiting, fun hcollector hp => ?_, fun _ h => absurd h hawaiting⟩
          rcases hallowed with ⟨hcentral, -⟩ | ⟨-, h | h⟩
          · exact absurd (hcollector.symm.trans hcentral) (by decide)
          · exact absurd h hawaiting
          · rw [h] at hp
            cases hp
      · cases hs
    · cases hs
  | setJob status =>
    cases hs
    exact .of_eq rfl (tasks_of_mem fun _ h => h) (fun _ h => h) rfl

/-- **Central keeps its invariant.** -/
theorem JobInv.next (h : JobInv j) (hs : Stepped j a j') : JobInv j' where
  central i st' hst' hcentral := by
    obtain ⟨st, hst, he⟩ := (hs.steps i).2 st' hst'
    have hc : st.isCentral = true := he.isCentral.symm.trans hcentral
    exact he.central hc (h.central i st hst hc)
  copies task htask steps hsteps i st hst := by
    obtain ⟨st₀, hst₀, hsame⟩ : ∃ st₀, j.steps[i]? = some st₀ ∧ st₀.isCentral = st.isCentral := by
      rcases hs.tasks task htask steps hsteps with rfl | ⟨task', htask', hsteps'⟩
      · exact ⟨st, hst, rfl⟩
      · exact h.copies task' htask' steps hsteps' i st hst
    obtain ⟨st', hst', he⟩ := (hs.steps i).1 st₀ hst₀
    exact ⟨st', hst', he.isCentral.trans hsame⟩
  inFlight r hr := by
    obtain ⟨st, hst, hcollector, hpending⟩ : ∃ st, j.steps[r.step]? = some st ∧
        st.isCentral = false ∧ st.status ≠ .pending := by
      rcases hs.inFlight r hr with hr | ⟨-, st, hst, hawaiting⟩
      · exact h.inFlight r hr
      · refine ⟨st, hst, ?_, by rw [hawaiting]; decide⟩
        by_contra hcentral
        exact h.central _ st hst (Bool.not_eq_false _ ▸ hcentral) hawaiting
    obtain ⟨st', hst', he⟩ := (hs.steps r.step).1 st hst
    exact ⟨st', hst', he.isCentral.trans hcollector, fun hp => hpending (he.pending hcollector hp)⟩
  accepted x hx := by
    rcases hs.accepted x hx with hx | ⟨hr, st', hst', hpending, hawaiting⟩
    · obtain ⟨st, hst, hcollector, hpending, hawaiting⟩ := h.accepted x hx
      obtain ⟨st', hst', he⟩ := (hs.steps _).1 st hst
      refine ⟨st', hst', he.isCentral.trans hcollector,
        fun hp => hpending (he.pending hcollector hp), fun ha => ?_⟩
      exact (he.awaiting hcollector ha).elim hpending hawaiting
    · obtain ⟨st, hst, hcollector, -⟩ := h.inFlight _ hr
      obtain ⟨st'', hst'', he⟩ := (hs.steps _).1 st hst
      obtain rfl := Option.some.inj (hst'.symm.trans hst'')
      exact ⟨st', hst', he.isCentral.trans hcollector, hpending, hawaiting⟩

/-! ### The invariant -/

variable {caller : Caller} {s s' : State}

/-- A step of a collector that has been handed out. -/
def State.Handed (s : State) (t : Task) : Prop :=
  ∃ j, s.jobs[t.job]? = some j ∧ ∃ st, j.steps[t.step]? = some st ∧ st.isCentral = false ∧
    st.status ≠ .pending

/-- **The invariant**: what has been started was handed out; a reboot step that has been started is
still being reported, or does not await its collector any more; and what the agent has received has
not been started if it is a reboot, and neither has a result nor a report if it is an install. -/
structure Inv (s : State) : Prop extends OncePerStep s where
  jobs : ∀ j ∈ s.jobs, JobInv j
  handed : ∀ e ∈ s.started, s.Handed e.task
  rebooted : ∀ e ∈ s.started, e.action = .reboot →
    s.agent.busyWith = some (e.task, .reboot) ∨ ¬s.Awaits e.task
  received : ∀ t action, s.agent = .received t action → s.Handed t ∧
    (action = .reboot → ∀ e ∈ s.started, e.action = .reboot → e.task ≠ t) ∧
    (action = .install → s.reported t = false ∧ ¬s.UnderWay t)

theorem Inv.start (h : IsNew s) : Inv s where
  reboots := by
    rw [h.started]
    exact .nil
  installs e he := by
    rw [h.started] at he
    cases he
  jobs j hj :=
    have hnew := h.jobs j hj
    { central := fun i st hst _ hawaiting => by
        rw [hnew.pending st (mem_of_getElem? hst)] at hawaiting
        cases hawaiting
      copies := fun task htask => by
        rw [hnew.tasks] at htask
        cases htask
      inFlight := fun r hr => by
        rw [hnew.inFlight] at hr
        cases hr
      accepted := fun a ha => by
        rw [hnew.accepted] at ha
        cases ha }
  handed e he := by
    rw [h.started] at he
    cases he
  rebooted e he := by
    rw [h.started] at he
    cases he
  received t action hreceived := by
    rw [h.agent] at hreceived
    cases hreceived

/-- Jobs take steps; results are posted only where a condition holds. -/
structure Moved (Posted : ℕ → StepResult → Prop) (s s' : State) : Prop where
  back : ∀ (k : ℕ) (j' : StepResults.State), s'.jobs[k]? = some j' →
    ∃ j a, s.jobs[k]? = some j ∧ Stepped j a j' ∧ ∀ r, a = .post r → Posted k r
  forth : ∀ (k : ℕ) (j : StepResults.State), s.jobs[k]? = some j →
    ∃ a j', s'.jobs[k]? = some j' ∧ Stepped j a j'

variable {Posted : ℕ → StepResult → Prop}

theorem stepped_self (j : StepResults.State) : Stepped j (.setJob j.status) j :=
  .of_eq rfl (tasks_of_mem fun _ h => h) (fun _ h => h) rfl

theorem moved_set {job : ℕ} (hjob : s.jobs[job]? = some j)
    (hs : Stepped j a j') (hpost : ∀ r, a = .post r → Posted job r)
    (hjobs : s'.jobs = s.jobs.set job j') : Moved Posted s s' := by
  have hget (k : ℕ) : s'.jobs[k]? = if job = k then some j' else s.jobs[k]? := by
    rw [hjobs, getElem?_set]
    split
    next heq => rw [if_pos (List.getElem?_eq_some_iff.1 hjob).1]
    · rfl
  refine ⟨fun k j₁ hj₁ => ?_, fun k j₁ hj₁ => ?_⟩
  · rw [hget] at hj₁
    split at hj₁
    next heq =>
      cases hj₁
      exact ⟨j, a, heq ▸ hjob, hs, heq ▸ hpost⟩
    · exact ⟨j₁, _, hj₁, stepped_self j₁, fun r hr => by cases hr⟩
  · rw [hget]
    split
    next heq =>
      rw [← heq, hjob] at hj₁
      cases hj₁
      exact ⟨a, j', rfl, hs⟩
    · exact ⟨_, j₁, hj₁, stepped_self j₁⟩

theorem moved_of_eq (hjobs : s'.jobs = s.jobs) : Moved Posted s s' := by
  refine ⟨fun k j hj => ?_, fun k j hj => ?_⟩
  · exact ⟨j, _, hjobs ▸ hj, stepped_self j, fun r hr => by cases hr⟩
  · exact ⟨_, j, hjobs ▸ hj, stepped_self j⟩

variable {t : Task}

theorem Moved.handed (h : Moved Posted s s') (ht : s.Handed t) : s'.Handed t := by
  obtain ⟨j, hj, st, hst, hcollector, hpending⟩ := ht
  obtain ⟨a, j', hj', hs⟩ := h.forth _ j hj
  obtain ⟨st', hst', he⟩ := (hs.steps _).1 st hst
  exact ⟨j', hj', st', hst', he.isCentral.trans hcollector,
    fun hp => hpending (he.pending hcollector hp)⟩

theorem Moved.not_awaits (h : Moved Posted s s') (ht : s.Handed t) (hnot : ¬s.Awaits t) :
    ¬s'.Awaits t := by
  rintro ⟨j', hj', st', hst', hawaiting⟩
  obtain ⟨j, a, hj, hs, -⟩ := h.back _ j' hj'
  obtain ⟨j₀, hj₀, st, hst, hcollector, hpending⟩ := ht
  obtain rfl := Option.some.inj (hj.symm.trans hj₀)
  obtain ⟨st₀, hst₀, he⟩ := (hs.steps _).2 st' hst'
  obtain rfl := Option.some.inj (hst.symm.trans hst₀)
  refine hnot ⟨j, hj, st, hst, ?_⟩
  exact (he.awaiting hcollector hawaiting).resolve_left hpending

theorem Moved.not_reported (h : Moved Posted s s') (hnot : s.reported t = false)
    (hway : ¬s.UnderWay t) : s'.reported t = false := by
  rw [State.reported] at hnot ⊢
  cases hj' : s'.jobs[t.job]? with
  | none => rfl
  | some j' =>
    obtain ⟨j, a, hj, hs, -⟩ := h.back _ j' hj'
    rw [hj, Option.any_some, any_eq_false] at hnot
    rw [Option.any_some, any_eq_false]
    intro x hx hstep
    rcases hs.accepted x hx with hx | ⟨hr, -⟩
    · exact hnot x hx hstep
    · exact hway (.inr ⟨j, hj, x.result, hr, of_decide_eq_true hstep⟩)

theorem Moved.not_underWay (h : Moved Posted s s') (hway : ¬s.UnderWay t)
    (hsent : ∀ m ∈ s'.sent, m ∈ s.sent) (hpost : ∀ r, Posted t.job r → r.step ≠ t.step) :
    ¬s'.UnderWay t := by
  rintro (⟨m, hm, hjob⟩ | ⟨j', hj', r, hr, hstep⟩)
  · exact hway (.inl ⟨m, hsent m hm, hjob⟩)
  · obtain ⟨j, a, hj, hs, hposted⟩ := h.back _ j' hj'
    rcases hs.inFlight r hr with hr | ⟨ha, -⟩
    · exact hway (.inr ⟨j, hj, r, hr, hstep⟩)
    · exact hpost r (hposted r ha) hstep

/-- **Jobs that take steps keep the invariant.** -/
theorem Inv.moved (h : Inv s) (hm : Moved Posted s s') (hagent : s'.agent = s.agent)
    (hstarted : s'.started = s.started) (hsent : ∀ m ∈ s'.sent, m ∈ s.sent)
    (hpost : ∀ t, s.agent = .received t .install → ∀ r, Posted t.job r → r.step ≠ t.step) :
    Inv s' where
  reboots := hstarted ▸ h.reboots
  installs := hstarted ▸ h.installs
  jobs j' hj' := by
    obtain ⟨k, hk⟩ := getElem?_of_mem hj'
    obtain ⟨j, a, hj, hs, -⟩ := hm.back k j' hk
    exact (h.jobs j (mem_of_getElem? hj)).next hs
  handed e he := hm.handed (h.handed e (hstarted ▸ he))
  rebooted e he hreboot := by
    rw [hagent]
    rw [hstarted] at he
    exact (h.rebooted e he hreboot).imp_right (hm.not_awaits (h.handed e he))
  received t action hreceived := by
    rw [hagent] at hreceived
    obtain ⟨hhanded, hreboot, hinstall⟩ := h.received t action hreceived
    refine ⟨hm.handed hhanded, hstarted ▸ hreboot, fun haction => ?_⟩
    obtain ⟨hnot, hway⟩ := hinstall haction
    exact ⟨hm.not_reported hnot hway,
      hm.not_underWay hway hsent (hpost t (haction ▸ hreceived))⟩

/-- **The agent goes on to something else.** -/
theorem Inv.agent (h : Inv s) (hjobs : s'.jobs = s.jobs) (hstarted : s'.started = s.started)
    (hholds : s'.agent.holds = none)
    (hbusy : ∀ e ∈ s.started, e.action = .reboot → s.agent.busyWith = some (e.task, .reboot) →
      s'.agent.busyWith = some (e.task, .reboot) ∨ ¬s.Awaits e.task) : Inv s' where
  reboots := hstarted ▸ h.reboots
  installs := hstarted ▸ h.installs
  jobs := hjobs ▸ h.jobs
  handed e he := by
    have hm : Moved (fun _ _ => True) s s' := moved_of_eq hjobs
    exact hm.handed (h.handed e (hstarted ▸ he))
  rebooted e he hreboot := by
    rw [hstarted] at he
    have hm : Moved (fun _ _ => True) s s' := moved_of_eq hjobs
    rcases h.rebooted e he hreboot with hb | hnot
    · exact (hbusy e he hreboot hb).imp_right (hm.not_awaits (h.handed e he))
    · exact .inr (hm.not_awaits (h.handed e he) hnot)
  received t action hreceived := by
    rw [hreceived] at hholds
    cases hholds

variable {action : StepAction}

/-- **A step is handed to the agent.** -/
theorem Inv.poll (h : Inv s) (hagent : s.agent = .idle)
    (haction : s.actionOf t = some action) (hoffered : s.Offered caller t)
    (hk : s.actionOf t = some .install → ¬s.UnderWay t) : Inv
    { s with agent := .received t action } := by
  obtain ⟨j, hj, -, st, hst, hawaiting, -⟩ := hoffered
  have hjob := h.jobs j (mem_of_getElem? hj)
  have hcollector : st.isCentral = false := by
    by_contra hcentral
    exact hjob.central _ st hst (Bool.not_eq_false _ ▸ hcentral) hawaiting
  have hhanded : s.Handed t := ⟨j, hj, st, hst, hcollector, by rw [hawaiting]; decide⟩
  have hidle : ∀ e ∈ s.started, e.action = .reboot → ¬s.Awaits e.task := by
    intro e he hreboot
    refine (h.rebooted e he hreboot).resolve_left fun hbusy => ?_
    rw [hagent] at hbusy
    cases hbusy
  refine { h with
    rebooted := fun e he hreboot => .inr (hidle e he hreboot)
    received := fun t' action' hreceived => ?_ }
  cases hreceived
  refine ⟨hhanded, fun _ e he hreboot heq => ?_, fun hinstall => ⟨?_, hk (hinstall ▸ haction)⟩⟩
  · exact hidle e he hreboot (heq ▸ ⟨j, hj, st, hst, hawaiting⟩)
  · rw [State.reported, hj, Option.any_some, any_eq_false]
    intro x hx hstep
    obtain ⟨st', hst', -, -, hdone⟩ := hjob.accepted x hx
    rw [of_decide_eq_true hstep] at hst'
    obtain rfl := Option.some.inj (hst.symm.trans hst')
    exact hdone hawaiting

theorem mem_record {e : Started} (he : e ∈ record s t action) :
    e ∈ s.started ∨ e = ⟨t, action, s.reported t⟩ := by
  cases action with
  | install => exact (List.mem_append.1 he).imp_right List.mem_singleton.1
  | reboot => exact (List.mem_append.1 he).imp_right List.mem_singleton.1
  | healthCheck => exact .inl he

/-- **The agent starts a step.** -/
theorem Inv.act (h : Inv s) (hagent : s.agent = .received t action)
    (outcome : Except String String) : Inv { s with
      agent := .acted t action (outcomeOf action outcome) false
      started := record s t action } := by
  obtain ⟨hhanded, hreboot, hinstall⟩ := h.received t action hagent
  refine
    { reboots := ?reboots, installs := ?installs, jobs := h.jobs, handed := ?handed,
      rebooted := ?rebooted, received := fun t' action' hreceived => by cases hreceived }
  case reboots =>
    cases action with
    | install =>
      dsimp only [record]
      rw [filter_append, map_append]
      exact (append_nil _).symm ▸ h.reboots
    | reboot =>
      dsimp only [record]
      rw [filter_append, map_append]
      refine List.nodup_append.2 ⟨h.reboots, nodup_singleton _, ?_⟩
      intro t₁ ht₁ t₂ ht₂ heq
      obtain ⟨e, he, rfl⟩ := List.mem_map.1 ht₁
      rw [mem_filter] at he
      have ht₂ : t₂ = t := by simpa using ht₂
      exact hreboot rfl e he.1 (of_decide_eq_true he.2) (heq.trans ht₂)
    | healthCheck => exact h.reboots
  case installs =>
    intro e he haction
    rcases mem_record he with he | rfl
    · exact h.installs e he haction
    · exact (hinstall haction).1
  case handed =>
    intro e he
    rcases mem_record he with he | rfl
    · exact h.handed e he
    · exact hhanded
  case rebooted =>
    intro e he haction
    rcases mem_record he with he | rfl
    · refine .inr ((h.rebooted e he haction).resolve_left fun hbusy => ?_)
      rw [hagent] at hbusy
      cases hbusy
    · have haction : action = .reboot := haction
      rw [haction]
      exact .inl rfl

/-- **A report arrives.** -/
theorem Inv.arrive (h : Inv s) {job : ℕ} {r : StepResult} (hsent : (job, r) ∈ s.sent) (n : ℕ) :
    Inv { s with jobs := s.jobs.modify job fun j => j.post r, sent := s.sent.eraseIdx n } := by
  have hm : Moved (fun k r' => k = job ∧ r' = r) s
      { s with jobs := s.jobs.modify job fun j => j.post r, sent := s.sent.eraseIdx n } := by
    cases hj : s.jobs[job]? with
    | none =>
      refine moved_of_eq ?_
      dsimp only
      rw [modify_eq_set_getElem?, hj]
      rfl
    | some j =>
      have hjob := h.jobs j (mem_of_getElem? hj)
      refine moved_set hj (hjob.stepped (a := .post r) trivial rfl) (fun r' hr' => ?_) ?_
      · cases hr'
        exact ⟨rfl, rfl⟩
      · dsimp only
        rw [modify_eq_set_getElem?, hj]
        rfl
  refine h.moved hm rfl rfl (fun m hmem => mem_of_mem_eraseIdx hmem)
    fun t hagent r' hposted hstep => ?_
  obtain ⟨hjob, rfl⟩ := hposted
  exact ((h.received t _ hagent).2.2 rfl).2 (.inl ⟨_, hsent, hjob.symm, hstep⟩)

/-- **A step that keeps the invariant.** -/
theorem Inv.step {e : Event} (h : Inv s) (hk : Keeps s e) (hs : step caller s e = some s') :
    Inv s' := by
  cases e with
  | poll t =>
    rw [UpdateAgent.step] at hs
    split at hs
    next action hagent haction =>
      split at hs
      next hoffered =>
        cases hs
        exact h.poll hagent haction hoffered.1 hk
      · cases hs
    · cases hs
  | act outcome =>
    rw [UpdateAgent.step] at hs
    split at hs
    next t action hagent =>
      cases hs
      exact h.act hagent outcome
    · cases hs
  | fail message =>
    rw [UpdateAgent.step] at hs
    split at hs
    next t action hagent =>
      cases hs
      refine h.agent rfl rfl rfl fun e he hreboot hbusy => ?_
      rw [hagent] at hbusy
      cases hbusy
    · cases hs
  | send =>
    rw [UpdateAgent.step] at hs
    split at hs
    next t action outcome second hagent =>
      cases hs
      refine h.agent rfl rfl rfl fun e he hreboot hbusy => .inl ?_
      rw [hagent] at hbusy
      exact hbusy
    · cases hs
  | arrive n =>
    rw [UpdateAgent.step] at hs
    split at hs
    next job r hr =>
      cases hs
      exact h.arrive (mem_of_getElem? hr) n
    · cases hs
  | drop n =>
    cases hs
    have hm : Moved (fun _ _ => False) s { s with sent := s.sent.eraseIdx n } := moved_of_eq rfl
    exact h.moved hm rfl rfl (fun m hm => mem_of_mem_eraseIdx hm) fun _ _ _ hfalse => hfalse.elim
  | answered =>
    rw [UpdateAgent.step] at hs
    split at hs
    · split at hs
      · cases hs
      · cases hs
        exact h.agent rfl rfl rfl fun e he hreboot hbusy => .inr (hk e he hreboot hbusy)
    · cases hs
  | unanswered message =>
    rw [UpdateAgent.step] at hs
    split at hs
    next t action r hagent =>
      cases hs
      refine h.agent rfl rfl rfl fun e he hreboot hbusy => .inl ?_
      rw [hagent] at hbusy
      exact hbusy
    next t action r hagent =>
      cases hs
      have hlast : s.agent.isLast = true := by
        rw [hagent]
        rfl
      exact h.agent rfl rfl rfl fun e he hreboot hbusy => .inr (hk hlast e he hreboot hbusy)
    · cases hs
  | crash =>
    cases hs
    exact h.agent rfl rfl rfl fun e he hreboot hbusy => .inr (hk e he hreboot hbusy)
  | central job a =>
    rw [UpdateAgent.step] at hs
    split at hs
    next j hj =>
      obtain ⟨j', hj', rfl⟩ := Option.map_eq_some_iff.1 hs
      have hstepped := (h.jobs j (mem_of_getElem? hj)).stepped (hk.1 j hj) hj'
      have hm : Moved (fun k r => k = job ∧ a = .post r) s { s with jobs := s.jobs.set job j' } :=
        moved_set hj hstepped (fun r ha => ⟨rfl, ha⟩) rfl
      refine h.moved hm rfl rfl (fun _ hm => hm) fun t hagent r hposted hstep => ?_
      obtain ⟨hjob, rfl⟩ := hposted
      have hforeign : s.agent.holds ≠ some ⟨job, r.step⟩ := hk.2
      rw [hagent, hstep, ← hjob] at hforeign
      exact hforeign rfl
    · cases hs

/-- **Once per step**: in every run whose steps meet the condition. -/
theorem oncePerStep_of_run {caller : Caller} {s₀ s : State} (hnew : IsNew s₀)
    (h : Run (step caller) Keeps s₀ s) : OncePerStep s :=
  (h.invariant (I := Inv) (.start hnew) fun hinv hk hs => hinv.step hk hs).toOncePerStep

/-- A job that updates and reboots one node. -/
def rebootingJob : StepResults.State where
  nodes := { systemVersions := [("worker1", "10.0.0.1")] }
  strategy := .rolling
  packageNames := ["openssl"]
  startedBy := some "admin"
  steps := [⟨"worker1", false, .install, false, .pending, none, none⟩,
    ⟨"worker1", false, .reboot, false, .pending, none, none⟩]

def rebooting : State where
  jobs := [rebootingJob]

theorem rebooting_isNew : IsNew rebooting where
  jobs j hj := by
    rw [List.mem_singleton.1 hj]
    exact
      { pending := by decide, accepted := rfl, inFlight := rfl, tasks := rfl, advanced := rfl,
        left := rfl, audit := rfl }
  agent := rfl
  sent := rfl
  started := rfl

/-- The agent of the node. -/
def worker : Caller := ⟨"worker1", "10.0.0.1"⟩

/-- The packages are installed, and the reboot step is handed out and started. -/
def rebootStarted : List Event :=
  [.central 0 (.drive 0 .awaitingCollector), .poll ⟨0, 0⟩, .act (.ok "Installed"), .send, .arrive 0,
    .central 0 (.commit 0), .answered, .central 0 (.load 0), .central 0 (.advance 0),
    .poll ⟨0, 1⟩, .act (.ok "")]

theorem oncePerStep_reported : ∃ s : State,
    s.started.map Started.action = [.install, .reboot] ∧ OncePerStep s := by
  have h : ∃ s ∈ replay (step worker) Keeps rebooting
      (rebootStarted ++ [.send, .arrive 0, .central 0 (.commit 0), .crash]),
        s.started.map Started.action = [.install, .reboot] := by
    decide +kernel
  obtain ⟨s, hs, hstarted⟩ := h
  exact ⟨s, hstarted, oncePerStep_of_run rebooting_isNew (run_of_replay hs)⟩

/-- **Rebooted twice**: the node goes down before the result of its reboot step is sent. -/
theorem not_oncePerStep : ∃ s : State,
    Run (step worker) (fun _ _ => True) rebooting s ∧ ¬OncePerStep s := by
  have h : ∃ s ∈ replay (step worker) (fun _ _ => True) rebooting
      (rebootStarted ++ [.crash, .poll ⟨0, 1⟩, .act (.ok "")]),
        (s.started.filter (·.action = .reboot)).map Started.task = [⟨0, 1⟩, ⟨0, 1⟩] := by
    decide +kernel
  obtain ⟨s, hs, htwice⟩ := h
  refine ⟨s, run_of_replay hs, fun honce => ?_⟩
  have hnodup := honce.reboots
  rw [htwice] at hnodup
  exact absurd hnodup (by decide)

end MonCTL.Upgrades.UpdateAgent
