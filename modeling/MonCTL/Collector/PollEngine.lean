import Mathlib.Algebra.Order.Field.Rat
import Mathlib.Data.List.Perm.Subperm
import MonCTL.JobPipeline.Job

/-!
# The Poll Engine

A poll worker keeps the jobs it has been given in a heap ordered by deadline. One loop asks
the cache node for the list of jobs now and then, rebuilds the heap from it, and starts a task
for every job that is due. A task runs the job, puts it back into the heap with its next
deadline, submits the result, and leaves the set of running jobs.

The code between two awaits runs without interruption. A task that has been created enters the
set of running jobs before the loop that created it goes on, since that loop waits first; so
`dispatchReady` does both. Which semaphore a task waits for, and what the job finds, are left
out.
-/

namespace MonCTL.Collector

open List

open JobPipeline (JobDefinition)

/-! ### State -/

/-- A job of the list the cache node answers with. The injection it comes from is there to
state what has happened; no step reads it. -/
structure PulledJob where
  job : JobDefinition
  injection : Option ℕ := none

/-- `job_id`. -/
def PulledJob.jobId (j : PulledJob) : String := j.job.jobId

/-- `interval`. -/
def PulledJob.interval (j : PulledJob) : ℤ := j.job.interval

/-- What `get_my_jobs` returns: the scheduler keeps its jobs in a dictionary, so that each id
is there once. -/
structure PulledList where
  jobs : List PulledJob
  immediateIds : List String := []
  ids_nodup : (jobs.map PulledJob.jobId).Nodup

/-- How `get_my_jobs` of the client ends. -/
inductive Answer
  /-- There is no connection, and the call raises. -/
  | notConnected
  /-- The call fails. -/
  | failed
  /-- The cache node answers. -/
  | jobs (list : PulledList)

/-- The list without jobs. -/
def PulledList.empty : PulledList where
  jobs := []
  ids_nodup := by simp

/-- What the client makes of it: when the call has failed it returns an empty list. -/
def Answer.list? : Answer → Option PulledList
  | .notConnected => none
  | .failed => some .empty
  | .jobs list => some list

/-- `ScheduledJob`. -/
structure ScheduledJob extends PulledJob where
  nextDeadline : ℚ

/-- How far a task has got: the job runs, or it has been put back and its result is being
submitted. -/
inductive TaskPhase
  | executing
  | submitting
  deriving DecidableEq

/-- A task `_run_job`. -/
structure Task where
  sj : ScheduledJob
  startMono : ℚ
  phase : TaskPhase

def Task.jobId (t : Task) : String := t.sj.jobId

/-- `PollEngine`, and the tasks it has started. -/
structure PollEngine where
  heap : List ScheduledJob := []
  running : List String := []
  loadedApps : List (String × String) := []
  tasks : List Task := []

/-! ### The heap -/

/-- `heapq.heappop`: an entry with the least deadline, and the others. -/
def heappop : List ScheduledJob → Option (ScheduledJob × List ScheduledJob)
  | [] => none
  | sj :: rest =>
    match heappop rest with
    | none => some (sj, [])
    | some (least, others) =>
      if sj.nextDeadline ≤ least.nextDeadline then some (sj, rest)
      else some (least, sj :: others)

/-- `heapq.heappush`. -/
def heappush (heap : List ScheduledJob) (sj : ScheduledJob) : List ScheduledJob := heap ++ [sj]

/-! ### Refreshing the jobs -/

/-- The entry of one job of the list: it keeps its deadline when it was there with the same
interval, and is due within an interval otherwise. -/
def scheduleJob (hash : String → ℤ) (now : ℚ) (existing : Dict String (ℚ × ℤ)) (j : PulledJob) :
    ScheduledJob :=
  let jittered := now + (hash j.jobId % max 1 j.interval : ℤ)
  { toPulledJob := j
    nextDeadline := match existing.get? j.jobId with
      | none => jittered
      | some prev => if prev.2 ≠ j.interval then jittered else prev.1 }

/-- Give the flagged jobs the deadline 0. -/
def applyTriggers (immediateIds : List String) (heap : List ScheduledJob) : List ScheduledJob :=
  heap.map fun sj => if sj.jobId ∈ immediateIds then { sj with nextDeadline := 0 } else sj

/-- The part of `_refresh_jobs` after the call. -/
def rebuildHeap (hash : String → ℤ) (now : ℚ) (answer : PulledList) (e : PollEngine) : PollEngine :=
  if answer.jobs.isEmpty then
    if e.heap.isEmpty then e else { e with heap := [], loadedApps := [] }
  else
    let existing := Dict.setAll [] (e.heap.map fun sj => (sj.jobId, (sj.nextDeadline, sj.interval)))
    let heap := (answer.jobs.filter fun j => j.jobId ∉ e.running).map
      (scheduleJob hash now existing)
    { e with
      heap := applyTriggers answer.immediateIds heap
      loadedApps := heap.map fun sj => (sj.job.appId, sj.job.appVersion) }

/-- `_refresh_jobs`. -/
def refreshJobs (hash : String → ℤ) (now : ℚ) (answer : Answer) (e : PollEngine) : PollEngine :=
  match answer.list? with
  | none => e
  | some list => rebuildHeap hash now list e

/-- `trigger_immediate`. -/
def triggerImmediate (jobId : String) : List ScheduledJob → List ScheduledJob
  | [] => []
  | sj :: rest =>
    if sj.jobId = jobId then { sj with nextDeadline := 0 } :: rest
    else sj :: triggerImmediate jobId rest

/-! ### Starting tasks -/

/-- The entry of a job that still runs when it is due. -/
def postpone (now : ℚ) (sj : ScheduledJob) : ScheduledJob :=
  { sj with nextDeadline := now + max ((sj.interval : ℚ) / 10) 1 }

/-- The loop of `_dispatch_ready`: the heap it leaves, and the entries it creates tasks for. A
job that still runs is put back for later, unless it is a one-shot job. -/
def dispatchLoop (now : ℚ) (running : List String) :
    ℕ → List ScheduledJob → List ScheduledJob × List ScheduledJob
  | 0, heap => (heap, [])
  | fuel + 1, heap =>
    match heappop heap with
    | none => (heap, [])
    | some (sj, rest) =>
      if now < sj.nextDeadline then (heap, [])
      else if sj.jobId ∈ running then
        if sj.interval ≤ 0 then dispatchLoop now running fuel rest
        else dispatchLoop now running fuel (heappush rest (postpone now sj))
      else
        let r := dispatchLoop now running fuel rest
        (r.1, sj :: r.2)

/-- `_dispatch_ready`, and the start of the tasks it has created. Each round of the loop leaves
one job less that is due. -/
def dispatchReady (now startMono : ℚ) (e : PollEngine) : PollEngine :=
  let r := dispatchLoop now e.running e.heap.length e.heap
  { e with
    heap := r.1
    running := r.2.map (·.jobId) ++ e.running
    tasks := r.2.map (fun sj => ⟨sj, startMono, .executing⟩) ++ e.tasks }

/-! ### The ends of a task -/

/-- The part of `_run_job_inner` after the job has run: it is scheduled again, unless it is a
one-shot job, and its result is submitted. -/
def completeJob (i : ℕ) (e : PollEngine) : Option PollEngine :=
  match e.tasks[i]? with
  | some ⟨sj, startMono, .executing⟩ =>
    some { e with
      heap := if 0 < sj.interval then
          heappush e.heap { sj with nextDeadline := startMono + sj.interval }
        else e.heap
      tasks := ⟨sj, startMono, .submitting⟩ :: e.tasks.eraseIdx i }
  | _ => none

/-- The `finally` of `_run_job`. -/
def endTask (i : ℕ) (t : Task) (e : PollEngine) : PollEngine :=
  { e with running := e.running.filter (· ≠ t.jobId), tasks := e.tasks.eraseIdx i }

/-- `_run_job_inner` raises before the job is scheduled again: the job was cancelled, which is
not an `Exception`. -/
def failJob (i : ℕ) (e : PollEngine) : Option PollEngine :=
  match e.tasks[i]? with
  | some ⟨sj, startMono, .executing⟩ => some (endTask i ⟨sj, startMono, .executing⟩ e)
  | _ => none

/-- The result has been submitted, or could not be. -/
def finishJob (i : ℕ) (e : PollEngine) : Option PollEngine :=
  match e.tasks[i]? with
  | some ⟨sj, startMono, .submitting⟩ => some (endTask i ⟨sj, startMono, .submitting⟩ e)
  | _ => none

/-! ### What the heap operations keep -/

theorem heappop_perm {heap rest : List ScheduledJob} {sj : ScheduledJob}
    (h : heappop heap = some (sj, rest)) : heap.Perm (sj :: rest) := by
  induction heap generalizing sj rest with
  | nil => cases h
  | cons first heap ih =>
    rw [heappop] at h
    split at h
    next hnone =>
      cases heap with
      | nil =>
        cases h
        exact .refl _
      | cons second heap =>
        rw [heappop] at hnone
        split at hnone
        · cases hnone
        · split at hnone <;> cases hnone
    next least others hsome =>
      split at h
      · cases h
        exact .refl _
      · cases h
        exact ((ih hsome).cons first).trans (.swap ..)

/-! ### What the loop that starts tasks does -/

/-- The number of entries that are due. -/
def due (now : ℚ) (heap : List ScheduledJob) : ℕ := heap.countP fun sj => sj.nextDeadline ≤ now

/-- **The loop that starts tasks** divides the jobs of the heap into those it starts, none of
which runs, and those it leaves; only one-shot jobs that still run are dropped. -/
theorem dispatchLoop_spec (now : ℚ) (running : List String) (fuel : ℕ) (heap : List ScheduledJob) :
    List.Subperm (((dispatchLoop now running fuel heap).2 ++
        (dispatchLoop now running fuel heap).1).map (·.toPulledJob)) (heap.map (·.toPulledJob)) ∧
      (∀ sj ∈ (dispatchLoop now running fuel heap).2, sj.jobId ∉ running) ∧
      ∀ sj ∈ heap, sj.toPulledJob ∈ ((dispatchLoop now running fuel heap).2 ++
          (dispatchLoop now running fuel heap).1).map (·.toPulledJob) ∨
        sj.interval ≤ 0 ∧ sj.jobId ∈ running := by
  induction fuel generalizing heap with
  | zero =>
    rw [dispatchLoop, nil_append]
    exact ⟨List.Subperm.refl _, by simp, fun sj hsj => .inl (mem_map_of_mem hsj)⟩
  | succ fuel ih =>
    have hstop : List.Subperm ((([] : List ScheduledJob) ++ heap).map (·.toPulledJob))
          (heap.map (·.toPulledJob)) ∧
        (∀ sj ∈ ([] : List ScheduledJob), sj.jobId ∉ running) ∧
        ∀ sj ∈ heap, sj.toPulledJob ∈ (([] : List ScheduledJob) ++ heap).map (·.toPulledJob) ∨
          sj.interval ≤ 0 ∧ sj.jobId ∈ running := by
      rw [nil_append]
      exact ⟨List.Subperm.refl _, by simp, fun sj hsj => .inl (mem_map_of_mem hsj)⟩
    rw [dispatchLoop]
    split
    · exact hstop
    next sj rest hpop =>
      have hperm := heappop_perm hpop
      have hpulled : (heap.map (·.toPulledJob)).Perm
          (sj.toPulledJob :: rest.map (·.toPulledJob)) := hperm.map _
      split
      · exact hstop
      · split
        next hrunning =>
          split
          next hone =>
            -- a one-shot job that still runs is dropped
            obtain ⟨hsub, hnot, hall⟩ := ih rest
            refine ⟨(hsub.trans (sublist_cons_self ..).subperm).trans
              hpulled.symm.subperm, hnot, fun sj' hsj' => ?_⟩
            rcases List.mem_cons.1 (hperm.mem_iff.1 hsj') with rfl | hsj'
            · exact .inr ⟨hone, hrunning⟩
            · exact hall sj' hsj'
          next =>
            -- any other job that still runs is put back
            have hpush : ((heappush rest (postpone now sj)).map (·.toPulledJob)).Perm
                (heap.map (·.toPulledJob)) := by
              rw [heappush, map_append]
              exact (perm_append_comm).trans hpulled.symm
            obtain ⟨hsub, hnot, hall⟩ := ih (heappush rest (postpone now sj))
            refine ⟨hsub.trans hpush.subperm, hnot, fun sj' hsj' => ?_⟩
            rcases List.mem_cons.1 (hperm.mem_iff.1 hsj') with rfl | hsj'
            · exact hall (postpone now sj') (mem_append_right _ (mem_singleton_self _))
            · exact hall sj' (mem_append_left _ hsj')
        next hrunning =>
          obtain ⟨hsub, hnot, hall⟩ := ih rest
          dsimp only
          rw [cons_append, map_cons]
          refine ⟨(subperm_cons _).2 hsub |>.trans hpulled.symm.subperm, ?_, ?_⟩
          · intro sj' hsj'
            rcases List.mem_cons.1 hsj' with rfl | hsj'
            · exact hrunning
            · exact hnot sj' hsj'
          · intro sj' hsj'
            rcases List.mem_cons.1 (hperm.mem_iff.1 hsj') with rfl | hsj'
            · exact .inl (mem_cons_self ..)
            · exact (hall sj' hsj').imp_left (mem_cons_of_mem _)

end MonCTL.Collector
