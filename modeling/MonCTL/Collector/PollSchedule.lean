import Mathlib.Data.List.Nodup
import MonCTL.Collector.PollEngine
import MonCTL.Lib.Runs

/-!
# The Schedule of the Poll Engine

A job that is polled at an interval should be in one place: in the heap, once, or being
executed. It changes places when a task is started for it and when the task puts it back. The
task then submits the result, and leaves the set of running jobs only after that. A list that
arrives in between finds the job running and does not schedule it, although nobody will put it
back any more: the job is gone until the next list arrives. So are all jobs when the call for
the list fails, since the client then returns an empty one.
-/

namespace MonCTL.Collector.PollSchedule

open List

/-! ### The system -/

/-- The engine, and the jobs of the last list that was pulled. No step reads the list. -/
structure System where
  engine : PollEngine := {}
  pulled : List PulledJob := []

/-- What can happen between two awaits. -/
inductive Action
  /-- The cache node answers, or the call fails. -/
  | refresh (now : ℚ) (answer : Answer)
  /-- Tasks are started for the jobs that are due. -/
  | dispatch (now startMono : ℚ)
  /-- A task has run its job. -/
  | complete (i : ℕ)
  /-- A task is cancelled while it runs its job. -/
  | fail (i : ℕ)
  /-- A task is done with submitting. -/
  | finish (i : ℕ)
  /-- A job is to be run at once. -/
  | trigger (jobId : String)

def step (hash : String → ℤ) (s : System) : Action → Option System
  | .refresh now answer =>
    some {
      engine := refreshJobs hash now answer s.engine
      pulled := match answer with
        | .jobs list => list.jobs
        | _ => s.pulled }
  | .dispatch now startMono => some { s with engine := dispatchReady now startMono s.engine }
  | .complete i => (completeJob i s.engine).map fun engine => { s with engine }
  | .fail i => (failJob i s.engine).map fun engine => { s with engine }
  | .finish i => (finishJob i s.engine).map fun engine => { s with engine }
  | .trigger jobId =>
    some { s with engine := { s.engine with heap := triggerImmediate jobId s.engine.heap } }

def heapEntries (e : PollEngine) (jobId : String) : ℕ :=
  (e.heap.filter fun sj => sj.jobId = jobId).length

/-- The number of tasks that execute a job. -/
def executions (e : PollEngine) (jobId : String) : ℕ :=
  (e.tasks.filter fun t => t.phase = .executing ∧ t.jobId = jobId).length

def Executing (e : PollEngine) (jobId : String) : Prop :=
  ∃ t ∈ e.tasks, t.phase = .executing ∧ t.jobId = jobId
  deriving Decidable

/-- A job of the last list that is polled at an interval. -/
def IntervalJob (s : System) (jobId : String) : Prop :=
  ∃ j ∈ s.pulled, j.jobId = jobId ∧ 0 < j.interval
  deriving Decidable

/-- **What a step has to find**: a list that arrives finds the interval jobs it names that are
running still being executed; a call that fails finds all interval jobs being executed; and the
task of an interval job puts it back. -/
def KeepsPlaces (s : System) : Action → Prop
  | .refresh _ (.jobs list) => ∀ j ∈ list.jobs, 0 < j.interval → j.jobId ∈ s.engine.running →
      Executing s.engine j.jobId
  | .refresh _ .failed => ∀ j ∈ s.pulled, 0 < j.interval → Executing s.engine j.jobId
  | .complete i => ∀ t, s.engine.tasks[i]? = some t → IntervalJob s t.jobId → 0 < t.sj.interval
  | .fail i => ∀ t, s.engine.tasks[i]? = some t → ¬IntervalJob s t.jobId
  | _ => True

instance (s : System) : ∀ a, Decidable (KeepsPlaces s a)
  | .refresh _ (.jobs list) => inferInstanceAs (Decidable (∀ j ∈ list.jobs, _))
  | .refresh _ .failed => inferInstanceAs (Decidable (∀ j ∈ s.pulled, _))
  | .complete i => inferInstanceAs (Decidable (∀ t ∈ s.engine.tasks[i]?, _))
  | .fail i => inferInstanceAs (Decidable (∀ t ∈ s.engine.tasks[i]?, _))
  | .refresh _ .notConnected => isTrue trivial
  | .dispatch _ _ => isTrue trivial
  | .finish _ => isTrue trivial
  | .trigger _ => isTrue trivial

/-! ### The invariant -/

/-- **The invariant of the engine**: no job is twice in the heap; no two tasks have the same
job; the running jobs are those of the tasks; and a job that is executed is not in the heap. -/
structure EngineInv (e : PollEngine) : Prop where
  heap_nodup : (e.heap.map (·.jobId)).Nodup
  tasks_nodup : (e.tasks.map Task.jobId).Nodup
  running_iff : ∀ jobId, jobId ∈ e.running ↔ jobId ∈ e.tasks.map Task.jobId
  not_heap : ∀ t ∈ e.tasks, t.phase = .executing → t.jobId ∉ e.heap.map (·.jobId)

/-- **The invariant of the places**: an interval job is in the heap or executed, and its entry
has an interval. -/
structure Placed (s : System) : Prop where
  placed : ∀ jobId, IntervalJob s jobId →
    jobId ∈ s.engine.heap.map (·.jobId) ∨ Executing s.engine jobId
  interval : ∀ sj ∈ s.engine.heap, IntervalJob s sj.jobId → 0 < sj.interval

theorem placed_start : Placed {} where
  placed := by simp [IntervalJob]
  interval := by simp

theorem engineInv_start : EngineInv {} := ⟨by simp, by simp, by simp, by simp⟩

/-! ### Refreshing -/

theorem applyTriggers_pulled (immediateIds : List String) (heap : List ScheduledJob) :
    (applyTriggers immediateIds heap).map (·.toPulledJob) = heap.map (·.toPulledJob) := by
  rw [applyTriggers, map_map]
  refine map_congr_left fun sj _ => ?_
  rw [Function.comp_apply]
  split <;> rfl

theorem triggerImmediate_pulled (jobId : String) (heap : List ScheduledJob) :
    (triggerImmediate jobId heap).map (·.toPulledJob) = heap.map (·.toPulledJob) := by
  induction heap with
  | nil => rfl
  | cons sj rest ih =>
    rw [triggerImmediate]
    split
    · rfl
    · rw [map_cons, map_cons, ih]

theorem rebuildHeap_heap (hash : String → ℤ) (now : ℚ) (list : PulledList) (e : PollEngine) :
    (rebuildHeap hash now list e).heap.map (·.toPulledJob) =
      list.jobs.filter fun j => j.jobId ∉ e.running := by
  rw [rebuildHeap]
  split
  next hempty =>
    rw [List.isEmpty_iff.1 hempty]
    split
    next hheap => rw [List.isEmpty_iff.1 hheap]; rfl
    · rfl
  · dsimp only
    rw [applyTriggers_pulled, map_map]
    exact (map_congr_left fun j _ => rfl).trans (map_id _)

theorem rebuildHeap_tasks (hash : String → ℤ) (now : ℚ) (list : PulledList) (e : PollEngine) :
    (rebuildHeap hash now list e).tasks = e.tasks ∧
      (rebuildHeap hash now list e).running = e.running := by
  rw [rebuildHeap]
  split
  · split <;> exact ⟨rfl, rfl⟩
  · exact ⟨rfl, rfl⟩

theorem map_jobId (heap : List ScheduledJob) :
    heap.map (·.jobId) = (heap.map (·.toPulledJob)).map PulledJob.jobId := by
  rw [map_map]
  rfl

variable {e : PollEngine} {heap : List ScheduledJob}

theorem EngineInv.of_heap (h : EngineInv e)
    (hheap : heap.map (·.toPulledJob) = e.heap.map (·.toPulledJob)) :
    EngineInv { e with heap } where
  heap_nodup := by rw [map_jobId, hheap, ← map_jobId]; exact h.heap_nodup
  tasks_nodup := h.tasks_nodup
  running_iff := h.running_iff
  not_heap := fun t ht hphase => by
    rw [map_jobId, hheap, ← map_jobId]
    exact h.not_heap t ht hphase

theorem EngineInv.rebuild (h : EngineInv e) (hash : String → ℤ) (now : ℚ)
    (list : PulledList) : EngineInv (rebuildHeap hash now list e) := by
  obtain ⟨htasks, hrunning⟩ := rebuildHeap_tasks hash now list e
  have hids := map_jobId (rebuildHeap hash now list e).heap
  rw [rebuildHeap_heap] at hids
  refine ⟨?_, htasks ▸ h.tasks_nodup, ?_, ?_⟩
  · rw [hids]
    exact list.ids_nodup.sublist (List.filter_sublist.map _)
  · rw [htasks, hrunning]
    exact h.running_iff
  · intro t ht _ hmem
    rw [htasks] at ht
    rw [hids, mem_map] at hmem
    obtain ⟨j, hj, hid⟩ := hmem
    have hnot : j.jobId ∉ e.running := by simpa using (List.mem_filter.1 hj).2
    exact hnot (hid ▸ (h.running_iff _).2 (mem_map_of_mem ht))

theorem EngineInv.refresh (h : EngineInv e) (hash : String → ℤ) (now : ℚ)
    (answer : Answer) : EngineInv (refreshJobs hash now answer e) := by
  rw [refreshJobs]
  split
  · exact h
  next list _ => exact h.rebuild hash now list

/-! ### Tasks -/

variable {i : ℕ} {t : Task}

theorem tasks_perm {tasks : List Task} (h : tasks[i]? = some t) :
    tasks.Perm (t :: tasks.eraseIdx i) := by
  obtain ⟨hi, rfl⟩ := List.getElem?_eq_some_iff.1 h
  exact (getElem_cons_eraseIdx_perm hi).symm

theorem nodup_map_of_subperm {α β : Type} (f : α → β) {l l' : List α} (h : l.Subperm l')
    (hnodup : (l'.map f).Nodup) : (l.map f).Nodup := by
  obtain ⟨part, hperm, hsub⟩ := h
  exact (hperm.map f).nodup_iff.1 (hnodup.sublist (hsub.map f))

/-- **Starting tasks** keeps the invariant. -/
theorem EngineInv.dispatch (h : EngineInv e) (now startMono : ℚ) :
    EngineInv (dispatchReady now startMono e) := by
  obtain ⟨hsub, hnot, -⟩ := dispatchLoop_spec now e.running e.heap.length e.heap
  rw [dispatchReady]
  generalize dispatchLoop now e.running e.heap.length e.heap = r at hsub hnot
  have hnodup : ((r.2 ++ r.1).map (·.jobId)).Nodup := by
    rw [map_jobId]
    refine nodup_map_of_subperm _ hsub ?_
    rw [← map_jobId]
    exact h.heap_nodup
  rw [map_append, nodup_append] at hnodup
  have hstarted : (r.2.map fun sj => Task.mk sj startMono .executing).map Task.jobId =
      r.2.map (·.jobId) := by
    rw [map_map]
    rfl
  have hfresh : ∀ sj ∈ r.2, sj.jobId ∉ e.tasks.map Task.jobId := fun sj hsj hmem =>
    hnot sj hsj ((h.running_iff _).2 hmem)
  refine ⟨hnodup.2.1, ?_, ?_, ?_⟩
  · rw [map_append, hstarted, nodup_append]
    refine ⟨hnodup.1, h.tasks_nodup, ?_⟩
    rintro jobId hmem jobId' hmem' rfl
    obtain ⟨sj, hsj, rfl⟩ := List.mem_map.1 hmem
    exact hfresh sj hsj hmem'
  · intro jobId
    rw [mem_append, h.running_iff, map_append, mem_append, hstarted]
  · intro t ht hphase hmem
    rcases List.mem_append.1 ht with ht | ht
    · obtain ⟨sj, hsj, rfl⟩ := List.mem_map.1 ht
      exact hnodup.2.2 _ (mem_map_of_mem hsj) _ hmem rfl
    · refine h.not_heap t ht hphase ?_
      obtain ⟨sj, hsj, hid⟩ := List.mem_map.1 hmem
      have hmem' := hsub.subset (mem_map_of_mem (mem_append_right _ hsj))
      rw [map_jobId, ← hid]
      exact mem_map_of_mem hmem'

variable {e' : PollEngine}

theorem completeJob_eq_some (h : completeJob i e = some e') :
    ∃ t, e.tasks[i]? = some t ∧ t.phase = .executing ∧
      e'.running = e.running ∧ e'.tasks = ⟨t.sj, t.startMono, .submitting⟩ :: e.tasks.eraseIdx i ∧
      e'.heap.map (·.toPulledJob) = e.heap.map (·.toPulledJob) ++
        if 0 < t.sj.interval then [t.sj.toPulledJob] else [] := by
  rw [completeJob] at h
  split at h
  next sj startMono htask =>
    cases h
    refine ⟨_, htask, rfl, rfl, rfl, ?_⟩
    dsimp only
    split
    · rw [heappush, map_append]; rfl
    · rw [append_nil]
  · cases h

theorem failJob_eq_some (h : failJob i e = some e') :
    ∃ t, e.tasks[i]? = some t ∧ t.phase = .executing ∧ e' = endTask i t e := by
  rw [failJob] at h
  split at h
  next sj startMono htask =>
    cases h
    exact ⟨_, htask, rfl, rfl⟩
  · cases h

theorem finishJob_eq_some (h : finishJob i e = some e') :
    ∃ t, e.tasks[i]? = some t ∧ t.phase = .submitting ∧ e' = endTask i t e := by
  rw [finishJob] at h
  split at h
  next sj startMono htask =>
    cases h
    exact ⟨_, htask, rfl, rfl⟩
  · cases h

/-- **Putting a job back** keeps the invariant. -/
theorem EngineInv.complete (h : EngineInv e)
    (hcomplete : completeJob i e = some e') : EngineInv e' := by
  obtain ⟨t, ht, hphase, hrunning, htasks, hheap⟩ := completeJob_eq_some hcomplete
  have hperm := tasks_perm ht
  have hids : (e'.tasks.map Task.jobId).Perm (e.tasks.map Task.jobId) := by
    rw [htasks]
    exact (hperm.map Task.jobId).symm
  have hmem : t ∈ e.tasks := hperm.mem_iff.2 (mem_cons_self ..)
  have hnot := h.not_heap t hmem hphase
  -- the heap has the job of the task at most once
  have hheapIds : e'.heap.map (·.jobId) =
      e.heap.map (·.jobId) ++ if 0 < t.sj.interval then [t.jobId] else [] := by
    rw [map_jobId, hheap, map_append, ← map_jobId]
    split <;> rfl
  refine ⟨?_, hids.nodup_iff.2 h.tasks_nodup, ?_, ?_⟩
  · rw [hheapIds]
    split
    · rw [nodup_append]
      refine ⟨h.heap_nodup, by simp, ?_⟩
      rintro jobId hjobId jobId' hjobId' rfl
      exact hnot (List.mem_singleton.1 hjobId' ▸ hjobId)
    · rw [append_nil]
      exact h.heap_nodup
  · intro jobId
    rw [hrunning, h.running_iff, hids.mem_iff]
  · intro t' ht' hphase' hmem'
    rw [htasks] at ht'
    rcases List.mem_cons.1 ht' with rfl | ht'
    · cases hphase'
    · rw [hheapIds, mem_append] at hmem'
      rcases hmem' with hmem' | hmem'
      · exact h.not_heap t' (hperm.mem_iff.2 (mem_cons_of_mem _ ht')) hphase' hmem'
      · have hid : t'.jobId = t.jobId := by
          split at hmem'
          · exact List.mem_singleton.1 hmem'
          · cases hmem'
        have hnodup := (hperm.map Task.jobId).nodup_iff.1 h.tasks_nodup
        rw [map_cons, nodup_cons] at hnodup
        exact hnodup.1 (hid ▸ mem_map_of_mem ht')

/-- **The end of a task** keeps the invariant. -/
theorem EngineInv.endTask (h : EngineInv e)
    (ht : e.tasks[i]? = some t) : EngineInv (endTask i t e) := by
  have hperm := tasks_perm ht
  have hnodup := (hperm.map Task.jobId).nodup_iff.1 h.tasks_nodup
  rw [map_cons, nodup_cons] at hnodup
  refine ⟨h.heap_nodup, hnodup.2, fun jobId => ?_, fun t' ht' => ?_⟩
  · rw [Collector.endTask]
    dsimp only
    rw [mem_filter, h.running_iff, (hperm.map Task.jobId).mem_iff, map_cons,
      mem_cons]
    constructor
    · rintro ⟨hid | hmem, hne⟩
      · simp [hid] at hne
      · exact hmem
    · intro hmem
      refine ⟨.inr hmem, ?_⟩
      have hne : jobId ≠ t.jobId := fun hid => hnodup.1 (hid ▸ hmem)
      simpa using hne
  · exact h.not_heap t' (hperm.mem_iff.2 (mem_cons_of_mem _ ht'))

variable {hash : String → ℤ} {s : System} {s' : System} {a : Action}

/-- **The step**: everything that can happen keeps the invariant. -/
theorem step_engineInv (h : EngineInv s.engine)
    (hstep : step hash s a = some s') : EngineInv s'.engine := by
  cases a with
  | refresh now answer => cases hstep; exact h.refresh hash now answer
  | dispatch now startMono => cases hstep; exact h.dispatch now startMono
  | complete i =>
    obtain ⟨e', he', rfl⟩ := Option.map_eq_some_iff.1 hstep
    exact h.complete he'
  | fail i =>
    obtain ⟨e', he', rfl⟩ := Option.map_eq_some_iff.1 hstep
    obtain ⟨t, ht, -, rfl⟩ := failJob_eq_some he'
    exact h.endTask ht
  | finish i =>
    obtain ⟨e', he', rfl⟩ := Option.map_eq_some_iff.1 hstep
    obtain ⟨t, ht, -, rfl⟩ := finishJob_eq_some he'
    exact h.endTask ht
  | trigger jobId => cases hstep; exact h.of_heap (triggerImmediate_pulled jobId _)

/-! ### Places -/

variable {jobId : String}

theorem mem_heap_ids :
    jobId ∈ heap.map (·.jobId) ↔ ∃ j ∈ heap.map (·.toPulledJob), j.jobId = jobId := by
  rw [map_jobId, mem_map]

theorem placed_iff : Placed s ↔ (∀ jobId, IntervalJob s jobId →
      (∃ j ∈ s.engine.heap.map (·.toPulledJob), j.jobId = jobId) ∨ Executing s.engine jobId) ∧
    ∀ j ∈ s.engine.heap.map (·.toPulledJob), IntervalJob s j.jobId → 0 < j.interval := by
  constructor
  · intro h
    refine ⟨fun jobId hjob => (h.placed jobId hjob).imp_left mem_heap_ids.1, fun j hj => ?_⟩
    obtain ⟨sj, hsj, rfl⟩ := List.mem_map.1 hj
    exact h.interval sj hsj
  · rintro ⟨hplaced, hinterval⟩
    exact ⟨fun jobId hjob => (hplaced jobId hjob).imp_left mem_heap_ids.2,
      fun sj hsj => hinterval _ (mem_map_of_mem hsj)⟩

variable {now : ℚ}

theorem Placed.rebuild {list : PulledList}
    (hkeeps : KeepsPlaces s (.refresh now (.jobs list))) : Placed
    { engine := rebuildHeap hash now list s.engine, pulled := list.jobs } := by
  obtain ⟨htasks, -⟩ := rebuildHeap_tasks hash now list s.engine
  rw [placed_iff]
  dsimp only
  rw [rebuildHeap_heap]
  constructor
  · rintro jobId ⟨j, hj, rfl, hinterval⟩
    by_cases hrunning : j.jobId ∈ s.engine.running
    · right
      rw [Executing, htasks]
      exact hkeeps j hj hinterval hrunning
    · exact .inl ⟨j, List.mem_filter.2 ⟨hj, by simpa using hrunning⟩, rfl⟩
  · rintro j hj ⟨j', hj', hid, hinterval⟩
    rw [← inj_on_of_nodup_map list.ids_nodup hj' (List.mem_filter.1 hj).1 hid]
    exact hinterval

theorem Placed.rebuild_empty (hkeeps : KeepsPlaces s (.refresh now .failed)) :
    Placed { s with engine := rebuildHeap hash now .empty s.engine } := by
  obtain ⟨htasks, -⟩ := rebuildHeap_tasks hash now .empty s.engine
  rw [placed_iff]
  dsimp only
  rw [rebuildHeap_heap]
  constructor
  · rintro jobId ⟨j, hj, rfl, hinterval⟩
    right
    rw [Executing, htasks]
    exact hkeeps j hj hinterval
  · intro j hj
    cases hj

theorem Placed.dispatch (h : Placed s) (now startMono : ℚ) : Placed
    { s with engine := dispatchReady now startMono s.engine } := by
  obtain ⟨hsub, -, hall⟩ := dispatchLoop_spec now s.engine.running s.engine.heap.length s.engine.heap
  rw [placed_iff] at h ⊢
  obtain ⟨hplaced, hinterval⟩ := h
  rw [dispatchReady]
  generalize dispatchLoop now s.engine.running s.engine.heap.length s.engine.heap = r at hsub hall
  dsimp only
  constructor
  · rintro jobId hjob
    rcases hplaced jobId hjob with ⟨j, hj, rfl⟩ | ⟨t, ht, hphase, hid⟩
    · obtain ⟨sj, hsj, rfl⟩ := List.mem_map.1 hj
      rcases hall sj hsj with hmem | ⟨hone, -⟩
      · rw [map_append, mem_append] at hmem
        rcases hmem with hmem | hmem
        · obtain ⟨sj', hsj', hpulled⟩ := List.mem_map.1 hmem
          refine .inr ⟨_, mem_append_left _ (mem_map_of_mem hsj'), rfl, ?_⟩
          exact congrArg PulledJob.jobId hpulled
        · exact .inl ⟨_, hmem, rfl⟩
      · exact absurd (hinterval _ hj hjob) (not_lt.2 hone)
    · exact .inr ⟨t, mem_append_right _ ht, hphase, hid⟩
  · intro j hj
    refine hinterval j (hsub.subset ?_)
    rw [map_append]
    exact mem_append_right _ hj

theorem Placed.complete (h : Placed s)
    (hkeeps : KeepsPlaces s (.complete i)) (hcomplete : completeJob i s.engine = some e') :
    Placed { s with engine := e' } := by
  obtain ⟨t, ht, -, -, htasks, hheap⟩ := completeJob_eq_some hcomplete
  have hperm := tasks_perm ht
  rw [placed_iff] at h ⊢
  obtain ⟨hplaced, hinterval⟩ := h
  dsimp only
  rw [hheap]
  constructor
  · intro jobId hjob
    rcases hplaced jobId hjob with ⟨j, hj, rfl⟩ | ⟨t', ht', hphase', rfl⟩
    · exact .inl ⟨j, mem_append_left _ hj, rfl⟩
    · rcases List.mem_cons.1 (hperm.mem_iff.1 ht') with rfl | ht'
      · refine .inl ⟨t'.sj.toPulledJob, mem_append_right _ ?_, rfl⟩
        rw [if_pos (hkeeps t' ht hjob)]
        exact mem_singleton_self _
      · refine .inr ⟨t', ?_, hphase', rfl⟩
        rw [htasks]
        exact mem_cons_of_mem _ ht'
  · intro j hj hjob
    rcases List.mem_append.1 hj with hj | hj
    · exact hinterval j hj hjob
    · split at hj
      next hpos =>
        rw [List.mem_singleton.1 hj]
        exact hpos
      · cases hj

theorem Placed.endTask (h : Placed s) (ht : s.engine.tasks[i]? = some t)
    (hother : t.phase = .executing → ¬IntervalJob s t.jobId) : Placed
    { s with engine := endTask i t s.engine } := by
  have hperm := tasks_perm ht
  refine ⟨fun jobId hjob => ?_, h.interval⟩
  refine (h.placed jobId hjob).imp_right ?_
  rintro ⟨t', ht', hphase', rfl⟩
  rcases List.mem_cons.1 (hperm.mem_iff.1 ht') with rfl | ht'
  · exact absurd hjob (hother hphase')
  · exact ⟨t', ht', hphase', rfl⟩

/-- **The step**: a step that meets the condition leaves every job in its place. -/
theorem step_placed (h : Placed s)
    (hkeeps : KeepsPlaces s a) (hstep : step hash s a = some s') : Placed s' := by
  cases a with
  | refresh now answer =>
    cases answer with
    | notConnected => cases hstep; exact h
    | failed => cases hstep; exact Placed.rebuild_empty hkeeps
    | jobs list => cases hstep; exact Placed.rebuild hkeeps
  | dispatch now startMono => cases hstep; exact h.dispatch now startMono
  | complete i =>
    obtain ⟨e', he', rfl⟩ := Option.map_eq_some_iff.1 hstep
    exact h.complete hkeeps he'
  | fail i =>
    obtain ⟨e', he', rfl⟩ := Option.map_eq_some_iff.1 hstep
    obtain ⟨t, ht, -, rfl⟩ := failJob_eq_some he'
    exact h.endTask ht fun _ => hkeeps t ht
  | finish i =>
    obtain ⟨e', he', rfl⟩ := Option.map_eq_some_iff.1 hstep
    obtain ⟨t, ht, hphase, rfl⟩ := finishJob_eq_some he'
    refine h.endTask ht fun hexecuting => ?_
    rw [hphase] at hexecuting
    cases hexecuting
  | trigger jobId =>
    cases hstep
    rw [placed_iff] at h ⊢
    dsimp only
    rw [triggerImmediate_pulled]
    exact h

/-! ### Runs -/

theorem length_filter_le_one {α : Type} {f : α → String} {l : List α} (h : (l.map f).Nodup)
    (p : α → Bool) {k : String} (hp : ∀ x, p x = true → f x = k) : (l.filter p).length ≤ 1 := by
  rcases hfilter : l.filter p with _ | ⟨x, _ | ⟨y, rest⟩⟩
  · simp
  · simp
  · have hnodup := h.sublist (filter_sublist (p := p) (l := l) |>.map f)
    have hmem : ∀ z ∈ l.filter p, f z = k := fun z hz => hp z (List.mem_filter.1 hz).2
    rw [hfilter] at hnodup hmem
    rw [map_cons, map_cons, hmem x (by simp), hmem y (by simp)] at hnodup
    simp at hnodup

theorem EngineInv.heapEntries_le (h : EngineInv e) (jobId : String) : heapEntries e jobId ≤ 1 :=
  length_filter_le_one h.heap_nodup _ fun sj hsj => by simpa using hsj

theorem EngineInv.executions_le (h : EngineInv e) (jobId : String) : executions e jobId ≤ 1 :=
  length_filter_le_one h.tasks_nodup _ fun t ht => (by simpa using ht : _ ∧ _).2

theorem heapEntries_pos : 0 < heapEntries e jobId ↔ jobId ∈ e.heap.map (·.jobId) := by
  rw [heapEntries, length_pos_iff_exists_mem, mem_map]
  simp [mem_filter]

theorem executions_pos : 0 < executions e jobId ↔ Executing e jobId := by
  rw [executions, length_pos_iff_exists_mem, Executing]
  simp [mem_filter]

/-- **The run**: in a run whose steps all meet the condition, no job is twice in the heap or
executed twice at a time, and every interval job of the last list is either in the heap or
being executed. -/
theorem scheduled_or_executing {hash : String → ℤ} {s : System}
    (h : Run (step hash) KeepsPlaces {} s) :
    (∀ jobId, heapEntries s.engine jobId ≤ 1) ∧ (∀ jobId, executions s.engine jobId ≤ 1) ∧
      ∀ j ∈ s.pulled, 0 < j.interval →
        heapEntries s.engine j.jobId + executions s.engine j.jobId = 1 := by
  obtain ⟨hinv, hplaced⟩ := h.invariant (I := fun s => EngineInv s.engine ∧ Placed s)
    ⟨engineInv_start, placed_start⟩
    fun hinv hkeeps hstep => ⟨step_engineInv hinv.1 hstep, step_placed hinv.2 hkeeps hstep⟩
  refine ⟨hinv.heapEntries_le, hinv.executions_le, fun j hj hinterval => ?_⟩
  have hheap := hinv.heapEntries_le j.jobId
  have hexecutions := hinv.executions_le j.jobId
  have hone : 0 < heapEntries s.engine j.jobId ∨ 0 < executions s.engine j.jobId :=
    (hplaced.placed j.jobId ⟨j, hj, rfl, hinterval⟩).imp heapEntries_pos.2 executions_pos.2
  have hnot : ¬(0 < heapEntries s.engine j.jobId ∧ 0 < executions s.engine j.jobId) := by
    rw [heapEntries_pos, executions_pos]
    rintro ⟨hmem, t, ht, hphase, hid⟩
    exact hinv.not_heap t ht hphase (hid ▸ hmem)
  omega

/-! ### One job -/

/-- A job that is polled every minute. -/
def pingJob : PulledJob where
  job :=
    { jobId := "j1"
      deviceId := none
      deviceHost := none
      appId := "ping_check"
      appVersion := "1.0.0"
      credentialNames := []
      interval := 60
      parameters := [] }

/-- The list of that job. -/
def pingList : PulledList where
  jobs := [pingJob]
  ids_nodup := by simp

/-- The job is polled once, and its result is submitted. -/
def pollOnce : List Action :=
  [.refresh 0 (.jobs pingList), .dispatch 0 0, .complete 0, .finish 0]

theorem scheduled_or_executing_pollOnce :
    ∃ s, Run (step fun _ => 0) KeepsPlaces {} s ∧ IntervalJob s "j1" ∧
      heapEntries s.engine "j1" + executions s.engine "j1" = 1 := by
  have hreplay : ∃ s ∈ replay (step fun _ => 0) KeepsPlaces {} pollOnce,
      ∃ j ∈ s.pulled, j.jobId = "j1" ∧ 0 < j.interval := by decide +kernel
  obtain ⟨s, hs, j, hj, hid, hinterval⟩ := hreplay
  have hrun : Run (step fun _ => 0) KeepsPlaces {} s := run_of_replay hs
  have hone := (scheduled_or_executing hrun).2.2 j hj hinterval
  rw [hid] at hone
  exact ⟨s, hrun, ⟨j, hj, hid, hinterval⟩, hone⟩

/-- The list arrives again while the result of the job is being submitted, and then the task
ends. -/
def listArrives : List Action :=
  [.refresh 0 (.jobs pingList), .dispatch 0 0, .complete 0, .refresh 15 (.jobs pingList), .finish 0]

/-- The job of the list is neither in the heap nor being executed. -/
theorem not_scheduled_or_executing :
    ¬∀ s, Run (step fun _ => 0) (fun _ _ => True) {} s → ∀ j ∈ s.pulled, 0 < j.interval →
      heapEntries s.engine j.jobId + executions s.engine j.jobId = 1 := by
  intro h
  have hlost : ∃ s ∈ replay (step fun _ => 0) (fun _ _ => True) {} listArrives,
      ∃ j ∈ s.pulled, 0 < j.interval ∧ heapEntries s.engine j.jobId = 0 ∧
        executions s.engine j.jobId = 0 := by
    decide +kernel
  obtain ⟨s, hs, j, hj, hinterval, hheap, hexecutions⟩ := hlost
  have hone := h s (run_of_replay hs) j hj hinterval
  omega

end MonCTL.Collector.PollSchedule
