import MonCTL.Collector.PollSchedule
import MonCTL.Collector.Scheduler
import MonCTL.CollectorApi.Discovery

/-!
# One-Shot Jobs

A discovery job should be executed at most once for every time central injects it. On its way
it passes through the flags of central, the dictionary and the database of a cache node, and the
heap of a poll worker. Central forgets it when it has answered, and a worker when it has executed
it; the cache node keeps it until the next full sync and offers it again with every list.

A response of central is processed as a whole. Two requests that find the same flag are two
injections, as if the flag had been set again in between.
-/

namespace MonCTL.Collector.OneShot

open List Option

open JobPipeline (JobJson)
open CollectorApi (DiscoveryTarget DiscoveryState setDiscoveryFlag injectDiscovery
  injectDiscovery_prefix injectDiscovery_spec)

/-! ### The system -/

/-- A poll worker, and the collector whose cache node it asks. -/
structure Worker where
  collector : String
  workerId : String
  deriving DecidableEq

/-- Central, the cache nodes, the answers on their way to the workers, the workers that have
started, and the numbers of the injections whose jobs have been started. -/
structure System where
  central : DiscoveryState := {}
  schedulers : String → Scheduler := fun _ => {}
  answers : Worker → Option Answer := fun _ => none
  engines : Dict Worker PollEngine := []
  launched : List ℕ := []

/-- What can happen. -/
inductive Action
  /-- Somebody wants a device to be discovered. -/
  | setFlag (deviceId : String)
  /-- A flag lives for some minutes. -/
  | flagExpires (deviceId : String)
  /-- A collector asks central for jobs. The response has the regular jobs, and those of the
  flagged devices in the collector's scope; it may get lost. -/
  | sync (collector : String) (now : Timestamp) (regular : List JobJson)
      (targets : List DiscoveryTarget) (deletedIds : List String) (arrives : Bool)
  /-- The next sync of a collector is to be a full one. -/
  | forceSync (collector : String)
  /-- A job is flagged on a collector. -/
  | trigger (collector : String) (jobId : String)
  /-- A cache node is restarted. -/
  | restartCollector (collector : String)
  /-- A worker is started, for the first time or again. -/
  | startWorker (w : Worker)
  /-- A cache node answers a worker. -/
  | pull (w : Worker)
  /-- A worker's call fails, or there is no connection. -/
  | callFails (w : Worker) (connected : Bool)
  /-- A worker processes the answer. -/
  | refresh (w : Worker) (now : ℚ)
  /-- A worker starts tasks for the jobs that are due. -/
  | dispatch (w : Worker) (now startMono : ℚ)
  /-- A task has run its job. -/
  | complete (w : Worker) (i : ℕ)
  /-- A task is cancelled while it runs its job. -/
  | fail (w : Worker) (i : ℕ)
  /-- A task is done with submitting. -/
  | finish (w : Worker) (i : ℕ)
  /-- A worker is to run a job at once. -/
  | triggerWorker (w : Worker) (jobId : String)

/-- Something happens to one cache node. -/
def System.onScheduler (s : System) (collector : String) (f : Scheduler → Scheduler) : System :=
  { s with
    schedulers := Function.update s.schedulers collector (f (s.schedulers collector)) }

/-- Something happens to one worker. -/
def System.onEngine (s : System) (w : Worker) (f : PollEngine → Option PollEngine) :
    Option System :=
  (s.engines.get? w).bind fun e => (f e).map fun e' => { s with engines := s.engines.set w e' }

/-- The entries a worker starts tasks for. -/
def started (now : ℚ) (e : PollEngine) : List ScheduledJob :=
  (dispatchLoop now e.running e.heap.length e.heap).2

/-- The injections some jobs come from. -/
def injections (jobs : List PulledJob) : List ℕ := jobs.filterMap PulledJob.injection

/-- The response of central to a request. -/
def jobsResponse (regular : List JobJson) (discovery : List (JobJson × ℕ))
    (deletedIds : List String) : JobsResponse where
  jobs := regular.map (·, none) ++ discovery.map fun j => (j.1, some j.2)
  deletedIds

def step (hash : String → ℤ) (s : System) : Action → Option System
  | .setFlag deviceId => some { s with central := setDiscoveryFlag deviceId s.central }
  | .flagExpires deviceId =>
    some { s with central := { s.central with flags := s.central.flags.filter (· ≠ deviceId) } }
  | .sync collector now regular targets deletedIds arrives =>
    let r := injectDiscovery targets s.central
    let response := if arrives then some (jobsResponse regular r.1 deletedIds) else none
    some ({ s with central := r.2 }.onScheduler collector (syncJobs now response))
  | .forceSync collector => some (s.onScheduler collector forceSync)
  | .trigger collector jobId => some (s.onScheduler collector (·.triggerImmediate jobId))
  | .restartCollector collector => some (s.onScheduler collector fun sch => loadFromDb sch.table)
  | .startWorker w =>
    some { s with
      engines := s.engines.set w {}
      answers := Function.update s.answers w none }
  | .pull w =>
    let r := getMyJobs (s.schedulers w.collector) w.workerId
    some { s.onScheduler w.collector (fun _ => r.2) with
      answers := Function.update s.answers w (some r.1) }
  | .callFails w connected =>
    some { s with
      answers := Function.update s.answers w (some (if connected then .failed else .notConnected)) }
  | .refresh w now =>
    (s.answers w).bind fun answer =>
      { s with answers := Function.update s.answers w none }.onEngine w fun e =>
        some (refreshJobs hash now answer e)
  | .dispatch w now startMono =>
    (s.engines.get? w).map fun e =>
      { s with
        engines := s.engines.set w (dispatchReady now startMono e)
        launched := s.launched ++ injections ((started now e).map (·.toPulledJob)) }
  | .complete w i => s.onEngine w (completeJob i)
  | .fail w i => s.onEngine w (failJob i)
  | .finish w i => s.onEngine w (finishJob i)
  | .triggerWorker w jobId =>
    s.onEngine w fun e => some { e with heap := triggerImmediate jobId e.heap }

def offers : Answer → List PulledJob
  | .jobs list => list.jobs
  | _ => []

def waiting (e : PollEngine) : List PulledJob := e.heap.map (·.toPulledJob)

/-- No injection a job comes from has been executed, or waits at another worker. -/
def NewFor (s : System) (w : Worker) (j : PulledJob) : Prop :=
  ∀ n ∈ j.injection, n ∉ s.launched ∧
    ∀ other ∈ s.engines, other.1 ≠ w → n ∉ injections (waiting other.2)
  deriving Decidable

/-- **What a step has to find**: an answer that a worker processes offers no job of an injection
that has been executed or waits at another worker, unless a job of that id is running. -/
def OffersNew (s : System) : Action → Prop
  | .refresh w _ => ∀ answer ∈ s.answers w, ∀ e ∈ s.engines.get? w, ∀ j ∈ offers answer,
      j.jobId ∉ e.running → NewFor s w j
  | _ => True

instance (s : System) : ∀ a, Decidable (OffersNew s a)
  | .refresh w _ => inferInstanceAs (Decidable (∀ answer ∈ s.answers w, _))
  | .setFlag _ => isTrue trivial
  | .flagExpires _ => isTrue trivial
  | .sync .. => isTrue trivial
  | .forceSync _ => isTrue trivial
  | .trigger .. => isTrue trivial
  | .restartCollector _ => isTrue trivial
  | .startWorker _ => isTrue trivial
  | .pull _ => isTrue trivial
  | .callFails .. => isTrue trivial
  | .dispatch .. => isTrue trivial
  | .complete .. => isTrue trivial
  | .fail .. => isTrue trivial
  | .finish .. => isTrue trivial
  | .triggerWorker .. => isTrue trivial

/-! ### Tags -/

/-- A job that comes from an injection has the interval 0, and the id that was injected. -/
def WellTagged (log : List String) (j : PulledJob) : Prop :=
  ∀ n ∈ j.injection, j.interval = 0 ∧ log[n]? = some j.jobId

variable {log : List String} {j : PulledJob}

theorem WellTagged.mono {log' : List String} (h : log <+: log')
    (hj : WellTagged log j) : WellTagged log' j := by
  intro n hn
  obtain ⟨hinterval, hlog⟩ := hj n hn
  obtain ⟨rest, rfl⟩ := h
  have hlt := (List.getElem?_eq_some_iff.1 hlog).1
  exact ⟨hinterval, by rw [getElem?_append_left hlt, hlog]⟩

theorem WellTagged.sameTag {j' : PulledJob} (h : SameTag j j')
    (hj : WellTagged log j) : WellTagged log j' := by
  obtain ⟨hid, hinterval, hinjection⟩ := h
  rw [WellTagged, hid, hinterval, hinjection]
  exact hj

variable {jobs : List PulledJob}

theorem injections_nodup
    (htagged : ∀ j ∈ jobs, WellTagged log j) (hnodup : (jobs.map PulledJob.jobId).Nodup) :
    (injections jobs).Nodup := by
  induction jobs with
  | nil => exact .nil
  | cons j jobs ih =>
    rw [map_cons, nodup_cons] at hnodup
    have hrest := ih (fun j' hj' => htagged j' (mem_cons_of_mem _ hj')) hnodup.2
    rw [injections, filterMap_cons]
    split
    · exact hrest
    next n hn =>
      refine List.nodup_cons.2 ⟨fun hmem => hnodup.1 ?_, hrest⟩
      obtain ⟨j', hj', hn'⟩ := List.mem_filterMap.1 hmem
      have hlog := (htagged j (mem_cons_self ..) n hn).2
      have hlog' := (htagged j' (mem_cons_of_mem _ hj') n hn').2
      rw [hlog, Option.some_inj] at hlog'
      exact hlog' ▸ mem_map_of_mem hj'

theorem mem_injections {n : ℕ} : n ∈ injections jobs ↔ ∃ j ∈ jobs, n ∈ j.injection := mem_filterMap

/-! ### One worker -/

/-- **The invariant of a worker**: that of the engine, and the jobs it has are well tagged. -/
structure EngineTagged (log : List String) (e : PollEngine) : Prop where
  inv : PollSchedule.EngineInv e
  waiting : ∀ j ∈ waiting e, WellTagged log j
  tasks : ∀ t ∈ e.tasks, WellTagged log t.sj.toPulledJob

section EngineTagged

variable {log : List String} {e e' : PollEngine}

theorem engineTagged_start : EngineTagged log {} :=
  ⟨PollSchedule.engineInv_start, by simp [OneShot.waiting], by simp⟩

theorem EngineTagged.mono {log' : List String} (hlog : log <+: log') (h : EngineTagged log e) :
    EngineTagged log' e :=
  ⟨h.inv, fun j hj => (h.waiting j hj).mono hlog, fun t ht => (h.tasks t ht).mono hlog⟩

variable {answer : Answer}

theorem mem_waiting_refresh {hash : String → ℤ} {now : ℚ} {j : PulledJob}
    (hj : j ∈ waiting (refreshJobs hash now answer e)) :
    (j ∈ offers answer ∧ j.jobId ∉ e.running) ∨ j ∈ waiting e := by
  cases answer with
  | notConnected => exact .inr hj
  | failed =>
    rw [waiting, refreshJobs, Answer.list?, PollSchedule.rebuildHeap_heap] at hj
    cases hj
  | jobs list =>
    rw [waiting, refreshJobs, Answer.list?, PollSchedule.rebuildHeap_heap] at hj
    obtain ⟨hmem, hnot⟩ := List.mem_filter.1 hj
    exact .inl ⟨hmem, by simpa using hnot⟩

theorem refreshJobs_tasks (hash : String → ℤ) (now : ℚ) (answer : Answer) (e : PollEngine) :
    (refreshJobs hash now answer e).tasks = e.tasks := by
  rw [refreshJobs]
  split
  · rfl
  next list _ => exact (PollSchedule.rebuildHeap_tasks hash now list e).1

theorem EngineTagged.refresh (h : EngineTagged log e)
    (hanswer : ∀ j ∈ offers answer, WellTagged log j) (hash : String → ℤ) (now : ℚ) :
    EngineTagged log (refreshJobs hash now answer e) where
  inv := h.inv.refresh hash now answer
  waiting := fun j hj => by
    rcases mem_waiting_refresh hj with ⟨hj, -⟩ | hj
    · exact hanswer j hj
    · exact h.waiting j hj
  tasks := by
    rw [refreshJobs_tasks]
    exact h.tasks

theorem started_subperm (now startMono : ℚ) (e : PollEngine) :
    List.Subperm ((started now e).map (·.toPulledJob) ++
      waiting (dispatchReady now startMono e)) (waiting e) := by
  have hsub := (dispatchLoop_spec now e.running e.heap.length e.heap).1
  rw [map_append] at hsub
  exact hsub

theorem EngineTagged.dispatch (h : EngineTagged log e) (now startMono : ℚ) :
    EngineTagged log (dispatchReady now startMono e) where
  inv := h.inv.dispatch now startMono
  waiting := fun j hj =>
    h.waiting j ((started_subperm now startMono e).subset (mem_append_right _ hj))
  tasks := fun t ht => by
    rcases List.mem_append.1 ht with ht | ht
    · obtain ⟨sj, hsj, rfl⟩ := List.mem_map.1 ht
      refine h.waiting _ ((started_subperm now startMono e).subset (mem_append_left _ ?_))
      exact mem_map_of_mem hsj
    · exact h.tasks t ht

variable {i : ℕ}

theorem injections_complete (h : EngineTagged log e) (hcomplete : completeJob i e = some e') :
    injections (waiting e') = injections (waiting e) := by
  obtain ⟨t, ht, -, -, -, hheap⟩ := PollSchedule.completeJob_eq_some hcomplete
  have htagged := h.tasks t (mem_of_getElem? ht)
  rw [OneShot.waiting, hheap, injections, filterMap_append]
  split
  next hpos =>
    cases hinjection : t.sj.injection with
    | none =>
      rw [filterMap_cons_none hinjection]
      exact append_nil _
    | some n => exact absurd (htagged n hinjection).1 hpos.ne'
  · exact append_nil _

theorem EngineTagged.complete (h : EngineTagged log e)
    (hcomplete : completeJob i e = some e') : EngineTagged log e' := by
  obtain ⟨t, ht, -, -, htasks, hheap⟩ := PollSchedule.completeJob_eq_some hcomplete
  have htagged := h.tasks t (mem_of_getElem? ht)
  refine ⟨h.inv.complete hcomplete, fun j hj => ?_, fun t' ht' => ?_⟩
  · rw [OneShot.waiting, hheap] at hj
    rcases List.mem_append.1 hj with hj | hj
    · exact h.waiting j hj
    · split at hj
      · rw [List.mem_singleton.1 hj]
        exact htagged
      · cases hj
  · rw [htasks] at ht'
    rcases List.mem_cons.1 ht' with rfl | ht'
    · exact htagged
    · exact h.tasks t' (mem_of_mem_eraseIdx ht')

theorem EngineTagged.endTask (h : EngineTagged log e) {t : Task}
    (ht : e.tasks[i]? = some t) : EngineTagged log (endTask i t e) where
  inv := h.inv.endTask ht
  waiting := h.waiting
  tasks := fun t' ht' => h.tasks t' (mem_of_mem_eraseIdx ht')

theorem waiting_trigger (jobId : String) (e : PollEngine) :
    waiting { e with heap := triggerImmediate jobId e.heap } = waiting e :=
  PollSchedule.triggerImmediate_pulled jobId e.heap

theorem EngineTagged.trigger (h : EngineTagged log e) (jobId : String) :
    EngineTagged log { e with heap := triggerImmediate jobId e.heap } where
  inv := h.inv.of_heap (PollSchedule.triggerImmediate_pulled jobId e.heap)
  waiting := by
    rw [waiting_trigger]
    exact h.waiting
  tasks := h.tasks

end EngineTagged

/-! ### Where tagged jobs are -/

/-- **The invariant of the tags**: the jobs of the cache nodes, of the answers and of the workers
are well tagged. -/
structure Tagged (s : System) : Prop where
  schedulers : ∀ c, AllJobs (WellTagged s.central.injected) (s.schedulers c)
  answers : ∀ w, ∀ answer ∈ s.answers w, ∀ j ∈ offers answer, WellTagged s.central.injected j
  engines : ∀ w, ∀ e ∈ s.engines.get? w, EngineTagged s.central.injected e

theorem tagged_start : Tagged {} where
  schedulers := fun _ => ⟨by simp, by simp⟩
  answers := by simp
  engines := by simp [Dict.get?]

section Tagged

variable {s s' : System}

theorem forall_update {K V : Type} [DecidableEq K] {P : V → Prop} {m : K → V} {k : K} {v : V}
    (h : ∀ k, P (m k)) (hv : P v) : ∀ k', P (Function.update m k v k') := by
  intro k'
  rw [Function.update_apply]
  split
  · exact hv
  · exact h k'

variable {w : Worker} {e' : PollEngine}

theorem forall_set_engine {engines : Dict Worker PollEngine} {P : Worker → PollEngine → Prop}
    (h : ∀ w', w' ≠ w → ∀ e ∈ engines.get? w', P w' e) (hv : P w e') :
    ∀ w', ∀ e ∈ (engines.set w e').get? w', P w' e := by
  intro w' e he
  rw [Dict.get?, Dict.lookup_set] at he
  split at he
  next hw =>
    cases he
    exact hw ▸ hv
  next hw => exact h w' hw e he

theorem onEngine_eq_some {f : PollEngine → Option PollEngine}
    (h : s.onEngine w f = some s') : ∃ e e', s.engines.get? w = some e ∧ f e = some e' ∧
      s' = { s with engines := s.engines.set w e' } := by
  obtain ⟨e, he, h⟩ := bind_eq_some_iff.1 h
  obtain ⟨e', he', rfl⟩ := map_eq_some_iff.1 h
  exact ⟨e, e', he, he', rfl⟩

/-- Central has injected more jobs, and nothing else has changed. -/
theorem Tagged.central (h : Tagged s) {central : DiscoveryState}
    (hlog : s.central.injected <+: central.injected) : Tagged { s with central } where
  schedulers := fun c => ⟨fun j hj => ((h.schedulers c).jobs j hj).mono hlog,
    fun row hrow => ((h.schedulers c).rows row hrow).mono hlog⟩
  answers := fun w answer hanswer j hj => (h.answers w answer hanswer j hj).mono hlog
  engines := fun w e he => (h.engines w e he).mono hlog

theorem Tagged.onScheduler (h : Tagged s) {c : String} {f : Scheduler → Scheduler}
    (hf : AllJobs (WellTagged s.central.injected) (f (s.schedulers c))) :
    Tagged (s.onScheduler c f) where
  schedulers := forall_update h.schedulers hf
  answers := h.answers
  engines := h.engines

theorem Tagged.answer (h : Tagged s) {answer : Option Answer}
    (hanswer : ∀ a ∈ answer, ∀ j ∈ offers a, WellTagged s.central.injected j) :
    Tagged { s with answers := Function.update s.answers w answer } where
  schedulers := h.schedulers
  answers := forall_update (P := fun o : Option Answer => ∀ a ∈ o, ∀ j ∈ offers a,
    WellTagged s.central.injected j) h.answers hanswer
  engines := h.engines

theorem Tagged.engine (h : Tagged s)
    (he' : EngineTagged s.central.injected e') (launched : List ℕ) :
    Tagged { s with engines := s.engines.set w e', launched } where
  schedulers := h.schedulers
  answers := h.answers
  engines := forall_set_engine (fun w' _ => h.engines w') he'

theorem jobsResponse_tagged (regular : List JobJson) (targets : List DiscoveryTarget)
    (deletedIds : List String) (central : DiscoveryState) :
    ∀ j ∈ (jobsResponse regular (injectDiscovery targets central).1 deletedIds).parsed,
      WellTagged (injectDiscovery targets central).2.injected j := by
  intro j hj
  obtain ⟨p, hp, rfl⟩ := List.mem_map.1 hj
  rcases List.mem_append.1 hp with hp | hp
  · obtain ⟨job, -, rfl⟩ := List.mem_map.1 hp
    intro n hn
    cases hn
  · obtain ⟨q, hq, rfl⟩ := List.mem_map.1 hp
    intro n hn
    cases hn
    exact injectDiscovery_spec targets central q hq

/-- **The step**: everything that can happen keeps the tags. -/
theorem step_tagged {hash : String → ℤ} {a : Action} (h : Tagged s)
    (hstep : step hash s a = some s') : Tagged s' := by
  cases a with
  | setFlag deviceId => cases hstep; exact h.central (prefix_refl _)
  | flagExpires deviceId => cases hstep; exact h.central (prefix_refl _)
  | sync collector now regular targets deletedIds arrives =>
    cases hstep
    have hlog := injectDiscovery_prefix targets s.central
    refine Tagged.onScheduler (h.central hlog) ?_
    refine AllJobs.syncJobs WellTagged.sameTag ((h.central hlog).schedulers collector) ?_ now
    intro response hresponse
    split at hresponse
    · cases hresponse
      exact jobsResponse_tagged regular targets deletedIds s.central
    · cases hresponse
  | forceSync collector =>
    cases hstep
    exact h.onScheduler ⟨(h.schedulers collector).jobs, (h.schedulers collector).rows⟩
  | trigger collector jobId =>
    cases hstep
    exact h.onScheduler ((h.schedulers collector).triggerImmediate jobId)
  | restartCollector collector =>
    cases hstep
    exact h.onScheduler (h.schedulers collector).loadFromDb
  | startWorker w =>
    cases hstep
    exact (h.answer (by simp)).engine engineTagged_start s.launched
  | pull w =>
    cases hstep
    obtain ⟨hall, hlist⟩ := AllJobs.getMyJobs WellTagged.sameTag (h.schedulers w.collector) w.workerId
    refine (h.onScheduler (f := fun _ => _) hall).answer ?_
    intro answer hanswer j hj
    cases hanswer
    cases hanswer : (getMyJobs (s.schedulers w.collector) w.workerId).1 with
    | jobs list =>
      rw [hanswer] at hj
      exact hlist list hanswer j hj
    | notConnected =>
      rw [hanswer] at hj
      cases hj
    | failed =>
      rw [hanswer] at hj
      cases hj
  | callFails w connected =>
    cases hstep
    refine h.answer fun answer hanswer j hj => ?_
    cases hanswer
    cases connected <;> cases hj
  | refresh w now =>
    obtain ⟨answer, hanswer, hstep⟩ := bind_eq_some_iff.1 hstep
    obtain ⟨e, e', he, he', rfl⟩ := onEngine_eq_some hstep
    cases he'
    have hrefresh := (h.engines w e he).refresh (h.answers w answer hanswer) hash now
    exact (h.answer (by simp)).engine hrefresh s.launched
  | dispatch w now startMono =>
    obtain ⟨e, he, rfl⟩ := map_eq_some_iff.1 hstep
    exact h.engine ((h.engines w e he).dispatch now startMono) _
  | complete w i =>
    obtain ⟨e, e', he, he', rfl⟩ := onEngine_eq_some hstep
    exact h.engine ((h.engines w e he).complete he') s.launched
  | fail w i =>
    obtain ⟨e, e', he, he', rfl⟩ := onEngine_eq_some hstep
    obtain ⟨t, ht, -, rfl⟩ := PollSchedule.failJob_eq_some he'
    exact h.engine ((h.engines w e he).endTask ht) s.launched
  | finish w i =>
    obtain ⟨e, e', he, he', rfl⟩ := onEngine_eq_some hstep
    obtain ⟨t, ht, -, rfl⟩ := PollSchedule.finishJob_eq_some he'
    exact h.engine ((h.engines w e he).endTask ht) s.launched
  | triggerWorker w jobId =>
    obtain ⟨e, e', he, he', rfl⟩ := onEngine_eq_some hstep
    cases he'
    exact h.engine ((h.engines w e he).trigger jobId) s.launched

end Tagged

/-! ### No injection twice -/

/-- **The invariant of the executions**: no injection has been executed twice, and one that waits
at a worker has not been executed and waits at no other worker. -/
structure Once (s : System) : Prop where
  nodup : s.launched.Nodup
  fresh : ∀ w, ∀ e ∈ s.engines.get? w, ∀ n ∈ injections (waiting e), n ∉ s.launched
  apart : ∀ w, ∀ e ∈ s.engines.get? w, ∀ w', ∀ e' ∈ s.engines.get? w',
    ∀ n, n ∈ injections (waiting e) → n ∈ injections (waiting e') → w = w'

theorem once_start : Once {} where
  nodup := .nil
  fresh := by simp [Dict.get?]
  apart := by simp [Dict.get?]

section Once

variable {s s' : System} {w : Worker} {e' : PollEngine}

theorem Once.set_engine (h : Once s) (hfresh : ∀ n ∈ injections (waiting e'), n ∉ s.launched)
    (hapart : ∀ w', w' ≠ w → ∀ e ∈ s.engines.get? w', ∀ n ∈ injections (waiting e'),
      n ∉ injections (waiting e)) : Once { s with engines := s.engines.set w e' } where
  nodup := h.nodup
  fresh := forall_set_engine (P := fun _ e => ∀ n ∈ injections (waiting e), n ∉ s.launched)
    (fun w' _ => h.fresh w') hfresh
  apart := by
    refine forall_set_engine ?_ ?_
    · intro w₁ hw₁ e₁ he₁
      refine forall_set_engine (fun w₂ _ e₂ he₂ => h.apart w₁ e₁ he₁ w₂ e₂ he₂) ?_
      intro n hn hn'
      exact absurd hn (hapart w₁ hw₁ e₁ he₁ n hn')
    · refine forall_set_engine (fun w₂ hw₂ e₂ he₂ n hn hn' => ?_) fun _ _ _ => rfl
      exact absurd hn' (hapart w₂ hw₂ e₂ he₂ n hn)

variable {e : PollEngine}

theorem Once.shrink (h : Once s) (he : s.engines.get? w = some e)
    (hsub : injections (waiting e') ⊆ injections (waiting e)) :
    Once { s with engines := s.engines.set w e' } := by
  refine h.set_engine (fun n hn => h.fresh w e he n (hsub hn)) ?_
  intro w' hw' e₂ he₂ n hn hn₂
  exact hw' (h.apart w e he w' e₂ he₂ n (hsub hn) hn₂).symm

variable {hash : String → ℤ}

theorem Once.refresh (h : Once s) {now : ℚ} {answer : Answer}
    (hanswer : s.answers w = some answer) (he : s.engines.get? w = some e)
    (hnew : OffersNew s (.refresh w now)) :
    Once { s with engines := s.engines.set w (refreshJobs hash now answer e) } := by
  -- what waits then is offered by the answer, or has waited before
  have hwaiting : ∀ n ∈ injections (waiting (refreshJobs hash now answer e)),
      (n ∉ s.launched ∧ ∀ other ∈ s.engines, other.1 ≠ w → n ∉ injections (waiting other.2)) ∨
        n ∈ injections (waiting e) := by
    intro n hn
    obtain ⟨j, hj, hn⟩ := mem_injections.1 hn
    rcases mem_waiting_refresh hj with ⟨hj, hrunning⟩ | hj
    · exact .inl (hnew answer hanswer e he j hj hrunning n hn)
    · exact .inr (mem_injections.2 ⟨j, hj, hn⟩)
  refine h.set_engine (fun n hn => ?_) fun w' hw' e₂ he₂ n hn hn₂ => ?_
  · rcases hwaiting n hn with hnew | hold
    · exact hnew.1
    · exact h.fresh w e he n hold
  · rcases hwaiting n hn with hnew | hold
    · exact hnew.2 (w', e₂) (Dict.mem_of_get? he₂) hw' hn₂
    · exact hw' (h.apart w e he w' e₂ he₂ n hold hn₂).symm

theorem Once.dispatch (h : Once s) (htagged : Tagged s)
    (he : s.engines.get? w = some e) (now startMono : ℚ) : Once { s with
      engines := s.engines.set w (dispatchReady now startMono e)
      launched := s.launched ++ injections ((started now e).map (·.toPulledJob)) } := by
  have hsub := started_subperm now startMono e
  have hengine := htagged.engines w e he
  have hnodup : (injections ((started now e).map (·.toPulledJob) ++
      waiting (dispatchReady now startMono e))).Nodup := by
    refine injections_nodup (fun j hj => hengine.waiting j (hsub.subset hj)) ?_
    refine PollSchedule.nodup_map_of_subperm _ hsub ?_
    rw [waiting, ← PollSchedule.map_jobId]
    exact hengine.inv.heap_nodup
  have hmem : injections ((started now e).map (·.toPulledJob) ++
      waiting (dispatchReady now startMono e)) ⊆ injections (waiting e) := fun n hn => by
    obtain ⟨j, hj, hn⟩ := mem_injections.1 hn
    exact mem_injections.2 ⟨j, hsub.subset hj, hn⟩
  have happend : injections ((started now e).map (·.toPulledJob) ++
      waiting (dispatchReady now startMono e)) =
      injections ((started now e).map (·.toPulledJob)) ++
        injections (waiting (dispatchReady now startMono e)) := filterMap_append
  rw [happend] at hnodup hmem
  generalize injections ((started now e).map (·.toPulledJob)) = launching at hnodup hmem
  have hwaits : launching ⊆ injections (waiting e) := (List.append_subset.1 hmem).1
  have hleft := (List.append_subset.1 hmem).2
  rw [nodup_append] at hnodup
  obtain ⟨hlaunching, -, hapart⟩ := hnodup
  have hshrink := h.shrink he hleft
  refine ⟨?_, ?_, hshrink.apart⟩
  · rw [nodup_append]
    refine ⟨h.nodup, hlaunching, fun n hn n' hn' heq => ?_⟩
    exact h.fresh w e he n' (hwaits hn') (heq ▸ hn)
  · refine forall_set_engine (P := fun _ e => ∀ n ∈ injections (waiting e),
      n ∉ s.launched ++ launching) ?_ ?_
    · intro w' hw' e₂ he₂ n hn hmem
      rcases List.mem_append.1 hmem with hmem | hmem
      · exact h.fresh w' e₂ he₂ n hn hmem
      · exact hw' (h.apart w' e₂ he₂ w e he n hn (hwaits hmem))
    · intro n hn hmem
      rcases List.mem_append.1 hmem with hmem | hmem
      · exact h.fresh w e he n (hleft hn) hmem
      · exact hapart n hmem n hn rfl

/-- **The step**: a step that meets the condition starts no injection a second time. -/
theorem step_once {a : Action} (htagged : Tagged s) (h : Once s)
    (hnew : OffersNew s a) (hstep : step hash s a = some s') : Once s' := by
  cases a with
  | setFlag deviceId => cases hstep; exact ⟨h.nodup, h.fresh, h.apart⟩
  | flagExpires deviceId => cases hstep; exact ⟨h.nodup, h.fresh, h.apart⟩
  | sync collector now regular targets deletedIds arrives =>
    cases hstep
    exact ⟨h.nodup, h.fresh, h.apart⟩
  | forceSync collector => cases hstep; exact ⟨h.nodup, h.fresh, h.apart⟩
  | trigger collector jobId => cases hstep; exact ⟨h.nodup, h.fresh, h.apart⟩
  | restartCollector collector => cases hstep; exact ⟨h.nodup, h.fresh, h.apart⟩
  | startWorker w =>
    cases hstep
    have hstart : Once { s with engines := s.engines.set w {} } :=
      h.set_engine (by simp [waiting, injections]) (by simp [waiting, injections])
    exact ⟨hstart.nodup, hstart.fresh, hstart.apart⟩
  | pull w => cases hstep; exact ⟨h.nodup, h.fresh, h.apart⟩
  | callFails w connected => cases hstep; exact ⟨h.nodup, h.fresh, h.apart⟩
  | refresh w now =>
    obtain ⟨answer, hanswer, hstep⟩ := bind_eq_some_iff.1 hstep
    obtain ⟨e, e', he, he', rfl⟩ := onEngine_eq_some hstep
    cases he'
    have hrefresh : Once { s with
        engines := s.engines.set w (refreshJobs hash now answer e) } := h.refresh hanswer he hnew
    exact ⟨hrefresh.nodup, hrefresh.fresh, hrefresh.apart⟩
  | dispatch w now startMono =>
    obtain ⟨e, he, rfl⟩ := map_eq_some_iff.1 hstep
    exact h.dispatch htagged he now startMono
  | complete w i =>
    obtain ⟨e, e', he, he', rfl⟩ := onEngine_eq_some hstep
    refine h.shrink he ?_
    rw [injections_complete (htagged.engines w e he) he']
    exact List.Subset.refl _
  | fail w i =>
    obtain ⟨e, e', he, he', rfl⟩ := onEngine_eq_some hstep
    obtain ⟨t, ht, -, rfl⟩ := PollSchedule.failJob_eq_some he'
    exact h.shrink he (List.Subset.refl _)
  | finish w i =>
    obtain ⟨e, e', he, he', rfl⟩ := onEngine_eq_some hstep
    obtain ⟨t, ht, -, rfl⟩ := PollSchedule.finishJob_eq_some he'
    exact h.shrink he (List.Subset.refl _)
  | triggerWorker w jobId =>
    obtain ⟨e, e', he, he', rfl⟩ := onEngine_eq_some hstep
    cases he'
    refine h.shrink he ?_
    rw [waiting_trigger]
    exact List.Subset.refl _

end Once

/-! ### Runs -/

/-- **The run**: in a run whose steps all meet the condition, no injection is executed twice. -/
theorem executed_at_most_once {hash : String → ℤ} {s : System}
    (h : Run (step hash) OffersNew {} s) : ∀ n, s.launched.count n ≤ 1 := by
  obtain ⟨-, honce⟩ := h.invariant (I := fun s => Tagged s ∧ Once s) ⟨tagged_start, once_start⟩
    fun hinv hnew hstep => ⟨step_tagged hinv.1 hstep, step_once hinv.1 hinv.2 hnew hstep⟩
  exact List.nodup_iff_count_le_one.1 honce.nodup

/-! ### One device -/

def device : DiscoveryTarget where
  deviceId := "d1"
  deviceHost := some "192.0.2.1"
  appVersion := "1.0.0"
  appChecksum := ""
  credentialNames := []
  eligibilityOids := []
  updatedAt := "2025-01-01T00:00:00+00:00"
  connectorBindings := []

/-- The only worker of a collector. -/
def worker : Worker := ⟨"c1", "w1"⟩

/-- The job is injected, and executed once. -/
def discoverOnce : List Action :=
  [.startWorker worker, .setFlag "d1", .sync "c1" 0 [] [device] [] true, .pull worker,
    .refresh worker 0, .dispatch worker 0 0, .complete worker 0, .finish worker 0]

theorem executed_at_most_once_discoverOnce :
    ∃ s, Run (step fun _ => 0) OffersNew {} s ∧ s.launched = [0] ∧ ∀ n, s.launched.count n ≤ 1 := by
  have hreplay : ∃ s ∈ replay (step fun _ => 0) OffersNew {} discoverOnce, s.launched = [0] := by
    decide +kernel
  obtain ⟨s, hs, hlaunched⟩ := hreplay
  have hrun : Run (step fun _ => 0) OffersNew {} s := run_of_replay hs
  exact ⟨s, hrun, hlaunched, executed_at_most_once hrun⟩

/-- The worker pulls again, and the job is in the list. -/
def pullAgain : List Action :=
  [.pull worker, .refresh worker 30, .dispatch worker 30 30, .complete worker 0]

/-- The job has been injected once, and is executed twice. -/
theorem not_executed_at_most_once :
    ¬∀ s, Run (step fun _ => 0) (fun _ _ => True) {} s → ∀ n, s.launched.count n ≤ 1 := by
  intro h
  have htwice : ∃ s ∈ replay (step fun _ => 0) (fun _ _ => True) {} (discoverOnce ++ pullAgain),
      s.launched.count 0 = 2 := by
    decide +kernel
  obtain ⟨s, hs, hcount⟩ := htwice
  have hone := h s (run_of_replay hs) 0
  omega

/-- **Where discoveries come from**: in every run, whatever is lost or restarted, each discovery job
of a cache node, of an answer or of a worker is one that central has injected, with its id and the
interval 0; and no worker executes a job twice at a time. -/
theorem tagged_of_run {hash : String → ℤ} {s : System}
    (h : Run (step hash) (fun _ _ => True) {} s) : Tagged s :=
  h.invariant (I := Tagged) tagged_start fun hinv _ hstep => step_tagged hinv hstep

/-- A discovery that a worker pulls again is executed twice, and still is the one injected. -/
theorem tagged_of_run_pullAgain : ∃ s : System, s.launched.count 0 = 2 ∧ Tagged s := by
  have htwice : ∃ s ∈ replay (step fun _ => 0) (fun _ _ => True) {} (discoverOnce ++ pullAgain),
      s.launched.count 0 = 2 := by
    decide +kernel
  obtain ⟨s, hs, hcount⟩ := htwice
  exact ⟨s, hcount, tagged_of_run (run_of_replay hs)⟩

end MonCTL.Collector.OneShot
