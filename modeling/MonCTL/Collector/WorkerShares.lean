import Mathlib.Data.String.Basic
import MonCTL.Collector.Scheduler
import MonCTL.Lib.Runs

/-!
# The Shares of the Poll Workers

The jobs of a cache node are dealt out to the poll workers that have registered. A worker
registers when it asks for its jobs, and stays registered: a worker that dies keeps its place in
the deal, and the jobs of its share are offered to nobody.
-/

namespace MonCTL.Collector

open List

open JobPipeline (parseJob)

/-- `get_jobs_for_worker`, without the profiles. -/
def getJobsForWorker (s : Scheduler) (workerId : String) : List PulledJob :=
  let s := registerWorker s workerId
  if s.myJobs.jobs = [] then [] else assignJobsToWorker s workerId

/-! ### The node -/

/-- A cache node, and the workers that are still polling it. -/
structure CacheNode where
  scheduler : Scheduler := {}
  polling : List String := []

/-- What happens on a cache node. -/
inductive NodeAction
  | pull (workerId : String)
  | die (workerId : String)
  | sync (now : Timestamp) (response : Option JobsResponse)
  | forceSync (now : Timestamp) (response : Option JobsResponse)
  | triggerImmediate (jobId : String)

/-- One step of a cache node. A worker that dies tells nobody. -/
def CacheNode.step (n : CacheNode) : NodeAction → Option CacheNode
  | .pull workerId => some
      { scheduler := (getMyJobs n.scheduler workerId).2, polling := n.polling.insert workerId }
  | .die workerId => some { n with polling := n.polling.filter (· ≠ workerId) }
  | .sync now response => some { n with scheduler := syncJobs now response n.scheduler }
  | .forceSync now response => some
      { n with scheduler := syncJobs now response (forceSync n.scheduler) }
  | .triggerImmediate jobId => some { n with scheduler := n.scheduler.triggerImmediate jobId }

abbrev CacheNode.Reachable : CacheNode → Prop := Run CacheNode.step (fun _ _ => True) {}

/-- The lists offered to the polling workers **partition** the jobs. -/
structure CacheNode.Partitions (n : CacheNode) : Prop where
  once : ∀ j ∈ n.scheduler.myJobs.jobs,
    ∃! workerId, workerId ∈ n.polling ∧ j ∈ getJobsForWorker n.scheduler workerId
  only : ∀ workerId ∈ n.polling, ∀ j ∈ getJobsForWorker n.scheduler workerId,
    j ∈ n.scheduler.myJobs.jobs
  nodup : ∀ workerId ∈ n.polling,
    ((getJobsForWorker n.scheduler workerId).map PulledJob.jobId).Nodup

/-! ### Registration -/

/-- The workers are registered once, and those that poll are among them. -/
structure CacheNode.Registered (n : CacheNode) : Prop where
  nodup : n.scheduler.workers.Nodup
  polling : ∀ workerId ∈ n.polling, workerId ∈ n.scheduler.workers

theorem foldl_workers {E : Type} {f : Scheduler → E → Scheduler}
    (h : ∀ s x, (f s x).workers = s.workers) (l : List E) (s : Scheduler) :
    (l.foldl f s).workers = s.workers :=
  foldl_keeps (I := fun t => t.workers = s.workers) rfl fun t x _ ht => (h t x).trans ht

theorem syncJobs_workers (now : Timestamp) (response : Option JobsResponse) (s : Scheduler) :
    (syncJobs now response s).workers = s.workers := by
  have hupsert : ∀ s j, (applyUpsert s j).workers = s.workers := by
    intro s j
    rw [applyUpsert]
    split
    · rfl
    · rfl
  have hstale : ∀ s jobId, (removeStale s jobId).workers = s.workers := fun _ _ => rfl
  have hdeletion : ∀ s jobId, (applyDeletion s jobId).workers = s.workers := fun _ _ => rfl
  cases response with
  | none => rfl
  | some response =>
    rw [syncJobs, foldl_workers hupsert]
    split
    · rw [foldl_workers hstale, foldl_workers hdeletion]
      rfl
    · rw [foldl_workers hdeletion]
      rfl

theorem getMyJobs_workers (s : Scheduler) (workerId : String) :
    (getMyJobs s workerId).2.workers = s.workers.insert workerId := by
  rw [getMyJobs]
  split
  · rfl
  · rfl

theorem getMyJobs_myJobs (s : Scheduler) (workerId : String) :
    (getMyJobs s workerId).2.myJobs = s.myJobs := by
  rw [getMyJobs]
  split
  · rfl
  · rfl

theorem triggerImmediate_workers (s : Scheduler) (jobId : String) :
    (s.triggerImmediate jobId).workers = s.workers := by
  rw [Scheduler.triggerImmediate]
  split
  · rfl
  · rfl

theorem CacheNode.Registered.step {n n' : CacheNode} {a : NodeAction} (h : n.Registered)
    (hs : n.step a = some n') : n'.Registered := by
  cases a with
  | pull workerId =>
    cases hs
    refine ⟨?_, fun w hw => ?_⟩
    · rw [getMyJobs_workers]
      exact h.nodup.insert
    · rw [getMyJobs_workers]
      rcases List.mem_insert_iff.1 hw with rfl | hw
      · exact mem_insert_self
      · exact mem_insert_of_mem (h.polling w hw)
  | die workerId =>
    cases hs
    exact ⟨h.nodup, fun w hw => h.polling w (mem_of_mem_filter hw)⟩
  | sync now response =>
    cases hs
    refine ⟨?_, fun w hw => ?_⟩
    · rw [syncJobs_workers]
      exact h.nodup
    · rw [syncJobs_workers]
      exact h.polling w hw
  | forceSync now response =>
    cases hs
    refine ⟨?_, fun w hw => ?_⟩
    · rw [syncJobs_workers]
      exact h.nodup
    · rw [syncJobs_workers]
      exact h.polling w hw
  | triggerImmediate jobId =>
    cases hs
    refine ⟨?_, fun w hw => ?_⟩
    · rw [triggerImmediate_workers]
      exact h.nodup
    · rw [triggerImmediate_workers]
      exact h.polling w hw

theorem CacheNode.Reachable.registered {n : CacheNode} (h : n.Reachable) : n.Registered :=
  h.invariant ⟨.nil, fun _ hw => nomatch hw⟩ fun hn _ hs => hn.step hs

/-! ### The deal -/

/-- The number of registered workers that come before one. -/
def rankOf (s : Scheduler) (workerId : String) : ℕ := (s.workers.filter (· < workerId)).length

theorem idxOf_eq_length_filter {l : List String} (h : l.Pairwise (· < ·)) {x : String}
    (hx : x ∈ l) : l.idxOf x = (l.filter (· < x)).length := by
  induction l with
  | nil => cases hx
  | cons y l ih =>
    obtain ⟨hy, hl⟩ := List.pairwise_cons.1 h
    rcases List.mem_cons.1 hx with rfl | hx
    · have hnone : (x :: l).filter (· < x) = [] := by
        rw [filter_eq_nil_iff]
        intro z hz hlt
        rcases List.mem_cons.1 hz with rfl | hz
        · exact lt_irrefl z (of_decide_eq_true hlt)
        · exact lt_asymm (hy z hz) (of_decide_eq_true hlt)
      rw [idxOf_cons_self, hnone]
      rfl
    · have hlt := hy x hx
      rw [idxOf_cons_ne _ hlt.ne, filter_cons_of_pos (by simpa using hlt),
        length_cons, ih hl hx]

section Deal

variable {s : Scheduler} {workerId : String} {j : PulledJob}

/-- The registered workers, in order. -/
def activeWorkers (s : Scheduler) : List String := s.workers.mergeSort fun a b => a ≤ b

/-- The jobs, in order. -/
def sortedJobs (s : Scheduler) : List PulledJob :=
  s.myJobs.jobs.mergeSort fun a b => a.jobId ≤ b.jobId

theorem mem_activeWorkers : workerId ∈ activeWorkers s ↔ workerId ∈ s.workers := mem_mergeSort

theorem activeWorkers_perm (s : Scheduler) : (activeWorkers s).Perm s.workers := mergeSort_perm ..

theorem sortedJobs_perm (s : Scheduler) : (sortedJobs s).Perm s.myJobs.jobs := mergeSort_perm ..

theorem sortedJobs_nodup (s : Scheduler) : (sortedJobs s).Nodup :=
  (sortedJobs_perm s).nodup_iff.2 (List.Nodup.of_map _ s.myJobs.ids_nodup)

theorem activeWorkers_pairwise (h : s.workers.Nodup) : (activeWorkers s).Pairwise (· < ·) := by
  have hle : (activeWorkers s).Pairwise (· ≤ ·) := pairwise_mergeSort' (r := (· ≤ ·)) _
  have hne : (activeWorkers s).Pairwise (· ≠ ·) := (activeWorkers_perm s).nodup_iff.2 h
  exact (hle.and hne).imp fun hab => lt_of_le_of_ne hab.1 hab.2

theorem idxOf_activeWorkers (h : s.workers.Nodup) (hw : workerId ∈ s.workers) :
    (activeWorkers s).idxOf workerId = rankOf s workerId := by
  rw [idxOf_eq_length_filter (activeWorkers_pairwise h) (mem_activeWorkers.2 hw), rankOf]
  exact ((activeWorkers_perm s).filter _).length_eq

/-- **What a registered worker is offered**: the jobs whose place leaves its rank. -/
theorem mem_getJobsForWorker (h : s.workers.Nodup) (hw : workerId ∈ s.workers) :
    j ∈ getJobsForWorker s workerId ↔
      ∃ i, (sortedJobs s)[i]? = some j ∧ i % s.workers.length = rankOf s workerId := by
  have hregister : registerWorker s workerId = s := by rw [registerWorker, insert_of_mem hw]
  have hpos : 0 < s.workers.length := length_pos_of_mem hw
  have hlength : (activeWorkers s).length = s.workers.length := (activeWorkers_perm s).length_eq
  rw [getJobsForWorker, hregister]
  split
  next hnil =>
    have hsorted : sortedJobs s = [] := by rw [sortedJobs, hnil, mergeSort_nil]
    rw [hsorted]
    simp
  · have hmem : ¬ workerId ∉ s.workers.mergeSort fun a b => a ≤ b :=
      not_not_intro (mem_activeWorkers.2 hw)
    rw [assignJobsToWorker, if_neg hmem]
    rw [show (s.workers.mergeSort fun a b => a ≤ b) = activeWorkers s from rfl,
      show (s.myJobs.jobs.mergeSort fun a b => a.jobId ≤ b.jobId) = sortedJobs s from rfl,
      hlength, max_eq_left hpos, idxOf_activeWorkers h hw]
    constructor
    · intro hj
      obtain ⟨p, hp, rfl⟩ := List.mem_map.1 hj
      obtain ⟨hp, hi⟩ := List.mem_filter.1 hp
      exact ⟨p.2, List.mem_zipIdx_iff_getElem?.1 hp, by simpa using hi⟩
    · rintro ⟨i, hj, hi⟩
      refine List.mem_map.2 ⟨(j, i), List.mem_filter.2 ⟨?_, by simpa using hi⟩, rfl⟩
      exact List.mem_zipIdx_iff_getElem?.2 hj

theorem exists_rankOf (h : s.workers.Nodup) {i : ℕ} (hi : i < s.workers.length) :
    ∃ workerId ∈ s.workers, rankOf s workerId = i := by
  have hi' : i < (activeWorkers s).length := (activeWorkers_perm s).length_eq ▸ hi
  have hmem : (activeWorkers s)[i] ∈ s.workers := mem_activeWorkers.1 (getElem_mem hi')
  refine ⟨_, hmem, ?_⟩
  rw [← idxOf_activeWorkers h hmem]
  exact List.Nodup.idxOf_getElem ((activeWorkers_perm s).nodup_iff.2 h) i hi'

theorem rankOf_lt (h : s.workers.Nodup) (hw : workerId ∈ s.workers) :
    rankOf s workerId < s.workers.length := by
  rw [← idxOf_activeWorkers h hw, ← (activeWorkers_perm s).length_eq]
  exact idxOf_lt_length_of_mem (mem_activeWorkers.2 hw)

theorem rankOf_inj (h : s.workers.Nodup) {w w' : String} (hw : w ∈ s.workers)
    (hw' : w' ∈ s.workers) (heq : rankOf s w = rankOf s w') : w = w' := by
  rw [← idxOf_activeWorkers h hw, ← idxOf_activeWorkers h hw'] at heq
  exact (idxOf_inj (mem_activeWorkers.2 hw)).1 heq

end Deal

/-! ### Live workers -/

/-- **Every job has one live worker** iff a worker has registered, or there are no jobs, and each
registered worker that has stopped polling has at least as many workers before it as there are
jobs. -/
theorem partitions_iff {n : CacheNode} (h : n.Reachable) : n.Partitions ↔
      (n.scheduler.myJobs.jobs ≠ [] → n.scheduler.workers ≠ []) ∧
        ∀ workerId ∈ n.scheduler.workers, workerId ∉ n.polling →
          n.scheduler.myJobs.jobs.length ≤ rankOf n.scheduler workerId := by
  obtain ⟨hnodup, hpolling⟩ := h.registered
  have hlength : (sortedJobs n.scheduler).length = n.scheduler.myJobs.jobs.length :=
    (sortedJobs_perm n.scheduler).length_eq
  constructor
  · intro hpart
    refine ⟨fun hjobs hworkers => ?_, fun w hw hdead => ?_⟩
    · obtain ⟨j, hj⟩ := exists_mem_of_ne_nil _ hjobs
      obtain ⟨w, ⟨hw, -⟩, -⟩ := hpart.once j hj
      have := hpolling w hw
      rw [hworkers] at this
      cases this
    · -- the job at the place of a dead worker is the dead worker's
      by_contra hlt
      have hi : rankOf n.scheduler w < (sortedJobs n.scheduler).length := by omega
      have hget := getElem?_eq_getElem hi
      obtain ⟨w', ⟨hw', hoffer⟩, -⟩ := hpart.once _
        ((sortedJobs_perm n.scheduler).mem_iff.1 (getElem_mem hi))
      have hmem' := hpolling w' hw'
      obtain ⟨i, hget', hi'⟩ := (mem_getJobsForWorker hnodup hmem').1 hoffer
      have hplace : i = rankOf n.scheduler w := by
        refine (getElem?_inj ?_ (sortedJobs_nodup _)).1 (hget'.trans hget.symm)
        exact (List.getElem?_eq_some_iff.1 hget').1
      rw [hplace, Nat.mod_eq_of_lt (rankOf_lt hnodup hw)] at hi'
      exact hdead (rankOf_inj hnodup hw hmem' hi' ▸ hw')
  · rintro ⟨hsome, hdead⟩
    refine ⟨fun j hj => ?_, fun w hw j hj => ?_, fun w hw => ?_⟩
    · have hne := hsome (List.ne_nil_of_mem hj)
      have hpos : 0 < n.scheduler.workers.length := List.length_pos_iff.2 hne
      obtain ⟨i, hi, hget⟩ := getElem_of_mem ((sortedJobs_perm n.scheduler).mem_iff.2 hj)
      have hget? : (sortedJobs n.scheduler)[i]? = some j := List.getElem?_eq_some_iff.2 ⟨hi, hget⟩
      obtain ⟨w, hw, hrank⟩ := exists_rankOf hnodup (Nat.mod_lt i hpos)
      have hlive : w ∈ n.polling := by
        by_contra hnot
        have hle := hdead w hw hnot
        have hmod := Nat.mod_le i n.scheduler.workers.length
        omega
      refine ⟨w, ⟨hlive, (mem_getJobsForWorker hnodup hw).2 ⟨i, hget?, hrank.symm⟩⟩, ?_⟩
      rintro w' ⟨hlive', hoffer'⟩
      have hw' := hpolling w' hlive'
      obtain ⟨i', hget', hrank'⟩ := (mem_getJobsForWorker hnodup hw').1 hoffer'
      have hplace : i' = i := by
        refine (getElem?_inj ?_ (sortedJobs_nodup _)).1 (hget'.trans hget?.symm)
        exact (List.getElem?_eq_some_iff.1 hget').1
      rw [hplace, ← hrank] at hrank'
      exact rankOf_inj hnodup hw' hw hrank'.symm
    · have hmem := hpolling w hw
      obtain ⟨i, hget, -⟩ := (mem_getJobsForWorker hnodup hmem).1 hj
      exact (sortedJobs_perm n.scheduler).mem_iff.1 (mem_of_getElem? hget)
    · rw [getJobsForWorker]
      split
      · exact .nil
      · exact assignJobsToWorker_nodup _ w

/-! ### A dead worker -/

def twoWorkers : CacheNode where
  scheduler := (getMyJobs (getMyJobs (syncJobs 0 (some ⟨[(pingJob, none)], []⟩) {}) "w1").2 "w2").2
  polling := ["w2", "w1"]

def oneDied : CacheNode := { twoWorkers with polling := ["w2"] }

theorem twoWorkers_reachable : twoWorkers.Reachable :=
  .step (a := .pull "w2") (.step (a := .pull "w1")
    (.step (a := .sync 0 (some ⟨[(pingJob, none)], []⟩)) .start trivial rfl) trivial rfl) trivial rfl

theorem oneDied_reachable : oneDied.Reachable :=
  .step (a := .die "w1") twoWorkers_reachable trivial rfl

theorem twoWorkers_workers : twoWorkers.scheduler.workers = ["w2", "w1"] := by
  rw [twoWorkers, getMyJobs_workers, getMyJobs_workers, syncJobs_workers]
  rfl

theorem twoWorkers_jobs : twoWorkers.scheduler.myJobs.jobs = [⟨parseJob pingJob, none⟩] := by
  rw [twoWorkers, getMyJobs_myJobs, getMyJobs_myJobs]
  rfl

theorem twoWorkers_partitions : twoWorkers.Reachable ∧ twoWorkers.Partitions := by
  refine ⟨twoWorkers_reachable, (partitions_iff twoWorkers_reachable).2 ⟨fun _ => ?_, ?_⟩⟩
  · rw [twoWorkers_workers]
    simp
  · intro w hw hdead
    rw [twoWorkers_workers] at hw
    exact absurd hw hdead

/-- The job of the worker that died is offered to nobody. -/
theorem not_partitions_of_die : ¬∀ n, CacheNode.Reachable n → n.Partitions := by
  intro h
  have hworkers : oneDied.scheduler.workers = ["w2", "w1"] := twoWorkers_workers
  have hjobs : oneDied.scheduler.myJobs.jobs = [⟨parseJob pingJob, none⟩] := twoWorkers_jobs
  obtain ⟨w, ⟨hw, hoffer⟩, -⟩ := (h oneDied oneDied_reachable).once _
    (hjobs ▸ mem_singleton_self _)
  obtain rfl : w = "w2" := List.mem_singleton.1 hw
  obtain ⟨i, hget, hrank⟩ := (mem_getJobsForWorker (by rw [hworkers]; decide)
    (by rw [hworkers]; decide)).1 hoffer
  have hi : i = 0 := by
    have hlt := (List.getElem?_eq_some_iff.1 hget).1
    rw [(sortedJobs_perm _).length_eq, hjobs, length_singleton] at hlt
    omega
  have hone : rankOf oneDied.scheduler "w2" = 1 := by
    rw [rankOf, hworkers]
    decide
  rw [hi, hone, hworkers] at hrank
  cases hrank

end MonCTL.Collector
