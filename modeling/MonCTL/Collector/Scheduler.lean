import Mathlib.Data.List.Sort
import MonCTL.Basic
import MonCTL.Collector.PollEngine

/-!
# The Scheduler of the Cache Node

The cache node asks central for jobs, keeps them in a dictionary and in a local database, and
divides them among the poll workers that have registered. Most responses have the jobs that
have changed; every tenth time, and when somebody asks for it, the response has all of them, and
jobs that are not in it are removed. After a restart the jobs come from the database.

Execution profiles, the load and the home nodes of jobs are left out.
-/

namespace MonCTL.Collector

open List

open JobPipeline (JobDefinition JobJson parseJob upsertJob dictToJob getMyJob jobToDict rebuildJob)

/-! ### The dictionary and the database -/

/-- `_my_jobs`. -/
structure JobMap where
  jobs : List PulledJob := []
  ids_nodup : (jobs.map PulledJob.jobId).Nodup := by exact List.nodup_nil

/-- `_my_jobs.pop(job_id, None)`. -/
def JobMap.pop (m : JobMap) (jobId : String) : JobMap where
  jobs := m.jobs.filter fun j => j.jobId ≠ jobId
  ids_nodup := m.ids_nodup.sublist (List.filter_sublist.map _)

theorem map_replace_jobId (jobs : List PulledJob) (j : PulledJob) :
    (jobs.map fun j' => if j'.jobId = j.jobId then j else j').map PulledJob.jobId =
      jobs.map PulledJob.jobId := by
  rw [map_map]
  refine map_congr_left fun j' _ => ?_
  rw [Function.comp_apply]
  split
  next hid => exact hid.symm
  · rfl

/-- `_my_jobs[job.job_id] = job`. -/
def JobMap.set (m : JobMap) (j : PulledJob) : JobMap :=
  if h : j.jobId ∈ m.jobs.map PulledJob.jobId then
    { jobs := m.jobs.map fun j' => if j'.jobId = j.jobId then j else j'
      ids_nodup := by
        rw [map_replace_jobId]
        exact m.ids_nodup }
  else
    { jobs := m.jobs ++ [j]
      ids_nodup := by
        rw [map_append, nodup_append]
        refine ⟨m.ids_nodup, by simp, ?_⟩
        rintro jobId hmem jobId' hmem' rfl
        rw [map_singleton, mem_singleton] at hmem'
        exact h (hmem' ▸ hmem) }

/-- A row of the table `jobs`. -/
structure JobRow where
  definition : JobJson
  injection : Option ℕ
  deleted : Bool

def JobRow.pulled (row : JobRow) : PulledJob := ⟨dictToJob row.definition, row.injection⟩

variable (table : Dict String JobRow)

/-- `upsert_job`. -/
def storeJob (j : PulledJob) : Dict String JobRow :=
  table.set j.jobId ⟨upsertJob j.job, j.injection, false⟩

/-- `mark_job_deleted`. -/
def markJobDeleted (jobId : String) : Dict String JobRow :=
  table.map fun row => if row.1 = jobId then (row.1, { row.2 with deleted := true }) else row

/-- `delete_job`. -/
def deleteJob (jobId : String) : Dict String JobRow :=
  table.filter fun row => row.1 ≠ jobId

/-- `get_all_jobs`, and the reading of the definitions. -/
def storedJobs : List PulledJob :=
  (table.filter fun row => !row.2.deleted).map fun row => row.2.pulled

/-! ### The scheduler -/

/-- `JobScheduler`, and the database. -/
structure Scheduler where
  myJobs : JobMap := {}
  table : Dict String JobRow := []
  workers : List String := []
  lastSync : Option Timestamp := none
  syncCount : ℕ := 0
  immediateTriggers : List String := []

/-- `_initial_load_from_db`, of a scheduler that starts with a database. -/
def loadFromDb : Scheduler where
  myJobs := (storedJobs table).foldl JobMap.set {}
  table

/-- A response of `GET /jobs`, each job with the injection it comes from. -/
structure JobsResponse where
  jobs : List (JobJson × Option ℕ)
  deletedIds : List String := []

/-- One round of the loop over deletions. -/
def applyDeletion (s : Scheduler) (jobId : String) : Scheduler :=
  { s with myJobs := s.myJobs.pop jobId, table := deleteJob s.table jobId }

/-- One round of the loop over jobs that are no longer in a full response. -/
def removeStale (s : Scheduler) (jobId : String) : Scheduler :=
  { s with myJobs := s.myJobs.pop jobId, table := markJobDeleted s.table jobId }

/-- One round of the loop over the jobs of a response. -/
def applyUpsert (s : Scheduler) (j : PulledJob) : Scheduler :=
  if j.job.enabled then { s with myJobs := s.myJobs.set j, table := storeJob s.table j }
  else { s with myJobs := s.myJobs.pop j.jobId }

def JobsResponse.parsed (response : JobsResponse) : List PulledJob :=
  response.jobs.map fun j => ⟨parseJob j.1, j.2⟩

/-- The start of `_sync_jobs`: every tenth sync is a full one. -/
def beginSync (s : Scheduler) : Scheduler :=
  { s with
    syncCount := s.syncCount + 1
    lastSync := if (s.syncCount + 1) % 10 = 0 then none else s.lastSync }

/-- `_sync_jobs`, with the response if there is one. -/
def syncJobs (now : Timestamp) (response : Option JobsResponse) (s : Scheduler) : Scheduler :=
  let s := beginSync s
  match response with
  | none => s
  | some response =>
    let isFullSync := s.lastSync = none
    let s := response.deletedIds.foldl applyDeletion { s with lastSync := some now }
    let jobs := response.parsed
    let s := if isFullSync then
        ((s.myJobs.jobs.map PulledJob.jobId).filter fun jobId =>
          jobId ∉ jobs.map PulledJob.jobId).foldl removeStale s
      else s
    jobs.foldl applyUpsert s

/-- `force_sync` makes the next sync a full one. -/
def forceSync (s : Scheduler) : Scheduler := { s with lastSync := none }

/-- `register_worker`. -/
def registerWorker (s : Scheduler) (workerId : String) : Scheduler :=
  { s with workers := s.workers.insert workerId }

/-- `_assign_jobs_to_worker`: the jobs, sorted by their ids, are dealt out to the workers, sorted
by theirs. -/
def assignJobsToWorker (s : Scheduler) (workerId : String) : List PulledJob :=
  let activeWorkers := s.workers.mergeSort fun a b => a ≤ b
  if workerId ∉ activeWorkers then []
  else
    let sortedJobs := s.myJobs.jobs.mergeSort fun a b => a.jobId ≤ b.jobId
    ((sortedJobs.zipIdx).filter fun j =>
      j.2 % max activeWorkers.length 1 = activeWorkers.idxOf workerId).map Prod.fst

/-- `trigger_immediate`: the job is flagged for the worker that pulls it next. -/
def Scheduler.triggerImmediate (s : Scheduler) (jobId : String) : Scheduler :=
  if jobId ∈ s.myJobs.jobs.map PulledJob.jobId then
    { s with immediateTriggers := s.immediateTriggers.insert jobId }
  else s

/-- One job on its way to a worker; a number that does not fit raises. -/
def sendJob (j : PulledJob) : Option PulledJob :=
  (getMyJob j.job).map fun message => ⟨rebuildJob (jobToDict message), j.injection⟩

theorem sendJob_eq_some {j j' : PulledJob} (h : sendJob j = some j') :
    j'.jobId = j.jobId ∧ j'.interval = j.interval ∧ j'.injection = j.injection := by
  obtain ⟨message, hmessage, rfl⟩ := Option.map_eq_some_iff.1 h
  rw [getMyJob] at hmessage
  split at hmessage
  · cases hmessage
    exact ⟨rfl, rfl, rfl⟩
  · cases hmessage

theorem mem_assignJobsToWorker {s : Scheduler} {workerId : String} {j : PulledJob}
    (h : j ∈ assignJobsToWorker s workerId) : j ∈ s.myJobs.jobs := by
  rw [assignJobsToWorker] at h
  split at h
  · cases h
  · obtain ⟨p, hp, rfl⟩ := List.mem_map.1 h
    exact List.mem_mergeSort.1 (fst_mem_of_mem_zipIdx (mem_of_mem_filter hp))

theorem assignJobsToWorker_nodup (s : Scheduler) (workerId : String) :
    ((assignJobsToWorker s workerId).map PulledJob.jobId).Nodup := by
  rw [assignJobsToWorker]
  split
  · exact .nil
  · have hsorted : ((s.myJobs.jobs.mergeSort fun a b => a.jobId ≤ b.jobId).map
        PulledJob.jobId).Nodup :=
      ((mergeSort_perm _ _).map _).nodup_iff.2 s.myJobs.ids_nodup
    refine hsorted.sublist (List.Sublist.map _ ?_)
    conv_rhs => rw [← zipIdx_map_fst 0 (s.myJobs.jobs.mergeSort fun a b => a.jobId ≤ b.jobId)]
    exact List.filter_sublist.map _

theorem mapM_sendJob_ids {jobs sent : List PulledJob} (h : jobs.mapM sendJob = some sent) :
    sent.map PulledJob.jobId = jobs.map PulledJob.jobId := by
  induction jobs generalizing sent with
  | nil =>
    cases h
    rfl
  | cons j jobs ih =>
    rw [mapM_cons] at h
    obtain ⟨j', hj', h⟩ := Option.bind_eq_some_iff.1 h
    obtain ⟨rest, hrest, h⟩ := Option.bind_eq_some_iff.1 h
    cases h
    rw [map_cons, map_cons, (sendJob_eq_some hj').1, ih hrest]

/-- `GetMyJobs`, as the worker's client sees it. -/
def getMyJobs (s : Scheduler) (workerId : String) : Answer × Scheduler :=
  let s := registerWorker s workerId
  match h : (assignJobsToWorker s workerId).mapM sendJob with
  | none => (.failed, s)
  | some sent =>
    let ids := sent.map PulledJob.jobId
    (.jobs
      { jobs := sent
        immediateIds := s.immediateTriggers.filter (· ∈ ids)
        ids_nodup := by
          rw [mapM_sendJob_ids h]
          exact assignJobsToWorker_nodup s workerId },
      { s with immediateTriggers := s.immediateTriggers.filter (· ∉ ids) })

/-! ### A job -/

/-- A ping every minute. -/
def pingJob : JobJson where
  jobId := "ping"
  deviceId := none
  deviceHost := some "10.0.0.1"
  appId := "ping_check"
  appVersion := "1.0.0"
  appChecksum := ""
  credentialNames := []
  interval := 60
  parameters := []
  role := none
  maxExecutionTime := 30
  enabled := true
  updatedAt := none
  connectorBindings := []

/-! ### What comes in goes out -/

/-- Two jobs with one id, interval and injection. -/
def SameTag (j j' : PulledJob) : Prop :=
  j'.jobId = j.jobId ∧ j'.interval = j.interval ∧ j'.injection = j.injection

/-- A property holds of all jobs of the dictionary and of the database. -/
structure AllJobs (P : PulledJob → Prop) (s : Scheduler) : Prop where
  jobs : ∀ j ∈ s.myJobs.jobs, P j
  rows : ∀ row ∈ s.table, P row.2.pulled

section AllJobs

variable {P : PulledJob → Prop} {s : Scheduler}

theorem JobMap.forall_set {m : JobMap} (h : ∀ j ∈ m.jobs, P j) {j : PulledJob} (hj : P j) :
    ∀ j' ∈ (m.set j).jobs, P j' := by
  intro j' hj'
  rw [JobMap.set] at hj'
  split at hj'
  · obtain ⟨old, hold, rfl⟩ := List.mem_map.1 hj'
    split
    · exact hj
    · exact h old hold
  · rcases List.mem_append.1 hj' with hj' | hj'
    · exact h j' hj'
    · rw [List.mem_singleton.1 hj']
      exact hj

theorem foldl_keeps {S E : Type} {I : S → Prop} {f : S → E → S} {l : List E} {s : S} (h : I s)
    (hround : ∀ s x, x ∈ l → I s → I (f s x)) : I (l.foldl f s) := by
  induction l generalizing s with
  | nil => exact h
  | cons x l ih =>
    refine ih (hround s x (mem_cons_self ..) h) fun s y hy => ?_
    exact hround s y (mem_cons_of_mem _ hy)

theorem AllJobs.applyDeletion (h : AllJobs P s) (jobId : String) :
    AllJobs P (applyDeletion s jobId) where
  jobs := fun j hj => h.jobs j (mem_of_mem_filter hj)
  rows := fun row hrow => h.rows row (mem_of_mem_filter hrow)

theorem AllJobs.removeStale (h : AllJobs P s) (jobId : String) :
    AllJobs P (removeStale s jobId) where
  jobs := fun j hj => h.jobs j (mem_of_mem_filter hj)
  rows := fun row hrow => by
    obtain ⟨old, hold, rfl⟩ := List.mem_map.1 hrow
    have hP := h.rows old hold
    split
    · exact hP
    · exact hP

theorem AllJobs.applyUpsert (hP : ∀ {j j'}, SameTag j j' → P j → P j') (h : AllJobs P s)
    {j : PulledJob} (hj : P j) : AllJobs P (applyUpsert s j) := by
  rw [Collector.applyUpsert]
  split
  · refine ⟨JobMap.forall_set h.jobs hj, fun row hrow => ?_⟩
    rcases Dict.mem_set hrow with hrow | rfl
    · exact h.rows row hrow
    · exact hP (j := j) ⟨rfl, rfl, rfl⟩ hj
  · exact ⟨fun j hj => h.jobs j (mem_of_mem_filter hj), h.rows⟩

/-- **A response** brings in its own jobs only. -/
theorem AllJobs.syncJobs (hP : ∀ {j j'}, SameTag j j' → P j → P j') (h : AllJobs P s)
    {response : Option JobsResponse} (hresponse : ∀ r ∈ response, ∀ j ∈ r.parsed, P j)
    (now : Timestamp) : AllJobs P (syncJobs now response s) := by
  have hbegin : AllJobs P (beginSync s) := ⟨h.jobs, h.rows⟩
  cases response with
  | none => exact hbegin
  | some response =>
    refine foldl_keeps (I := AllJobs P) ?_ fun s j hj hs =>
      AllJobs.applyUpsert hP hs (hresponse _ rfl j hj)
    have hdeleted : AllJobs P (response.deletedIds.foldl Collector.applyDeletion
        { beginSync s with lastSync := some now }) :=
      foldl_keeps (I := AllJobs P) ⟨hbegin.jobs, hbegin.rows⟩ fun s jobId _ hs =>
        hs.applyDeletion jobId
    split
    · exact foldl_keeps (I := AllJobs P) hdeleted fun s jobId _ hs => hs.removeStale jobId
    · exact hdeleted

theorem AllJobs.triggerImmediate (h : AllJobs P s) (jobId : String) :
    AllJobs P (s.triggerImmediate jobId) := by
  rw [Scheduler.triggerImmediate]
  split
  · exact ⟨h.jobs, h.rows⟩
  · exact h

/-- **A restart** brings in the jobs of the database only. -/
theorem AllJobs.loadFromDb (h : AllJobs P s) : AllJobs P (loadFromDb s.table) where
  jobs := by
    refine foldl_keeps (I := fun m : JobMap => ∀ j ∈ m.jobs, P j) (by simp) fun m j hj hm =>
      JobMap.forall_set hm ?_
    obtain ⟨row, hrow, rfl⟩ := List.mem_map.1 hj
    exact h.rows row (mem_of_mem_filter hrow)
  rows := h.rows

theorem forall_mapM_sendJob (hP : ∀ {j j'}, SameTag j j' → P j → P j') {jobs sent : List PulledJob}
    (h : jobs.mapM sendJob = some sent) (hjobs : ∀ j ∈ jobs, P j) : ∀ j ∈ sent, P j := by
  induction jobs generalizing sent with
  | nil =>
    cases h
    simp
  | cons j jobs ih =>
    rw [mapM_cons] at h
    obtain ⟨j', hj', h⟩ := Option.bind_eq_some_iff.1 h
    obtain ⟨rest, hrest, h⟩ := Option.bind_eq_some_iff.1 h
    cases h
    intro k hk
    rcases List.mem_cons.1 hk with rfl | hk
    · exact hP (sendJob_eq_some hj') (hjobs j (mem_cons_self ..))
    · exact ih hrest (fun i hi => hjobs i (mem_cons_of_mem _ hi)) k hk

/-- **A pull** answers with jobs of the scheduler only. -/
theorem AllJobs.getMyJobs (hP : ∀ {j j'}, SameTag j j' → P j → P j') (h : AllJobs P s)
    (workerId : String) : AllJobs P (getMyJobs s workerId).2 ∧
      ∀ list, (getMyJobs s workerId).1 = .jobs list → ∀ j ∈ list.jobs, P j := by
  rw [Collector.getMyJobs]
  split
  · refine ⟨⟨h.jobs, h.rows⟩, fun list hlist => ?_⟩
    cases hlist
  next sent hsent =>
    refine ⟨⟨h.jobs, h.rows⟩, fun list hlist => ?_⟩
    cases hlist
    exact forall_mapM_sendJob hP hsent fun j hj =>
      h.jobs j (mem_assignJobsToWorker (s := registerWorker s workerId) hj)

end AllJobs

end MonCTL.Collector
