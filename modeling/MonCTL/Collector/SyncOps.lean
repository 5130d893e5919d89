import MonCTL.Collector.Scheduler

/-!
# A Sync, Operation by Operation

A sync changes the dictionary and the database in turn. The operations on the database wait, and
can fail; a sync that fails has done what comes before. Here a sync is the list of its
operations, and each of them is described by what it does to the job and to the row of an id.
-/

namespace MonCTL.Collector

open List

open JobPipeline (upsertJob)

/-! ### Operations -/

/-- One operation of `_sync_jobs`. Profiles are left out, but reading one can fail. -/
inductive SyncOp
  | pop (jobId : String)
  | deleteRow (jobId : String)
  | markRow (jobId : String)
  | storeRow (j : PulledJob)
  | setJob (j : PulledJob)
  | readProfile (jobId : String)

/-- What an operation does. -/
def SyncOp.run (s : Scheduler) : SyncOp → Scheduler
  | .pop jobId => { s with myJobs := s.myJobs.pop jobId }
  | .deleteRow jobId => { s with table := deleteJob s.table jobId }
  | .markRow jobId => { s with table := markJobDeleted s.table jobId }
  | .storeRow j => { s with table := storeJob s.table j }
  | .setJob j => { s with myJobs := s.myJobs.set j }
  | .readProfile _ => s

/-- The operation waits for the database. -/
def SyncOp.awaits : SyncOp → Bool
  | .pop _ => false
  | .deleteRow _ => true
  | .markRow _ => true
  | .storeRow _ => true
  | .setJob _ => false
  | .readProfile _ => true

/-- The operation takes a row out of use. -/
def SyncOp.removesRow : SyncOp → Bool
  | .deleteRow _ => true
  | .markRow _ => true
  | _ => false

/-- Operations, in order. -/
def runOps (ops : List SyncOp) (s : Scheduler) : Scheduler := ops.foldl SyncOp.run s

theorem runOps_append (ops ops' : List SyncOp) (s : Scheduler) :
    runOps (ops ++ ops') s = runOps ops' (runOps ops s) :=
  foldl_append

/-- One round of the loop over deletions. -/
def deletionOps (jobId : String) : List SyncOp := [.pop jobId, .deleteRow jobId]

/-- One round of the loop over jobs that are no longer in a full response. -/
def staleOps (jobId : String) : List SyncOp := [.pop jobId, .markRow jobId]

/-- One round of the loop over the jobs of a response. -/
def upsertOps (j : PulledJob) : List SyncOp :=
  if j.job.enabled then [.storeRow j, .setJob j, .readProfile j.jobId] else [.pop j.jobId]

/-- The ids in memory that a response does not have. -/
def staleIds (s : Scheduler) (response : JobsResponse) : List String :=
  (s.myJobs.jobs.map PulledJob.jobId).filter fun jobId =>
    jobId ∉ response.parsed.map PulledJob.jobId

/-- The rounds of the loops, for a sync that has begun. -/
def syncRounds (s : Scheduler) (response : JobsResponse) : List (List SyncOp) :=
  let afterDeletions := runOps (response.deletedIds.map deletionOps).flatten s
  response.deletedIds.map deletionOps ++
    (if s.lastSync = none then (staleIds afterDeletions response).map staleOps else []) ++
    response.parsed.map upsertOps

/-- The operations of a response, for a sync that has begun. -/
def syncOps (s : Scheduler) (response : JobsResponse) : List SyncOp :=
  (syncRounds s response).flatten

/-- A response is here: the time is kept, so that the next sync asks for changes. -/
def receive (now : Timestamp) (s : Scheduler) : Scheduler :=
  { beginSync s with lastSync := some now }

def IsFullSync (s : Scheduler) : Prop := (beginSync s).lastSync = none
  deriving Decidable

/-! ### The loops -/

theorem foldl_eq_runOps {E : Type} {f : Scheduler → E → Scheduler} {ops : E → List SyncOp}
    (h : ∀ s x, f s x = runOps (ops x) s) (l : List E) (s : Scheduler) :
    l.foldl f s = runOps (l.map ops).flatten s := by
  induction l generalizing s with
  | nil => rfl
  | cons x l ih => rw [foldl_cons, ih, h, map_cons, flatten_cons, runOps_append]

theorem applyUpsert_eq (s : Scheduler) (j : PulledJob) :
    applyUpsert s j = runOps (upsertOps j) s := by
  rw [applyUpsert, upsertOps]
  split
  · rfl
  · rfl

variable {s s' : Scheduler}

theorem run_myJobs_congr (h : s'.myJobs = s.myJobs) (op : SyncOp) :
    (op.run s').myJobs = (op.run s).myJobs := by
  cases op with
  | pop jobId => rw [SyncOp.run, SyncOp.run, h]
  | deleteRow jobId => exact h
  | markRow jobId => exact h
  | storeRow j => exact h
  | setJob j => rw [SyncOp.run, SyncOp.run, h]
  | readProfile jobId => exact h

theorem runOps_myJobs_congr (h : s'.myJobs = s.myJobs) (ops : List SyncOp) :
    (runOps ops s').myJobs = (runOps ops s).myJobs := by
  induction ops generalizing s s' with
  | nil => exact h
  | cons op ops ih => exact ih (run_myJobs_congr h op)

/-- **A response is processed** by running its operations. -/
theorem syncJobs_eq_runOps (now : Timestamp) (response : JobsResponse) (s : Scheduler) :
    syncJobs now (some response) s = runOps (syncOps (beginSync s) response) (receive now s) := by
  have hdeleted := @foldl_eq_runOps _ applyDeletion deletionOps (fun _ _ => rfl)
    response.deletedIds (receive now s)
  have hmemory : (runOps (response.deletedIds.map deletionOps).flatten (receive now s)).myJobs =
      (runOps (response.deletedIds.map deletionOps).flatten (beginSync s)).myJobs :=
    @runOps_myJobs_congr (beginSync s) (receive now s) rfl _
  have hupsert := foldl_eq_runOps applyUpsert_eq response.parsed
  rw [syncOps, syncRounds, flatten_append, flatten_append, runOps_append, runOps_append,
    ← hdeleted, ← hupsert]
  rw [← hdeleted] at hmemory
  rw [staleIds, ← hmemory]
  rw [syncJobs]
  split
  · rw [@foldl_eq_runOps _ removeStale staleOps fun _ _ => rfl]
    rfl
  · rfl

/-! ### What is kept under an id -/

/-- `_my_jobs.get(job_id)`. -/
def Scheduler.job? (s : Scheduler) (jobId : String) : Option PulledJob :=
  s.myJobs.jobs.find? fun j => j.jobId = jobId

def Scheduler.row? (s : Scheduler) (jobId : String) : Option JobRow := s.table.get? jobId

variable {j : PulledJob}

theorem job?_eq_some {jobId : String} :
    s.job? jobId = some j ↔ j ∈ s.myJobs.jobs ∧ j.jobId = jobId := by
  rw [Scheduler.job?]
  constructor
  · intro h
    exact ⟨mem_of_find?_eq_some h, by simpa using find?_some h⟩
  · rintro ⟨hj, rfl⟩
    cases hfind : s.myJobs.jobs.find? fun i => i.jobId = j.jobId with
    | none => exact absurd (decide_eq_true rfl) (List.find?_eq_none.1 hfind j hj)
    | some j' =>
      have hid : j'.jobId = j.jobId := by simpa using find?_some hfind
      rw [inj_on_of_nodup_map s.myJobs.ids_nodup (mem_of_find?_eq_some hfind) hj hid]

theorem JobMap.mem_set {m : JobMap} {j' : PulledJob} :
    j' ∈ (m.set j).jobs ↔ j' = j ∨ j' ∈ m.jobs ∧ j'.jobId ≠ j.jobId := by
  rw [JobMap.set]
  split
  next hmem =>
    rw [mem_map]
    constructor
    · rintro ⟨old, hold, rfl⟩
      split
      · exact .inl rfl
      next hne => exact .inr ⟨hold, hne⟩
    · rintro (rfl | ⟨hj', hne⟩)
      · obtain ⟨old, hold, hid⟩ := List.mem_map.1 hmem
        exact ⟨old, hold, if_pos hid⟩
      · exact ⟨j', hj', if_neg hne⟩
  next hmem =>
    rw [mem_append, mem_singleton, or_comm]
    refine or_congr_right ⟨fun hj' => ⟨hj', fun heq => hmem ?_⟩, fun h => h.1⟩
    exact heq ▸ mem_map_of_mem hj'

section Operations

variable (s : Scheduler) (jobId id : String) (j : PulledJob)

@[simp] theorem job?_pop : (SyncOp.run s (.pop jobId)).job? id =
    if id = jobId then none else s.job? id := by
  have hmem : ∀ j, j ∈ (SyncOp.run s (.pop jobId)).myJobs.jobs ↔
      j ∈ s.myJobs.jobs ∧ j.jobId ≠ jobId := by
    intro j
    rw [show (SyncOp.run s (.pop jobId)).myJobs.jobs =
      s.myJobs.jobs.filter fun j => j.jobId ≠ jobId from rfl, mem_filter, decide_eq_true_iff]
  split
  next hid =>
    rw [Option.eq_none_iff_forall_ne_some]
    intro j hj
    obtain ⟨hj, hj'⟩ := job?_eq_some.1 hj
    exact ((hmem j).1 hj).2 (hj'.trans hid)
  next hid =>
    refine Option.ext fun j => ?_
    rw [job?_eq_some, job?_eq_some, hmem]
    refine ⟨fun h => ⟨h.1.1, h.2⟩, fun h => ⟨⟨h.1, fun hj => hid ?_⟩, h.2⟩⟩
    exact h.2.symm.trans hj

@[simp] theorem job?_setJob : (SyncOp.run s (.setJob j)).job? id =
    if id = j.jobId then some j else s.job? id := by
  have hmem : ∀ j', j' ∈ (SyncOp.run s (.setJob j)).myJobs.jobs ↔
      j' = j ∨ j' ∈ s.myJobs.jobs ∧ j'.jobId ≠ j.jobId := fun j' => JobMap.mem_set
  split
  next hid => exact job?_eq_some.2 ⟨(hmem j).2 (.inl rfl), hid.symm⟩
  next hid =>
    refine Option.ext fun j' => ?_
    rw [job?_eq_some, job?_eq_some, hmem]
    constructor
    · rintro ⟨rfl | ⟨hj', -⟩, hid'⟩
      · exact absurd hid'.symm hid
      · exact ⟨hj', hid'⟩
    · rintro ⟨hj', hid'⟩
      exact ⟨.inr ⟨hj', fun heq => hid (hid'.symm.trans heq)⟩, hid'⟩

@[simp] theorem job?_deleteRow : (SyncOp.run s (.deleteRow jobId)).job? id = s.job? id := rfl

@[simp] theorem job?_markRow : (SyncOp.run s (.markRow jobId)).job? id = s.job? id := rfl

@[simp] theorem job?_storeRow : (SyncOp.run s (.storeRow j)).job? id = s.job? id := rfl

@[simp] theorem job?_readProfile : (SyncOp.run s (.readProfile jobId)).job? id = s.job? id := rfl

@[simp] theorem row?_pop : (SyncOp.run s (.pop jobId)).row? id = s.row? id := rfl

@[simp] theorem row?_setJob : (SyncOp.run s (.setJob j)).row? id = s.row? id := rfl

@[simp] theorem row?_readProfile : (SyncOp.run s (.readProfile jobId)).row? id = s.row? id := rfl

@[simp] theorem row?_storeRow : (SyncOp.run s (.storeRow j)).row? id =
    if id = j.jobId then some ⟨upsertJob j.job, j.injection, false⟩ else s.row? id :=
  Dict.lookup_set s.table j.jobId id _

@[simp] theorem row?_deleteRow : (SyncOp.run s (.deleteRow jobId)).row? id =
    if id = jobId then none else s.row? id :=
  Dict.lookup_filter_ne s.table jobId id

@[simp] theorem row?_markRow : (SyncOp.run s (.markRow jobId)).row? id =
    if id = jobId then (s.row? id).map fun row => { row with deleted := true }
    else s.row? id :=
  Dict.lookup_map_at s.table (fun row => { row with deleted := true }) jobId id

end Operations

/-! ### What the loops leave under an id -/

section Loops

variable (s : Scheduler) (id : String)

theorem job?_runOps_removals {op : String → SyncOp}
    (hop : ∀ s jobId id, (SyncOp.run s (op jobId)).job? id = s.job? id) (ids : List String) :
    (runOps (ids.map fun jobId => [.pop jobId, op jobId]).flatten s).job? id =
      if id ∈ ids then none else s.job? id := by
  induction ids generalizing s with
  | nil => rfl
  | cons jobId ids ih =>
    rw [map_cons, flatten_cons, runOps_append, ih]
    have hround : (runOps [.pop jobId, op jobId] s).job? id =
        if id = jobId then none else s.job? id :=
      (hop _ _ _).trans (job?_pop s jobId id)
    rw [hround]
    by_cases hmem : id ∈ ids
    · rw [if_pos hmem, if_pos (mem_cons_of_mem _ hmem)]
    · rw [if_neg hmem]
      exact if_congr (by rw [mem_cons, or_iff_left hmem]) rfl rfl

theorem row?_runOps_deletions (ids : List String) :
    (runOps (ids.map deletionOps).flatten s).row? id = if id ∈ ids then none else s.row? id := by
  induction ids generalizing s with
  | nil => rfl
  | cons jobId ids ih =>
    rw [map_cons, flatten_cons, runOps_append, ih]
    have hround : (runOps (deletionOps jobId) s).row? id =
        if id = jobId then none else s.row? id :=
      row?_deleteRow (SyncOp.run s (.pop jobId)) jobId id
    rw [hround]
    by_cases hmem : id ∈ ids
    · rw [if_pos hmem, if_pos (mem_cons_of_mem _ hmem)]
    · rw [if_neg hmem]
      exact if_congr (by rw [mem_cons, or_iff_left hmem]) rfl rfl

theorem row?_runOps_stale (ids : List String) : (runOps (ids.map staleOps).flatten s).row? id =
      if id ∈ ids then (s.row? id).map fun row => { row with deleted := true }
      else s.row? id := by
  induction ids generalizing s with
  | nil => rfl
  | cons jobId ids ih =>
    rw [map_cons, flatten_cons, runOps_append, ih]
    have hround : (runOps (staleOps jobId) s).row? id =
        if id = jobId then (s.row? id).map fun row => { row with deleted := true }
        else s.row? id :=
      row?_markRow (SyncOp.run s (.pop jobId)) jobId id
    rw [hround]
    by_cases hmem : id ∈ ids
    · rw [if_pos hmem, if_pos (mem_cons_of_mem _ hmem)]
      split
      · rw [Option.map_map]
        rfl
      · rfl
    · rw [if_neg hmem]
      exact if_congr (by rw [mem_cons, or_iff_left hmem]) rfl rfl

theorem job?_runOps_upsertOps (j : PulledJob) : (runOps (upsertOps j) s).job? id =
      if id = j.jobId then (if j.job.enabled then some j else none) else s.job? id := by
  rw [upsertOps]
  split
  · exact job?_setJob (SyncOp.run s (.storeRow j)) id j
  · exact job?_pop s j.jobId id

theorem row?_runOps_upsertOps (j : PulledJob) : (runOps (upsertOps j) s).row? id =
      if id = j.jobId ∧ j.job.enabled then some ⟨upsertJob j.job, j.injection, false⟩
      else s.row? id := by
  rw [upsertOps]
  split
  next henabled =>
    rw [show (runOps [.storeRow j, .setJob j, .readProfile j.jobId] s).row? id =
      (SyncOp.run s (.storeRow j)).row? id from rfl, row?_storeRow]
    exact if_congr (by rw [and_iff_left henabled]) rfl rfl
  next hdisabled =>
    rw [if_neg fun h => hdisabled h.2]
    rfl

variable {jobs : List PulledJob}

theorem runOps_upserts_of_notMem (h : id ∉ jobs.map PulledJob.jobId) :
    (runOps (jobs.map upsertOps).flatten s).job? id = s.job? id ∧
      (runOps (jobs.map upsertOps).flatten s).row? id = s.row? id := by
  induction jobs generalizing s with
  | nil => exact ⟨rfl, rfl⟩
  | cons j jobs ih =>
    rw [map_cons, mem_cons, not_or] at h
    rw [map_cons, flatten_cons, runOps_append, (ih _ h.2).1, (ih _ h.2).2,
      job?_runOps_upsertOps, row?_runOps_upsertOps, if_neg h.1, if_neg fun hj => h.1 hj.1]
    exact ⟨rfl, rfl⟩

/-- **The id of a job**: an enabled job is there afterwards, and stored; a disabled one is no
longer there, and its row is left alone. -/
theorem runOps_upserts_of_mem (h : (jobs.map PulledJob.jobId).Nodup)
    {j : PulledJob} (hj : j ∈ jobs) : (runOps (jobs.map upsertOps).flatten s).job? j.jobId =
        (if j.job.enabled then some j else none) ∧
      (runOps (jobs.map upsertOps).flatten s).row? j.jobId =
        if j.job.enabled then some ⟨upsertJob j.job, j.injection, false⟩ else s.row? j.jobId := by
  induction jobs generalizing s with
  | nil => cases hj
  | cons j' jobs ih =>
    rw [map_cons, nodup_cons] at h
    rw [map_cons, flatten_cons, runOps_append]
    rcases List.mem_cons.1 hj with rfl | hj
    · obtain ⟨hjob, hrow⟩ := runOps_upserts_of_notMem (runOps (upsertOps j) s) j.jobId h.1
      rw [hjob, hrow, job?_runOps_upsertOps, row?_runOps_upsertOps, if_pos rfl]
      exact ⟨rfl, if_congr (and_iff_right rfl) rfl rfl⟩
    · have hne : ¬(j.jobId = j'.jobId ∧ j'.job.enabled = true) := fun heq =>
        h.1 (heq.1 ▸ mem_map_of_mem hj)
      obtain ⟨hjob, hrow⟩ := ih (runOps (upsertOps j') s) h.2 hj
      rw [hjob, hrow, row?_runOps_upsertOps, if_neg hne]
      exact ⟨rfl, rfl⟩

end Loops

end MonCTL.Collector
