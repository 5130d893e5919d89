import MonCTL.Collector.SyncOps
import MonCTL.JobPipeline.Transport
import MonCTL.Lib.Runs

/-!
# Convergence of Full Syncs

After a full sync the dictionary has central's enabled jobs, whatever was there before. The
database has them as well, but it can have more: jobs that are no longer central's are looked for
in the dictionary, and a row whose job is not in the dictionary is never found. A job that is
popped while its row cannot be written leaves such a row behind, and so does a job that arrives
disabled. The next restart brings the job back.
-/

namespace MonCTL.Collector

open List

/-! ### Runs -/

/-- What central answers: each job once, and none that it also lists as deleted. -/
structure CentralAnswer extends JobsResponse where
  ids_nodup : (toJobsResponse.parsed.map PulledJob.jobId).Nodup
  disjoint : ∀ j ∈ toJobsResponse.parsed, j.jobId ∉ deletedIds

/-- Central's enabled jobs for this collector, when the answer is to a full sync. -/
def CentralAnswer.enabledJobs (answer : CentralAnswer) : List PulledJob :=
  answer.parsed.filter fun j => j.job.enabled

/-- A scheduler, and the full sync that has just ended. -/
structure SyncedNode where
  scheduler : Scheduler := {}
  synced : Option CentralAnswer := none

/-- What happens to a scheduler. -/
inductive SyncAction
  | sync (now : Timestamp) (answer : Option CentralAnswer)
  | fail (now : Timestamp) (answer : CentralAnswer) (done : ℕ)
  | force
  | restart

/-- One step. A sync that fails does so while it waits for the database, after the operations
before; a process that is killed leaves a database that some failure leaves too. -/
def SyncedNode.step (n : SyncedNode) : SyncAction → Option SyncedNode
  | .sync now answer => some
      { scheduler := syncJobs now (answer.map CentralAnswer.toJobsResponse) n.scheduler
        synced := if IsFullSync n.scheduler then answer else none }
  | .fail now answer done =>
    let ops := syncOps (beginSync n.scheduler) answer.toJobsResponse
    if ops[done]?.any SyncOp.awaits then
      some { scheduler := runOps (ops.take done) (receive now n.scheduler) }
    else none
  | .force => some { scheduler := forceSync n.scheduler }
  | .restart => some { scheduler := loadFromDb n.scheduler.table }

/-- **Convergence**: the dictionary, the database and what a restart loads all are central's
enabled jobs. -/
structure Converged (answer : CentralAnswer) (s : Scheduler) : Prop where
  memory : ∀ j, j ∈ s.myJobs.jobs ↔ j ∈ answer.enabledJobs
  stored : ∀ j, j ∈ storedJobs s.table ↔ j ∈ answer.enabledJobs
  restarted : ∀ j, j ∈ (loadFromDb s.table).myJobs.jobs ↔ j ∈ answer.enabledJobs

/-- A row is in use. -/
def Live (s : Scheduler) (jobId : String) : Prop := ∃ row ∈ s.row? jobId, row.deleted = false
  deriving Decidable

/-- No row in use is of a job that arrives disabled. -/
def NoDisabledRow (s : Scheduler) (answer : CentralAnswer) : Prop :=
  ∀ j ∈ answer.parsed, j.job.enabled = false → ¬Live s j.jobId
  deriving Decidable

/-- Rows keep up with the dictionary: no job arrives disabled while its row is in use, and no
sync fails where it takes a row out of use. -/
def KeepsRows (n : SyncedNode) : SyncAction → Prop
  | .sync _ answer => ∀ a ∈ answer, NoDisabledRow n.scheduler a
  | .fail _ answer done => NoDisabledRow n.scheduler answer ∧
      ∀ op ∈ (syncOps (beginSync n.scheduler) answer.toJobsResponse)[done]?, op.removesRow = false
  | .force => True
  | .restart => True

instance (n : SyncedNode) : ∀ a, Decidable (KeepsRows n a)
  | .sync _ answer => inferInstanceAs (Decidable (∀ a ∈ answer, NoDisabledRow n.scheduler a))
  | .fail _ answer done => inferInstanceAs (Decidable (NoDisabledRow n.scheduler answer ∧
      ∀ op ∈ (syncOps (beginSync n.scheduler) answer.toJobsResponse)[done]?,
        op.removesRow = false))
  | .force => inferInstanceAs (Decidable True)
  | .restart => inferInstanceAs (Decidable True)

/-! ### The database -/

/-- A row is kept under the id of its job, and there is one row for an id. -/
structure Keyed (table : Dict String JobRow) : Prop where
  nodup : table.keys.Nodup
  ids : ∀ entry ∈ table, entry.2.definition.jobId = entry.1

section Database

variable {s : Scheduler} {table : Dict String JobRow}

theorem Keyed.run (h : Keyed s.table) (op : SyncOp) : Keyed (op.run s).table := by
  cases op with
  | pop jobId => exact h
  | deleteRow jobId =>
    exact ⟨h.nodup.sublist (List.filter_sublist.map _), fun entry hentry =>
      h.ids entry (mem_of_mem_filter hentry)⟩
  | markRow jobId =>
    have hkeys : (markJobDeleted s.table jobId).keys = s.table.keys := by
      rw [Dict.keys, markJobDeleted, map_map, Dict.keys]
      refine map_congr_left fun entry _ => ?_
      rw [Function.comp_apply]
      split
      · rfl
      · rfl
    refine ⟨hkeys ▸ h.nodup, fun entry hentry => ?_⟩
    obtain ⟨old, hold, rfl⟩ := List.mem_map.1 hentry
    have hid := h.ids old hold
    split
    · exact hid
    · exact hid
  | storeRow j =>
    refine ⟨Dict.nodup_keys_set h.nodup _ _, fun entry hentry => ?_⟩
    rcases Dict.mem_set hentry with hentry | rfl
    · exact h.ids entry hentry
    · rfl
  | setJob j => exact h
  | readProfile jobId => exact h

theorem Keyed.runOps (h : Keyed s.table) (ops : List SyncOp) : Keyed (runOps ops s).table :=
  foldl_keeps (I := fun s : Scheduler => Keyed s.table) h fun _ op _ hs => hs.run op

theorem mem_storedJobs (h : Keyed s.table) {j : PulledJob} :
    j ∈ storedJobs s.table ↔ ∃ row, s.row? j.jobId = some row ∧ row.deleted = false ∧
      row.pulled = j := by
  rw [storedJobs, mem_map]
  constructor
  · rintro ⟨entry, hentry, rfl⟩
    obtain ⟨hentry, hlive⟩ := List.mem_filter.1 hentry
    have hid : entry.2.pulled.jobId = entry.1 := h.ids entry hentry
    refine ⟨entry.2, ?_, by simpa using hlive, rfl⟩
    rw [hid]
    exact Dict.lookup_eq_some_of_mem h.nodup hentry
  · rintro ⟨row, hrow, hlive, rfl⟩
    exact ⟨(row.pulled.jobId, row),
      List.mem_filter.2 ⟨Dict.mem_of_lookup hrow, by simpa using hlive⟩, rfl⟩

theorem storedJobs_nodup (h : Keyed table) : ((storedJobs table).map PulledJob.jobId).Nodup := by
  have hids : (storedJobs table).map PulledJob.jobId =
      (table.filter fun row => !row.2.deleted).map Prod.fst := by
    rw [storedJobs, map_map]
    exact map_congr_left fun entry hentry => h.ids entry (mem_of_mem_filter hentry)
  rw [hids]
  exact h.nodup.sublist (List.filter_sublist.map _)

theorem mem_foldl_set {jobs : List PulledJob} (h : (jobs.map PulledJob.jobId).Nodup) {m : JobMap}
    {j : PulledJob} : j ∈ (jobs.foldl JobMap.set m).jobs ↔
      j ∈ jobs ∨ j ∈ m.jobs ∧ j.jobId ∉ jobs.map PulledJob.jobId := by
  induction jobs generalizing m with
  | nil => simp
  | cons j' jobs ih =>
    rw [map_cons, nodup_cons] at h
    rw [foldl_cons, ih h.2, JobMap.mem_set, mem_cons, map_cons, mem_cons,
      not_or]
    constructor
    · rintro (hj | ⟨rfl | ⟨hj, hne⟩, hnot⟩)
      · exact .inl (.inr hj)
      · exact .inl (.inl rfl)
      · exact .inr ⟨hj, hne, hnot⟩
    · rintro ((rfl | hj) | ⟨hj, hne, hnot⟩)
      · exact .inr ⟨.inl rfl, h.1⟩
      · exact .inl hj
      · exact .inr ⟨.inr ⟨hj, hne⟩, hnot⟩

/-- **A restart** loads the stored jobs. -/
theorem mem_loadFromDb (h : Keyed table) {j : PulledJob} :
    j ∈ (loadFromDb table).myJobs.jobs ↔ j ∈ storedJobs table := by
  rw [loadFromDb, mem_foldl_set (storedJobs_nodup h)]
  simp

end Database

/-! ### One full sync -/

section FullSync

variable {s : Scheduler} {answer : CentralAnswer} {now : Timestamp}

theorem mem_staleIds {response : JobsResponse} {id : String} :
    id ∈ staleIds s response ↔
      (s.job? id).isSome ∧ id ∉ response.parsed.map PulledJob.jobId := by
  have hsome : (s.job? id).isSome ↔ id ∈ s.myJobs.jobs.map PulledJob.jobId := by
    rw [Option.isSome_iff_exists, mem_map]
    exact exists_congr fun j => job?_eq_some
  rw [staleIds, mem_filter, decide_eq_true_iff, hsome]

theorem syncJobs_of_full (h : IsFullSync s) (now : Timestamp) (response : JobsResponse) :
    syncJobs now (some response) s =
      runOps (response.parsed.map upsertOps).flatten
        (runOps ((staleIds (runOps (response.deletedIds.map deletionOps).flatten (beginSync s))
            response).map staleOps).flatten
          (runOps (response.deletedIds.map deletionOps).flatten (receive now s))) := by
  rw [IsFullSync] at h
  rw [syncJobs_eq_runOps, syncOps, syncRounds, if_pos h, flatten_append,
    flatten_append, runOps_append, runOps_append]

theorem fullSync_of_mem (h : IsFullSync s) {j : PulledJob} (hj : j ∈ answer.parsed) :
    (syncJobs now (some answer.toJobsResponse) s).job? j.jobId =
        (if j.job.enabled then some j else none) ∧
      (syncJobs now (some answer.toJobsResponse) s).row? j.jobId =
        if j.job.enabled then some ⟨JobPipeline.upsertJob j.job, j.injection, false⟩
        else s.row? j.jobId := by
  rw [syncJobs_of_full h]
  obtain ⟨hjob, hrow⟩ := runOps_upserts_of_mem (runOps ((staleIds (runOps
    (answer.deletedIds.map deletionOps).flatten (beginSync s)) answer.toJobsResponse).map
      staleOps).flatten (runOps (answer.deletedIds.map deletionOps).flatten (receive now s)))
    answer.ids_nodup hj
  refine ⟨hjob, hrow.trans ?_⟩
  have hstale : j.jobId ∉ staleIds (runOps (answer.deletedIds.map deletionOps).flatten
      (beginSync s)) answer.toJobsResponse := fun hmem =>
    (mem_staleIds.1 hmem).2 (mem_map_of_mem hj)
  rw [row?_runOps_stale, if_neg hstale, row?_runOps_deletions, if_neg (answer.disjoint j hj)]
  rfl

theorem fullSync_of_notMem (h : IsFullSync s) {id : String}
    (hid : id ∉ answer.parsed.map PulledJob.jobId) :
    (syncJobs now (some answer.toJobsResponse) s).job? id = none ∧
      (syncJobs now (some answer.toJobsResponse) s).row? id =
        if id ∈ answer.deletedIds then none
        else if (s.job? id).isSome then (s.row? id).map fun row => { row with deleted := true }
        else s.row? id := by
  rw [syncJobs_of_full h]
  obtain ⟨hjob, hrow⟩ := runOps_upserts_of_notMem (runOps ((staleIds (runOps
    (answer.deletedIds.map deletionOps).flatten (beginSync s)) answer.toJobsResponse).map
      staleOps).flatten (runOps (answer.deletedIds.map deletionOps).flatten (receive now s)))
    id hid
  have hdeleted : ∀ s, (runOps (answer.deletedIds.map deletionOps).flatten s).job? id =
      if id ∈ answer.deletedIds then none else s.job? id := fun s =>
    @job?_runOps_removals s id .deleteRow (fun _ _ _ => rfl) _
  have hstale : id ∈ staleIds (runOps (answer.deletedIds.map deletionOps).flatten (beginSync s))
      answer.toJobsResponse ↔ id ∉ answer.deletedIds ∧ (s.job? id).isSome := by
    rw [mem_staleIds, hdeleted, and_iff_left hid]
    split
    next hmem => simp [hmem]
    next hmem =>
      rw [and_iff_right hmem]
      rfl
  refine ⟨hjob.trans ?_, hrow.trans ?_⟩
  · rw [show staleOps = fun jobId => [.pop jobId, .markRow jobId] from rfl,
      @job?_runOps_removals _ _ .markRow fun _ _ _ => rfl, hdeleted]
    split
    · rfl
    next hnot =>
      split
      · rfl
      next hmem =>
        cases hget : s.job? id with
        | none => exact hget
        | some j => exact absurd (hstale.2 ⟨hmem, by rw [hget]; rfl⟩) hnot
  · rw [row?_runOps_stale, row?_runOps_deletions]
    by_cases hmem : id ∈ answer.deletedIds
    · rw [if_neg fun hs => (hstale.1 hs).1 hmem, if_pos hmem, if_pos hmem]
    · rw [if_neg hmem, if_neg hmem]
      exact if_congr (by rw [hstale, and_iff_right hmem]) rfl rfl

theorem mem_enabledJobs {j : PulledJob} :
    j ∈ answer.enabledJobs ↔ j ∈ answer.parsed ∧ j.job.enabled = true := by
  rw [CentralAnswer.enabledJobs, mem_filter]

theorem pulled_stored (j : PulledJob) :
    JobRow.pulled ⟨JobPipeline.upsertJob j.job, j.injection, false⟩ = j := by
  rw [JobRow.pulled, JobPipeline.dictToJob_upsertJob]

theorem fullSync_memory (h : IsFullSync s) (j : PulledJob) :
    j ∈ (syncJobs now (some answer.toJobsResponse) s).myJobs.jobs ↔
      j ∈ answer.enabledJobs := by
  have hget : j ∈ (syncJobs now (some answer.toJobsResponse) s).myJobs.jobs ↔
      (syncJobs now (some answer.toJobsResponse) s).job? j.jobId = some j := by
    rw [job?_eq_some, and_iff_left rfl]
  rw [hget, mem_enabledJobs]
  by_cases hid : j.jobId ∈ answer.parsed.map PulledJob.jobId
  · obtain ⟨i, hi, hij⟩ := List.mem_map.1 hid
    rw [← hij, (fullSync_of_mem h hi).1]
    constructor
    · intro hsome
      split at hsome
      next henabled =>
        cases hsome
        exact ⟨hi, henabled⟩
      · cases hsome
    · rintro ⟨hj, henabled⟩
      obtain rfl := inj_on_of_nodup_map answer.ids_nodup hi hj hij
      rw [if_pos henabled]
  · rw [(fullSync_of_notMem h hid).1]
    constructor
    · intro hnone
      cases hnone
    · intro hj
      exact absurd (mem_map_of_mem hj.1) hid

/-- **When a full sync converges**: each row in use is of a job that the answer deletes, of an
enabled job of the answer, or of a job that the answer does not have and the dictionary has. -/
theorem converged_iff (hkeyed : Keyed s.table) (h : IsFullSync s) :
    Converged answer (syncJobs now (some answer.toJobsResponse) s) ↔
      ∀ id, Live s id → id ∈ answer.deletedIds ∨
        id ∈ answer.enabledJobs.map PulledJob.jobId ∨
          id ∉ answer.parsed.map PulledJob.jobId ∧ (s.job? id).isSome := by
  have hkeyed' : Keyed (syncJobs now (some answer.toJobsResponse) s).table := by
    rw [syncJobs_eq_runOps]
    exact Keyed.runOps (s := receive now s) hkeyed _
  constructor
  · intro hconv id ⟨row, hrow, hlive⟩
    have hback : (syncJobs now (some answer.toJobsResponse) s).row? id = s.row? id →
        ∃ j ∈ answer.parsed, j.job.enabled = true ∧ j.jobId = id := by
      intro hsame
      have hid : row.pulled.jobId = id := hkeyed.ids (id, row) (Dict.mem_of_lookup hrow)
      have hstored := (hconv.stored row.pulled).1 ((mem_storedJobs hkeyed').2
        ⟨row, by rw [hid, hsame]; exact hrow, hlive, rfl⟩)
      obtain ⟨hmem, henabled⟩ := mem_enabledJobs.1 hstored
      exact ⟨_, hmem, henabled, hid⟩
    by_cases hid : id ∈ answer.parsed.map PulledJob.jobId
    · obtain ⟨j, hj, rfl⟩ := List.mem_map.1 hid
      refine .inr (.inl (mem_map_of_mem (mem_enabledJobs.2 ⟨hj, ?_⟩)))
      by_contra hdisabled
      obtain ⟨j', hj', henabled, hid'⟩ :=
        hback ((fullSync_of_mem h hj).2.trans (if_neg hdisabled))
      obtain rfl := inj_on_of_nodup_map answer.ids_nodup hj' hj hid'
      exact hdisabled henabled
    · by_cases hdeleted : id ∈ answer.deletedIds
      · exact .inl hdeleted
      · refine .inr (.inr ⟨hid, ?_⟩)
        by_contra hnone
        obtain ⟨j', hj', -, hid'⟩ := hback (((fullSync_of_notMem h hid).2.trans
          (if_neg hdeleted)).trans (if_neg hnone))
        exact hid (hid' ▸ mem_map_of_mem hj')
  · intro hrows
    have hstored : ∀ j, j ∈ storedJobs (syncJobs now (some answer.toJobsResponse) s).table ↔
        j ∈ answer.enabledJobs := by
      intro j
      rw [mem_storedJobs hkeyed', mem_enabledJobs]
      constructor
      · rintro ⟨row, hrow, hlive, rfl⟩
        by_cases hid : row.pulled.jobId ∈ answer.parsed.map PulledJob.jobId
        · obtain ⟨i, hi, hij⟩ := List.mem_map.1 hid
          rw [← hij, (fullSync_of_mem h hi).2] at hrow
          split at hrow
          next henabled =>
            cases hrow
            rw [pulled_stored]
            exact ⟨hi, henabled⟩
          next hdisabled =>
            rcases hrows i.jobId ⟨row, hrow, hlive⟩ with hdeleted | hmem | ⟨hnot, -⟩
            · exact absurd hdeleted (answer.disjoint i hi)
            · obtain ⟨k, hk, hki⟩ := List.mem_map.1 hmem
              obtain ⟨hk, henabled⟩ := mem_enabledJobs.1 hk
              obtain rfl := inj_on_of_nodup_map answer.ids_nodup hk hi hki
              exact absurd henabled hdisabled
            · exact absurd (mem_map_of_mem hi) hnot
        · rw [(fullSync_of_notMem h hid).2] at hrow
          split at hrow
          · cases hrow
          next hdeleted =>
            split at hrow
            · obtain ⟨old, -, rfl⟩ := Option.map_eq_some_iff.1 hrow
              cases hlive
            next hnone =>
              rcases hrows _ ⟨row, hrow, hlive⟩ with hmem | hmem | ⟨-, hsome⟩
              · exact absurd hmem hdeleted
              · obtain ⟨k, hk, hki⟩ := List.mem_map.1 hmem
                exact absurd (hki ▸ mem_map_of_mem (mem_enabledJobs.1 hk).1) hid
              · exact absurd hsome hnone
      · rintro ⟨hj, henabled⟩
        exact ⟨_, (fullSync_of_mem h hj).2.trans (if_pos henabled), rfl, pulled_stored j⟩
    exact ⟨fullSync_memory h, hstored, fun j => (mem_loadFromDb hkeyed').trans (hstored j)⟩

end FullSync

/-! ### Runs in which the rows keep up -/

/-- Each row in use is of a job of the dictionary. -/
def Known (s : Scheduler) : Prop := ∀ id, Live s id → (s.job? id).isSome

/-- What the rounds of a sync keep. -/
def Keeping (answer : CentralAnswer) (s : Scheduler) : Prop := Known s ∧ NoDisabledRow s answer

section Rounds

variable {answer : CentralAnswer} {s : Scheduler}

theorem Keeping.removal (h : Keeping answer s) {s' : Scheduler} {jobId : String}
    (hjob : ∀ id, s'.job? id = if id = jobId then none else s.job? id)
    (hlive : ∀ id, Live s' id → id ≠ jobId ∧ Live s id) : Keeping answer s' := by
  refine ⟨fun id hid => ?_, fun j hj hdisabled hid => h.2 j hj hdisabled (hlive _ hid).2⟩
  obtain ⟨hne, hid⟩ := hlive id hid
  rw [hjob, if_neg hne]
  exact h.1 id hid

theorem Keeping.deletion (h : Keeping answer s) (jobId : String) :
    Keeping answer (runOps (deletionOps jobId) s) := by
  refine h.removal (job?_pop s jobId) fun id hid => ?_
  obtain ⟨row, hrow, hlive⟩ := hid
  have hget : (runOps (deletionOps jobId) s).row? id = if id = jobId then none else s.row? id :=
    row?_deleteRow (SyncOp.run s (.pop jobId)) jobId id
  rw [hget] at hrow
  split at hrow
  · cases hrow
  next hne => exact ⟨hne, row, hrow, hlive⟩

theorem Keeping.stale (h : Keeping answer s) (jobId : String) :
    Keeping answer (runOps (staleOps jobId) s) := by
  refine h.removal (job?_pop s jobId) fun id hid => ?_
  obtain ⟨row, hrow, hlive⟩ := hid
  have hget : (runOps (staleOps jobId) s).row? id =
      if id = jobId then (s.row? id).map fun row => { row with deleted := true }
      else s.row? id :=
    row?_markRow (SyncOp.run s (.pop jobId)) jobId id
  rw [hget] at hrow
  split at hrow
  · obtain ⟨old, -, rfl⟩ := Option.map_eq_some_iff.1 hrow
    cases hlive
  next hne => exact ⟨hne, row, hrow, hlive⟩

theorem Keeping.upsert (h : Keeping answer s) {j : PulledJob} (hj : j ∈ answer.parsed) :
    Keeping answer (runOps (upsertOps j) s) := by
  have hjob := fun id => job?_runOps_upsertOps s id j
  have hrow := fun id => row?_runOps_upsertOps s id j
  have hlive : ∀ id, Live (runOps (upsertOps j) s) id →
      id = j.jobId ∧ j.job.enabled = true ∨ Live s id := by
    rintro id ⟨row, hget, hlive⟩
    rw [hrow] at hget
    split at hget
    next hid => exact .inl hid
    · exact .inr ⟨row, hget, hlive⟩
  refine ⟨fun id hid => ?_, fun j' hj' hdisabled hid => ?_⟩
  · rw [hjob]
    rcases hlive id hid with ⟨rfl, henabled⟩ | hid
    · rw [if_pos rfl, if_pos henabled]
      rfl
    · by_cases heq : id = j.jobId
      · have henabled : j.job.enabled = true := by
          by_contra hnot
          exact h.2 j hj (by simpa using hnot) (heq ▸ hid)
        rw [if_pos heq, if_pos henabled]
        rfl
      · rw [if_neg heq]
        exact h.1 id hid
  · rcases hlive _ hid with ⟨heq, henabled⟩ | hid
    · obtain rfl := inj_on_of_nodup_map answer.ids_nodup hj' hj heq
      rw [hdisabled] at henabled
      cases henabled
    · exact h.2 j' hj' hdisabled hid

theorem mem_syncRounds {s : Scheduler} {response : JobsResponse} {round : List SyncOp}
    (h : round ∈ syncRounds s response) : (∃ jobId, round = deletionOps jobId) ∨
      (∃ jobId, round = staleOps jobId) ∨ ∃ j ∈ response.parsed, round = upsertOps j := by
  rw [syncRounds, mem_append, mem_append] at h
  rcases h with (h | h) | h
  · obtain ⟨jobId, -, rfl⟩ := List.mem_map.1 h
    exact .inl ⟨jobId, rfl⟩
  · split at h
    · obtain ⟨jobId, -, rfl⟩ := List.mem_map.1 h
      exact .inr (.inl ⟨jobId, rfl⟩)
    · cases h
  · obtain ⟨j, hj, rfl⟩ := List.mem_map.1 h
    exact .inr (.inr ⟨j, hj, rfl⟩)

theorem Keeping.round (h : Keeping answer s) {s₀ : Scheduler} {round : List SyncOp}
    (hround : round ∈ syncRounds s₀ answer.toJobsResponse) :
    Keeping answer (runOps round s) := by
  rcases mem_syncRounds hround with ⟨jobId, rfl⟩ | ⟨jobId, rfl⟩ | ⟨j, hj, rfl⟩
  · exact h.deletion jobId
  · exact h.stale jobId
  · exact h.upsert hj

theorem runOps_take_round {s₀ : Scheduler} {response : JobsResponse} {round : List SyncOp}
    (hround : round ∈ syncRounds s₀ response) {done : ℕ} {op : SyncOp}
    (hget : round[done]? = some op) (hawaits : op.awaits = true) (hremoves : op.removesRow = false)
    (s : Scheduler) : runOps (round.take done) s = s ∨
      runOps (round.take done) s = runOps round s := by
  have hmem : done < round.length := (List.getElem?_eq_some_iff.1 hget).1
  rcases mem_syncRounds hround with ⟨jobId, rfl⟩ | ⟨jobId, rfl⟩ | ⟨j, -, rfl⟩
  · rw [deletionOps] at hget hmem
    rcases done with _ | _ | done
    · exact .inl rfl
    · cases hget
      cases hremoves
    · exact absurd hmem (by simp)
  · rw [staleOps] at hget hmem
    rcases done with _ | _ | done
    · exact .inl rfl
    · cases hget
      cases hremoves
    · exact absurd hmem (by simp)
  · rw [upsertOps] at hget hmem ⊢
    split at hget
    next henabled =>
      rw [if_pos henabled] at hmem ⊢
      rcases done with _ | _ | _ | done
      · exact .inl rfl
      · cases hget
        cases hawaits
      · exact .inr rfl
      · exact absurd hmem (by simp)
    next hdisabled =>
      rw [if_neg hdisabled] at hmem ⊢
      rcases done with _ | done
      · exact .inl rfl
      · exact absurd hmem (by simp)

theorem Keeping.rounds {s₀ : Scheduler} {rounds : List (List SyncOp)} (h : Keeping answer s)
    (hrounds : ∀ round ∈ rounds, round ∈ syncRounds s₀ answer.toJobsResponse) :
    Keeping answer (runOps rounds.flatten s) := by
  induction rounds generalizing s with
  | nil => exact h
  | cons round rounds ih =>
    rw [flatten_cons, runOps_append]
    exact ih (h.round (hrounds round (mem_cons_self ..))) fun round hround =>
      hrounds round (mem_cons_of_mem _ hround)

theorem Keeping.take {s₀ : Scheduler} {rounds : List (List SyncOp)} (h : Keeping answer s)
    (hrounds : ∀ round ∈ rounds, round ∈ syncRounds s₀ answer.toJobsResponse) {done : ℕ}
    {op : SyncOp} (hget : rounds.flatten[done]? = some op) (hawaits : op.awaits = true)
    (hremoves : op.removesRow = false) : Keeping answer (runOps (rounds.flatten.take done) s) := by
  induction rounds generalizing s done with
  | nil => cases hget
  | cons round rounds ih =>
    have hround := hrounds round (mem_cons_self ..)
    rw [flatten_cons] at hget ⊢
    by_cases hlt : done < round.length
    · rw [getElem?_append_left hlt] at hget
      rw [take_append_of_le_length hlt.le]
      rcases runOps_take_round hround hget hawaits hremoves s with hsame | hall
      · rw [hsame]
        exact h
      · rw [hall]
        exact h.round hround
    · rw [getElem?_append_right (by omega)] at hget
      rw [take_append, take_of_length_le (by omega), runOps_append]
      exact ih (h.round hround) (fun round hround => hrounds round (mem_cons_of_mem _ hround))
        hget

end Rounds

/-- The rows in use are of jobs of the dictionary, and the last full sync has converged. -/
structure SyncedNode.Inv (n : SyncedNode) : Prop where
  keyed : Keyed n.scheduler.table
  known : Known n.scheduler
  converged : ∀ answer ∈ n.synced, Converged answer n.scheduler

theorem known_loadFromDb {s : Scheduler} (h : Keyed s.table) : Known (loadFromDb s.table) := by
  rintro id ⟨row, hrow, hlive⟩
  have hid : row.pulled.jobId = id := h.ids (id, row) (Dict.mem_of_lookup hrow)
  have hstored : row.pulled ∈ storedJobs s.table :=
    (mem_storedJobs h).2 ⟨row, by rw [hid]; exact hrow, hlive, rfl⟩
  rw [Option.isSome_iff_exists]
  exact ⟨_, job?_eq_some.2 ⟨(mem_loadFromDb h).2 hstored, hid⟩⟩

theorem SyncedNode.Inv.step {n n' : SyncedNode} {a : SyncAction} (h : n.Inv)
    (hkeeps : KeepsRows n a) (hs : n.step a = some n') : n'.Inv := by
  obtain ⟨hkeyed, hknown, -⟩ := h
  cases a with
  | sync now answer =>
    cases hs
    cases answer with
    | none => exact ⟨hkeyed, hknown, by split <;> simp⟩
    | some answer =>
      have hdisabled : NoDisabledRow n.scheduler answer := hkeeps answer rfl
      have hrounds : Keeping answer (runOps (syncOps (beginSync n.scheduler)
          answer.toJobsResponse) (receive now n.scheduler)) :=
        Keeping.rounds ⟨hknown, hdisabled⟩ fun _ hround => hround
      have hkeyed' : Keyed (syncJobs now (some answer.toJobsResponse) n.scheduler).table := by
        rw [syncJobs_eq_runOps]
        exact Keyed.runOps (s := receive now n.scheduler) hkeyed _
      rw [← syncJobs_eq_runOps] at hrounds
      refine ⟨hkeyed', hrounds.1, fun answer' hsynced => ?_⟩
      split at hsynced
      next hfull =>
        cases hsynced
        refine (converged_iff hkeyed hfull).2 fun id hid => ?_
        by_cases hmem : id ∈ answer.parsed.map PulledJob.jobId
        · obtain ⟨j, hj, rfl⟩ := List.mem_map.1 hmem
          refine .inr (.inl (mem_map_of_mem (mem_enabledJobs.2 ⟨hj, ?_⟩)))
          by_contra hnot
          exact hdisabled j hj (by simpa using hnot) hid
        · exact .inr (.inr ⟨hmem, hknown id hid⟩)
      · cases hsynced
  | fail now answer done =>
    obtain ⟨hdisabled, hremoves⟩ := hkeeps
    rw [SyncedNode.step] at hs
    split at hs
    next hany =>
      cases hs
      cases hget : (syncOps (beginSync n.scheduler) answer.toJobsResponse)[done]? with
      | none =>
        rw [hget] at hany
        cases hany
      | some op =>
        have hawaits : op.awaits = true := by
          rw [hget] at hany
          exact hany
        have hreceive : Keeping answer (receive now n.scheduler) := ⟨hknown, hdisabled⟩
        have htake : Keeping answer (runOps ((syncOps (beginSync n.scheduler)
            answer.toJobsResponse).take done) (receive now n.scheduler)) :=
          hreceive.take (fun _ hround => hround) hget hawaits (hremoves op hget)
        exact ⟨Keyed.runOps (s := receive now n.scheduler) hkeyed _, htake.1, by simp⟩
    · cases hs
  | force =>
    cases hs
    exact ⟨hkeyed, hknown, by simp⟩
  | restart =>
    cases hs
    exact ⟨hkeyed, known_loadFromDb hkeyed, by simp⟩

end MonCTL.Collector
