import MonCTL.Collector.FullSync
import MonCTL.CollectorApi.DeltaJobs

/-!
# Delta Syncs Against Full Syncs

Between full syncs a collector asks for the jobs that have changed since its last sync, by its own
clock. Central answers with those assignments of the collector's share whose `updated_at` is later,
and lists no deletions. An assignment that has left the share stays in the collector's dictionary,
and one that has joined it, or whose job is another one, without an `updated_at` after the cursor
is missed.

Central changes as it will: a change leads from any tables to any others. Discovery jobs are left
out.
-/

namespace MonCTL.Collector

open List CollectorApi
open JobPipeline (JobJson parseJob)

deriving instance DecidableEq for JobPipeline.ConnectorBinding, JobPipeline.JobDefinition, PulledJob

/-! ### Central's answers -/

/-- Central's tables, and what the jobs of assignments say. -/
structure CentralTables where
  db : Database
  job : Uuid → JobJson

namespace CentralTables

/-- The job of an assignment in a response, in which only enabled ones are. -/
def jobOf (c : CentralTables) (a : AppAssignment) : JobJson :=
  { c.job a.id with
    jobId := a.id
    enabled := true }

def response (c : CentralTables) (rows : List AppAssignment) : JobsResponse where
  jobs := rows.map fun a => (c.jobOf a, none)

/-- The job of an assignment, as the collector keeps it. -/
def pulled (c : CentralTables) (a : AppAssignment) : PulledJob := ⟨parseJob (c.jobOf a), none⟩

variable (sha256 : String → ℕ) (auth : Auth) (collectorId : Option Uuid)

/-- The collector's share of the assignments. -/
def share (c : CentralTables) : List AppAssignment :=
  (getJobs sha256 c.db.toFleet auth collectorId).toOption.getD []

end CentralTables

/-! ### Syncs -/

/-- An answer under way, with what it has been asked for, and central as it was. -/
structure Reply where
  since : Option Timestamp
  central : CentralTables
  rows : List AppAssignment

/-- Central and a collector. -/
structure Site where
  central : CentralTables
  scheduler : Scheduler := {}
  reply : Option Reply := none
  /-- Central as it was when it answered the last sync, if that has succeeded. -/
  synced : Option CentralTables := none

/-- What can happen. -/
inductive SiteAction
  /-- Anything changes on central. -/
  | change (central : CentralTables)
  /-- The collector asks, and central answers. -/
  | ask
  /-- The request fails. -/
  | lose
  /-- The answer is processed. -/
  | receive (now : Timestamp)
  /-- Its processing fails, after some operations. -/
  | fail (now : Timestamp) (done : ℕ)
  | force
  | restart

variable (sha256 : String → ℕ) (auth : Auth) (collectorId : Option Uuid)

def Site.step (s : Site) : SiteAction → Option Site
  | .change central => some { s with central }
  | .ask =>
    let since := (beginSync s.scheduler).lastSync
    match s.reply, getJobsSince sha256 s.central.db since auth collectorId with
    | none, .ok rows => some { s with reply := some ⟨since, s.central, rows⟩ }
    | _, _ => none
  | .lose => some { s with scheduler := syncJobs 0 none s.scheduler, reply := none }
  | .receive now =>
    s.reply.map fun r =>
      { s with
        -- what the request has asked for decides how the answer is taken
        scheduler := syncJobs now (some (r.central.response r.rows))
          { s.scheduler with lastSync := r.since }
        reply := none
        synced := some r.central }
  | .fail now done =>
    s.reply.map fun r =>
      let before := { s.scheduler with lastSync := r.since }
      { s with
        scheduler := runOps ((syncOps (beginSync before) (r.central.response r.rows)).take done)
          (receive now before)
        reply := none
        synced := none }
  | .force => some { s with scheduler := forceSync s.scheduler }
  | .restart => some { s with scheduler := loadFromDb s.scheduler.table, reply := none, synced := none }

/-- **Agreement**: after a sync, the dictionary is the one that a full sync would leave with
central as it was then. -/
def Site.Agrees (s : Site) : Prop :=
  ∀ c ∈ s.synced, ∀ now j, j ∈ s.scheduler.myJobs.jobs ↔
    j ∈ (syncJobs now (some (c.response (c.share sha256 auth collectorId)))
      (forceSync s.scheduler)).myJobs.jobs

/-- A delta makes up for the changes between two states of central: no assignment has left the
share, and those that have joined it, or whose job is another one, are marked as later. -/
def Covered (before after : CentralTables) (since : Timestamp) : Prop :=
  (∀ a ∈ before.share sha256 auth collectorId,
    a.id ∈ (after.share sha256 auth collectorId).map AppAssignment.id) ∧
  ∀ a ∈ after.share sha256 auth collectorId, since < after.db.updatedAt a.id ∨
    (a.id ∈ (before.share sha256 auth collectorId).map AppAssignment.id ∧
      before.pulled a = after.pulled a)
  deriving Decidable

/-- A delta is asked for after a sync that has succeeded, and makes up for the changes since. -/
def Site.Tracks (s : Site) : SiteAction → Prop
  | .ask => ∀ since ∈ (beginSync s.scheduler).lastSync,
      ∃ before ∈ s.synced, Covered sha256 auth collectorId before s.central since
  | _ => True

instance (s : Site) : ∀ a, Decidable (s.Tracks sha256 auth collectorId a)
  | .ask => inferInstanceAs (Decidable (∀ since ∈ (beginSync s.scheduler).lastSync,
      ∃ before ∈ s.synced, Covered sha256 auth collectorId before s.central since))
  | .change _ => inferInstanceAs (Decidable True)
  | .lose => inferInstanceAs (Decidable True)
  | .receive _ => inferInstanceAs (Decidable True)
  | .fail _ _ => inferInstanceAs (Decidable True)
  | .force => inferInstanceAs (Decidable True)
  | .restart => inferInstanceAs (Decidable True)

variable {sha256 auth collectorId}

/-! ### The share -/

theorem partitionRows_sublist {s : Fleet} {g : Uuid} {host : Option String}
    {rows rows' : List AppAssignment} (h : partitionRows sha256 s g host rows = .ok rows') :
    rows'.Sublist rows := by
  simp only [partitionRows] at h
  split at h
  · split at h
    · split at h
      · cases h
        exact List.Sublist.refl _
      · split at h
        · cases h
        · cases h
          exact filter_sublist
    · cases h
      exact List.Sublist.refl _
  · cases h
    exact List.Sublist.refl _

theorem nodup_ids_append (db : Database) {collectorId : Option Uuid} {rows : List AppAssignment}
    {g : Option Uuid} (h : rows.Sublist (unpinnedRows db.toFleet g)) :
    (((collectorId.map (pinnedRows db.toFleet)).getD [] ++ rows).map AppAssignment.id).Nodup := by
  have hpinned : ((collectorId.map (pinnedRows db.toFleet)).getD []).Sublist db.assignments := by
    cases collectorId with
    | none => exact nil_sublist _
    | some id => exact filter_sublist
  have hrows := h.trans (filter_sublist (l := db.assignments))
  rw [map_append, nodup_append]
  refine ⟨db.assignments_nodup.sublist (hpinned.map _), db.assignments_nodup.sublist (hrows.map _),
    ?_⟩
  rintro id hid id' hid' rfl
  obtain ⟨a, ha, rfl⟩ := List.mem_map.1 hid
  obtain ⟨a', ha', heq⟩ := List.mem_map.1 hid'
  obtain rfl := inj_on_of_nodup_map db.assignments_nodup (hrows.subset ha')
    (hpinned.subset ha) heq
  have hunpinned := h.subset ha'
  rw [unpinnedRows, mem_filter, decide_eq_true_eq] at hunpinned
  cases collectorId with
  | none => cases ha
  | some id =>
    simp only [Option.map_some, Option.getD_some, pinnedRows, mem_filter,
      decide_eq_true_eq] at ha
    rw [hunpinned.2.1] at ha
    cases ha.2.1

/-- **A response has each assignment once.** -/
theorem nodup_ids_of_getJobs {db : Database} {rows : List AppAssignment}
    (h : getJobs sha256 db.toFleet auth collectorId = .ok rows) :
    (rows.map AppAssignment.id).Nodup := by
  rw [getJobs] at h
  obtain ⟨_, -, h⟩ := StateExcept.bind_eq_ok.1 h
  obtain ⟨collectorId', -, h⟩ := StateExcept.bind_eq_ok.1 h
  rw [selectRows] at h
  split at h
  next c g _ _ =>
    cases hrows : partitionRows sha256 db.toFleet g c.hostname
        (unpinnedRows db.toFleet ((collectorId'.bind db.collector?).bind Collector.groupId)) with
    | error e =>
      rw [hrows] at h
      cases h
    | ok rows' =>
      rw [hrows] at h
      cases h
      exact nodup_ids_append db (partitionRows_sublist hrows)
  · cases h
    exact nodup_ids_append db (List.Sublist.refl _)

theorem nodup_ids_share (c : CentralTables) :
    ((c.share sha256 auth collectorId).map AppAssignment.id).Nodup := by
  rw [CentralTables.share]
  cases h : getJobs sha256 c.db.toFleet auth collectorId with
  | ok rows => exact nodup_ids_of_getJobs h
  | error e => exact nodup_nil

theorem rows_eq_of_ok {c : CentralTables} {since : Option Timestamp} {rows : List AppAssignment}
    (h : getJobsSince sha256 c.db since auth collectorId = .ok rows) :
    rows = c.db.changedSince since (c.share sha256 auth collectorId) := by
  rw [getJobsSince_eq] at h
  rw [CentralTables.share]
  cases hrows : getJobs sha256 c.db.toFleet auth collectorId with
  | error e =>
    rw [hrows] at h
    cases h
  | ok rows' =>
    rw [hrows] at h
    cases h
    rfl

/-! ### What a sync leaves -/

variable {c : CentralTables} {rows : List AppAssignment} {s : Scheduler} {now : Timestamp}

theorem parsed_response (c : CentralTables) (rows : List AppAssignment) :
    (c.response rows).parsed = rows.map c.pulled := by
  rw [JobsResponse.parsed, CentralTables.response, map_map]
  rfl

theorem ids_pulled (c : CentralTables) (rows : List AppAssignment) :
    (rows.map c.pulled).map PulledJob.jobId = rows.map AppAssignment.id := by
  rw [map_map]
  rfl

theorem mem_jobs_of_full (h : IsFullSync s) (hnodup : (rows.map AppAssignment.id).Nodup)
    {j : PulledJob} : j ∈ (syncJobs now (some (c.response rows)) s).myJobs.jobs ↔
      j ∈ rows.map c.pulled := by
  let answer : CentralAnswer :=
    { toJobsResponse := c.response rows
      ids_nodup := by rwa [parsed_response, ids_pulled]
      disjoint := fun _ _ => not_mem_nil }
  have henabled : answer.enabledJobs = rows.map c.pulled := by
    rw [CentralAnswer.enabledJobs, parsed_response, filter_eq_self]
    intro j hj
    obtain ⟨a, -, rfl⟩ := List.mem_map.1 hj
    rfl
  rw [← henabled]
  have hfull : j ∈ (syncJobs now (some answer.toJobsResponse) s).myJobs.jobs ↔
      j ∈ answer.enabledJobs := fullSync_memory h j
  exact hfull

/-- **After a delta sync** the dictionary has the jobs of the answer, and what else it had. -/
theorem mem_jobs_of_delta {since : Timestamp} (h : (beginSync s).lastSync = some since)
    (hnodup : (rows.map AppAssignment.id).Nodup) {j : PulledJob} :
    j ∈ (syncJobs now (some (c.response rows)) s).myJobs.jobs ↔
      j ∈ rows.map c.pulled ∨ (j ∈ s.myJobs.jobs ∧ j.jobId ∉ rows.map AppAssignment.id) := by
  have hops : syncOps (beginSync s) (c.response rows) = ((rows.map c.pulled).map upsertOps).flatten := by
    rw [syncOps, syncRounds, h, parsed_response]
    rfl
  have hmem : j ∈ (syncJobs now (some (c.response rows)) s).myJobs.jobs ↔
      (runOps ((rows.map c.pulled).map upsertOps).flatten (receive now s)).job? j.jobId = some j := by
    rw [syncJobs_eq_runOps, hops, job?_eq_some, and_iff_left rfl]
  have hold : (receive now s).job? j.jobId = some j ↔ j ∈ s.myJobs.jobs := by
    rw [job?_eq_some, and_iff_left rfl]
    rfl
  rw [hmem]
  by_cases hid : j.jobId ∈ rows.map AppAssignment.id
  · obtain ⟨a, ha, hja⟩ := List.mem_map.1 hid
    have hpulled : c.pulled a ∈ rows.map c.pulled := mem_map_of_mem ha
    have hget := (runOps_upserts_of_mem (receive now s) (by rwa [ids_pulled]) hpulled).1
    rw [show (c.pulled a).jobId = j.jobId from hja] at hget
    rw [hget, or_iff_left fun hboth => hboth.2 hid]
    constructor
    · intro hsome
      cases hsome
      exact hpulled
    · intro hj
      obtain ⟨a', ha', rfl⟩ := List.mem_map.1 hj
      rw [inj_on_of_nodup_map hnodup ha ha' hja]
      rfl
  · have hnot : j.jobId ∉ (rows.map c.pulled).map PulledJob.jobId := by rwa [ids_pulled]
    rw [(runOps_upserts_of_notMem (receive now s) j.jobId hnot).1, hold,
      or_iff_right fun hj => hnot (mem_map_of_mem hj), and_iff_left hid]

theorem isFullSync_forceSync (s : Scheduler) : IsFullSync (forceSync s) := by
  rw [IsFullSync, beginSync, forceSync]
  exact ite_self none

theorem agrees_iff {s : Site} : s.Agrees sha256 auth collectorId ↔
    ∀ c ∈ s.synced, ∀ j, j ∈ s.scheduler.myJobs.jobs ↔
      j ∈ (c.share sha256 auth collectorId).map c.pulled := by
  refine forall₂_congr fun c _ => ?_
  have hfull (now : Timestamp) (j : PulledJob) :
      j ∈ (syncJobs now (some (c.response (c.share sha256 auth collectorId)))
        (forceSync s.scheduler)).myJobs.jobs ↔ j ∈ (c.share sha256 auth collectorId).map c.pulled :=
    mem_jobs_of_full (isFullSync_forceSync s.scheduler) (nodup_ids_share c)
  constructor
  · exact fun h j => (h 0 j).trans (hfull 0 j)
  · exact fun h now j => (h j).trans (hfull now j).symm

/-! ### Runs -/

/-- What an answer under way is, and what it has to make up for. -/
structure Reply.Inv (sha256 : String → ℕ) (auth : Auth) (collectorId : Option Uuid)
    (synced : Option CentralTables) (r : Reply) : Prop where
  rows_eq : r.rows = r.central.db.changedSince r.since (r.central.share sha256 auth collectorId)
  covered : ∀ since ∈ r.since,
    ∃ before ∈ synced, Covered sha256 auth collectorId before r.central since

/-- The dictionary agrees with the last sync. -/
structure Site.Inv (sha256 : String → ℕ) (auth : Auth) (collectorId : Option Uuid) (s : Site) :
    Prop where
  agrees : ∀ c ∈ s.synced, ∀ j, j ∈ s.scheduler.myJobs.jobs ↔
    j ∈ (c.share sha256 auth collectorId).map c.pulled
  reply : ∀ r ∈ s.reply, r.Inv sha256 auth collectorId s.synced
  /-- The next sync asks for what the answer under way has asked for, but for a forced one. -/
  since : ∀ r ∈ s.reply, (beginSync { s.scheduler with lastSync := r.since }).lastSync = r.since

theorem nodup_ids_changedSince (c : CentralTables) (since : Option Timestamp) :
    ((c.db.changedSince since (c.share sha256 auth collectorId)).map AppAssignment.id).Nodup :=
  (nodup_ids_share c).sublist (List.filter_sublist.map _)

theorem changedSince_none (db : Database) (rows : List AppAssignment) :
    db.changedSince none rows = rows := by
  rw [Database.changedSince, filter_eq_self]
  intro a _
  simp

theorem pulled_congr (c : CentralTables) {a a' : AppAssignment} (h : a.id = a'.id) :
    c.pulled a = c.pulled a' := by
  rw [CentralTables.pulled, CentralTables.pulled, CentralTables.jobOf, CentralTables.jobOf, h]

/-- **A delta makes up for the changes iff they are covered.** -/
theorem agrees_iff_covered {before after : CentralTables} {since : Timestamp} {s : Scheduler}
    (hbefore : ∀ j, j ∈ s.myJobs.jobs ↔
      j ∈ (before.share sha256 auth collectorId).map before.pulled)
    (hsince : (beginSync s).lastSync = some since) (now : Timestamp) :
    (∀ j, j ∈ (syncJobs now (some (after.response (after.db.changedSince (some since)
        (after.share sha256 auth collectorId)))) s).myJobs.jobs ↔
      j ∈ (after.share sha256 auth collectorId).map after.pulled) ↔
        Covered sha256 auth collectorId before after since := by
  let rows := after.db.changedSince (some since) (after.share sha256 auth collectorId)
  have hmem (j : PulledJob) : j ∈ (syncJobs now (some (after.response rows)) s).myJobs.jobs ↔
      j ∈ rows.map after.pulled ∨ (j ∈ s.myJobs.jobs ∧ j.jobId ∉ rows.map AppAssignment.id) :=
    mem_jobs_of_delta hsince (nodup_ids_changedSince after (some since))
  have hchanged (a : AppAssignment) : a ∈ after.db.changedSince (some since)
      (after.share sha256 auth collectorId) ↔
        a ∈ after.share sha256 auth collectorId ∧ since < after.db.updatedAt a.id := by
    simp [Database.changedSince]
  -- what has the id of an assignment that is not later is not in the answer
  have hkept {a : AppAssignment} (hlater : ¬since < after.db.updatedAt a.id) :
      a.id ∉ (after.db.changedSince (some since)
        (after.share sha256 auth collectorId)).map AppAssignment.id := by
    intro hid
    obtain ⟨a', ha', heq⟩ := List.mem_map.1 hid
    exact hlater (heq ▸ ((hchanged a').1 ha').2)
  constructor
  · intro hagrees
    constructor
    · intro a ha
      by_contra hgone
      have hold : before.pulled a ∈ s.myJobs.jobs := (hbefore _).2 (mem_map_of_mem ha)
      have hnot : (before.pulled a).jobId ∉ (after.db.changedSince (some since)
          (after.share sha256 auth collectorId)).map AppAssignment.id := fun hid =>
        hgone (((filter_sublist (l := after.share sha256 auth collectorId)).map _).subset hid)
      obtain ⟨a', ha', heq⟩ := List.mem_map.1 ((hagrees _).1 ((hmem _).2 (.inr ⟨hold, hnot⟩)))
      have hid : a'.id = a.id := congrArg PulledJob.jobId heq
      exact hgone (hid ▸ mem_map_of_mem ha')
    · intro a ha
      refine or_iff_not_imp_left.2 fun hlater => ?_
      rcases (hmem _).1 ((hagrees _).2 (mem_map_of_mem ha)) with hj | ⟨hj, -⟩
      · have hid : (after.pulled a).jobId ∈ ((after.db.changedSince (some since)
            (after.share sha256 auth collectorId)).map after.pulled).map PulledJob.jobId :=
          mem_map_of_mem hj
        rw [ids_pulled] at hid
        exact absurd hid (hkept hlater)
      · obtain ⟨a', ha', heq⟩ := List.mem_map.1 ((hbefore _).1 hj)
        have hid : a'.id = a.id := congrArg PulledJob.jobId heq
        exact ⟨hid ▸ mem_map_of_mem ha', (pulled_congr before hid).symm.trans heq⟩
  · rintro ⟨hstay, hchange⟩ j
    rw [hmem, hbefore]
    constructor
    · rintro (hj | ⟨hj, hnot⟩)
      · obtain ⟨a, ha, rfl⟩ := List.mem_map.1 hj
        exact mem_map_of_mem ((hchanged a).1 ha).1
      · obtain ⟨a, ha, rfl⟩ := List.mem_map.1 hj
        obtain ⟨a', ha', hid⟩ := List.mem_map.1 (hstay a ha)
        rcases hchange a' ha' with hlater | ⟨-, hsame⟩
        · exact absurd (List.mem_map.2 ⟨a', (hchanged a').2 ⟨ha', hlater⟩, hid⟩) hnot
        · refine List.mem_map.2 ⟨a', ha', ?_⟩
          rw [← hsame, pulled_congr before hid]
    · intro hj
      obtain ⟨a, ha, rfl⟩ := List.mem_map.1 hj
      by_cases hlater : since < after.db.updatedAt a.id
      · exact .inl (mem_map_of_mem ((hchanged a).2 ⟨ha, hlater⟩))
      · obtain ⟨hid, hsame⟩ := (hchange a ha).resolve_left hlater
        obtain ⟨a', ha', heq⟩ := List.mem_map.1 hid
        refine .inr ⟨List.mem_map.2 ⟨a', ha', ?_⟩, hkept hlater⟩
        rw [← hsame, pulled_congr before heq]

theorem Reply.Inv.agrees {r : Reply} {synced : Option CentralTables} {s : Scheduler}
    (hinv : r.Inv sha256 auth collectorId synced)
    (hold : ∀ c ∈ synced, ∀ j, j ∈ s.myJobs.jobs ↔
      j ∈ (c.share sha256 auth collectorId).map c.pulled)
    (hsince : (beginSync { s with lastSync := r.since }).lastSync = r.since) (now : Timestamp)
    (j : PulledJob) :
    j ∈ (syncJobs now (some (r.central.response r.rows))
        { s with lastSync := r.since }).myJobs.jobs ↔
      j ∈ (r.central.share sha256 auth collectorId).map r.central.pulled := by
  rw [hinv.rows_eq]
  cases hr : r.since with
  | none =>
    rw [hr] at hsince
    rw [changedSince_none]
    exact mem_jobs_of_full hsince (nodup_ids_share r.central)
  | some since =>
    rw [hr] at hsince
    obtain ⟨before, hbefore, hcovered⟩ := hinv.covered since hr
    exact (agrees_iff_covered (s := { s with lastSync := some since }) (hold before hbefore)
      hsince now).2 hcovered j

theorem beginSync_since (s : Scheduler) :
    (beginSync { s with lastSync := (beginSync s).lastSync }).lastSync = (beginSync s).lastSync :=
    by
  simp only [beginSync]
  split <;> rfl

theorem Site.Inv.step {s s' : Site} {a : SiteAction} (hinv : s.Inv sha256 auth collectorId)
    (htracks : s.Tracks sha256 auth collectorId a)
    (hs : s.step sha256 auth collectorId a = some s') : s'.Inv sha256 auth collectorId := by
  obtain ⟨hagrees, hreply, hsince⟩ := hinv
  cases a with
  | change central =>
    cases hs
    exact ⟨hagrees, hreply, hsince⟩
  | ask =>
    rw [Site.step] at hs
    split at hs
    next rows _ hrows =>
      cases hs
      refine ⟨hagrees, ?_, ?_⟩
      · rintro r hr
        cases hr
        exact ⟨rows_eq_of_ok hrows, htracks⟩
      · rintro r hr
        cases hr
        exact beginSync_since s.scheduler
    · cases hs
  | lose =>
    cases hs
    exact ⟨hagrees, nofun, nofun⟩
  | receive now =>
    obtain ⟨r, hr, rfl⟩ := Option.map_eq_some_iff.1 hs
    refine ⟨?_, nofun, nofun⟩
    rintro c hc j
    cases hc
    exact (hreply r hr).agrees hagrees (hsince r hr) now j
  | fail now done =>
    obtain ⟨r, hr, rfl⟩ := Option.map_eq_some_iff.1 hs
    exact ⟨nofun, nofun, nofun⟩
  | force =>
    cases hs
    exact ⟨hagrees, hreply, hsince⟩
  | restart =>
    cases hs
    exact ⟨nofun, nofun, nofun⟩

/-- **Delta syncs agree with full syncs** in every run whose deltas are all covered, from any
state of central and of the collector's database. -/
theorem agrees_of_run {central : CentralTables} {table : Dict String JobRow} {s : Site}
    (h : Run (Site.step sha256 auth collectorId) (Site.Tracks sha256 auth collectorId)
      { central, scheduler := loadFromDb table } s) : s.Agrees sha256 auth collectorId := by
  have hstart : Site.Inv sha256 auth collectorId { central, scheduler := loadFromDb table } :=
    ⟨nofun, nofun, nofun⟩
  refine agrees_iff.2 (h.invariant (I := Site.Inv sha256 auth collectorId) hstart ?_).agrees
  exact fun hinv htracks hs => hinv.step htracks hs

/-! ### An assignment that is disabled -/

/-- A collector with one assignment pinned to it. -/
def pinnedCentral (enabled : Bool) (updatedAt : Timestamp) (interval : ℤ) : CentralTables where
  db :=
    { collectors := [⟨"c1", "ACTIVE", none, some "w1"⟩]
      groups := []
      devices := [⟨"d1", none, true⟩]
      assignments := [⟨"a1", some "d1", some "c1", enabled⟩]
      updatedAt := fun _ => updatedAt
      assignments_nodup := by simp }
  job _ := { pingJob with interval }

/-- A full sync, an edit that is marked as later, and a delta sync. -/
theorem agrees_edited : ∃ s : Site, s.Agrees String.length .sharedSecret (some "c1") ∧
    s.synced.isSome ∧ s.scheduler.lastSync = some 70 := by
  have hreplay : ∃ s ∈ replay (Site.step String.length .sharedSecret (some "c1"))
      (Site.Tracks String.length .sharedSecret (some "c1"))
      { central := pinnedCentral true 0 60, scheduler := loadFromDb [] }
      [.ask, .receive 10, .change (pinnedCentral true 40 30), .ask, .receive 70],
      s.synced.isSome ∧ s.scheduler.lastSync = some 70 := by decide +kernel
  obtain ⟨s, hs, hsynced⟩ := hreplay
  exact ⟨s, agrees_of_run (run_of_replay hs), hsynced⟩

/-- **An assignment is disabled** between two syncs: the delta does not tell, and its job stays in
the dictionary. -/
theorem not_agrees_disabled : ¬∀ s,
    Run (Site.step String.length .sharedSecret (some "c1")) (fun _ _ => True)
      { central := pinnedCentral true 0 60, scheduler := loadFromDb [] } s →
    s.Agrees String.length .sharedSecret (some "c1") := by
  intro hall
  have hreplay : ∃ s ∈ replay (Site.step String.length .sharedSecret (some "c1"))
      (fun _ _ => True) { central := pinnedCentral true 0 60, scheduler := loadFromDb [] }
      [.ask, .receive 10, .change (pinnedCentral false 40 60), .ask, .receive 70],
      s.scheduler.myJobs.jobs.length = 1 ∧ ∃ c ∈ s.synced,
        (c.share String.length .sharedSecret (some "c1")).length = 0 := by decide +kernel
  obtain ⟨s, hs, hone, c, hc, hnone⟩ := hreplay
  obtain ⟨j, hj⟩ := exists_mem_of_length_pos (hone ▸ Nat.one_pos)
  have hmem := (agrees_iff.1 (hall s (run_of_replay hs)) c hc j).1 hj
  rw [List.length_eq_zero_iff.1 hnone] at hmem
  cases hmem

end MonCTL.Collector
