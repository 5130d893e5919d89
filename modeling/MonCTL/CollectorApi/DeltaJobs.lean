import MonCTL.CollectorApi.Ownership
import MonCTL.CollectorApi.SubmitResults

/-!
# Delta Responses, and the Right to Report

`GET /jobs` with `since` answers with the assignments that have changed after that time. They are
selected among all assignments, pinned or not, before these are partitioned: a delta response is
the part of the full one that has changed.

A collector may report on whatever it has been given. Whether it may is decided by other code,
which looks at the pin first: an assignment that is pinned to the caller is accepted whatever the
group of its device.
-/

namespace MonCTL.CollectorApi

open List

/-- The tables, with the column `updated_at` of assignments, of which the primary key is enforced. -/
structure Database extends Fleet where
  updatedAt : Uuid → Timestamp
  assignments_nodup : (toFleet.assignments.map AppAssignment.id).Nodup := by decide

namespace Database

def changedSince (s : Database) (since : Option Timestamp) (rows : List AppAssignment) :
    List AppAssignment :=
  rows.filter fun a => ∀ t ∈ since, t < s.updatedAt a.id

end Database

/-- The assignments for a caller that have changed after a time. -/
def selectRowsSince (sha256 : String → ℕ) (s : Database) (since : Option Timestamp)
    (collectorId : Option Uuid) : Except HttpError (List AppAssignment) :=
  let coll := collectorId.bind s.collector?
  let pinned := s.changedSince since ((collectorId.map (pinnedRows s.toFleet)).getD [])
  let groupId := coll.bind Collector.groupId
  let rows := s.changedSince since (unpinnedRows s.toFleet groupId)
  match coll, groupId with
  | some c, some g => (partitionRows sha256 s.toFleet g c.hostname rows).map (pinned ++ ·)
  | _, _ => .ok (pinned ++ rows)

/-- `get_jobs`. -/
def getJobsSince (sha256 : String → ℕ) (s : Database) (since : Option Timestamp) (auth : Auth)
    (collectorId : Option Uuid) : Except HttpError (List AppAssignment) := do
  requireActiveCollector s.toFleet auth
  let collectorId ← effectiveCollector auth collectorId
  selectRowsSince sha256 s since collectorId

variable {sha256 : String → ℕ} {s : Database}

/-! ### Delta responses -/

theorem partitionRows_filter (sha256 : String → ℕ) (s : Fleet) (g : Uuid) (host : Option String)
    (p : AppAssignment → Bool) (rows : List AppAssignment) :
    partitionRows sha256 s g host (rows.filter p) =
      (partitionRows sha256 s g host rows).map (List.filter p) := by
  rw [partitionRows, partitionRows]
  dsimp only
  split
  · split
    · split
      · rfl
      · split
        · rfl
        · rw [Except.map, filter_filter, filter_filter]
          refine congrArg _ (filter_congr fun a _ => ?_)
          rw [Bool.and_comm]
    · rfl
  · rfl

/-- **A delta response** is the part of the full response that has changed. -/
theorem getJobsSince_eq (sha256 : String → ℕ) (s : Database) (since : Option Timestamp)
    (auth : Auth)
    (collectorId : Option Uuid) : getJobsSince sha256 s since auth collectorId =
      (getJobs sha256 s.toFleet auth collectorId).map (s.changedSince since) := by
  rw [getJobsSince, getJobs]
  cases requireActiveCollector s.toFleet auth with
  | error e => rfl
  | ok _ =>
    cases effectiveCollector auth collectorId with
    | error e => rfl
    | ok collectorId =>
      change selectRowsSince sha256 s since collectorId =
        (selectRows sha256 s.toFleet collectorId).map _
      have happend (rows rows' : List AppAssignment) :
          s.changedSince since rows ++ s.changedSince since rows' =
            s.changedSince since (rows ++ rows') := by
        rw [Database.changedSince, Database.changedSince, Database.changedSince, filter_append]
      rw [selectRowsSince, selectRows]
      cases collectorId.bind s.collector? with
      | none => exact congrArg Except.ok (happend _ _)
      | some c =>
        cases hg : c.groupId with
        | none =>
          simp only [Option.bind_some, hg]
          exact congrArg Except.ok (happend _ _)
        | some g =>
          simp only [Option.bind_some, hg]
          rw [Database.changedSince, Database.changedSince, partitionRows_filter]
          cases partitionRows sha256 s.toFleet g c.hostname (unpinnedRows s.toFleet (some g)) with
          | error e => rfl
          | ok rows => exact congrArg Except.ok (happend _ _)

/-! ### What is given -/

variable {c : Collector} {a : AppAssignment}

theorem mem_of_getJobs {s : Fleet} (hc : c ∈ s.collectors) {auth : Auth}
    {collectorId : Option Uuid} (hcaller : effectiveCollector auth collectorId = .ok (some c.id))
    {rows : List AppAssignment} (h : getJobs sha256 s auth collectorId = .ok rows)
    (ha : a ∈ rows) : a ∈ pinnedRows s c.id ∨ a ∈ unpinnedRows s c.groupId := by
  rw [getJobs] at h
  obtain ⟨_, -, h⟩ := StateExcept.bind_eq_ok.1 h
  obtain ⟨collectorId', hcaller', h⟩ := StateExcept.bind_eq_ok.1 h
  rw [hcaller] at hcaller'
  cases hcaller'
  simp only [selectRows, Option.bind_some, Fleet.collector?_eq_some hc, Option.map_some,
    Option.getD_some] at h
  cases hg : c.groupId with
  | none =>
    simp only [hg] at h
    cases h
    exact List.mem_append.1 ha
  | some g =>
    simp only [hg] at h
    cases hrows : partitionRows sha256 s g c.hostname (unpinnedRows s (some g)) with
    | error e =>
      rw [hrows] at h
      cases h
    | ok rows' =>
      rw [hrows] at h
      cases h
      exact (List.mem_append.1 ha).imp_right (mem_of_partitionRows_eq_ok hrows)

theorem find?_assignment (ha : a ∈ s.assignments) :
    s.assignments.find? (·.id = a.id) = some a := by
  have hsome : (s.assignments.find? (·.id = a.id)).isSome := by
    rw [find?_isSome]
    exact ⟨a, ha, by simp⟩
  obtain ⟨a', ha'⟩ := Option.isSome_iff_exists.1 hsome
  have hid : a'.id = a.id := by simpa using find?_some ha'
  rw [ha', inj_on_of_nodup_map s.assignments_nodup (mem_of_find?_eq_some ha') ha hid]

theorem accepted_of_pinned
    (ha : a ∈ pinnedRows s.toFleet c.id) : callerOwnsAssignment s.toFleet c a.id = true := by
  rw [pinnedRows, mem_filter, decide_eq_true_eq] at ha
  rw [callerOwnsAssignment, find?_assignment ha.1]
  simp [ha.2.1]

theorem accepted_of_unpinned
    (ha : a ∈ unpinnedRows s.toFleet c.groupId) :
    callerOwnsAssignment s.toFleet c a.id = true := by
  rw [unpinnedRows, mem_filter, decide_eq_true_eq] at ha
  obtain ⟨hmem, hpin, hpollable, hgroup⟩ := ha
  rw [callerOwnsAssignment, find?_assignment hmem]
  simp only [hpin]
  cases hdevice : a.deviceId with
  | none => rfl
  | some id =>
    rw [Fleet.isPollable, Bool.and_eq_true, hdevice] at hpollable
    cases hd : s.device? a with
    | none => simp [hd] at hpollable
    | some d =>
      simp only [hd, Option.bind_some] at hgroup
      simp only
      split
      next g g' hg hg' => simpa [hg'] using hgroup g hg
      · rfl

/-- **The right to report agrees with the distribution of jobs.** Whatever a collector is given,
in a full response or in a delta, is accepted from it. What is not pinned to it and is of a device
in another group is not. -/
theorem accepted_of_given {c : Collector} (hc : c ∈ s.collectors) :
    (∀ sha256 since auth collectorId rows, effectiveCollector auth collectorId = .ok (some c.id) →
        getJobsSince sha256 s since auth collectorId = .ok rows →
          ∀ a ∈ rows, callerOwnsAssignment s.toFleet c a.id = true) ∧
    (∀ a ∈ s.assignments, a.collectorId ≠ some c.id →
      ∀ d g g', s.device? a = some d → d.collectorGroupId = some g → c.groupId = some g' → g ≠ g' →
        callerOwnsAssignment s.toFleet c a.id = false) := by
  constructor
  · intro sha256 since auth collectorId rows hcaller h a ha
    rw [getJobsSince_eq] at h
    cases hrows : getJobs sha256 s.toFleet auth collectorId with
    | error e =>
      rw [hrows] at h
      cases h
    | ok rows' =>
      rw [hrows] at h
      cases h
      rcases mem_of_getJobs hc hcaller hrows (mem_of_mem_filter ha) with ha | ha
      · exact accepted_of_pinned ha
      · exact accepted_of_unpinned ha
  · intro a ha hpin d g g' hd hg hg' hne
    rw [callerOwnsAssignment, find?_assignment ha]
    cases hcollector : a.collectorId with
    | some id => simpa [hcollector] using hpin
    | none =>
      cases hdevice : a.deviceId with
      | none =>
        rw [Fleet.device?, hdevice] at hd
        cases hd
      | some id => simp [hcollector, hdevice, hd, hg, hg', hne]

/-! ### Pins across groups -/

/-- Two groups, and an assignment of a device in the second one. -/
def twoGroups (pin : Option Uuid) : Database where
  collectors := [⟨"c1", "ACTIVE", some "g1", some "w1"⟩]
  groups := [⟨"g1", none⟩, ⟨"g2", none⟩]
  devices := [⟨"d1", some "g1", true⟩, ⟨"d2", some "g2", true⟩]
  assignments := [⟨"a1", some "d1", none, true⟩, ⟨"a2", some "d2", pin, true⟩]
  updatedAt _ := 0
  assignments_nodup := by simp

theorem accepted_twoGroups :
    callerOwnsAssignment (twoGroups none).toFleet ⟨"c1", "ACTIVE", some "g1", some "w1"⟩ "a1" =
        true ∧
      callerOwnsAssignment (twoGroups none).toFleet ⟨"c1", "ACTIVE", some "g1", some "w1"⟩ "a2" =
        false := by
  have haccepted := accepted_of_given (s := twoGroups none)
    (c := ⟨"c1", "ACTIVE", some "g1", some "w1"⟩) (by decide)
  refine ⟨?_, ?_⟩
  · exact haccepted.1 String.length none .sharedSecret (some "c1")
      [⟨"a1", some "d1", none, true⟩] rfl (by decide +kernel) ⟨"a1", some "d1", none, true⟩
      mem_cons_self
  · exact haccepted.2 ⟨"a2", some "d2", none, true⟩ (by decide) (by decide)
      ⟨"d2", some "g2", true⟩ "g2" "g1" (by decide) rfl rfl (by decide)

/-- **A pin across groups**: the device is in another group, and the assignment is accepted from
the collector that it is pinned to, which is given it. -/
theorem accepted_foreign : ¬∀ (s : Database) (c : Collector), c ∈ s.collectors →
    ∀ a ∈ s.assignments, ∀ d g g', s.device? a = some d → d.collectorGroupId = some g →
      c.groupId = some g' → g ≠ g' → callerOwnsAssignment s.toFleet c a.id = false := by
  intro hall
  have hfalse := hall (twoGroups (some "c1")) ⟨"c1", "ACTIVE", some "g1", some "w1"⟩ (by decide)
    ⟨"a2", some "d2", some "c1", true⟩ (by decide)
    ⟨"d2", some "g2", true⟩ "g2" "g1" (by decide) rfl rfl (by decide)
  exact absurd hfalse (by decide)

end MonCTL.CollectorApi
