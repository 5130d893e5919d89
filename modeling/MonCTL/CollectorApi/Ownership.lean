import Mathlib.Data.List.Dedup
import MonCTL.CollectorApi.Jobs

/-!
# Who Owns an Assignment

All callers of a group compute the ring from the same rows of the database, so they agree
on the host an assignment belongs to. When the active hosts of each group have names of
their own, that host is one collector, and an assignment that is pinned to none goes to
exactly one collector of its device's group.

A collector without a group is not partitioned and gets every assignment that is pinned to
none, and assignments of disabled devices go to no one.
-/

namespace MonCTL.CollectorApi

open List

/-- The response a collector gets with its own key. -/
def jobsOf (sha256 : String → ℕ) (s : Fleet) (c : Collector) :
    Except HttpError (List AppAssignment) :=
  getJobs sha256 s (.collectorApiKey c.id) none

def Receives (sha256 : String → ℕ) (s : Fleet) (c : Collector) (a : AppAssignment) : Prop :=
  ∃ rows, jobsOf sha256 s c = .ok rows ∧ a ∈ rows

/-- The active collectors of a group have hostnames, and different ones. -/
def Fleet.DistinctHostnames (s : Fleet) (g : Uuid) : Prop :=
  ∀ c ∈ s.groupCollectors g, c.hostname ≠ none ∧
    ∀ c' ∈ s.groupCollectors g, c'.hostname = c.hostname → c' = c
  deriving Decidable

variable {s : Fleet} {g : Uuid} {c : Collector}

theorem Fleet.mem_groupCollectors :
    c ∈ s.groupCollectors g ↔ c ∈ s.collectors ∧ c.groupId = some g ∧ c.isActive = true := by
  rw [groupCollectors, mem_filter, decide_eq_true_eq]

/-! ### One group -/

theorem exists_namedWeights {weights : Dict (Option String) ℚ}
    (h : ∀ host ∈ weights.keys, host ≠ none) :
    ∃ named, namedWeights weights = some named ∧ named.keys.map some = weights.keys := by
  induction weights with
  | nil => exact ⟨[], rfl, rfl⟩
  | cons e weights ih =>
    obtain ⟨host, w⟩ := e
    rw [Dict.keys, map_cons, forall_mem_cons] at h
    obtain ⟨name, rfl⟩ := Option.ne_none_iff_exists'.1 h.1
    obtain ⟨named, hnamed, hkeys⟩ := ih h.2
    refine ⟨(name, w) :: named, ?_, ?_⟩
    · rw [namedWeights] at hnamed ⊢
      simp [mapM_cons, hnamed]
    · simpa [Dict.keys] using hkeys

theorem mem_groupWeights_keys {snapshot : Option (Dict String ℚ)} {hosts : List (Option String)}
    {h : Option String} : h ∈ (groupWeights snapshot hosts).keys ↔ h ∈ hosts := by
  have hequal : h ∈ Dict.keys (hosts.dedup.map fun h => (h, (1 : ℚ))) ↔ h ∈ hosts := by
    simp [Dict.keys, Function.comp_def, mem_dedup]
  unfold groupWeights
  split
  next weights =>
    split
    next hmatch =>
      simp only [matchesTopology, decide_eq_true_eq] at hmatch
      obtain ⟨-, hsub, hsup⟩ := hmatch
      simp only [Dict.keys, map_map] at hsub hsup ⊢
      constructor
      · intro hmem
        obtain ⟨e, he, rfl⟩ := List.mem_map.1 hmem
        exact hsub e.1 (mem_map_of_mem he)
      · intro hmem
        obtain ⟨k, hk, rfl⟩ := hsup h hmem
        obtain ⟨e, he, rfl⟩ := List.mem_map.1 hk
        exact List.mem_map.2 ⟨e, he, rfl⟩
    · exact hequal
  · exact hequal

/-- **The partitioning of a group** gives every row to one collector of the group. -/
theorem exists_owner (hhosts : s.DistinctHostnames g)
    (hactive : s.groupCollectors g ≠ []) (sha256 : String → ℕ) (rows : List AppAssignment) :
    ∃ owner : AppAssignment → Collector, (∀ a, owner a ∈ s.groupCollectors g) ∧
      ∀ c ∈ s.groupCollectors g, ∃ rows', partitionRows sha256 s g c.hostname rows = .ok rows' ∧
        ∀ a, a ∈ rows' ↔ a ∈ rows ∧ owner a = c := by
  have hnamed : ∀ c ∈ s.groupCollectors g, c.hostname ≠ none := fun c hc => (hhosts c hc).1
  have hinj : ∀ c ∈ s.groupCollectors g, ∀ c' ∈ s.groupCollectors g,
      c'.hostname = c.hostname → c' = c := fun c hc => (hhosts c hc).2
  by_cases hlen : (s.groupCollectors g).length > 1
  · -- the ring decides
    have hnodup : ((s.groupCollectors g).map Collector.hostname).Nodup :=
      List.Nodup.map_on (fun c hc c' hc' h => hinj c' hc' c hc h)
        (List.Nodup.filter _ (List.Nodup.of_map _ s.collectors_nodup))
    have hweights : ∀ h, h ∈ (groupWeights ((s.group? g).bind CollectorGroup.weightSnapshot)
        ((s.groupCollectors g).map Collector.hostname)).keys ↔
        h ∈ (s.groupCollectors g).map Collector.hostname := fun h => mem_groupWeights_keys
    generalize hw : groupWeights ((s.group? g).bind CollectorGroup.weightSnapshot)
      ((s.groupCollectors g).map Collector.hostname) = weights at hweights
    have hmany : ¬weights.length ≤ 1 := by
      have hsub := (subperm_of_subset hnodup fun h hh => (hweights h).2 hh).length_le
      simp only [length_map, Dict.keys] at hsub
      omega
    have hsome : ∀ host ∈ weights.keys, host ≠ none := fun h hh => by
      obtain ⟨c, hc, rfl⟩ := List.mem_map.1 ((hweights h).1 hh)
      exact hnamed c hc
    obtain ⟨named, hnamedWeights, hkeys⟩ := exists_namedWeights hsome
    have hne : named ≠ [] := by
      rintro rfl
      have hnil : weights.keys = [] := hkeys.symm
      simp [Dict.keys] at hnil
      simp [hnil] at hmany
    let host := fun a : AppAssignment =>
      lookupWeightedOwner sha256 a.id (buildWeightedRing sha256 named)
    have howner : ∀ a, ∃ c, c ∈ s.groupCollectors g ∧ c.hostname = some (host a) := fun a => by
      have hmem : some (host a) ∈ weights.keys :=
        hkeys ▸ mem_map_of_mem (lookupWeightedOwner_mem hne a.id)
      exact List.mem_map.1 ((hweights _).1 hmem)
    choose owner howner hhost using howner
    refine ⟨owner, howner, fun c hc => ⟨rows.filter fun a => some (host a) = c.hostname, ?_,
      fun a => ?_⟩⟩
    · have hmine : c.hostname ∈ weights.keys := (hweights _).2 (mem_map_of_mem hc)
      simp only [partitionRows, hlen, if_true, hw, hmine, hmany, if_false, hnamedWeights]
      rfl
    · rw [mem_filter, decide_eq_true_eq, ← hhost]
      exact and_congr_right fun _ => ⟨hinj c hc (owner a) (howner a), fun h => h ▸ rfl⟩
  · -- a single collector gets everything
    obtain ⟨c₀, hc₀⟩ := exists_mem_of_ne_nil _ hactive
    have honly : ∀ c ∈ s.groupCollectors g, c₀ = c := by
      obtain ⟨d, hd⟩ := List.length_eq_one_iff.1
        (Nat.le_antisymm (not_lt.1 hlen) (length_pos_of_mem hc₀))
      intro c hc
      rw [hd, mem_singleton] at hc hc₀
      rw [hc, hc₀]
    refine ⟨fun _ => c₀, fun _ => hc₀, fun c hc => ⟨rows, ?_, fun a => ?_⟩⟩
    · simp only [partitionRows, hlen, if_false]
    · simp [honly c hc]

/-! ### Responses -/

/-- An active collector gets the same response whichever way it asks: with its own key, with
or without its id in the query, or with the shared secret and its id. -/
theorem getJobs_eq_selectRows (hc : c ∈ s.collectors)
    (hactive : c.isActive = true) (sha256 : String → ℕ) :
    getJobs sha256 s (.collectorApiKey c.id) none = selectRows sha256 s (some c.id) ∧
      getJobs sha256 s (.collectorApiKey c.id) (some c.id) = selectRows sha256 s (some c.id) ∧
      getJobs sha256 s .sharedSecret (some c.id) = selectRows sha256 s (some c.id) := by
  have hrequire : requireActiveCollector s (.collectorApiKey c.id) = .ok () := by
    rw [requireActiveCollector, Fleet.collector?_eq_some hc]
    simp [hactive]
  simp only [getJobs, hrequire, effectiveCollector, if_true]
  exact ⟨rfl, rfl, rfl⟩

theorem jobsOf_of_group (hc : c ∈ s.collectors)
    (hactive : c.isActive = true) (hg : c.groupId = some g) (sha256 : String → ℕ) :
    jobsOf sha256 s c = (partitionRows sha256 s g c.hostname (unpinnedRows s (some g))).map
      (pinnedRows s c.id ++ ·) := by
  rw [jobsOf, (getJobs_eq_selectRows hc hactive sha256).1]
  simp only [selectRows, Option.bind_some, Fleet.collector?_eq_some hc, hg, Option.map_some,
    Option.getD_some]

theorem jobsOf_of_no_group (hc : c ∈ s.collectors)
    (hactive : c.isActive = true) (hg : c.groupId = none) (sha256 : String → ℕ) :
    jobsOf sha256 s c = .ok (pinnedRows s c.id ++ unpinnedRows s none) := by
  rw [jobsOf, (getJobs_eq_selectRows hc hactive sha256).1]
  simp only [selectRows, Option.bind_some, Fleet.collector?_eq_some hc, hg, Option.map_some,
    Option.getD_some]

variable {sha256 : String → ℕ} {a : AppAssignment}

theorem mem_of_partitionRows_eq_ok {host : Option String} {rows rows' : List AppAssignment}
    (h : partitionRows sha256 s g host rows = .ok rows') (ha : a ∈ rows') :
    a ∈ rows := by
  simp only [partitionRows] at h
  split at h
  · split at h
    · split at h
      · exact Except.ok.inj h ▸ ha
      · split at h
        · cases h
        · exact mem_of_mem_filter (Except.ok.inj h ▸ ha)
    · exact Except.ok.inj h ▸ ha
  · exact Except.ok.inj h ▸ ha

/-- What an active collector gets is pinned to it, or pinned to none and, when the collector
has a group, of a device of the group. -/
theorem mem_rows_of_receives
    (hc : c ∈ s.collectors) (hactive : c.isActive = true)
    (h : Receives sha256 s c a) : a ∈ pinnedRows s c.id ∨ a ∈ unpinnedRows s c.groupId := by
  obtain ⟨rows, hrows, ha⟩ := h
  cases hg : c.groupId with
  | none =>
    rw [jobsOf_of_no_group hc hactive hg, Except.ok.injEq] at hrows
    exact List.mem_append.1 (hrows ▸ ha)
  | some g =>
    rw [jobsOf_of_group hc hactive hg] at hrows
    cases hpart : partitionRows sha256 s g c.hostname (unpinnedRows s (some g)) with
    | error e => rw [hpart] at hrows; cases hrows
    | ok rows' =>
      rw [hpart] at hrows
      rw [← Except.ok.inj hrows] at ha
      exact (List.mem_append.1 ha).imp_right (mem_of_partitionRows_eq_ok hpart)

theorem eq_of_receives_pinned
    (hc : c ∈ s.collectors) (hactive : c.isActive = true)
    (h : Receives sha256 s c a) {p : Uuid} (hp : a.collectorId = some p) : c.id = p := by
  rcases mem_rows_of_receives hc hactive h with ha | ha
  · simp only [pinnedRows, mem_filter, decide_eq_true_eq] at ha
    exact Option.some.inj (ha.2.1.symm.trans hp)
  · simp only [unpinnedRows, mem_filter, decide_eq_true_eq] at ha
    rw [hp] at ha
    cases ha.2.1

theorem mem_unpinnedRows (ha : a ∈ s.assignments)
    (hunpinned : a.collectorId = none) (henabled : a.enabled = true) {d : Device}
    (hd : s.device? a = some d) (hdevice : d.isEnabled = true)
    (hg : d.collectorGroupId = some g) {groupId : Option Uuid} :
    a ∈ unpinnedRows s groupId ↔ ∀ g' ∈ groupId, g = g' := by
  have hpollable : s.isPollable a = true := by simp [Fleet.isPollable, henabled, hd, hdevice]
  simp [unpinnedRows, ha, hunpinned, hpollable, hd, hg]

/-- Within the group of its device, one collector gets an assignment that is pinned to
none. -/
theorem existsUnique_receives (sha256 : String → ℕ)
    (hhosts : s.DistinctHostnames g) (hactive : s.groupCollectors g ≠ [])
    (hunpinned : a.collectorId = none) (hrow : a ∈ unpinnedRows s (some g)) :
    ∃! c, c ∈ s.groupCollectors g ∧ Receives sha256 s c a := by
  obtain ⟨owner, howner, hpartition⟩ := exists_owner hhosts hactive sha256 (unpinnedRows s (some g))
  have hnotpinned : ∀ id, a ∉ pinnedRows s id := by
    intro id
    simp [pinnedRows, hunpinned]
  have hreceives : ∀ c ∈ s.groupCollectors g, Receives sha256 s c a ↔ owner a = c := by
    intro c hc
    obtain ⟨rows, hrows, hmem⟩ := hpartition c hc
    obtain ⟨hc, hg, hactive⟩ := Fleet.mem_groupCollectors.1 hc
    rw [Receives, jobsOf_of_group hc hactive hg, hrows]
    simp only [Except.map, Except.ok.injEq, exists_eq_left', mem_append, hnotpinned,
      false_or, hmem, hrow, true_and]
  exact ⟨owner a, ⟨howner a, (hreceives _ (howner a)).2 rfl⟩,
    fun c hc => ((hreceives c hc.1).1 hc.2).symm⟩

/-- **Who gets an assignment.** An enabled assignment that is pinned to none and whose device
is enabled and in a group with an active collector goes to exactly one active collector of
that group when the hostnames of these are distinct, to every active collector without a
group, and to no collector of another group. A pinned assignment goes at most to the
collector it is pinned to. -/
theorem jobs_ownership (sha256 : String → ℕ) {s : Fleet} {a : AppAssignment}
    (ha : a ∈ s.assignments) (henabled : a.enabled = true) :
    (∀ p, a.collectorId = some p → ∀ c ∈ s.collectors, c.isActive = true →
      Receives sha256 s c a → c.id = p) ∧
    (a.collectorId = none → ∀ d g, s.device? a = some d → d.isEnabled = true →
      d.collectorGroupId = some g → s.groupCollectors g ≠ [] →
      (s.DistinctHostnames g → ∃! c, c ∈ s.groupCollectors g ∧ Receives sha256 s c a) ∧
      (∀ c ∈ s.collectors, c.isActive = true → c.groupId = none → Receives sha256 s c a) ∧
      ∀ c ∈ s.collectors, c.isActive = true → c.groupId ≠ none → c.groupId ≠ some g →
        ¬Receives sha256 s c a) := by
  refine ⟨fun p hp c hc hactive h => eq_of_receives_pinned hc hactive h hp, ?_⟩
  intro hunpinned d g hd hdevice hgroup hcollectors
  have hrow : ∀ groupId, a ∈ unpinnedRows s groupId ↔ ∀ g' ∈ groupId, g = g' := fun _ =>
    mem_unpinnedRows ha hunpinned henabled hd hdevice hgroup
  refine ⟨fun hhosts => existsUnique_receives sha256 hhosts hcollectors hunpinned
    ((hrow (some g)).2 (by simp)), fun c hc hactive hg => ?_, fun c hc hactive hne hg h => ?_⟩
  · exact ⟨_, jobsOf_of_no_group hc hactive hg sha256,
      mem_append_right _ ((hrow none).2 (by simp))⟩
  · rcases mem_rows_of_receives hc hactive h with h | h
    · simp [pinnedRows, hunpinned] at h
    · obtain ⟨g', hg'⟩ := Option.ne_none_iff_exists'.1 hne
      rw [hg'] at h hg
      exact hg (congrArg some ((hrow _).1 h g' rfl).symm)

/-- Two collectors of one group, a third one without a group, and assignments of an enabled
and of a disabled device of the group. -/
def twoHosts : Fleet where
  collectors :=
    [⟨"c1", "ACTIVE", some "g", some "w1"⟩, ⟨"c2", "ACTIVE", some "g", some "w2"⟩,
      ⟨"c3", "ACTIVE", none, some "w3"⟩]
  groups := [⟨"g", some [("w1", 1), ("w2", 1 / 2)]⟩]
  devices := [⟨"d1", some "g", true⟩, ⟨"d2", some "g", false⟩]
  assignments := [⟨"a1", some "d1", none, true⟩, ⟨"a2", some "d2", none, true⟩]

def enabledDeviceAssignment : AppAssignment := ⟨"a1", some "d1", none, true⟩

def disabledDeviceAssignment : AppAssignment := ⟨"a2", some "d2", none, true⟩

theorem jobs_ownership_twoHosts : ∃! c, c ∈ twoHosts.groupCollectors "g" ∧
      Receives String.length twoHosts c enabledDeviceAssignment :=
  ((jobs_ownership String.length (s := twoHosts) (a := enabledDeviceAssignment) (by decide) rfl).2
    rfl ⟨"d1", some "g", true⟩ "g" (by decide) rfl rfl (by decide)).1 (by decide)

/-- Among all active collectors exactly one gets each enabled assignment that is pinned to
none and whose device is in a group with an active collector. -/
def ExactlyOneOwner (sha256 : String → ℕ) (s : Fleet) : Prop :=
  ∀ a ∈ s.assignments, a.enabled = true → a.collectorId = none →
    ∀ d g, s.device? a = some d → d.collectorGroupId = some g → s.groupCollectors g ≠ [] →
      ∃! c, (c ∈ s.collectors ∧ c.isActive = true) ∧ Receives sha256 s c a

/-- No one gets the assignment of a disabled device, and a collector without a group gets
what a collector of the group gets. -/
theorem not_exactlyOneOwner_twoHosts : ¬ExactlyOneOwner String.length twoHosts ∧
      (∀ c ∈ twoHosts.collectors, ¬Receives String.length twoHosts c disabledDeviceAssignment) ∧
      ∃ c ∈ twoHosts.collectors, ∃ c' ∈ twoHosts.collectors, c ≠ c' ∧
        Receives String.length twoHosts c enabledDeviceAssignment ∧
        Receives String.length twoHosts c' enabledDeviceAssignment := by
  have hnone : ∀ c ∈ twoHosts.collectors,
      ¬Receives String.length twoHosts c disabledDeviceAssignment := by
    have hrow : ∀ c ∈ twoHosts.collectors, c.isActive = true ∧
        disabledDeviceAssignment ∉ pinnedRows twoHosts c.id ∧
        disabledDeviceAssignment ∉ unpinnedRows twoHosts c.groupId := by decide
    intro c hc h
    obtain ⟨hactive, hpinned, hunpinned⟩ := hrow c hc
    exact (mem_rows_of_receives hc hactive h).elim hpinned hunpinned
  refine ⟨fun h => ?_, hnone, ?_⟩
  · obtain ⟨c, ⟨hc, hreceives⟩, -⟩ := h disabledDeviceAssignment (by decide) rfl rfl
      ⟨"d2", some "g", false⟩ "g" (by decide) rfl (by decide)
    exact hnone c hc.1 hreceives
  · obtain ⟨c, ⟨hc, hreceives⟩, -⟩ := existsUnique_receives String.length (s := twoHosts)
      (g := "g") (by decide) (by decide) (a := enabledDeviceAssignment) rfl (by decide)
    obtain ⟨hc, hg, -⟩ := Fleet.mem_groupCollectors.1 hc
    refine ⟨c, hc, ⟨"c3", "ACTIVE", none, some "w3"⟩, by decide, ?_, hreceives, ?_⟩
    · rintro rfl
      cases hg
    · exact ⟨_, jobsOf_of_no_group (by decide) (by decide) rfl _, by decide⟩

end MonCTL.CollectorApi
