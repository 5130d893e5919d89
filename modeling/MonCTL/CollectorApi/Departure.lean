import MonCTL.CollectorApi.Ownership

/-!
# When a Collector Leaves

A collector that leaves its group takes its points out of the ring and leaves those of the others
where they are, if the largest weight stays the same. So the collectors that stay keep what they
have, and only what the one that has left had is given away. Without a snapshot all weights are
equal.
-/

namespace MonCTL.CollectorApi

open List

variable {sha256 : String → ℕ} {weights : Dict String ℚ} {host : String}

/-- Without a host the ring has the points of the others, if the largest weight is the same. -/
theorem ringPoints_filter (base : ℕ)
    (hmax : maxWeight (weights.filter fun e => e.1 ≠ host) = maxWeight weights) :
    ringPoints sha256 base (weights.filter fun e => e.1 ≠ host) =
      (ringPoints sha256 base weights).filter fun p => p.2 ≠ host := by
  rw [ringPoints, ringPoints, hmax, ← HashRing.filter_mergeSort String.le_trans String.le_total]
  induction weights.mergeSort fun e e' => e.1 ≤ e'.1 with
  | nil => rfl
  | cons e rest ih =>
    rw [flatMap_cons, filter_append, ← ih, filter_cons]
    by_cases he : e.1 = host
    · simp [he]
    · simp [he, filter_map, Function.comp_def]

/-- **Only the assignments of a host change hands** when it leaves the ring. -/
theorem lookupWeightedOwner_filter {assignmentId : Uuid}
    (hmax : maxWeight (weights.filter fun e => e.1 ≠ host) = maxWeight weights)
    (hne : lookupWeightedOwner sha256 assignmentId (buildWeightedRing sha256 weights) ≠ host) :
    lookupWeightedOwner sha256 assignmentId
        (buildWeightedRing sha256 (weights.filter fun e => e.1 ≠ host)) =
      lookupWeightedOwner sha256 assignmentId (buildWeightedRing sha256 weights) := by
  have hring : buildWeightedRing sha256 (weights.filter fun e => e.1 ≠ host) =
      (buildWeightedRing sha256 weights).filter fun p => p.2 ≠ host := by
    rw [buildWeightedRing, ringPoints_filter 100 hmax, ← HashRing.filter_ofPoints]
    rfl
  by_cases hnil : buildWeightedRing sha256 weights = []
  · rw [hring, hnil, filter_nil]
  · obtain ⟨owner, howner⟩ := HashRing.owner_eq_some_of_ne_nil hnil (sha256 assignmentId)
    rw [lookupWeightedOwner, howner, Option.getD_some] at hne
    have hkept : HashRing.owner ((buildWeightedRing sha256 weights).filter fun p => p.2 ≠ host)
        (sha256 assignmentId) = some owner :=
      HashRing.owner_filter howner fun p _ hp => decide_eq_true (hp ▸ hne)
    rw [hring, lookupWeightedOwner, hkept, lookupWeightedOwner, howner]

/-- Hosts of equal weight. -/
def equalWeights (hosts : List String) : Dict String ℚ := hosts.map fun h => (h, 1)

theorem maxWeight_equalWeights (hosts : List String) : maxWeight (equalWeights hosts) = 1 := by
  cases hosts with
  | nil => rfl
  | cons h hosts =>
    have hones : (equalWeights (h :: hosts)).map Prod.snd = replicate (hosts.length + 1) 1 := by
      rw [equalWeights, map_map, eq_replicate_iff]
      simp
    rw [maxWeight, hones, max?_replicate_of_pos (Nat.succ_pos _)]
    rfl

variable {s s' : Fleet} {g : Uuid} {rows : List AppAssignment}

theorem partitionRows_of_no_snapshot
    (hnone : (s.group? g).bind CollectorGroup.weightSnapshot = none)
    {hosts : List String} (hhosts : (s.groupCollectors g).map Collector.hostname = hosts.map some)
    (hnodup : hosts.Nodup) (hmine : host ∈ hosts) :
    partitionRows sha256 s g (some host) rows = .ok (rows.filter fun a => hosts.length ≤ 1 ∨
      lookupWeightedOwner sha256 a.id (buildWeightedRing sha256 (equalWeights hosts)) = host) := by
  have hlen : (s.groupCollectors g).length = hosts.length := by
    simpa using congrArg length hhosts
  have hweights : groupWeights ((s.group? g).bind CollectorGroup.weightSnapshot)
      ((s.groupCollectors g).map Collector.hostname) = hosts.map fun h => (some h, 1) := by
    rw [hnone, hhosts, groupWeights, dedup_eq_self.2 (hnodup.map (Option.some_injective _)),
      map_map]
    rfl
  have hnamed : namedWeights (hosts.map fun h => (some h, 1)) = some (equalWeights hosts) := by
    clear * -
    induction hosts with
    | nil => rfl
    | cons h hosts ih =>
      rw [namedWeights] at ih ⊢
      rw [map_cons, mapM_cons, ih]
      rfl
  have hkey : some host ∈ Dict.keys (hosts.map fun h => (some h, (1 : ℚ))) := by
    rw [Dict.keys, map_map]
    exact mem_map_of_mem hmine
  rw [partitionRows]
  simp only [hlen, hweights, hkey, if_true, length_map, hnamed, Option.some.injEq]
  by_cases hone : hosts.length ≤ 1
  · simp [hone]
  · simp [hone, Nat.lt_of_not_le hone]

theorem map_hostname {collectors : List Collector} (h : ∀ c ∈ collectors, c.hostname ≠ none) :
    collectors.map Collector.hostname = (collectors.filterMap Collector.hostname).map some := by
  induction collectors with
  | nil => rfl
  | cons c collectors ih =>
    obtain ⟨hname, hrest⟩ := forall_mem_cons.1 h
    obtain ⟨name, hname⟩ := Option.ne_none_iff_exists'.1 hname
    rw [map_cons, filterMap_cons_some hname, map_cons, ih hrest, hname]

/-- **When a collector leaves, nothing moves between the others**: in a group whose collectors have
names of their own and no snapshot of weights, each of them keeps what it has had. -/
theorem receives_of_leave {c : Collector} {a : AppAssignment} (gone : Collector)
    (hsame : s' = { s with
      collectors := s'.collectors, collectors_nodup := s'.collectors_nodup })
    (hleft : s'.groupCollectors g = (s.groupCollectors g).filter (· ≠ gone))
    (hnone : (s.group? g).bind CollectorGroup.weightSnapshot = none)
    (hhosts : s.DistinctHostnames g) (hgone : gone ∈ s.groupCollectors g)
    (hc : c ∈ s'.groupCollectors g) (h : Receives sha256 s c a) : Receives sha256 s' c a := by
  have hmem : c ∈ s.groupCollectors g ∧ c ≠ gone := by simpa [hleft] using hc
  obtain ⟨hc₁, hg, hactive⟩ := Fleet.mem_groupCollectors.1 hmem.1
  obtain ⟨hc₂, -, -⟩ := Fleet.mem_groupCollectors.1 hc
  obtain ⟨host, hhost⟩ := Option.ne_none_iff_exists'.1 (hhosts c hmem.1).1
  obtain ⟨left, hleftName⟩ := Option.ne_none_iff_exists'.1 (hhosts gone hgone).1
  set cs := s.groupCollectors g with hcs
  set hosts := cs.filterMap Collector.hostname with hhostsDef
  have hnames : cs.map Collector.hostname = hosts.map some :=
    map_hostname fun c hc => (hhosts c hc).1
  have hnodup : hosts.Nodup := by
    refine List.Nodup.of_map some (hnames ▸ List.Nodup.map_on ?_ ?_)
    · exact fun c hc c' hc' heq => (hhosts c' hc').2 c hc heq
    · exact List.Nodup.filter _ (List.Nodup.of_map _ s.collectors_nodup)
  have hstay : (s'.groupCollectors g).filterMap Collector.hostname = hosts.filter (· ≠ left) := by
    rw [hleft, hhostsDef, filter_filterMap, filterMap_filter]
    refine filterMap_congr fun c hc => ?_
    obtain ⟨name, hname⟩ := Option.ne_none_iff_exists'.1 (hhosts c hc).1
    have hiff : c ≠ gone ↔ name ≠ left := not_congr
      ⟨fun heq => Option.some.inj (by rw [← hname, heq, hleftName]),
        fun heq => (hhosts gone hgone).2 c hc (by rw [hname, heq, hleftName])⟩
    simp only [hname, hiff, Option.filter_some]
  have hmine : host ∈ hosts := mem_filterMap.2 ⟨c, hmem.1, hhost⟩
  have hother : host ≠ left := fun heq =>
    hmem.2 ((hhosts gone hgone).2 c hmem.1 (by rw [hhost, heq, hleftName]))
  have hnames' : (s'.groupCollectors g).map Collector.hostname =
      (hosts.filter (· ≠ left)).map some := by
    rw [map_hostname fun c hc => (hhosts c (mem_of_mem_filter (hleft ▸ hc))).1, hstay]
  have hrows : unpinnedRows s' (some g) = unpinnedRows s (some g) ∧
      pinnedRows s' c.id = pinnedRows s c.id ∧ s'.group? g = s.group? g := by
    rw [hsame]
    exact ⟨rfl, rfl, rfl⟩
  obtain ⟨rows, hjobs, ha⟩ := h
  rw [jobsOf_of_group hc₁ hactive hg, hhost,
    partitionRows_of_no_snapshot hnone hnames hnodup hmine] at hjobs
  rw [Receives, jobsOf_of_group hc₂ hactive hg, hhost, partitionRows_of_no_snapshot
    (hrows.2.2 ▸ hnone) hnames' (hnodup.filter _)
    (List.mem_filter.2 ⟨hmine, decide_eq_true hother⟩), hrows.1, hrows.2.1]
  refine ⟨_, rfl, ?_⟩
  cases hjobs
  refine (List.mem_append.1 ha).elim (mem_append_left _) fun ha => mem_append_right _ ?_
  obtain ⟨hrow, howner⟩ := List.mem_filter.1 ha
  refine List.mem_filter.2 ⟨hrow, decide_eq_true ((of_decide_eq_true howner).imp
    (Nat.le_trans (length_filter_le _ _)) fun howner => ?_)⟩
  have hweights : equalWeights (hosts.filter (· ≠ left)) =
      (equalWeights hosts).filter fun e => e.1 ≠ left := by
    rw [equalWeights, equalWeights, filter_map]
    rfl
  rw [hweights, lookupWeightedOwner_filter (by rw [← hweights, maxWeight_equalWeights,
    maxWeight_equalWeights]) (howner ▸ hother), howner]

/-- Three collectors of a group without a snapshot, and an assignment of a device of the group. -/
def threeHosts (status : String → String) : Fleet where
  collectors :=
    [⟨"c1", status "c1", some "g", some "w1"⟩, ⟨"c2", status "c2", some "g", some "w2"⟩,
      ⟨"c3", status "c3", some "g", some "w3"⟩]
  groups := [⟨"g", none⟩]
  devices := [⟨"d1", some "g", true⟩]
  assignments := [⟨"a1", some "d1", none, true⟩]
  collectors_nodup := by simp

/-- A collector of `threeHosts` that is down. -/
def allBut (gone : String) (id : String) : String := if id = gone then "DOWN" else "ACTIVE"

/-- The collector that has the assignment keeps it when another one leaves. -/
theorem receives_of_leave_threeHosts : ∃ c : Collector, ∃ gone, c.id ≠ gone ∧
    Receives String.length (threeHosts (allBut "")) c ⟨"a1", some "d1", none, true⟩ ∧
    Receives String.length (threeHosts (allBut gone)) c ⟨"a1", some "d1", none, true⟩ := by
  have hstay : ∀ c ∈ (threeHosts (allBut "")).groupCollectors "g",
      if c.id = "c1" then c ∈ (threeHosts (allBut "c2")).groupCollectors "g"
      else c ∈ (threeHosts (allBut "c1")).groupCollectors "g" := by decide
  obtain ⟨c, ⟨hc, hreceives⟩, -⟩ := existsUnique_receives String.length
    (s := threeHosts (allBut "")) (g := "g") (by decide) (by decide)
    (a := ⟨"a1", some "d1", none, true⟩) rfl (by decide)
  by_cases hfirst : c.id = "c1"
  · refine ⟨c, "c2", by simp [hfirst], hreceives, receives_of_leave (s := threeHosts (allBut ""))
      (g := "g") ⟨"c2", "ACTIVE", some "g", some "w2"⟩ rfl (by decide) rfl (by decide)
      (by decide) ?_ hreceives⟩
    simpa only [hfirst, if_true] using hstay c hc
  · refine ⟨c, "c1", hfirst, hreceives, receives_of_leave (s := threeHosts (allBut ""))
      (g := "g") ⟨"c1", "ACTIVE", some "g", some "w1"⟩ rfl (by decide) rfl (by decide)
      (by decide) ?_ hreceives⟩
    simpa only [hfirst, if_false] using hstay c hc

end MonCTL.CollectorApi
