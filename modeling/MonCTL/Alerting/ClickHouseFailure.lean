import Mathlib.Data.List.Nodup
import MonCTL.Alerting.Engine

/-!
# Failed Queries and Cleared Alerts

A query that fails says nothing about an entity, so an entity must not be cleared when the
decision to clear it rests on a query that failed. The engine has three ways to deal with
a failure: the freshness query adds no assignment, a tier's own query raises, which rolls
the evaluation back, and the healthy tier's leaves it without a key. Under each of them a
firing entity keeps firing.

The query for changed configuration is dealt with in a fourth way: its failure is an answer
without rows, which clears.
-/

namespace MonCTL.Alerting

open List Dsl StateExcept

/-! ### The claim about a definition -/

/-- The query of a tier, as the engine sends it. -/
def tierRequest (isConfigChanged : Bool) (varByName : Variables) (instances : List AlertEntity)
    (compiled : CompiledQuery) : TierRequest :=
  if isConfigChanged then
    .configChanged (assignmentIds instances) (compiled.configChangedKey.getD "")
  else .compiled (assignmentIds instances) compiled.sql (resolveParams varByName compiled)

/-- The queries that decide whether an entity is cleared: all tiers, and the freshness
query unless the entity is evaluated for the first time. -/
inductive ClearDependsOn (compiled : CompiledDefinition) (e : AlertEntity) : QueryName → Prop
  | freshness {t : Timestamp} : e.lastEvaluatedAt = some t → ClearDependsOn compiled e .freshness
  | tier {i : ℕ} : i < compiled.tiers.length → ClearDependsOn compiled e (.tier i)
  | healthy : compiled.healthy.isSome → ClearDependsOn compiled e .healthy

/-- A query of the evaluation fails. -/
inductive Failed (table : String) (compiled : CompiledDefinition) (instances : List AlertEntity)
    (c : Cycle) : QueryName → Prop
  | freshness : c.clickHouse.freshness
        (freshnessRequest table instances compiled.isConfigChanged) = none →
      Failed table compiled instances c .freshness
  | tier {i : ℕ} {severity : String} {q : CompiledQuery} :
      compiled.tiers[i]? = some (severity, q) →
      c.clickHouse.tier (.tier i)
        (tierRequest compiled.isConfigChanged c.thresholdVars instances q) = none →
      Failed table compiled instances c (.tier i)
  | healthy {q : CompiledQuery} : compiled.healthy = some q →
      c.clickHouse.tier .healthy
        (tierRequest compiled.isConfigChanged c.thresholdVars instances q) = none →
      Failed table compiled instances c .healthy

def NotCleared (e : AlertEntity) (result : List AlertEntity × List LogRecord) : Prop :=
  (∀ e' ∈ result.1, e'.assignmentId = e.assignmentId → e'.state ≠ .resolved) ∧
    ∀ r ∈ result.2, r.assignmentId = e.assignmentId → r.action ≠ .clear

/-- **A failure never clears an alert** of a definition: whatever its entities are and
whichever queries fail. -/
def FailureNeverClears (table : String) (defn : AlertDefinition) : Prop :=
  ∀ (entities : Entities) (c : Cycle) (compiled : CompiledDefinition),
    compileDefinition table defn = some compiled →
    ∀ e ∈ entities.enabled, e.state = .firing →
      (∃ q, ClearDependsOn compiled e q ∧ Failed table compiled entities.enabled c q) →
      NotCleared e (evaluateDefinitionIsolated table defn entities c)

/-! ### One entity -/

@[simp] theorem evaluatedAt_assignmentId (e : AlertEntity) (now : Timestamp) :
    (e.evaluatedAt now).assignmentId = e.assignmentId := rfl

@[simp] theorem evaluatedAt_state (e : AlertEntity) (now : Timestamp) :
    (e.evaluatedAt now).state = e.state := rfl

@[simp] theorem refreshFromHealthy_assignmentId (e : AlertEntity) (healthy : Firing) :
    (e.refreshFromHealthy healthy).assignmentId = e.assignmentId := by
  unfold AlertEntity.refreshFromHealthy
  split <;> rfl

@[simp] theorem refreshFromHealthy_state (e : AlertEntity) (healthy : Firing) :
    (e.refreshFromHealthy healthy).state = e.state := by
  unfold AlertEntity.refreshFromHealthy
  split <;> rfl

/-- The frame of an evaluation: it keeps the assignment of an entity, and logs only for
it. -/
theorem updateEntity_frame (defn : AlertDefinition) (now : Timestamp) (fresh : List Uuid)
    (results : List (String × Firing)) (hasHealthy : Bool) (healthy : Firing) (e : AlertEntity) :
    (updateEntity defn now fresh results hasHealthy healthy e).1.assignmentId =
        e.assignmentId ∧
      ∀ r ∈ (updateEntity defn now fresh results hasHealthy healthy e).2,
        r.assignmentId = e.assignmentId := by
  unfold updateEntity
  split
  · simp
  · split
    · unfold clearEntity
      dsimp only
      split_ifs <;> simp [AlertEntity.resolve, buildLogRecord]
    · unfold fireEntity
      dsimp only
      split_ifs <;> simp [buildLogRecord]

theorem fireEntity_state (defn : AlertDefinition) (now : Timestamp) (severity : String)
    (data : FireData) (e : AlertEntity) : (fireEntity defn now severity data e).1.state = .firing ∧
      ∀ r ∈ (fireEntity defn now severity data e).2, r.action ≠ .clear := by
  unfold fireEntity
  dsimp only
  split_ifs with hstate <;> simp_all [buildLogRecord]

variable {healthy : Firing}

theorem clearEntity_of_notMem (defn : AlertDefinition) (now : Timestamp)
    {e : AlertEntity} (h : e.key ∉ healthy.keys) : clearEntity defn now true healthy e = (e, []) :=
    by
  rw [clearEntity, if_pos rfl, if_neg fun hc => h hc.1]

variable {hasHealthy : Bool}

/-- **When a firing entity keeps firing**: it has no new data, or the healthy tier has an
expression and did not return its key. -/
theorem updateEntity_firing (defn : AlertDefinition) (now : Timestamp) {fresh : List Uuid}
    (results : List (String × Firing)) {e : AlertEntity}
    (hfiring : e.state = .firing)
    (h : e.assignmentId ∉ fresh ∨ hasHealthy = true ∧ e.key ∉ healthy.keys) :
    (updateEntity defn now fresh results hasHealthy healthy e).1.state = .firing ∧
      ∀ r ∈ (updateEntity defn now fresh results hasHealthy healthy e).2, r.action ≠ .clear := by
  unfold updateEntity
  split
  · exact ⟨hfiring, by simp⟩
  next hfresh =>
    obtain ⟨hhealthy, hkey⟩ := h.resolve_left hfresh
    split
    · rw [hhealthy, clearEntity_of_notMem defn now (e := e.evaluatedAt now) hkey]
      exact ⟨hfiring, by simp⟩
    next severity data _ => exact fireEntity_state defn now severity data _

/-! ### The session -/

variable {entities : Entities} {e : AlertEntity} {e' : AlertEntity}

theorem Entities.eq_of_assignmentId
    (he : e ∈ entities.rows) (he' : e' ∈ entities.rows)
    (h : e.assignmentId = e'.assignmentId) : e = e' :=
  inj_on_of_nodup_map entities.assignments_nodup he he' h

theorem mem_commit {f : AlertEntity → AlertEntity}
    (hf : ∀ e, (f e).assignmentId = e.assignmentId)
    (he : e ∈ entities.enabled) (he' : e' ∈ entities.commit (entities.enabled.map f))
    (h : e'.assignmentId = e.assignmentId) : e' = f e := by
  have hrow := (List.mem_filter.1 he).1
  obtain ⟨row, hmem, rfl⟩ := List.mem_map.1 he'
  cases hfind : (entities.enabled.map f).find? (·.assignmentId = row.assignmentId) with
  | none =>
    rw [hfind, Option.getD_none] at h
    obtain rfl := Entities.eq_of_assignmentId hmem hrow h
    have := List.find?_eq_none.1 hfind (f row) (mem_map_of_mem he)
    simp [hf] at this
  | some x =>
    obtain ⟨y, hy, rfl⟩ := List.mem_map.1 (mem_of_find?_eq_some hfind)
    rw [hfind, Option.getD_some, hf] at h
    rw [Entities.eq_of_assignmentId (List.mem_filter.1 hy).1 hrow h]
    rfl

/-- The session of an evaluation that returns clears no entity that its round of the loop does
not clear. -/
theorem notCleared_of_update {f : AlertEntity → AlertEntity × List LogRecord}
    (hf : ∀ e, (f e).1.assignmentId = e.assignmentId ∧
      ∀ r ∈ (f e).2, r.assignmentId = e.assignmentId) (he : e ∈ entities.enabled)
    (h : (f e).1.state = .firing ∧ ∀ r ∈ (f e).2, r.action ≠ .clear) :
    NotCleared e (entities.commit ((entities.enabled.map f).map Prod.fst),
      (entities.enabled.map f).flatMap Prod.snd) := by
  constructor
  · intro e' he' hid
    rw [map_map] at he'
    rw [mem_commit (f := fun e => (f e).1) (fun e => (hf e).1) he he' hid, h.1]
    simp
  · intro r hr hid
    obtain ⟨x, hx, hrx⟩ := List.mem_flatMap.1 hr
    obtain ⟨y, hy, rfl⟩ := List.mem_map.1 hx
    have hrow := fun e (h : e ∈ entities.enabled) => (List.mem_filter.1 h).1
    obtain rfl := Entities.eq_of_assignmentId (hrow y hy) (hrow e he)
      (((hf y).2 r hrx).symm.trans hid)
    exact h.2 r hrx

theorem notCleared_of_rollback (he : e ∈ entities.enabled) (hfiring : e.state = .firing) :
    NotCleared e (entities.rows, []) := by
  refine ⟨fun e' he' hid => ?_, by simp⟩
  rw [Entities.eq_of_assignmentId he' (List.mem_filter.1 he).1 hid, hfiring]
  simp

/-! ### Failed queries -/

variable {aid : Uuid}

theorem lookup_noteCutoff_ne (cutoffs : Dict Uuid (Option Timestamp))
    (h : aid ≠ e.assignmentId) : (noteCutoff cutoffs e).lookup aid = cutoffs.lookup aid := by
  unfold noteCutoff
  split
  · rw [Dict.lookup_set_ne h]
  · rw [Dict.lookup_set_ne h]
  · split
    · rw [Dict.lookup_set_ne h]
    · rfl
  · rfl

variable {cutoffs : Dict Uuid (Option Timestamp)}

theorem lookup_noteCutoff_self
    (h : cutoffs.lookup e.assignmentId = none) :
    (noteCutoff cutoffs e).lookup e.assignmentId = some e.lastEvaluatedAt := by
  unfold noteCutoff
  rw [h]
  cases he : e.lastEvaluatedAt with
  | none => simp
  | some t => simp

variable {instances : List AlertEntity}

theorem lookup_foldl_noteCutoff_ne
    (h : aid ∉ instances.map AlertEntity.assignmentId) (cutoffs : Dict Uuid (Option Timestamp)) :
    (instances.foldl noteCutoff cutoffs).lookup aid = cutoffs.lookup aid := by
  induction instances generalizing cutoffs with
  | nil => rfl
  | cons e instances ih =>
    rw [map_cons, mem_cons, not_or] at h
    rw [foldl_cons, ih h.2, lookup_noteCutoff_ne _ h.1]

theorem lookup_foldl_noteCutoff
    (hnodup : (instances.map AlertEntity.assignmentId).Nodup)
    (he : e ∈ instances)
    (h : cutoffs.lookup e.assignmentId = none) :
    (instances.foldl noteCutoff cutoffs).lookup e.assignmentId = some e.lastEvaluatedAt := by
  induction instances generalizing cutoffs with
  | nil => cases he
  | cons e' instances ih =>
    rw [map_cons, nodup_cons] at hnodup
    rw [foldl_cons]
    rcases List.mem_cons.1 he with rfl | hmem
    · rw [lookup_foldl_noteCutoff_ne hnodup.1, lookup_noteCutoff_self h]
    · have hne : e.assignmentId ≠ e'.assignmentId := fun heq =>
        hnodup.1 (heq ▸ mem_map_of_mem hmem)
      exact ih hnodup.2 hmem ((lookup_noteCutoff_ne _ hne).trans h)

theorem nodup_keys_foldl_noteCutoff (instances : List AlertEntity)
    (h : cutoffs.keys.Nodup) :
    (instances.foldl noteCutoff cutoffs).keys.Nodup := by
  induction instances generalizing cutoffs with
  | nil => exact h
  | cons e instances ih =>
    refine ih ?_
    unfold noteCutoff
    split
    · exact Dict.nodup_keys_set h _ _
    · exact Dict.nodup_keys_set h _ _
    · split
      · exact Dict.nodup_keys_set h _ _
      · exact h
    · exact h

/-- When the freshness query fails, an entity that has been evaluated before has no new
data. -/
theorem notMem_freshAssignments
    (he : e ∈ entities.enabled) {t : Timestamp} (ht : e.lastEvaluatedAt = some t)
    {ch : ClickHouse} {table : String} {isConfigChanged : Bool}
    (hfail : ch.freshness (freshnessRequest table entities.enabled isConfigChanged) = none) :
    e.assignmentId ∉ freshAssignments ch table entities.enabled isConfigChanged := by
  have hnodup : (entities.enabled.map AlertEntity.assignmentId).Nodup :=
    entities.assignments_nodup.sublist (List.filter_sublist.map _)
  have hcutoff : (cutoffByAid entities.enabled).lookup e.assignmentId = some (some t) :=
    ht ▸ lookup_foldl_noteCutoff hnodup he rfl
  have hnew : e.assignmentId ∉
      ((cutoffByAid entities.enabled).filter fun e => e.2 = none).map Prod.fst := by
    intro hmem
    obtain ⟨entry, hentry, hid⟩ := List.mem_map.1 hmem
    obtain ⟨hentry, hnone⟩ := List.mem_filter.1 hentry
    have hempty : (Dict.keys ([] : Dict Uuid (Option Timestamp))).Nodup := by simp [Dict.keys]
    have hkeys := nodup_keys_foldl_noteCutoff entities.enabled hempty
    have hlookup := Dict.lookup_eq_some_of_mem hkeys (k := entry.1) (v := entry.2) hentry
    rw [hid] at hlookup
    rw [of_decide_eq_true hnone] at hlookup
    cases hcutoff.symm.trans hlookup
  unfold freshAssignments
  rw [hfail]
  dsimp only
  split <;> exact hnew

variable {ch : ClickHouse} {compiled : CompiledQuery} {vars : Variables} {name : QueryName}

theorem executeCompiledQuery_eq_error
    (h : ch.tier name (tierRequest false vars instances compiled) = none) :
    executeCompiledQuery ch name compiled instances vars = .error {} := by
  have h' : ch.tier name (.compiled (assignmentIds instances) compiled.sql
      (resolveParams vars compiled)) = none := h
  simp only [executeCompiledQuery, h']

theorem evaluateTier_eq_ok {r : Firing × List AlertEntity}
    (h : evaluateTier ch false vars name compiled instances = .ok r) : r.2 = instances := by
  rw [evaluateTier, if_neg Bool.false_ne_true] at h
  cases hq : executeCompiledQuery ch name compiled instances vars with
  | error e => rw [hq] at h; cases h
  | ok fk => rw [hq] at h; rw [← Except.ok.inj h]

variable {i : ℕ} {tiers : List (String × CompiledQuery)}

theorem evaluateTiers_eq_ok
    {r : List (String × Firing) × List AlertEntity}
    (h : evaluateTiers ch false vars i tiers instances = .ok r) : r.2 = instances := by
  induction tiers generalizing i instances r with
  | nil => rw [← Except.ok.inj h]
  | cons tier tiers ih =>
    rw [evaluateTiers] at h
    obtain ⟨first, hfirst, h⟩ := bind_eq_ok.1 h
    obtain ⟨rest, hrest, h⟩ := bind_eq_ok.1 h
    rw [← Except.ok.inj h]
    exact (ih hrest).trans (evaluateTier_eq_ok hfirst)

theorem evaluateTiers_ne_ok {k : ℕ}
    {severity : String} {q : CompiledQuery} (hk : tiers[k]? = some (severity, q))
    (h : ch.tier (.tier (i + k)) (tierRequest false vars instances q) = none)
    (r : List (String × Firing) × List AlertEntity) :
    evaluateTiers ch false vars i tiers instances ≠ .ok r := by
  induction tiers generalizing i k r with
  | nil => simp at hk
  | cons tier tiers ih =>
    intro hok
    rw [evaluateTiers] at hok
    obtain ⟨first, hfirst, hok⟩ := bind_eq_ok.1 hok
    obtain ⟨rest, hrest, -⟩ := bind_eq_ok.1 hok
    cases k with
    | zero =>
      obtain rfl : tier = (severity, q) := by simpa using hk
      rw [evaluateTier, if_neg Bool.false_ne_true] at hfirst
      dsimp only at hfirst
      have herror : executeCompiledQuery ch (.tier i) q instances vars = .error {} :=
        executeCompiledQuery_eq_error h
      rw [herror] at hfirst
      cases hfirst
    | succ k =>
      rw [evaluateTier_eq_ok hfirst] at hrest
      refine ih (k := k) (i := i + 1) (by simpa using hk) ?_ rest hrest
      rwa [Nat.add_assoc, Nat.add_comm 1 k]

theorem evaluateHealthy_of_failed
    (h : ch.tier .healthy (tierRequest false vars instances compiled) = none) :
    evaluateHealthy ch false vars (some compiled) instances = ([], instances) := by
  simp [evaluateHealthy, evaluateTier, executeCompiledQuery_eq_error h, Except.map]

theorem evaluateHealthy_instances (ch : ClickHouse) (vars : Variables)
    (healthy : Option CompiledQuery) (instances : List AlertEntity) :
    (evaluateHealthy ch false vars healthy instances).2 = instances := by
  unfold evaluateHealthy
  split
  · rfl
  · split
    next h => exact evaluateTier_eq_ok h
    · rfl

variable {table : String} {defn : AlertDefinition}

theorem evaluateCompiled_eq_ok
    {compiled : CompiledDefinition} (hquery : compiled.isConfigChanged = false)
    {c : Cycle} {r : List AlertEntity × List LogRecord}
    (h : evaluateCompiled table defn compiled instances c = .ok r) :
    ∃ results, evaluateTiers c.clickHouse false c.thresholdVars 0 compiled.tiers instances =
        .ok (results, instances) ∧
      let updated := instances.map (updateEntity defn c.now
        (freshAssignments c.clickHouse table instances false) results compiled.healthy.isSome
        (evaluateHealthy c.clickHouse false c.thresholdVars compiled.healthy instances).1)
      r = (updated.map Prod.fst, updated.flatMap Prod.snd) := by
  rw [evaluateCompiled, hquery] at h
  obtain ⟨⟨results, instances'⟩, htiers, h⟩ := bind_eq_ok.1 h
  obtain rfl : instances' = instances := evaluateTiers_eq_ok htiers
  refine ⟨results, htiers, ?_⟩
  dsimp only at h
  have hinstances := evaluateHealthy_instances c.clickHouse c.thresholdVars compiled.healthy
    instances'
  generalize evaluateHealthy c.clickHouse false c.thresholdVars compiled.healthy instances' =
    healthy at h hinstances ⊢
  obtain ⟨fk, instances⟩ := healthy
  obtain rfl : instances = instances' := hinstances
  exact (Except.ok.inj h).symm

/-- **A definition evaluated by its own queries** is not cleared by a failure. -/
theorem failureNeverClears_of_queries
    (hquery : defn.isConfigChanged table = false) : FailureNeverClears table defn := by
  intro entities c compiled hcompiled e he hfiring ⟨q, hdepends, hfailed⟩
  have hquery : compiled.isConfigChanged = false := by
    rwa [AlertDefinition.isConfigChanged, hcompiled] at hquery
  rw [evaluateDefinitionIsolated, evaluateDefinition, hcompiled]
  dsimp only
  by_cases hskip : compiled.tiers = [] ∨ entities.enabled = []
  · rw [if_pos hskip]
    refine ⟨fun e' he' hid => ?_, by simp⟩
    rw [← map_id entities.enabled] at he'
    have heq : e' = e := mem_commit (fun _ => rfl) he he' hid
    rw [heq, hfiring]
    simp
  rw [if_neg hskip]
  cases hrun : evaluateCompiled table defn compiled entities.enabled c with
  | error => exact notCleared_of_rollback he hfiring
  | ok r =>
    obtain ⟨results, htiers, rfl⟩ := evaluateCompiled_eq_ok hquery hrun
    refine notCleared_of_update (fun e => updateEntity_frame ..) he
      (updateEntity_firing defn c.now results hfiring ?_)
    cases hfailed with
    | freshness hfail =>
      cases hdepends with
      | freshness ht => exact .inl (notMem_freshAssignments he ht (hquery ▸ hfail))
    | tier htier hfail =>
      rw [hquery] at hfail
      exact absurd htiers (evaluateTiers_ne_ok htier (by rwa [Nat.zero_add]) _)
    | healthy hhealthy hfail =>
      rw [hquery] at hfail
      refine .inr ⟨by rw [hhealthy]; rfl, ?_⟩
      rw [hhealthy, evaluateHealthy_of_failed hfail]
      simp [Dict.keys]

/-! ### The query for changed configuration -/

theorem evaluateTiers_configChanged (hfail : ∀ i request, ch.tier (.tier i) request = none) (i : ℕ)
    (tiers : List (String × CompiledQuery)) (instances : List AlertEntity) :
    evaluateTiers ch true vars i tiers instances =
      .ok (tiers.map fun tier => (tier.1, []), instances) := by
  induction tiers generalizing i with
  | nil => rfl
  | cons tier tiers ih =>
    have hfirst : evaluateTier ch true vars (.tier i) tier.2 instances = .ok ([], instances) := by
      rw [evaluateTier, if_pos rfl, evaluateConfigChanged, hfail]
    rw [evaluateTiers, hfirst]
    dsimp only [bind, Except.bind]
    rw [ih]
    rfl

theorem effectiveTier_of_empty (tiers : List (String × CompiledQuery)) (key : Uuid × String) :
    effectiveTier (tiers.map fun tier => (tier.1, [])) key = none := by
  induction tiers with
  | nil => rfl
  | cons tier tiers ih => exact ih

/-- A firing entity that is evaluated for the first time and whose configuration has
changed. -/
def changedEntity (key : String) : AlertEntity where
  assignmentId := "a"
  entityKey := "d" ++ "|" ++ key
  state := .firing
  severity := some "critical"
  entityLabels := [(configHashLabel, "old")]

/-- ClickHouse when only the query of the healthy tier gets an answer. -/
def onlyHealthyAnswers (key : String) : ClickHouse where
  freshness _ := none
  tier name _ :=
    if name = .healthy then
      some [⟨[("device_id", "d"), ("config_key", key), ("config_hash", "new")], []⟩]
    else none

theorem evaluateHealthy_changedEntity {key : String} {healthy : CompiledQuery}
    (hkey : healthy.configChangedKey.getD "" = key) :
    ∃ fk, evaluateHealthy (onlyHealthyAnswers key) true [] (some healthy) [changedEntity key] =
      (fk, [changedEntity key]) ∧ (changedEntity key).key ∈ fk.keys := by
  refine ⟨[(("a", "d" ++ "|" ++ key), ⟨none, [("device_name", ""), (configHashLabel, "new")], [], []⟩)],
    ?_, ?_⟩
  · have hrow : configChangedRow ([], [changedEntity key])
        ⟨[("device_id", "d"), ("config_key", key), ("config_hash", "new")], []⟩ =
        ([(("a", "d" ++ "|" ++ key), ⟨none, [("device_name", ""), (configHashLabel, "new")], [], []⟩)],
          [changedEntity key]) := by
      simp [configChangedRow, Row.text, changedEntity, lookup_cons, configHashLabel, Dict.set]
    rw [evaluateHealthy, evaluateTier, if_pos rfl, hkey, evaluateConfigChanged]
    exact hrow
  · simp [Dict.keys, AlertEntity.key, changedEntity]

/-- The healthy tier of a definition asks for this configuration key. -/
def CompiledDefinition.healthyKey (compiled : CompiledDefinition) : String :=
  (compiled.healthy.bind CompiledQuery.configChangedKey).getD ""

/-- A firing entity is cleared when no tier returned its key and the healthy tier, if it has
an expression, did. -/
theorem clearEntity_state (defn : AlertDefinition) (now : Timestamp)
    (hfiring : e.state = .firing)
    (h : hasHealthy = true → e.key ∈ healthy.keys) :
    (clearEntity defn now hasHealthy healthy e).1.state = .resolved := by
  cases hasHealthy with
  | true => simp [clearEntity, h rfl, hfiring, AlertEntity.resolve]
  | false => simp [clearEntity, hfiring, AlertEntity.resolve]

/-- **A definition evaluated by the query for changed configuration** is cleared by the
failure of that query. -/
theorem changedEntity_cleared
    {compiled : CompiledDefinition} (hcompiled : compileDefinition table defn = some compiled)
    (hchanged : compiled.isConfigChanged = true) : ¬NotCleared (changedEntity compiled.healthyKey)
      (evaluateDefinitionIsolated table defn ⟨[changedEntity compiled.healthyKey], by simp⟩
        ⟨onlyHealthyAnswers compiled.healthyKey, [], 0⟩) := by
  have htiers : compiled.tiers ≠ [] := by
    rintro h
    simp [CompiledDefinition.isConfigChanged, h] at hchanged
  obtain ⟨fk, hhealthy, hkey⟩ : ∃ fk, evaluateHealthy (onlyHealthyAnswers compiled.healthyKey) true
      [] compiled.healthy [changedEntity compiled.healthyKey] =
        (fk, [changedEntity compiled.healthyKey]) ∧
      (compiled.healthy.isSome = true → (changedEntity compiled.healthyKey).key ∈ fk.keys) := by
    cases h : compiled.healthy with
    | none => exact ⟨[], rfl, by simp⟩
    | some q =>
      have hkey : q.configChangedKey.getD "" = compiled.healthyKey := by
        simp [CompiledDefinition.healthyKey, h]
      obtain ⟨fk, hfk, hmem⟩ := evaluateHealthy_changedEntity hkey
      exact ⟨fk, hfk, fun _ => hmem⟩
  generalize compiled.healthyKey = key at hhealthy hkey ⊢
  let cleared := updateEntity defn 0
    (freshAssignments (onlyHealthyAnswers key) table [changedEntity key] true)
    (compiled.tiers.map fun tier => (tier.1, [])) compiled.healthy.isSome fk (changedEntity key)
  have hstate : cleared.1.state = .resolved := by
    have hfresh : (changedEntity key).assignmentId ∈
        freshAssignments (onlyHealthyAnswers key) table [changedEntity key] true := by
      simp [freshAssignments, cutoffByAid, noteCutoff, aidsToCheck, changedEntity, Dict.set]
    simp only [cleared, updateEntity, effectiveTier_of_empty]
    rw [if_neg (not_not_intro hfresh)]
    exact clearEntity_state defn 0 rfl hkey
  have hrun : evaluateDefinition table defn [changedEntity key] ⟨onlyHealthyAnswers key, [], 0⟩ =
      .ok ([cleared.1], cleared.2 ++ []) := by
    have hfail : ∀ i request, (onlyHealthyAnswers key).tier (.tier i) request = none := fun _ _ =>
      rfl
    rw [evaluateDefinition, hcompiled]
    dsimp only
    rw [if_neg (by simp [htiers]), evaluateCompiled, hchanged]
    dsimp only
    rw [evaluateTiers_configChanged hfail]
    dsimp only [bind, Except.bind]
    rw [hhealthy]
    rfl
  rintro ⟨hnot, -⟩
  refine hnot cleared.1 ?_ (updateEntity_frame ..).1 hstate
  have henabled : Entities.enabled ⟨[changedEntity key], by simp⟩ = [changedEntity key] := by
    simp [Entities.enabled, changedEntity]
  rw [evaluateDefinitionIsolated, henabled, hrun]
  have hid : cleared.1.assignmentId = (changedEntity key).assignmentId := (updateEntity_frame ..).1
  simp [Entities.commit, hid]

/-- **When a failed query never clears an alert**: exactly for the definitions the engine
does not evaluate by the query for changed configuration. -/
theorem failureNeverClears_iff (table : String) (defn : AlertDefinition) :
    FailureNeverClears table defn ↔ defn.isConfigChanged table = false := by
  refine ⟨fun h => ?_, failureNeverClears_of_queries⟩
  by_contra hchanged
  rw [Bool.not_eq_false, AlertDefinition.isConfigChanged] at hchanged
  cases hcompiled : compileDefinition table defn with
  | none => simp [hcompiled] at hchanged
  | some compiled =>
    simp only [hcompiled] at hchanged
    refine changedEntity_cleared hcompiled hchanged (h _ _ compiled hcompiled _
      (by simp [Entities.enabled, changedEntity]) rfl ?_)
    cases htiers : compiled.tiers with
    | nil => simp [CompiledDefinition.isConfigChanged, htiers] at hchanged
    | cons tier tiers =>
      exact ⟨.tier 0, .tier (by simp [htiers]), .tier (by simp [htiers]; rfl)
        (by simp [onlyHealthyAnswers])⟩

/-- A definition that raises an alert when the version of the operating system changes. -/
def osVersionDefinition : AlertDefinition where
  tiers := [⟨"critical", some "os_version CHANGED"⟩]
  window := "5m"

/-- The entity of one assignment, firing and evaluated before. -/
def osVersionEntities : Entities where
  rows := [{
    assignmentId := "a"
    state := .firing
    severity := some "critical"
    lastEvaluatedAt := some 1 }]

/-- ClickHouse when there is new data and the query for changed configuration fails. -/
def changedQueryFails : ClickHouse where
  freshness _ := some [("a", 2)]
  tier _ _ := none

/-- The router accepts the definition; the failure of its only query clears the entity. -/
theorem osVersionDefinition_cleared : acceptsTiers "config" osVersionDefinition.tiers = true ∧
      ¬FailureNeverClears "config" osVersionDefinition := by
  refine ⟨by decide +kernel, fun h => ?_⟩
  have hcompiled : compileDefinition "config" osVersionDefinition =
      some ⟨[("critical", changedQuery "os_version")], none⟩ := by decide +kernel
  have hcleared := (h osVersionEntities ⟨changedQueryFails, [], 3⟩ _ hcompiled _ (.head _) rfl
    ⟨.tier 0, .tier (by decide), .tier rfl rfl⟩).1
  exact absurd hcleared (by decide +kernel)

end MonCTL.Alerting
