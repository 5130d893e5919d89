import MonCTL.Alerting.FiringKeys

/-!
# The Threshold Hierarchy

A threshold has four levels: an override for an entity, an override for a device, a value for
the app, and a default. The engine loads the overrides and hands them to the function that
runs a query, and that function does not read them: one query with one set of parameters is
sent for all entities of a definition, and its parameters come from the lower two levels.

A placeholder of the query is bound in the order of the thresholds, so where two of them
share one, the value of the last is used for both.
-/

namespace MonCTL.Alerting

open List Dsl

/-! ### Overrides -/

/-- A `ThresholdOverride`: of one variable, for a device or for one entity of it. Variables are
told apart by their names, which an app has once each. -/
structure ThresholdOverride where
  variableName : String
  deviceId : Uuid
  entityKey : String
  value : ℚ

/-- What the table admits one row for. -/
def ThresholdOverride.key (ov : ThresholdOverride) : String × Uuid × String :=
  (ov.variableName, ov.deviceId, ov.entityKey)

/-- The rows of `threshold_overrides`. -/
structure Overrides where
  rows : List ThresholdOverride
  keys_nodup : (rows.map ThresholdOverride.key).Nodup := by decide

/-- `overrides_by_device`: by device, entity key and variable. -/
abbrev OverridesByDevice := Dict Uuid (Dict String (Dict String ThresholdOverride))

/-- The body of the loop over the overrides. -/
def noteOverride (byDevice : OverridesByDevice) (ov : ThresholdOverride) : OverridesByDevice :=
  let byEntity := (byDevice.lookup ov.deviceId).getD []
  let byVariable := (byEntity.lookup ov.entityKey).getD []
  byDevice.set ov.deviceId (byEntity.set ov.entityKey (byVariable.set ov.variableName ov))

variable (vars : Variables)

/-- The overrides `_evaluate_definition` loads: those of the app's variables. -/
def loadOverrides (overrides : Overrides) : OverridesByDevice :=
  (overrides.rows.filter fun ov => ov.variableName ∈ vars.keys).foldl noteOverride []

/-- `_execute_compiled_query`, with all its arguments: the overrides are not read. -/
def executeWithOverrides (ch : ClickHouse) (name : QueryName) (compiled : CompiledQuery)
    (instances : List AlertEntity) (_overridesByDevice : OverridesByDevice)
    (varByName : Variables) : Except QueryFailure Firing :=
  executeCompiledQuery ch name compiled instances varByName

/-! ### The hierarchy -/

def Overrides.find? (overrides : Overrides) (variableName : String) (deviceId : Uuid)
    (entityKey : String) : Option ℚ :=
  (overrides.rows.find? fun ov => ov.key = (variableName, deviceId, entityKey)).map
    ThresholdOverride.value

/-- The override that applies to an entity: its own, or else that of its device. -/
def Overrides.applying (overrides : Overrides) (e : AlertEntity) (variableName : String) :
    Option ℚ :=
  e.deviceId.bind fun deviceId =>
    (overrides.find? variableName deviceId e.entityKey).or (overrides.find? variableName deviceId "")

/-- The lower levels: the value of the app or the default of the variable, or else the number
in the compiled query. -/
def sharedValue (q : CompiledQuery) (tp : ThresholdParam) : Option ParamValue :=
  (paramOf vars tp.name).or (q.params.lookup tp.paramKey)

/-- **The value of the four levels** for an entity. -/
def hierarchyValue (overrides : Overrides) (q : CompiledQuery)
    (e : AlertEntity) (tp : ThresholdParam) : Option ParamValue :=
  ((overrides.applying e tp.name).map ParamValue.float).or (sharedValue vars q tp)

/-- The parameter of a query with a placeholder's name. -/
def TierRequest.param (request : TierRequest) (key : String) : Option ParamValue :=
  match request with
  | .compiled _ _ params => params.lookup key
  | .configChanged _ _ => none

/-- The value a threshold has in the query that decides for all entities. -/
def usedThreshold (instances : List AlertEntity) (q : CompiledQuery)
    (tp : ThresholdParam) : Option ParamValue :=
  (tierRequest false vars instances q).param tp.paramKey

/-- The claim about one query of a definition: every entity is compared with the value of its
own hierarchy, and the overrides of others do not change its outcome. -/
structure HierarchyHonoured (vars : Variables) (overrides : Overrides)
    (instances : List AlertEntity) (q : CompiledQuery) : Prop where
  value : ∀ e ∈ instances, ∀ tp ∈ q.thresholdParams,
    usedThreshold vars instances q tp = hierarchyValue vars overrides q e tp
  separate : ∀ e ∈ instances, ∀ others : Overrides,
    (∀ tp ∈ q.thresholdParams, others.applying e tp.name = overrides.applying e tp.name) →
    ∀ (ch : ClickHouse) (name : QueryName),
      (executeWithOverrides ch name q instances (loadOverrides vars others) vars).map
          (fun firing => firing.lookup e.key) =
        (executeWithOverrides ch name q instances (loadOverrides vars overrides) vars).map
          (fun firing => firing.lookup e.key)

/-! ### What is bound to a placeholder -/

/-- The last of some thresholds with a placeholder and an existing variable. -/
def lastBound (thresholds : List ThresholdParam) (key : String) :
    Option ParamValue :=
  (thresholds.reverse.filter fun tp => tp.paramKey = key).findSome? fun tp => paramOf vars tp.name

theorem lastBound_concat (thresholds : List ThresholdParam)
    (tp : ThresholdParam) (key : String) : lastBound vars (thresholds ++ [tp]) key =
      if key = tp.paramKey then (paramOf vars tp.name).or (lastBound vars thresholds key)
      else lastBound vars thresholds key := by
  rw [lastBound, reverse_append, reverse_singleton, singleton_append]
  by_cases hkey : key = tp.paramKey
  · rw [if_pos hkey, filter_cons_of_pos (by simp [hkey]), findSome?_cons]
    cases paramOf vars tp.name <;> rfl
  · rw [if_neg hkey, filter_cons_of_neg (by simpa using Ne.symm hkey)]
    rfl

theorem lookup_foldl_resolveParam (thresholds : List ThresholdParam)
    (params : Dict String ParamValue) (key : String) :
    (thresholds.foldl (resolveParam vars) params).lookup key =
      (lastBound vars thresholds key).or (params.lookup key) := by
  induction thresholds using List.reverseRecOn with
  | nil => rfl
  | append_singleton thresholds tp ih =>
    rw [foldl_append, foldl_cons, foldl_nil, lookup_resolveParam, ih,
      lastBound_concat]
    split
    · rw [Option.or_assoc]
    · rfl

/-- **What is bound to a placeholder**: the value of the last threshold that shares it, from
the lower two levels. -/
theorem usedThreshold_eq (instances : List AlertEntity) (q : CompiledQuery)
    (tp : ThresholdParam) : usedThreshold vars instances q tp =
      (lastBound vars q.thresholdParams tp.paramKey).or (q.params.lookup tp.paramKey) :=
  lookup_foldl_resolveParam vars q.thresholdParams q.params tp.paramKey

/-! ### When the hierarchy is honoured -/

/-- The overrides say nothing new about a threshold of an entity: an override that applies to
it has the value that is bound for all entities; and where none applies, no later threshold
with the same placeholder has a different value. -/
def NothingNew (overrides : Overrides) (q : CompiledQuery)
    (e : AlertEntity) (tp : ThresholdParam) : Prop :=
  let bound := (lastBound vars q.thresholdParams tp.paramKey).or (q.params.lookup tp.paramKey)
  match overrides.applying e tp.name with
  | some value => bound = some (.float value)
  | none => bound = sharedValue vars q tp

/-- **The hierarchy is what the engine evaluates with** exactly when no override says anything
new about a threshold of the query. -/
theorem hierarchyHonoured_iff (vars : Variables) (overrides : Overrides)
    (instances : List AlertEntity) (q : CompiledQuery) :
    HierarchyHonoured vars overrides instances q ↔
      ∀ e ∈ instances, ∀ tp ∈ q.thresholdParams, NothingNew vars overrides q e tp := by
  have hvalue : ∀ e tp, usedThreshold vars instances q tp = hierarchyValue vars overrides q e tp ↔
      NothingNew vars overrides q e tp := by
    intro e tp
    rw [usedThreshold_eq, hierarchyValue, NothingNew]
    cases overrides.applying e tp.name with
    | none => rw [Option.map_none, Option.none_or]
    | some value => rw [Option.map_some, Option.some_or]
  constructor
  · intro h e he tp htp
    exact (hvalue e tp).1 (h.value e he tp htp)
  · intro h
    exact ⟨fun e he tp htp => (hvalue e tp).2 (h e he tp htp), fun _ _ _ _ _ _ => rfl⟩

/-- A device with slow links: its round trips may take twice as long. -/
def slowDevice : Overrides where
  rows := [⟨"rtt_ms_threshold", "d1", "", 200⟩]

/-- The variable the definition was stored with, and an override of it for the device of the
only entity: the entity is compared with the default. -/
theorem slowDevice_not_honoured :
    acceptsTiers "availability_latency" latencyDefinition.tiers = true ∧
    compileDefinition "availability_latency" latencyDefinition =
      some ⟨[("warning", latencyQuery)], none⟩ ∧
    (syncThresholdVariables "availability_latency" latencyDefinition []).1 =
      [("rtt_ms_threshold", ⟨100, none⟩)] ∧
    ∃ e ∈ syncedEntities.enabled, ∃ tp ∈ latencyQuery.thresholdParams,
      hierarchyValue [("rtt_ms_threshold", ⟨100, none⟩)] slowDevice latencyQuery e tp =
        some (.float 200) ∧
      usedThreshold [("rtt_ms_threshold", ⟨100, none⟩)] syncedEntities.enabled latencyQuery tp =
        some (.float 100) ∧
      ¬HierarchyHonoured [("rtt_ms_threshold", ⟨100, none⟩)] slowDevice syncedEntities.enabled
        latencyQuery := by
  refine ⟨by decide +kernel, by decide +kernel, by decide +kernel,
    newEntity true ⟨"a1", some "d1", true⟩, .head _, ⟨"rtt_ms_threshold", 100, "_threshold_0"⟩,
    .head _, by decide +kernel, by decide +kernel, fun h => ?_⟩
  have hvalue := h.value (newEntity true ⟨"a1", some "d1", true⟩) (.head _)
    ⟨"rtt_ms_threshold", 100, "_threshold_0"⟩ (.head _)
  exact absurd hvalue (by decide +kernel)

end MonCTL.Alerting
