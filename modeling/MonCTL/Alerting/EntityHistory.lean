import MonCTL.Alerting.Cycles
import MonCTL.Alerting.FiringKeys

/-!
# Entities and Their Log over a Run

The engine follows the lifecycle of an entity, so the invariants of the lifecycle hold after
every run. Two things do not follow the plan. The branch that clears an entity of a definition
without a healthy tier forgets to reset `current_state_since`; and the log says "healthy" on a
clear, not the severity that was cleared.
-/

namespace MonCTL.Alerting

open List Dsl Option

/-! ### The fields of an entity -/

/-- The evaluation clears a firing entity of a definition without a healthy tier: there is new
data for it, and no tier matches. -/
def History.ClearsWithoutHealthy (s : History) (a : Evaluation) : Prop :=
  ∃ f, s.findings a = some f ∧ f.hasHealthy = false ∧
    ∃ e ∈ s.entities.enabled, e.state = .firing ∧ e.assignmentId ∈ f.fresh ∧
      effectiveTier f.results e.key = none

variable {s : History} {a : Evaluation}

/-- Only the healthy tier clears a firing entity in an evaluation that does not clear for want
of one. -/
theorem hasHealthy_of_cleared (h : ¬s.ClearsWithoutHealthy a)
    {e : AlertEntity} (he : e ∈ s.entities.rows) (hfiring : e.state = .firing)
    (houtcome : s.outcome a e.assignmentId = some false) :
    ∃ f, s.findings a = some f ∧ f.hasHealthy = true := by
  rw [s.outcome_eq a he] at houtcome
  by_cases henabled : e.enabled = true
  · rw [if_pos henabled] at houtcome
    obtain ⟨f, hfound, hf⟩ := bind_eq_some_iff.1 houtcome
    refine ⟨f, hfound, ?_⟩
    by_contra hhealthy
    rw [Bool.not_eq_true] at hhealthy
    rw [Findings.outcome] at hf
    by_cases hstale : e.assignmentId ∉ f.fresh
    · rw [if_pos hstale] at hf
      cases hf
    · rw [if_neg hstale] at hf
      by_cases htier : (effectiveTier f.results e.key).isSome = true
      · rw [if_pos htier] at hf
        cases hf
      · refine h ⟨f, hfound, hhealthy, e, List.mem_filter.2 ⟨he, henabled⟩, hfiring,
          not_not.1 hstale, ?_⟩
        simpa using htier
  · rw [if_neg henabled] at houtcome
    cases houtcome

theorem coupled_newEntity (enabled : Bool) (assignment : AppAssignment) :
    Coupled (newEntity enabled assignment).core [] where
  firing_iff := by simp [newEntity, AlertEntity.core]
  notFiring := by simp [newEntity, AlertEntity.core]
  history_length := by simp [newEntity, AlertEntity.core]
  history_last := rfl

theorem coupled_evaluate (hs : ∀ e ∈ s.entities.rows, Coupled e.core (s.decided e.assignmentId))
    (h : ¬s.ClearsWithoutHealthy a) :
    ∀ e ∈ (s.evaluate a).entities.rows, Coupled e.core ((s.evaluate a).decided e.assignmentId) := by
  obtain ⟨g, hrows, hstep⟩ := s.evaluate_rows a
  intro e' he'
  rw [hrows] at he'
  obtain ⟨e, he, rfl⟩ := List.mem_map.1 he'
  obtain ⟨hid, records, hasHealthy, -, hhealthy, htransition⟩ := hstep e he
  rw [hid]
  refine htransition.coupled (hs e he) fun hfiring houtcome => ?_
  obtain ⟨f, hfound, hf⟩ := hasHealthy_of_cleared h he hfiring houtcome
  exact (hhealthy f hfound).trans hf

/-- **The fields of every entity belong together after every run** that never clears an entity
for want of a healthy tier: an entity fires exactly when its severity, its count and the start
of its state are set, none of them is set otherwise, and its history is bounded and ends with
the last outcome that was decided. -/
theorem coupled_of_run {start s : History} (hfresh : start.Fresh)
    (h : Run History.step (fun s a => ¬s.ClearsWithoutHealthy a) start s) :
    ∀ e ∈ s.entities.rows, Coupled e.core (s.decided e.assignmentId) := by
  refine h.invariant (I := fun s => ∀ e ∈ s.entities.rows,
    Coupled e.core (s.decided e.assignmentId)) ?_ ?_
  · intro e he
    obtain ⟨enabled, assignment, rfl⟩ := hfresh.synced e he
    rw [hfresh.decided]
    exact coupled_newEntity enabled assignment
  · intro s a s' hs hallowed hstep
    cases some.inj hstep
    exact coupled_evaluate hs hallowed

/-- A definition without a healthy tier that has just been created, with one entity. -/
def latencyStart : History := ⟨syncedEntities, fun _ => [], [], []⟩

theorem latencyStart_fresh : latencyStart.Fresh where
  synced := by
    intro e he
    exact ⟨true, ⟨"a1", some "d1", true⟩, List.mem_singleton.1 he⟩
  decided _ := rfl
  produced := rfl
  alertLog := rfl

/-- The round trips take too long. -/
def latencyHigh (logInserted : Bool) : Evaluation where
  table := "availability_latency"
  defn := latencyDefinition
  cycle := ⟨oneRow latencyAnswer, [], 10⟩
  logInserted

/-- There is new data, and the query of the tier returns nothing. -/
def latencyNormal : Evaluation where
  table := "availability_latency"
  defn := latencyDefinition
  cycle := ⟨⟨fun _ => some [("a1", 20)], fun _ _ => some []⟩, [], 30⟩
  logInserted := true

theorem coupled_latencyHigh :
    latencyStart.Fresh ∧ ∀ e ∈ (latencyStart.evaluate (latencyHigh true)).entities.rows,
      Coupled e.core ((latencyStart.evaluate (latencyHigh true)).decided e.assignmentId) := by
  refine ⟨latencyStart_fresh, coupled_of_run latencyStart_fresh (.step .start ?_ rfl)⟩
  rintro ⟨f, -, -, e, he, hfiring, -⟩
  rw [List.mem_singleton.1 (show e ∈ [newEntity true ⟨"a1", some "d1", true⟩] from he)] at hfiring
  cases hfiring

/-- The router accepts the definition, and after two evaluations its entity is resolved and
still says when its state began. -/
theorem latencyDefinition_not_coupled :
    acceptsTiers "availability_latency" latencyDefinition.tiers = true ∧
    latencyStart.Fresh ∧ ∃ s, Run History.step (fun _ _ => True) latencyStart s ∧
      ∃ e ∈ s.entities.rows, e.state = .resolved ∧ e.currentStateSince = some 10 ∧
        ¬Coupled e.core (s.decided e.assignmentId) := by
  refine ⟨by decide +kernel, latencyStart_fresh,
    (latencyStart.evaluate (latencyHigh true)).evaluate latencyNormal,
    .step (.step .start trivial rfl) trivial rfl, ?_⟩
  have hrows : (((latencyStart.evaluate (latencyHigh true)).evaluate
      latencyNormal).entities.rows.map fun e => (e.state, e.currentStateSince)) =
      [(.resolved, some 10)] := by decide +kernel
  obtain ⟨e, he, heq⟩ := List.mem_map.1 (hrows ▸ mem_singleton_self _)
  obtain ⟨hstate, hsince⟩ := Prod.mk.inj heq
  refine ⟨e, he, hstate, hsince, fun hcoupled => ?_⟩
  have hnone : e.currentStateSince = none :=
    (hcoupled.notFiring (by rw [AlertEntity.core, hstate]; simp)).2.1
  rw [hsince] at hnone
  cases hnone

/-! ### The log of an entity -/

theorem logged_evaluate (hs : ∀ e ∈ s.entities.rows,
      Logged e.core ((entityRecords s.produced e.assignmentId).map LogRecord.entry)) :
    ∀ e ∈ (s.evaluate a).entities.rows, Logged e.core
      ((entityRecords (s.evaluate a).produced e.assignmentId).map LogRecord.entry) := by
  obtain ⟨g, hrows, hstep⟩ := s.evaluate_rows a
  intro e' he'
  rw [hrows] at he'
  obtain ⟨e, he, rfl⟩ := List.mem_map.1 he'
  obtain ⟨hid, records, hasHealthy, hrecords, -, htransition⟩ := hstep e he
  rw [hid, hrecords, map_append]
  exact htransition.episodes (hs e he)

/-- What the records of an evaluation say about the entity they are written for. -/
def RecordsFit (e e' : AlertEntity) (records : List LogRecord) : Prop :=
  (records = [] → e'.state = e.state ∧ e'.severity = e.severity) ∧
    ∀ r ∈ records, if r.action = .clear then
      r.severity = "healthy" ∧ e.state = .firing ∧ e'.severity = none
    else e'.severity = some r.severity

/-- **The log of every entity is a sequence of episodes**, the last of which is open, with the
severity of the entity, while it fires; each evaluation adds what fits to the change of the
entity; and the records are all in the alert log if no insert fails. -/
theorem logged_of_run {start s : History} (hfresh : start.Fresh)
    (h : Run History.step (fun _ _ => True) start s) : (∀ e ∈ s.entities.rows,
      Logged e.core ((entityRecords s.produced e.assignmentId).map LogRecord.entry)) ∧
    (∀ a, ∀ e ∈ s.entities.rows, ∃ e' ∈ (s.evaluate a).entities.rows,
      e'.assignmentId = e.assignmentId ∧ ∃ records,
        entityRecords (s.evaluate a).produced e.assignmentId =
          entityRecords s.produced e.assignmentId ++ records ∧ RecordsFit e e' records) ∧
    (Run History.step (fun _ a => a.logInserted = true) start s → s.alertLog = s.produced) := by
  refine ⟨?_, fun a e he => ?_, fun hinserted => ?_⟩
  · refine h.invariant (I := fun s => ∀ e ∈ s.entities.rows,
      Logged e.core ((entityRecords s.produced e.assignmentId).map LogRecord.entry)) ?_ ?_
    · intro e he
      obtain ⟨enabled, assignment, rfl⟩ := hfresh.synced e he
      rw [hfresh.produced]
      exact ⟨trivial, by simp [newEntity, AlertEntity.core, entityRecords, openSeverity], rfl⟩
    · intro s a s' hs _ hstep
      cases some.inj hstep
      exact logged_evaluate hs
  · obtain ⟨g, hrows, hstep⟩ := s.evaluate_rows a
    obtain ⟨hid, records, hasHealthy, hrecords, -, htransition⟩ := hstep e he
    obtain ⟨hsilent, hentries⟩ := htransition.records
    refine ⟨g e, hrows ▸ mem_map_of_mem he, hid, records, hrecords, fun hnil => ?_,
      fun r hr => ?_⟩
    · exact hsilent (by rw [hnil, map_nil])
    · exact hentries r.entry (mem_map_of_mem hr)
  · refine hinserted.invariant (I := fun s => s.alertLog = s.produced) ?_ ?_
    · rw [hfresh.alertLog, hfresh.produced]
    · intro s a s' hs hlogged hstep
      cases some.inj hstep
      rw [History.evaluate, if_pos hlogged, hs]

theorem logged_latencyHigh : (latencyStart.evaluate (latencyHigh true)).alertLog =
      (latencyStart.evaluate (latencyHigh true)).produced :=
  (logged_of_run latencyStart_fresh (.step .start trivial rfl)).2.2 (.step .start rfl rfl)

/-- The record of a clear does not carry the severity that was cleared; and when an insert
fails, the log of the entity begins with a clear. -/
theorem latencyDefinition_log : latencyStart.Fresh ∧
    (∃ s, Run History.step (fun _ _ => True) latencyStart s ∧ ∃ e ∈ s.entities.rows,
      e.severity = some "warning" ∧ ∃ r,
        entityRecords (s.evaluate latencyNormal).alertLog e.assignmentId =
          entityRecords s.alertLog e.assignmentId ++ [r] ∧
        r.action = .clear ∧ r.severity ≠ "warning") ∧
    ∃ s, Run History.step (fun _ _ => True) latencyStart s ∧ ∃ e ∈ s.entities.rows,
      ¬Episodes none ((entityRecords s.alertLog e.assignmentId).map LogRecord.entry) := by
  refine ⟨latencyStart_fresh, ⟨latencyStart.evaluate (latencyHigh true),
    .step .start trivial rfl, ?_⟩, (latencyStart.evaluate (latencyHigh false)).evaluate
      latencyNormal, .step (.step .start trivial rfl) trivial rfl, ?_⟩
  · have hrows : ((latencyStart.evaluate (latencyHigh true)).entities.rows.map
        fun e => (e.assignmentId, e.severity)) = [("a1", some "warning")] := by decide +kernel
    obtain ⟨e, he, heq⟩ := List.mem_map.1 (hrows ▸ mem_singleton_self _)
    obtain ⟨hid, hseverity⟩ := Prod.mk.inj heq
    have hrecords : (entityRecords (evaluateDefinitionIsolated latencyNormal.table
        latencyNormal.defn (latencyStart.evaluate (latencyHigh true)).entities
        latencyNormal.cycle).2 "a1").map LogRecord.entry = [⟨.clear, "healthy"⟩] := by
      decide +kernel
    obtain ⟨r, hr, hentry⟩ := List.map_eq_singleton_iff.1 hrecords
    obtain ⟨haction, hhealthy⟩ := Entry.mk.inj hentry
    refine ⟨e, he, hseverity, r, ?_, haction, ?_⟩
    · rw [hid, ← hr]
      exact filter_append ..
    · rw [show r.severity = "healthy" from hhealthy]
      decide
  · have hrows : ((latencyStart.evaluate (latencyHigh false)).evaluate
        latencyNormal).entities.rows.map AlertEntity.assignmentId = ["a1"] := by decide +kernel
    obtain ⟨e, he, hid⟩ := List.mem_map.1 (hrows ▸ mem_singleton_self _)
    have hentries : (entityRecords ((latencyStart.evaluate (latencyHigh false)).evaluate
        latencyNormal).alertLog "a1").map LogRecord.entry = [⟨.clear, "healthy"⟩] := by
      decide +kernel
    refine ⟨e, he, ?_⟩
    rw [hid, hentries]
    rintro ⟨hfire, -⟩
    cases hfire

end MonCTL.Alerting
