import MonCTL.Alerting.InstanceSync
import MonCTL.Alerting.Lifecycle
import MonCTL.Lib.Runs

/-!
# Runs of Evaluation Cycles

A cycle evaluates a definition over its entities. What the queries find is collected first
(`findings`); the loop over the entities then only reads it. For each entity the loop makes
one transition of the lifecycle, or leaves it alone.

The definition may be edited between two cycles, so every cycle brings its own. The records
of a cycle are put into the alert log by one insert, after the session is committed; when the
insert fails they are lost.
-/

namespace MonCTL.Alerting

open List Dsl

/-! ### What a cycle finds -/

/-- What the loop over the entities reads, and the entities after the queries. -/
structure Findings where
  fresh : List Uuid
  results : List (String × Firing)
  hasHealthy : Bool
  healthy : Firing
  instances : List AlertEntity

/-- What the queries of a compiled definition find, unless one of them raises. -/
def compiledFindings (table : String) (compiled : CompiledDefinition)
    (instances : List AlertEntity) (c : Cycle) : Except QueryFailure Findings :=
  (evaluateTiers c.clickHouse compiled.isConfigChanged c.thresholdVars 0 compiled.tiers
    instances).map fun tiers =>
      let healthy := evaluateHealthy c.clickHouse compiled.isConfigChanged c.thresholdVars
        compiled.healthy tiers.2
      { fresh := freshAssignments c.clickHouse table instances compiled.isConfigChanged
        results := tiers.1
        hasHealthy := compiled.healthy.isSome
        healthy := healthy.1
        instances := healthy.2 }

/-- What a cycle finds; nothing when the definition is skipped or a query raises. -/
def findings (table : String) (defn : AlertDefinition) (instances : List AlertEntity)
    (c : Cycle) : Option Findings :=
  (compileDefinition table defn).bind fun compiled =>
    if compiled.tiers = [] ∨ instances = [] then none
    else (compiledFindings table compiled instances c).toOption

/-- The body of the loop over the entities. -/
def Findings.update (f : Findings) (defn : AlertDefinition) (now : Timestamp)
    (e : AlertEntity) : AlertEntity × List LogRecord :=
  updateEntity defn now f.fresh f.results f.hasHealthy f.healthy e

/-- What a cycle decides about an entity: whether the alert is raised, or nothing. -/
def Findings.outcome (f : Findings) (e : AlertEntity) : Option Bool :=
  if e.assignmentId ∉ f.fresh then none
  else if (effectiveTier f.results e.key).isSome then some true
  else if f.hasHealthy then
    if e.key ∈ f.healthy.keys ∧ e.state = .firing then some false else none
  else some false

theorem evaluateCompiled_eq (table : String) (defn : AlertDefinition)
    (compiled : CompiledDefinition) (instances : List AlertEntity) (c : Cycle) :
    evaluateCompiled table defn compiled instances c =
      (compiledFindings table compiled instances c).map fun f =>
        ((f.instances.map (f.update defn c.now)).map Prod.fst,
          (f.instances.map (f.update defn c.now)).flatMap Prod.snd) := by
  rw [evaluateCompiled, compiledFindings]
  cases evaluateTiers c.clickHouse compiled.isConfigChanged c.thresholdVars 0 compiled.tiers
    instances <;> rfl

theorem Entities.commit_enabled (entities : Entities) :
    entities.commit entities.enabled = entities.rows := by
  rw [Entities.commit]
  refine (map_congr_left fun e he => ?_).trans (map_id _)
  cases hfind : entities.enabled.find? (·.assignmentId = e.assignmentId) with
  | none => rfl
  | some x =>
    have hmem := (List.mem_filter.1 (mem_of_find?_eq_some hfind)).1
    have hid : x.assignmentId = e.assignmentId := by simpa using find?_some hfind
    exact Entities.eq_of_assignmentId hmem he hid

/-- **A cycle is the loop over what was found**, or does nothing. -/
theorem evaluateDefinitionIsolated_eq (table : String) (defn : AlertDefinition)
    (entities : Entities) (c : Cycle) : evaluateDefinitionIsolated table defn entities c =
      ((findings table defn entities.enabled c).map fun f =>
        (entities.commit ((f.instances.map (f.update defn c.now)).map Prod.fst),
          (f.instances.map (f.update defn c.now)).flatMap Prod.snd)).getD
        (entities.rows, []) := by
  rw [evaluateDefinitionIsolated, evaluateDefinition, findings]
  cases compileDefinition table defn with
  | none => simp [entities.commit_enabled]
  | some compiled =>
    dsimp only [Option.bind_some]
    by_cases hskip : compiled.tiers = [] ∨ entities.enabled = []
    · simp [hskip, entities.commit_enabled]
    · rw [if_neg hskip, if_neg hskip, evaluateCompiled_eq]
      cases compiledFindings table compiled entities.enabled c <;> rfl

/-! ### The queries only change labels -/

def AlertEntity.relabel (e : AlertEntity) (labels : Dict String String) : AlertEntity :=
  { e with entityLabels := labels }

/-- The same entities, up to their labels. -/
def Relabelled (l l' : List AlertEntity) : Prop :=
  List.Forall₂ (fun e e' => ∃ labels, e' = e.relabel labels) l l'

theorem Relabelled.refl (l : List AlertEntity) : Relabelled l l :=
  List.forall₂_same.2 fun e _ => ⟨e.entityLabels, rfl⟩

theorem Relabelled.trans {l₁ l₂ l₃ : List AlertEntity} (h₁ : Relabelled l₁ l₂)
    (h₂ : Relabelled l₂ l₃) : Relabelled l₁ l₃ := by
  induction h₁ generalizing l₃ with
  | nil => exact h₂
  | cons hhead _ ih =>
    cases h₂ with
    | cons hhead' htail =>
      obtain ⟨labels, rfl⟩ := hhead
      obtain ⟨labels', rfl⟩ := hhead'
      exact .cons ⟨labels', rfl⟩ (ih htail)

theorem storeBaseline_relabelled (aid : Uuid) (hash : String) (l : List AlertEntity) :
    Relabelled l (storeBaseline aid hash l) := by
  rw [storeBaseline, Relabelled, forall₂_map_right_iff]
  refine List.forall₂_same.2 fun e _ => ?_
  split
  · exact ⟨_, rfl⟩
  · exact ⟨e.entityLabels, rfl⟩

theorem configChangedRow_relabelled (acc : Firing × List AlertEntity) (row : Row) :
    Relabelled acc.2 (configChangedRow acc row).2 := by
  rw [configChangedRow]
  split
  · exact .refl _
  · split
    · split <;> exact .refl _
    · exact storeBaseline_relabelled ..

theorem evaluateConfigChanged_relabelled (ch : ClickHouse) (name : QueryName) (key : String)
    (instances : List AlertEntity) :
    Relabelled instances (evaluateConfigChanged ch name key instances).2 := by
  have hrows : ∀ (rows : List Row) (acc : Firing × List AlertEntity),
      Relabelled acc.2 (rows.foldl configChangedRow acc).2 := by
    intro rows
    induction rows with
    | nil => exact fun acc => .refl _
    | cons row rows ih => exact fun acc => (configChangedRow_relabelled acc row).trans (ih _)
  rw [evaluateConfigChanged]
  split
  · exact .refl _
  next rows _ => exact hrows rows ([], instances)

variable {ch : ClickHouse} {isConfigChanged : Bool} {vars : Variables}
    {instances : List AlertEntity}

theorem evaluateTier_relabelled {name : QueryName} {compiled : CompiledQuery}
    {r : Firing × List AlertEntity}
    (h : evaluateTier ch isConfigChanged vars name compiled instances = .ok r) :
    Relabelled instances r.2 := by
  cases isConfigChanged with
  | true =>
    rw [evaluateTier, if_pos rfl] at h
    rw [← Except.ok.inj h]
    exact evaluateConfigChanged_relabelled ..
  | false =>
    rw [evaluateTier_eq_ok h]
    exact .refl _

theorem evaluateTiers_relabelled {i : ℕ} {tiers : List (String × CompiledQuery)}
    {r : List (String × Firing) × List AlertEntity}
    (h : evaluateTiers ch isConfigChanged vars i tiers instances = .ok r) :
    Relabelled instances r.2 := by
  induction tiers generalizing i instances r with
  | nil =>
    rw [← Except.ok.inj h]
    exact .refl _
  | cons tier tiers ih =>
    rw [evaluateTiers] at h
    obtain ⟨first, hfirst, h⟩ := StateExcept.bind_eq_ok.1 h
    obtain ⟨rest, hrest, h⟩ := StateExcept.bind_eq_ok.1 h
    have htail := ih hrest
    rw [← Except.ok.inj h]
    exact (evaluateTier_relabelled hfirst).trans htail

theorem evaluateHealthy_relabelled (ch : ClickHouse) (isConfigChanged : Bool)
    (vars : Variables) (healthy : Option CompiledQuery) (instances : List AlertEntity) :
    Relabelled instances (evaluateHealthy ch isConfigChanged vars healthy instances).2 := by
  cases healthy with
  | none => exact .refl _
  | some compiled =>
    rw [evaluateHealthy]
    split
    next hresult => exact evaluateTier_relabelled hresult
    · exact .refl _

variable {table : String} {c : Cycle} {f : Findings}

theorem compiledFindings_relabelled {compiled : CompiledDefinition}
    (h : compiledFindings table compiled instances c = .ok f) : Relabelled instances f.instances :=
    by
  rw [compiledFindings] at h
  cases htiers : evaluateTiers c.clickHouse compiled.isConfigChanged c.thresholdVars 0
    compiled.tiers instances with
  | error => rw [htiers] at h; cases h
  | ok tiers =>
    rw [htiers] at h
    rw [← Except.ok.inj h]
    exact (evaluateTiers_relabelled htiers).trans (evaluateHealthy_relabelled ..)

variable {defn : AlertDefinition}

/-- **The queries change nothing but labels.** -/
theorem findings_relabelled
    (h : findings table defn instances c = some f) : Relabelled instances f.instances := by
  obtain ⟨compiled, -, h⟩ := Option.bind_eq_some_iff.1 h
  split at h
  · cases h
  · cases hfound : compiledFindings table compiled instances c with
    | error => rw [hfound] at h; cases h
    | ok found =>
      rw [hfound] at h
      rw [← Option.some.inj h]
      exact compiledFindings_relabelled hfound

variable {l l' : List AlertEntity}

theorem Relabelled.filter_eq_nil (h : Relabelled l l') {aid : Uuid}
    (hnotMem : aid ∉ l.map AlertEntity.assignmentId) : l'.filter (·.assignmentId = aid) = [] := by
  induction h with
  | nil => rfl
  | cons hhead _ ih =>
    obtain ⟨labels, rfl⟩ := hhead
    rw [map_cons, mem_cons, not_or] at hnotMem
    have hne : ¬_ = aid := Ne.symm hnotMem.1
    rw [filter_cons_of_neg (by simp [AlertEntity.relabel, hne]), ih hnotMem.2]

theorem Relabelled.filter_assignmentId (h : Relabelled l l')
    (hnodup : (l.map AlertEntity.assignmentId).Nodup) {e : AlertEntity} (he : e ∈ l) :
    ∃ labels, l'.filter (·.assignmentId = e.assignmentId) = [e.relabel labels] := by
  induction h with
  | nil => cases he
  | @cons first _ _ _ hhead htail ih =>
    obtain ⟨labels, rfl⟩ := hhead
    rw [map_cons, nodup_cons] at hnodup
    rcases List.mem_cons.1 he with rfl | he
    · rw [filter_cons_of_pos (by simp [AlertEntity.relabel]), Relabelled.filter_eq_nil htail hnodup.1]
      exact ⟨labels, rfl⟩
    · have hne : first.assignmentId ≠ e.assignmentId := fun heq =>
        hnodup.1 (heq ▸ mem_map_of_mem he)
      rw [filter_cons_of_neg (by simp [AlertEntity.relabel, hne])]
      exact ih hnodup.2 he

/-! ### What a cycle does to an entity -/

/-- **What a cycle does to an entity**: nothing, or one round of the loop, on the entity with
the labels that the queries left. -/
inductive EntityCycle (defn : AlertDefinition) (now : Timestamp) (found : Option Findings)
    (e : AlertEntity) : AlertEntity → List LogRecord → Prop
  | skipped : found = none ∨ e.enabled = false → EntityCycle defn now found e e []
  | evaluated {f : Findings} (labels : Dict String String) : found = some f →
      e.enabled = true →
      EntityCycle defn now found e (f.update defn now (e.relabel labels)).1
        (f.update defn now (e.relabel labels)).2

theorem filter_flatMap_update (f : Findings) (defn : AlertDefinition) (now : Timestamp)
    (aid : Uuid) (instances : List AlertEntity) :
    ((instances.map (f.update defn now)).flatMap Prod.snd).filter (·.assignmentId = aid) =
      (instances.filter (·.assignmentId = aid)).flatMap fun e => (f.update defn now e).2 := by
  induction instances with
  | nil => rfl
  | cons e instances ih =>
    have hframe := (updateEntity_frame defn now f.fresh f.results f.hasHealthy f.healthy e).2
    rw [map_cons, flatMap_cons, filter_append, ih]
    by_cases hid : e.assignmentId = aid
    · rw [filter_cons_of_pos (by simpa using hid), flatMap_cons]
      congr 1
      exact List.filter_eq_self.2 fun r hr => by simpa using (hframe r hr).trans hid
    · rw [filter_cons_of_neg (by simpa using hid)]
      have hnil : (f.update defn now e).2.filter (·.assignmentId = aid) = [] :=
        List.filter_eq_nil_iff.2 fun r hr => by simpa using (hframe r hr).symm ▸ hid
      rw [hnil, nil_append]

theorem find?_map_update (f : Findings) (defn : AlertDefinition) (now : Timestamp)
    (aid : Uuid) (instances : List AlertEntity) :
    ((instances.map (f.update defn now)).map Prod.fst).find? (·.assignmentId = aid) =
      ((instances.filter (·.assignmentId = aid)).head?).map fun e => (f.update defn now e).1 := by
  rw [map_map, find?_map, ← head?_filter]
  congr 2
  refine filter_congr fun e _ => ?_
  have hframe := (updateEntity_frame defn now f.fresh f.results f.hasHealthy f.healthy e).1
  simp only [Function.comp_apply, Findings.update, hframe]

/-- **A cycle treats each entity as `EntityCycle` says**, and its records of an assignment are
those of the assignment's entity. -/
theorem evaluateDefinitionIsolated_entities (table : String) (defn : AlertDefinition)
    (entities : Entities) (c : Cycle) : ∃ g : AlertEntity → AlertEntity,
      (evaluateDefinitionIsolated table defn entities c).1 = entities.rows.map g ∧
      ∀ e ∈ entities.rows, EntityCycle defn c.now (findings table defn entities.enabled c) e (g e)
        ((evaluateDefinitionIsolated table defn entities c).2.filter
          (·.assignmentId = e.assignmentId)) := by
  rw [evaluateDefinitionIsolated_eq]
  cases hfound : findings table defn entities.enabled c with
  | none => exact ⟨id, (map_id _).symm, fun e _ => .skipped (.inl rfl)⟩
  | some f =>
    refine ⟨_, rfl, fun e he => ?_⟩
    dsimp only [Option.map_some, Option.getD_some]
    rw [find?_map_update, filter_flatMap_update]
    have hrelabelled := findings_relabelled hfound
    by_cases henabled : e.enabled = true
    · have hmem : e ∈ entities.enabled := List.mem_filter.2 ⟨he, henabled⟩
      have hnodup : (entities.enabled.map AlertEntity.assignmentId).Nodup :=
        entities.assignments_nodup.sublist (List.filter_sublist.map _)
      obtain ⟨labels, hfilter⟩ := hrelabelled.filter_assignmentId hnodup hmem
      rw [hfilter]
      simp only [head?_cons, Option.map_some, Option.getD_some, flatMap_cons,
        flatMap_nil, append_nil]
      exact .evaluated labels rfl henabled
    · have hnotMem : e.assignmentId ∉ entities.enabled.map AlertEntity.assignmentId := by
        intro hmem
        obtain ⟨x, hx, hid⟩ := List.mem_map.1 hmem
        obtain ⟨hrow, hx⟩ := List.mem_filter.1 hx
        obtain rfl := Entities.eq_of_assignmentId hrow he hid
        exact henabled hx
      rw [hrelabelled.filter_eq_nil hnotMem]
      exact .skipped (.inr (by simpa using henabled))

variable {now : Timestamp} {found : Option Findings} {e e' : AlertEntity} {records : List LogRecord}

theorem EntityCycle.assignmentId
    (h : EntityCycle defn now found e e' records) : e'.assignmentId = e.assignmentId := by
  cases h with
  | skipped => rfl
  | evaluated labels => exact (updateEntity_frame ..).1

/-! ### The loop follows the lifecycle -/

@[simp] theorem core_evaluatedAt (e : AlertEntity) (now : Timestamp) :
    (e.evaluatedAt now).core = e.core := rfl

@[simp] theorem core_relabel (e : AlertEntity) (labels : Dict String String) :
    (e.relabel labels).core = e.core := rfl

@[simp] theorem core_refreshFromHealthy (e : AlertEntity) (healthy : Firing) :
    (e.refreshFromHealthy healthy).core = e.core := by
  rw [AlertEntity.refreshFromHealthy]
  split <;> rfl

theorem clearEntity_transition (defn : AlertDefinition) (now : Timestamp) (hasHealthy : Bool)
    (healthy : Firing) (e : AlertEntity) :
    Transition hasHealthy now e.core (clearEntity defn now hasHealthy healthy e).1.core
      ((clearEntity defn now hasHealthy healthy e).2.map LogRecord.entry)
      (if hasHealthy then if e.key ∈ healthy.keys ∧ e.state = .firing then some false else none
        else some false) := by
  rw [clearEntity]
  cases hasHealthy with
  | true =>
    rw [if_pos rfl, if_pos rfl]
    by_cases hmatch : e.key ∈ healthy.keys ∧ e.state = .firing
    · rw [if_pos hmatch, if_pos hmatch, AlertEntity.resolve, core_refreshFromHealthy]
      exact .cleared e.core hmatch.2
    · rw [if_neg hmatch, if_neg hmatch]
      exact .unchanged e.core
  | false =>
    rw [if_neg Bool.false_ne_true, if_neg Bool.false_ne_true]
    by_cases hfiring : e.state = .firing
    · rw [if_pos hfiring, AlertEntity.resolve, core_refreshFromHealthy]
      exact .cleared e.core hfiring
    · rw [if_neg hfiring]
      exact .idle e.core hfiring

@[simp] theorem entry_buildLogRecord (defn : AlertDefinition) (e : AlertEntity)
    (action : LogAction) (now : Timestamp) :
    (buildLogRecord defn e action now).entry =
      ⟨action, if action = .clear then "healthy" else e.severity.getD ""⟩ := rfl

theorem fireEntity_transition (defn : AlertDefinition) (now : Timestamp) (hasHealthy : Bool)
    (severity : String) (data : FireData) (e : AlertEntity) :
    Transition hasHealthy now e.core (fireEntity defn now severity data e).1.core
      ((fireEntity defn now severity data e).2.map LogRecord.entry) (some true) := by
  rw [fireEntity]
  dsimp only
  generalize (if data.labels ≠ [] then data.labels else e.entityLabels) = labels
  by_cases hidle : e.state ≠ .firing
  · rw [if_pos hidle]
    exact .fired e.core severity hidle
  · have hfiring : e.state = .firing := not_not.1 hidle
    rw [if_neg hidle]
    by_cases hmoved : severityRank (some severity) - severityRank e.severity ≠ 0
    · have haction : (if severityRank (some severity) - severityRank e.severity > 0 then
          LogAction.escalate else .downgrade) = moveAction e.severity (some severity) := by
        rw [moveAction]
        exact if_congr (by omega) rfl rfl
      have hrank : severityRank e.core.severity ≠ severityRank (some severity) := fun heq =>
        hmoved (sub_eq_zero.2 heq.symm)
      have hstep : Transition hasHealthy now e.core _ _ _ := .moved e.core severity hfiring hrank
      rw [if_pos hmoved, haction, map_singleton, entry_buildLogRecord,
        if_neg (moveAction_ne_clear _ _)]
      rw [← hfiring] at hstep
      exact hstep
    · rw [if_neg hmoved]
      exact .continued e.core hfiring

/-- **One round of the loop is a transition of the lifecycle.** -/
theorem Findings.update_transition (f : Findings) (defn : AlertDefinition) (now : Timestamp)
    (e : AlertEntity) : Transition f.hasHealthy now e.core (f.update defn now e).1.core
      ((f.update defn now e).2.map LogRecord.entry) (f.outcome e) := by
  rw [Findings.update, updateEntity, Findings.outcome]
  by_cases hstale : e.assignmentId ∉ f.fresh
  · rw [if_pos hstale, if_pos hstale]
    exact .unchanged e.core
  · rw [if_neg hstale, if_neg hstale]
    cases htier : effectiveTier f.results e.key with
    | none =>
      rw [if_neg (by simp)]
      exact clearEntity_transition defn now f.hasHealthy f.healthy (e.evaluatedAt now)
    | some tier =>
      rw [if_pos Option.isSome_some]
      exact fireEntity_transition defn now f.hasHealthy tier.1 tier.2 (e.evaluatedAt now)

/-- **A cycle makes one transition of an entity's lifecycle**, with the outcome that was found
for it. -/
theorem EntityCycle.transition (h : EntityCycle defn now found e e' records) :
    ∃ hasHealthy, (∀ f, found = some f → hasHealthy = f.hasHealthy) ∧
      Transition hasHealthy now e.core e'.core (records.map LogRecord.entry)
        (if e.enabled then found.bind fun f => f.outcome e else none) := by
  cases h with
  | skipped hskip =>
    have hnone : (if e.enabled then found.bind fun f => f.outcome e else none) = none := by
      rcases hskip with rfl | henabled
      · simp
      · simp [henabled]
    rw [hnone]
    refine ⟨(found.map Findings.hasHealthy).getD false, fun f hf => by rw [hf]; rfl, ?_⟩
    exact .unchanged e.core
  | @evaluated f labels hfound henabled =>
    refine ⟨f.hasHealthy, fun g hg => ?_, ?_⟩
    · rw [Option.some.inj (hfound.symm.trans hg)]
    · rw [if_pos henabled, hfound]
      exact f.update_transition defn now (e.relabel labels)

/-! ### Runs -/

/-- One evaluation of a definition, and whether the insert into the alert log succeeds. -/
structure Evaluation where
  table : String
  defn : AlertDefinition
  cycle : Cycle
  logInserted : Bool

/-- The entities of a definition over a run, with the outcomes that were decided for each, the
records that were handed over, and those that are in the alert log. -/
structure History where
  entities : Entities
  decided : Uuid → List Bool
  produced : List LogRecord
  alertLog : List LogRecord

def History.findings (s : History) (a : Evaluation) : Option Findings :=
  MonCTL.Alerting.findings a.table a.defn s.entities.enabled a.cycle

/-- What one evaluation decides about the entity of an assignment. -/
def History.outcome (s : History) (a : Evaluation) (aid : Uuid) : Option Bool :=
  (s.entities.enabled.find? (·.assignmentId = aid)).bind fun e =>
    (s.findings a).bind fun f => f.outcome e

def Entities.evaluate (entities : Entities) (a : Evaluation) : Entities where
  rows := (evaluateDefinitionIsolated a.table a.defn entities a.cycle).1
  assignments_nodup := by
    obtain ⟨g, hrows, hcycle⟩ := evaluateDefinitionIsolated_entities a.table a.defn entities a.cycle
    have hids : entities.rows.map (AlertEntity.assignmentId ∘ g) =
        entities.rows.map AlertEntity.assignmentId :=
      map_congr_left fun e he => (hcycle e he).assignmentId
    rw [hrows, map_map, hids]
    exact entities.assignments_nodup

/-- One evaluation: the session is committed first, and then the records are inserted. -/
def History.evaluate (s : History) (a : Evaluation) : History :=
  let records := (evaluateDefinitionIsolated a.table a.defn s.entities a.cycle).2
  { entities := s.entities.evaluate a
    decided := fun aid => s.decided aid ++ (s.outcome a aid).toList
    produced := s.produced ++ records
    alertLog := if a.logInserted then s.alertLog ++ records else s.alertLog }

/-- An evaluation is always possible. -/
def History.step (s : History) (a : Evaluation) : Option History := some (s.evaluate a)

/-- The start of a run: entities as the sync loops create them, and nothing logged. -/
structure History.Fresh (s : History) : Prop where
  synced : ∀ e ∈ s.entities.rows, ∃ enabled assignment, e = newEntity enabled assignment
  decided : ∀ aid, s.decided aid = []
  produced : s.produced = []
  alertLog : s.alertLog = []

theorem History.outcome_eq (s : History) (a : Evaluation) {e : AlertEntity}
    (he : e ∈ s.entities.rows) : s.outcome a e.assignmentId =
      if e.enabled then (s.findings a).bind fun f => f.outcome e else none := by
  rw [History.outcome]
  have hunique : ∀ x ∈ s.entities.enabled, x.assignmentId = e.assignmentId → x = e :=
    fun x hx hid => Entities.eq_of_assignmentId (List.mem_filter.1 hx).1 he hid
  cases hfind : s.entities.enabled.find? (·.assignmentId = e.assignmentId) with
  | none =>
    have hdisabled : ¬e.enabled = true := fun henabled => by
      have := List.find?_eq_none.1 hfind e (List.mem_filter.2 ⟨he, henabled⟩)
      simp at this
    rw [if_neg hdisabled]
    rfl
  | some x =>
    have hx := mem_of_find?_eq_some hfind
    obtain rfl := hunique x hx (by simpa using find?_some hfind)
    rw [if_pos (List.mem_filter.1 hx).2]
    rfl

def entityRecords (records : List LogRecord) (aid : Uuid) : List LogRecord :=
  records.filter (·.assignmentId = aid)

/-- **What one evaluation does to the entities**: each makes a transition, whose records are
those of its assignment, and whose outcome is the one decided for it. -/
theorem History.evaluate_rows (s : History) (a : Evaluation) :
    ∃ g : AlertEntity → AlertEntity, (s.evaluate a).entities.rows = s.entities.rows.map g ∧
      ∀ e ∈ s.entities.rows, (g e).assignmentId = e.assignmentId ∧ ∃ records hasHealthy,
          entityRecords (s.evaluate a).produced e.assignmentId =
            entityRecords s.produced e.assignmentId ++ records ∧
          (∀ f, s.findings a = some f → hasHealthy = f.hasHealthy) ∧
          Transition hasHealthy a.cycle.now e.core (g e).core (records.map LogRecord.entry)
            (s.outcome a e.assignmentId) := by
  obtain ⟨g, hrows, hcycle⟩ := evaluateDefinitionIsolated_entities a.table a.defn s.entities a.cycle
  refine ⟨g, hrows, fun e he => ⟨(hcycle e he).assignmentId, ?_⟩⟩
  obtain ⟨hasHealthy, hhealthy, htransition⟩ := (hcycle e he).transition
  refine ⟨_, hasHealthy, filter_append .., hhealthy, ?_⟩
  rw [s.outcome_eq a he]
  exact htransition

end MonCTL.Alerting
