import MonCTL.Alerting.Cycles

/-!
# No Sample Escapes Evaluation

One evaluation of a definition reads three things at three moments: which assignments have
successful samples newer than their cutoff, the clock, and what the query of each tier finds.
The time it has read becomes the next cutoff of the assignments that had new samples. Samples
become visible at any moment in between.

## What a state records

A sample is a row of the table that freshness is read from. It is stamped when it becomes
visible, by a column that keeps milliseconds, while the engine reads its clock to the
microsecond. Rows stay visible. One evaluation runs at a time; assignments may be created and
entities switched on or off while it runs, and the session then writes back only what the
evaluation has changed. An evaluation that is left by an exception writes nothing. Those that
were committed are recorded with what each of their queries has seen.
-/

namespace MonCTL.Alerting.Freshness

open List

/-! ### Samples -/

/-- A row of the table that freshness is read from; it is a success if it has no error
category, as every row of the table of configurations. -/
structure Sample where
  id : ℕ
  assignmentId : Uuid
  receivedAt : Timestamp
  success : Bool
  deriving DecidableEq

/-- A time in the precision of ClickHouse's columns and parameters. -/
def toMillis (t : Timestamp) : Timestamp := t / 1000 * 1000

/-- What counts as new for the query of `_fresh_assignments`. -/
def countsFor (request : FreshnessRequest) (aid : Uuid) (x : Sample) : Bool :=
  x.assignmentId = aid ∧ toMillis request.cutoff < x.receivedAt ∧
    (request.successesOnly = true → x.success = true)

/-- The answer to the query of `_fresh_assignments`: the newest stamp of every assignment. -/
def newest (samples : List Sample) (request : FreshnessRequest) : List (Uuid × Timestamp) :=
  request.assignmentIds.filterMap fun aid =>
    ((samples.filter (countsFor request aid)).map Sample.receivedAt).max?.map fun t => (aid, t)

/-- The answer to the query of a tier, unless it fails, and the samples it has seen. -/
structure Answer where
  rows : Option (TierRequest → List Row)
  seen : List Sample

/-- The answers to the queries of an evaluation, in the order in which they are sent. -/
def clickHouse (compiled : CompiledDefinition) (visible : Option (List Sample))
    (answers : List Answer) : ClickHouse where
  freshness request := visible.map fun samples => newest samples request
  tier name request :=
    match name with
    | .freshness => none
    | .tier i => (answers[i]?.bind Answer.rows).map fun rows => rows request
    | .healthy => (answers[compiled.tiers.length]?.bind Answer.rows).map fun rows => rows request

/-! ### States -/

/-- How far an evaluation has come. -/
inductive Ongoing
  /-- The entities have been loaded. -/
  | loaded (compiled : CompiledDefinition) (entities : Entities)
  /-- The query of `_fresh_assignments` has been answered, unless it has failed. -/
  | asked (compiled : CompiledDefinition) (entities : Entities) (visible : Option (List Sample))
  /-- The clock has been read, and some tiers have been queried. -/
  | running (compiled : CompiledDefinition) (entities : Entities)
      (visible : Option (List Sample)) (now : Timestamp) (answers : List Answer)

/-- An evaluation that was committed. -/
structure Finished where
  instances : List AlertEntity
  visible : Option (List Sample)
  fresh : List Uuid
  answers : List Answer

/-- One definition, with the clock that the engine and ClickHouse share. -/
structure State where
  clock : Timestamp
  samples : List Sample := []
  entities : Entities := ⟨[], nodup_nil⟩
  ongoing : Option Ongoing := none
  finished : List Finished := []

/-! ### Steps -/

/-- How many tiers an evaluation queries, the healthy one included. -/
def queryCount (compiled : CompiledDefinition) : ℕ :=
  compiled.tiers.length + if compiled.healthy.isSome then 1 else 0

/-- The failure of a query raises, unless it was the healthy tier's or a query for changed
configuration. -/
def raised (compiled : CompiledDefinition) (answers : List Answer) : Bool :=
  !compiled.isConfigChanged && (answers.take compiled.tiers.length).any (·.rows.isNone)

variable (evaluated : List AlertEntity)

/-- What a session writes back to a row: the columns an evaluation changes. -/
def writeBack (e : AlertEntity) : AlertEntity :=
  match evaluated.find? (·.assignmentId = e.assignmentId) with
  | some e' => { e' with enabled := e.enabled }
  | none => e

theorem writeBack_assignmentId (e : AlertEntity) :
    (writeBack evaluated e).assignmentId = e.assignmentId := by
  rw [writeBack]
  split
  next e' hfind => simpa using find?_some hfind
  · rfl

/-- The rows after a session has written back. -/
def written (entities : Entities) : Entities where
  rows := entities.rows.map (writeBack evaluated)
  assignments_nodup := by
    rw [map_map]
    exact (map_congr_left fun e _ => writeBack_assignmentId evaluated e) ▸
      entities.assignments_nodup

/-- What can happen. -/
inductive Action
  /-- Time passes. -/
  | tick (t : Timestamp)
  /-- A sample becomes visible. -/
  | insert (assignmentId : Uuid) (success : Bool)
  /-- An entity is made for an assignment that has none. -/
  | addEntity (enabled : Bool) (assignment : AppAssignment)
  /-- `update_alert_instance`. -/
  | updateAlertInstance (assignmentId : Uuid) (enabled : Bool)
  /-- An evaluation begins: the definition is compiled and its entities are loaded. -/
  | load
  /-- The query of `_fresh_assignments` is answered, or fails. -/
  | askFreshness (answered : Bool)
  | readClock
  /-- The query of the next tier is answered, or fails. -/
  | askTier (rows : Option (TierRequest → List Row))
  /-- The loop over the entities, and the commit. A query that has raised rolls the session
  back instead. -/
  | finish (thresholdVars : Variables)
  /-- Another exception, or the end of the process. -/
  | abort

/-- The end of an evaluation. -/
def finish (table : String) (defn : AlertDefinition) (compiled : CompiledDefinition)
    (entities : Entities) (visible : Option (List Sample)) (answers : List Answer) (c : Cycle)
    (s : State) : State :=
  match evaluateCompiled table defn compiled entities.enabled c with
  | .ok (updated, _) =>
    { s with
      entities := written updated s.entities
      ongoing := none
      finished := s.finished ++
        [{ instances := entities.enabled
           visible
           fresh := freshAssignments c.clickHouse table entities.enabled compiled.isConfigChanged
           answers }] }
  | .error _ => { s with ongoing := none }

/-- One step. A definition that does not compile, raises nothing or has no enabled entity is
skipped before it asks anything. -/
def step (table : String) (defn : AlertDefinition) (s : State) : Action → Option State
  | .tick t => if s.clock ≤ t then some { s with clock := t } else none
  | .insert assignmentId success =>
    some { s with
      samples := s.samples ++
        [{ id := s.samples.length
           assignmentId
           receivedAt := toMillis s.clock
           success }] }
  | .addEntity enabled assignment =>
    some { s with entities := syncAssignment enabled s.entities assignment }
  | .updateAlertInstance assignmentId enabled =>
    some { s with entities := withInstance assignmentId enabled s.entities }
  | .load =>
    match s.ongoing, compileDefinition table defn with
    | none, some compiled =>
      if compiled.tiers = [] ∨ s.entities.enabled = [] then none
      else some { s with ongoing := some (.loaded compiled s.entities) }
    | _, _ => none
  | .askFreshness answered =>
    match s.ongoing with
    | some (.loaded compiled entities) =>
      some { s with
        ongoing := some (.asked compiled entities (if answered then some s.samples else none)) }
    | _ => none
  | .readClock =>
    match s.ongoing with
    | some (.asked compiled entities visible) =>
      some { s with ongoing := some (.running compiled entities visible s.clock []) }
    | _ => none
  | .askTier rows =>
    match s.ongoing with
    | some (.running compiled entities visible now answers) =>
      if answers.length < queryCount compiled ∧ raised compiled answers = false then
        some { s with
          ongoing :=
            some (.running compiled entities visible now
              (answers ++ [{ rows, seen := s.samples }])) }
      else none
    | _ => none
  | .finish thresholdVars =>
    match s.ongoing with
    | some (.running compiled entities visible now answers) =>
      if answers.length = queryCount compiled ∨ raised compiled answers = true then
        some (Freshness.finish table defn compiled entities visible answers
          { clickHouse := clickHouse compiled visible answers, thresholdVars, now } s)
      else none
    | _ => none
  | .abort => if s.ongoing.isSome then some { s with ongoing := none } else none

/-! ### What should hold -/

/-- Some evaluation treated the assignment of the sample as fresh, and each of its queries was
answered and saw the sample. -/
def State.Evaluated (s : State) (x : Sample) : Prop :=
  ∃ f ∈ s.finished, x.assignmentId ∈ f.fresh ∧
    ∀ answer ∈ f.answers, answer.rows.isSome = true ∧ x ∈ answer.seen
  deriving Decidable

/-- **No sample escapes**: a successful sample that was visible when an evaluation asked for new
ones, and whose assignment has an entity that it had loaded, has been evaluated by the time that
evaluation is committed. -/
def State.NoneEscapes (s : State) : Prop :=
  ∀ f ∈ s.finished, ∀ x ∈ f.visible.getD [], x.success = true →
    x.assignmentId ∈ f.instances.map AlertEntity.assignmentId → s.Evaluated x
  deriving Decidable

/-- The stamp is later than a time the engine has read. -/
def Waits (lastEvaluatedAt : Option Timestamp) (stamp : Timestamp) : Prop :=
  ∀ t ∈ lastEvaluatedAt, t < stamp
  deriving Decidable

/-- The time that an evaluation has read, once one of its tiers has been queried. -/
def Ongoing.counted : Ongoing → Option Timestamp
  | .running _ _ _ now (_ :: _) => some now
  | _ => none

/-- The failure of the next query raises: it is not for changed configuration, and it is not the
healthy tier's. -/
def Ongoing.failureRaises : Ongoing → Prop
  | .running compiled _ _ _ answers =>
    compiled.isConfigChanged = false ∧ answers.length < compiled.tiers.length
  | _ => True

instance : ∀ o : Ongoing, Decidable o.failureRaises
  | .running .. => inferInstanceAs (Decidable (_ ∧ _))
  | .loaded .. | .asked .. => inferInstanceAs (Decidable True)

/-- The steps under which no sample escapes. A successful sample gets a stamp later than the last
evaluation of its entity, and than the time read by an evaluation that has queried a tier; and a
query that fails raises. -/
def Allowed (s : State) : Action → Prop
  | .insert assignmentId success =>
    success = true →
      (∀ e ∈ s.entities.rows, e.assignmentId = assignmentId →
        Waits e.lastEvaluatedAt (toMillis s.clock)) ∧
      ∀ o ∈ s.ongoing, Waits o.counted (toMillis s.clock)
  | .askTier rows => rows.isNone = true → ∀ o ∈ s.ongoing, o.failureRaises
  | _ => True

instance (s : State) : ∀ a, Decidable (Allowed s a)
  | .insert _ success =>
    inferInstanceAs (Decidable (success = true → (∀ e ∈ s.entities.rows, _ → _) ∧ ∀ o ∈ _, _))
  | .askTier rows => inferInstanceAs (Decidable (rows.isNone = true → ∀ o ∈ s.ongoing, _))
  | .tick .. | .addEntity .. | .updateAlertInstance .. | .load | .askFreshness .. | .readClock
  | .finish .. | .abort => inferInstanceAs (Decidable True)

/-! ### The answer to the query for new samples -/

theorem toMillis_le (t : Timestamp) : toMillis t ≤ t := Int.ediv_mul_le t (by decide)

variable {aid : Uuid} {x : Sample}

theorem exists_newest {samples : List Sample} {request : FreshnessRequest}
    (haid : aid ∈ request.assignmentIds) (hx : x ∈ samples)
    (hcounts : countsFor request aid x = true) :
    ∃ t, (aid, t) ∈ newest samples request ∧ x.receivedAt ≤ t := by
  have hmem : x.receivedAt ∈
      (samples.filter (countsFor request aid)).map Sample.receivedAt :=
    mem_map_of_mem (List.mem_filter.2 ⟨hx, hcounts⟩)
  cases hmax : ((samples.filter (countsFor request aid)).map Sample.receivedAt).max? with
  | none =>
    rw [List.max?_eq_none_iff.1 hmax] at hmem
    exact absurd hmem not_mem_nil
  | some t =>
    refine ⟨t, List.mem_filterMap.2 ⟨aid, haid, by rw [hmax]; rfl⟩, ?_⟩
    exact (List.max?_eq_some_iff.1 hmax).2 _ hmem

variable {instances : List AlertEntity} {table : String}

theorem cutoff_le {isConfigChanged : Bool} {t : Timestamp} (h : (aid, t) ∈ aidsToCheck instances) :
    (freshnessRequest table instances isConfigChanged).cutoff ≤ t := by
  have hmem : t ∈ (aidsToCheck instances).map Prod.snd := mem_map_of_mem h
  rw [freshnessRequest]
  dsimp only
  cases hmin : ((aidsToCheck instances).map Prod.snd).min? with
  | none =>
    rw [List.min?_eq_none_iff.1 hmin] at hmem
    exact absurd hmem not_mem_nil
  | some m => exact (List.min?_eq_some_iff.1 hmin).2 _ hmem

theorem nodup_keys_aidsToCheck (instances : List AlertEntity) :
    (aidsToCheck instances).keys.Nodup := by
  have hkeys : (cutoffByAid instances).keys.Nodup :=
    nodup_keys_foldl_noteCutoff instances (by simp [Dict.keys])
  refine hkeys.sublist ?_
  rw [aidsToCheck, Dict.keys, Dict.keys]
  induction cutoffByAid instances with
  | nil => exact .slnil
  | cons entry cutoffs ih =>
    cases hcutoff : entry.2 with
    | none =>
      rw [filterMap_cons_none (by rw [hcutoff]; rfl)]
      exact ih.cons _
    | some t =>
      rw [filterMap_cons_some (by rw [hcutoff]; rfl)]
      exact ih.cons_cons _

variable {compiled : CompiledDefinition} {entities : Entities}

/-- **An assignment is fresh** when its entity has never been evaluated, or when the query has
seen a successful sample of it that is newer than the last evaluation. -/
theorem mem_freshAssignments {visible : List Sample} (answers : List Answer) {e : AlertEntity}
    (he : e ∈ entities.enabled) (hx : x ∈ visible) (hsuccess : x.success = true)
    (hid : x.assignmentId = e.assignmentId) (hwaits : Waits e.lastEvaluatedAt x.receivedAt) :
    e.assignmentId ∈ freshAssignments (clickHouse compiled (some visible) answers) table
      entities.enabled compiled.isConfigChanged := by
  have hnodup : (entities.enabled.map AlertEntity.assignmentId).Nodup :=
    entities.assignments_nodup.sublist (List.filter_sublist.map _)
  have hcutoff : (e.assignmentId, e.lastEvaluatedAt) ∈ cutoffByAid entities.enabled :=
    Dict.mem_of_lookup (lookup_foldl_noteCutoff hnodup he rfl)
  rw [freshAssignments]
  cases hlast : e.lastEvaluatedAt with
  | none =>
    have hnew : e.assignmentId ∈
        ((cutoffByAid entities.enabled).filter fun e => e.2 = none).map Prod.fst :=
      List.mem_map.2 ⟨_, List.mem_filter.2 ⟨hcutoff, decide_eq_true hlast⟩, rfl⟩
    split_ifs
    · exact hnew
    · split
      · exact hnew
      · exact mem_append_left _ hnew
  | some t =>
    have hcheck : (e.assignmentId, t) ∈ aidsToCheck entities.enabled :=
      List.mem_filterMap.2 ⟨_, hcutoff, by rw [hlast]; rfl⟩
    have hlookup : (aidsToCheck entities.enabled).lookup e.assignmentId = some t :=
      Dict.lookup_eq_some_of_mem (nodup_keys_aidsToCheck _) hcheck
    have hnewer : t < x.receivedAt := hwaits t hlast
    have hprefilter : toMillis (freshnessRequest table entities.enabled
        compiled.isConfigChanged).cutoff < x.receivedAt :=
      lt_of_le_of_lt ((toMillis_le _).trans (cutoff_le hcheck)) hnewer
    obtain ⟨m, hm, hle⟩ : ∃ m, (e.assignmentId, m) ∈ newest visible
        (freshnessRequest table entities.enabled compiled.isConfigChanged) ∧ x.receivedAt ≤ m :=
      exists_newest (mem_map_of_mem hcheck) hx
        (decide_eq_true ⟨hid, hprefilter, fun _ => hsuccess⟩)
    rw [if_neg (List.ne_nil_of_mem hcheck)]
    refine mem_append_right _ (List.mem_map.2 ⟨_, List.mem_filter.2 ⟨hm, ?_⟩, rfl⟩)
    rw [hlookup]
    exact decide_eq_true (lt_of_lt_of_le hnewer hle)

/-! ### What an evaluation writes -/

@[simp] theorem refreshFromHealthy_lastEvaluatedAt (e : AlertEntity) (healthy : Firing) :
    (e.refreshFromHealthy healthy).lastEvaluatedAt = e.lastEvaluatedAt := by
  unfold AlertEntity.refreshFromHealthy
  split <;> rfl

theorem updateEntity_lastEvaluatedAt (defn : AlertDefinition) (now : Timestamp)
    (fresh : List Uuid) (results : List (String × Firing)) (hasHealthy : Bool) (healthy : Firing)
    (e : AlertEntity) :
    (updateEntity defn now fresh results hasHealthy healthy e).1.lastEvaluatedAt =
      if e.assignmentId ∈ fresh then some now else e.lastEvaluatedAt := by
  unfold updateEntity
  split
  · rfl
  next hfresh =>
    rw [if_pos (not_not.1 hfresh)]
    split
    · unfold clearEntity
      dsimp only
      split_ifs <;> simp [AlertEntity.resolve, AlertEntity.evaluatedAt]
    · unfold fireEntity
      dsimp only
      split_ifs <;> simp [AlertEntity.evaluatedAt]

variable {updated : List AlertEntity} {records : List LogRecord} {c : Cycle}
  {defn : AlertDefinition}

/-- The rows an evaluation has updated are its entities, with the time it has read where the
assignment was fresh. -/
theorem mem_evaluateCompiled
    (h : evaluateCompiled table defn compiled instances c = .ok (updated, records))
    {e' : AlertEntity} (he' : e' ∈ updated) :
    ∃ e ∈ instances, e'.assignmentId = e.assignmentId ∧
      e'.lastEvaluatedAt =
        if e.assignmentId ∈ freshAssignments c.clickHouse table instances compiled.isConfigChanged
        then some c.now else e.lastEvaluatedAt := by
  rw [evaluateCompiled_eq] at h
  cases hfound : compiledFindings table compiled instances c with
  | error => rw [hfound] at h; cases h
  | ok f =>
    rw [hfound] at h
    obtain ⟨rfl, -⟩ := Prod.mk.inj (Except.ok.inj h)
    rw [map_map] at he'
    obtain ⟨e₁, he₁, rfl⟩ := List.mem_map.1 he'
    obtain ⟨e, he, labels, rfl⟩ : ∃ e ∈ instances, ∃ labels, e₁ = e.relabel labels := by
      have hrelabelled := compiledFindings_relabelled hfound
      rw [Relabelled, forall₂_iff_zip] at hrelabelled
      obtain ⟨i, hi, rfl⟩ := List.mem_iff_getElem.1 he₁
      have hlength : i < instances.length := hrelabelled.1 ▸ hi
      refine ⟨instances[i], getElem_mem hlength, hrelabelled.2 ?_⟩
      exact List.mem_iff_getElem.2 ⟨i, by simpa using ⟨hlength, hi⟩, by simp⟩
    have hfresh : f.fresh =
        freshAssignments c.clickHouse table instances compiled.isConfigChanged := by
      rw [compiledFindings] at hfound
      cases htiers : evaluateTiers c.clickHouse compiled.isConfigChanged c.thresholdVars 0
        compiled.tiers instances with
      | error => rw [htiers] at hfound; cases hfound
      | ok tiers =>
        rw [htiers] at hfound
        rw [← Except.ok.inj hfound]
    refine ⟨e, he, (updateEntity_frame ..).1, ?_⟩
    rw [Function.comp_apply, Findings.update, updateEntity_lastEvaluatedAt, hfresh]
    rfl

theorem evaluateCompiled_of_raised {visible : Option (List Sample)}
    {answers : List Answer} (hraised : raised compiled answers = true) (vars : Variables)
    (now : Timestamp) (r : List AlertEntity × List LogRecord) :
    evaluateCompiled table defn compiled instances
      ⟨clickHouse compiled visible answers, vars, now⟩ ≠ .ok r := by
  rw [raised, Bool.and_eq_true, Bool.not_eq_true', any_eq_true] at hraised
  obtain ⟨hquery, answer, hanswer, hnone⟩ := hraised
  obtain ⟨i, hi, rfl⟩ := List.mem_iff_getElem.1 hanswer
  intro h
  obtain ⟨results, htiers, -⟩ := evaluateCompiled_eq_ok hquery h
  have hi' : i < compiled.tiers.length := lt_of_lt_of_le hi (length_take_le _ _)
  refine evaluateTiers_ne_ok (getElem?_eq_getElem hi') ?_ _ htiers
  have hgiven : answers[i]? = some (answers.take compiled.tiers.length)[i] := by
    rw [getElem_take, getElem?_eq_getElem]
  dsimp only [clickHouse]
  rw [Nat.zero_add, hgiven, Option.bind_some, Option.isNone_iff_eq_none.1 hnone, Option.map_none]

/-! ### The invariant -/

/-- The samples of an entity's assignment have been evaluated, or are newer than its last
evaluation. -/
def State.Settled (s : State) (e : AlertEntity) : Prop :=
  ∀ x ∈ s.samples, x.success = true → x.assignmentId = e.assignmentId →
    s.Evaluated x ∨ Waits e.lastEvaluatedAt x.receivedAt

/-- Two rows of one assignment with the same last evaluation. -/
def SameCutoff (e e' : AlertEntity) : Prop :=
  e'.assignmentId = e.assignmentId ∧ e'.lastEvaluatedAt = e.lastEvaluatedAt

/-- The loaded rows are still in the table, with the last evaluation that was loaded. -/
def Kept (loaded entities : Entities) : Prop :=
  ∀ e ∈ loaded.rows, ∃ e' ∈ entities.rows, SameCutoff e e'

/-- What holds of an evaluation that is under way. All queries of its tiers have seen the samples
that counted as new; if one failed, it has raised; and a sample that one of them has not seen is
newer than the time that has been read. -/
def Ongoing.Sound (s : State) : Ongoing → Prop
  | .loaded _ entities => Kept entities s.entities
  | .asked _ entities visible => Kept entities s.entities ∧ visible.getD [] ⊆ s.samples
  | .running compiled entities visible now answers =>
    Kept entities s.entities ∧
      (∀ x ∈ visible.getD [], x ∈ s.samples ∧ ∀ answer ∈ answers, x ∈ answer.seen) ∧
      (∀ answer ∈ answers, answer.rows.isNone = true → raised compiled answers = true) ∧
      ∀ x ∈ s.samples, x.success = true →
        (∀ answer ∈ answers, x ∈ answer.seen) ∨ now < x.receivedAt

/-- The invariant. -/
structure Inv (s : State) : Prop where
  settled : ∀ e ∈ s.entities.rows, s.Settled e
  ongoing : ∀ o ∈ s.ongoing, o.Sound s
  noneEscapes : s.NoneEscapes

theorem Inv.initial (clock : Timestamp) : Inv { clock } where
  settled _ he := absurd he not_mem_nil
  ongoing _ ho := nomatch ho
  noneEscapes _ hf := absurd hf not_mem_nil

section Steps

variable {table : String} {defn : AlertDefinition} {s s' : State}

theorem Inv.setEntities (h : Inv s)
    (hold : ∀ e ∈ s.entities.rows, ∃ e' ∈ entities.rows, SameCutoff e e')
    (hnew : ∀ e' ∈ entities.rows,
      e'.lastEvaluatedAt = none ∨ ∃ e ∈ s.entities.rows,
      SameCutoff e e') : Inv { s with entities } := by
  have hkept : ∀ loaded, Kept loaded s.entities → Kept loaded entities := by
    intro loaded hloaded e he
    obtain ⟨e₁, he₁, hid₁, hlast₁⟩ := hloaded e he
    obtain ⟨e₂, he₂, hid₂, hlast₂⟩ := hold e₁ he₁
    exact ⟨e₂, he₂, hid₂.trans hid₁, hlast₂.trans hlast₁⟩
  refine ⟨fun e' he' x hx hsuccess hid => ?_, fun o ho => ?_, h.noneEscapes⟩
  · rcases hnew e' he' with hnone | ⟨e, he, hsame, hlast⟩
    · exact .inr fun t ht => by rw [hnone] at ht; cases ht
    · rw [hlast]
      exact h.settled e he x hx hsuccess (hid.trans hsame)
  · have hsound := h.ongoing o ho
    cases o with
    | loaded compiled loaded => exact hkept _ hsound
    | asked compiled loaded visible => exact hsound.imp_left (hkept _)
    | running compiled loaded visible now answers => exact hsound.imp_left (hkept _)

theorem Inv.addEntity (h : Inv s) (enabled : Bool) (assignment : AppAssignment) :
    Inv { s with entities := syncAssignment enabled s.entities assignment } := by
  refine h.setEntities (fun e he => ⟨e, ?_, rfl, rfl⟩) fun e' he' => ?_
  · unfold syncAssignment
    split
    · exact he
    · exact mem_append_left _ he
  · unfold syncAssignment at he'
    split at he'
    · exact .inr ⟨e', he', rfl, rfl⟩
    · rcases List.mem_append.1 he' with hmem | hmem
      · exact .inr ⟨e', hmem, rfl, rfl⟩
      · rw [List.mem_singleton.1 hmem]
        exact .inl rfl

theorem Inv.updateAlertInstance (h : Inv s) (id : Uuid) (enabled : Bool) : Inv
    { s with entities := withInstance id enabled s.entities } := by
  have hsame : ∀ e : AlertEntity, SameCutoff e (Alerting.updateAlertInstance id enabled e) := by
    intro e
    rw [Alerting.updateAlertInstance]
    split <;> exact ⟨rfl, rfl⟩
  refine h.setEntities (fun e he => ⟨_, mem_map_of_mem he, hsame e⟩) fun e' he' => ?_
  obtain ⟨e, he, rfl⟩ := List.mem_map.1 he'
  exact .inr ⟨e, he, hsame e⟩

theorem Inv.insert (h : Inv s) {x : Sample} (hclock : x.receivedAt = toMillis s.clock)
    (hallowed : Allowed s (.insert x.assignmentId x.success)) : Inv
    { s with samples := s.samples ++ [x] } := by
  refine ⟨fun e he y hy hsuccess hid => ?_, fun o ho => ?_, h.noneEscapes⟩
  · rcases List.mem_append.1 hy with hy | hy
    · exact h.settled e he y hy hsuccess hid
    · obtain rfl := List.mem_singleton.1 hy
      exact .inr (hclock ▸ (hallowed hsuccess).1 e he hid.symm)
  · have hsound := h.ongoing o ho
    cases o with
    | loaded compiled entities => exact hsound
    | asked compiled entities visible =>
      exact ⟨hsound.1, fun y hy => mem_append_left _ (hsound.2 hy)⟩
    | running compiled entities visible now answers =>
      obtain ⟨hkept, hvisible, hfailed, hseen⟩ := hsound
      refine ⟨hkept, fun y hy => ⟨mem_append_left _ (hvisible y hy).1, (hvisible y hy).2⟩,
        hfailed, fun y hy hsuccess => ?_⟩
      rcases List.mem_append.1 hy with hy | hy
      · exact hseen y hy hsuccess
      · obtain rfl := List.mem_singleton.1 hy
        cases answers with
        | nil => exact .inl fun answer hanswer => absurd hanswer not_mem_nil
        | cons answer answers => exact .inr (hclock ▸ (hallowed hsuccess).2 _ ho now rfl)

variable {visible : Option (List Sample)} {now : Timestamp} {answers : List Answer}

theorem Inv.askTier (h : Inv s)
    (hongoing : s.ongoing = some (.running compiled entities visible now answers))
    {rows : Option (TierRequest → List Row)} (hallowed : Allowed s (.askTier rows))
    (hraised : raised compiled answers = false) : Inv { s with
      ongoing :=
        some (.running compiled entities visible now (answers ++ [{ rows, seen := s.samples }])) } := by
  obtain ⟨hkept, hvisible, hfailed, hseen⟩ := h.ongoing _ hongoing
  refine ⟨h.settled, fun o ho => ?_, h.noneEscapes⟩
  obtain rfl := Option.some.inj ho
  refine ⟨hkept, fun x hx => ⟨(hvisible x hx).1, fun answer hanswer => ?_⟩,
    fun answer hanswer hnone => ?_, fun x hx hsuccess => ?_⟩
  · rcases List.mem_append.1 hanswer with hanswer | hanswer
    · exact (hvisible x hx).2 answer hanswer
    · rw [List.mem_singleton.1 hanswer]
      exact (hvisible x hx).1
  · rcases List.mem_append.1 hanswer with hanswer | hanswer
    · exact absurd (hfailed answer hanswer hnone) (hraised ▸ Bool.false_ne_true)
    · obtain rfl := List.mem_singleton.1 hanswer
      obtain ⟨hquery, hlength⟩ := hallowed hnone _ hongoing
      rw [raised, hquery, Bool.not_false, Bool.true_and, any_eq_true]
      have hall : (answers ++ [(⟨rows, s.samples⟩ : Answer)]).length ≤ compiled.tiers.length := by
        rw [length_append, length_singleton]
        exact hlength
      rw [take_of_length_le hall]
      exact ⟨_, mem_append_right _ mem_cons_self, hnone⟩
  · refine (hseen x hx hsuccess).imp_left fun hall answer hanswer => ?_
    rcases List.mem_append.1 hanswer with hanswer | hanswer
    · exact hall answer hanswer
    · rw [List.mem_singleton.1 hanswer]
      exact hx

theorem Inv.rollback (h : Inv s) : Inv { s with ongoing := none } :=
  ⟨h.settled, fun _ ho => (nomatch ho), h.noneEscapes⟩

variable {loaded : Entities}

/-- What an evaluation has written to a row: the time it has read where the assignment was fresh,
and no other last evaluation. -/
theorem writeBack_lastEvaluatedAt
    (hok : evaluateCompiled table defn compiled loaded.enabled c = .ok (updated, records))
    (hkept : Kept loaded entities) {e : AlertEntity} (he : e ∈ entities.rows) :
    (writeBack updated e).lastEvaluatedAt = e.lastEvaluatedAt ∨
      e.assignmentId ∈
          freshAssignments c.clickHouse table loaded.enabled compiled.isConfigChanged ∧
        (writeBack updated e).lastEvaluatedAt = some c.now := by
  rw [writeBack]
  split
  next e' hfind =>
    have hid : e'.assignmentId = e.assignmentId := by simpa using find?_some hfind
    obtain ⟨e₀, he₀, hid₀, hlast₀⟩ := mem_evaluateCompiled hok (mem_of_find?_eq_some hfind)
    obtain ⟨e₁, he₁, hsame, hlast⟩ := hkept e₀ (List.mem_filter.1 he₀).1
    obtain rfl := Entities.eq_of_assignmentId he₁ he (hsame.trans (hid₀.symm.trans hid))
    by_cases hfresh : e₀.assignmentId ∈
        freshAssignments c.clickHouse table loaded.enabled compiled.isConfigChanged
    · rw [if_pos hfresh] at hlast₀
      exact .inr ⟨hsame ▸ hfresh, hlast₀⟩
    · rw [if_neg hfresh] at hlast₀
      exact .inl (hlast₀.trans hlast.symm)
  · exact .inl rfl

/-- **The commit of an evaluation.** Its queries have all been answered, since none has raised,
and its cutoffs pass no sample that they have not seen. -/
theorem Inv.commit (h : Inv s)
    (hongoing : s.ongoing = some (.running compiled loaded visible now answers))
    {vars : Variables}
    (hok : evaluateCompiled table defn compiled loaded.enabled
      ⟨clickHouse compiled visible answers, vars, now⟩ = .ok (updated, records)) : Inv { s with
      entities := written updated s.entities
      ongoing := none
      finished := s.finished ++
        [{ instances := loaded.enabled
           visible
           fresh := freshAssignments (clickHouse compiled visible answers) table loaded.enabled
             compiled.isConfigChanged
           answers }] } := by
  obtain ⟨hkept, hvisible, hfailed, hseen⟩ := h.ongoing _ hongoing
  have hanswered : ∀ answer ∈ answers, answer.rows.isSome = true := by
    intro answer hanswer
    by_contra hnone
    rw [Bool.not_eq_true, Option.isSome_eq_false_iff] at hnone
    exact evaluateCompiled_of_raised (hfailed answer hanswer hnone) vars now _ hok
  generalize hfinished : ({ instances := loaded.enabled
                            visible
                            fresh := freshAssignments (clickHouse compiled visible answers) table
                              loaded.enabled compiled.isConfigChanged
                            answers } : Finished) = f
  have hnow : ∀ x : Sample, x.assignmentId ∈ f.fresh → (∀ answer ∈ answers, x ∈ answer.seen) →
      State.Evaluated { s with
        entities := written updated s.entities, ongoing := none, finished := s.finished ++ [f] } x := by
    intro x hfresh hall
    refine ⟨f, mem_append_right _ mem_cons_self, hfresh, ?_⟩
    rw [← hfinished]
    exact fun answer hanswer => ⟨hanswered answer hanswer, hall answer hanswer⟩
  have hbefore : ∀ x : Sample, s.Evaluated x → State.Evaluated { s with
      entities := written updated s.entities, ongoing := none, finished := s.finished ++ [f] } x :=
    fun x hx => hx.imp fun _ => And.imp_left (mem_append_left _)
  refine ⟨fun e' he' x hx hsuccess hid => ?_, fun _ ho => (nomatch ho), fun f' hf' x hx hsuccess hid => ?_⟩
  · obtain ⟨e, he, rfl⟩ := List.mem_map.1 he'
    rw [writeBack_assignmentId] at hid
    rcases writeBack_lastEvaluatedAt hok hkept he with hsame | ⟨hfresh, hlast⟩
    · rw [hsame]
      exact (h.settled e he x hx hsuccess hid).imp_left (hbefore x)
    · rw [hlast]
      refine (hseen x hx hsuccess).imp (hnow x ?_) fun hlt t ht => ?_
      · rw [← hfinished, hid]
        exact hfresh
      · rw [← Option.some.inj ht]
        exact hlt
  · rcases List.mem_append.1 hf' with hf' | hf'
    · exact hbefore x (h.noneEscapes f' hf' x hx hsuccess hid)
    · obtain rfl := List.mem_singleton.1 hf'
      rw [← hfinished] at hx hid
      obtain ⟨e₀, he₀, hid₀⟩ := List.mem_map.1 hid
      obtain ⟨e, he, hsame, hlast⟩ := hkept e₀ (List.mem_filter.1 he₀).1
      obtain ⟨hsample, hall⟩ := hvisible x hx
      rcases h.settled e he x hsample hsuccess (hid₀.symm.trans hsame.symm) with hdone | hwaits
      · exact hbefore x hdone
      · refine hnow x ?_ hall
        rw [hlast] at hwaits
        rw [← hfinished, ← hid₀]
        cases visible with
        | none => exact absurd hx not_mem_nil
        | some visible => exact mem_freshAssignments answers he₀ hx hsuccess hid₀.symm hwaits

/-- **The step**: a step under the condition keeps the invariant. -/
theorem Inv.step (h : Inv s) {a : Action} (hallowed : Allowed s a)
    (hstep : step table defn s a = some s') : Inv s' := by
  cases a with
  | tick t =>
    rw [Freshness.step] at hstep
    split at hstep
    · obtain rfl := Option.some.inj hstep
      exact ⟨h.settled, h.ongoing, h.noneEscapes⟩
    · cases hstep
  | insert assignmentId success =>
    obtain rfl := Option.some.inj hstep
    exact h.insert rfl hallowed
  | addEntity enabled assignment =>
    obtain rfl := Option.some.inj hstep
    exact h.addEntity enabled assignment
  | updateAlertInstance assignmentId enabled =>
    obtain rfl := Option.some.inj hstep
    exact h.updateAlertInstance assignmentId enabled
  | load =>
    rw [Freshness.step] at hstep
    split at hstep
    · split at hstep
      · cases hstep
      · obtain rfl := Option.some.inj hstep
        refine ⟨h.settled, fun o ho => ?_, h.noneEscapes⟩
        obtain rfl := Option.some.inj ho
        exact fun e he => ⟨e, he, rfl, rfl⟩
    · cases hstep
  | askFreshness answered =>
    rw [Freshness.step] at hstep
    split at hstep
    next compiled entities hongoing =>
      obtain rfl := Option.some.inj hstep
      refine ⟨h.settled, fun o ho => ?_, h.noneEscapes⟩
      obtain rfl := Option.some.inj ho
      refine ⟨h.ongoing _ hongoing, ?_⟩
      cases answered with
      | true => exact List.Subset.refl _
      | false => exact nil_subset _
    · cases hstep
  | readClock =>
    rw [Freshness.step] at hstep
    split at hstep
    next compiled entities visible hongoing =>
      obtain rfl := Option.some.inj hstep
      obtain ⟨hkept, hvisible⟩ := h.ongoing _ hongoing
      refine ⟨h.settled, fun o ho => ?_, h.noneEscapes⟩
      obtain rfl := Option.some.inj ho
      exact ⟨hkept, fun x hx => ⟨hvisible hx, fun _ ha => absurd ha not_mem_nil⟩,
        fun _ ha => absurd ha not_mem_nil,
        fun _ _ _ => .inl fun _ ha => absurd ha not_mem_nil⟩
    · cases hstep
  | askTier rows =>
    rw [Freshness.step] at hstep
    split at hstep
    next compiled entities visible now answers hongoing =>
      split at hstep
      next hguard =>
        obtain rfl := Option.some.inj hstep
        exact h.askTier hongoing hallowed hguard.2
      · cases hstep
    · cases hstep
  | finish vars =>
    rw [Freshness.step] at hstep
    split at hstep
    next compiled entities visible now answers hongoing =>
      split at hstep
      · obtain rfl := Option.some.inj hstep
        rw [Freshness.finish]
        split
        next updated records hok => exact h.commit hongoing hok
        · exact h.rollback
      · cases hstep
    · cases hstep
  | abort =>
    rw [Freshness.step] at hstep
    split at hstep
    · obtain rfl := Option.some.inj hstep
      exact h.rollback
    · cases hstep

end Steps

/-! ### Runs -/

/-- **No successful sample escapes evaluation.** In every run whose steps meet the condition a
sample of an entity's assignment has been evaluated, or is newer than the entity's last
evaluation, so that the next answered query for new samples counts it; and once an evaluation
that could see it there has been committed, it has been evaluated. -/
theorem noneEscapes_of_run {table : String} {defn : AlertDefinition} {clock : Timestamp}
    {s : State} (h : Run (step table defn) Allowed { clock } s) :
    s.NoneEscapes ∧ ∀ e ∈ s.entities.rows, s.Settled e := by
  have hinv : Inv s :=
    h.invariant (I := Inv) (Inv.initial clock) fun hinv hallowed hstep => hinv.step hallowed hstep
  exact ⟨hinv.noneEscapes, hinv.settled⟩

/-- One entity that is enabled, for the runs below. -/
def oneEntity : List Action := [.addEntity true ⟨"a", some "d", true⟩, .tick 5000400]

/-- An evaluation of a definition with one tier, during whose queries nothing happens. -/
def evaluation (rows : Option (TierRequest → List Row)) : List Action :=
  [.load, .askFreshness true, .readClock, .askTier rows, .finish []]

/-- An answer without rows. -/
def noRows : Option (TierRequest → List Row) := some fun _ => []

/-- A sample becomes visible during an evaluation, and the next one evaluates it, after one that
was left by an exception. -/
theorem noneEscapes_of_run_abort :
    ∃ s : State, Run (step "config" osVersionDefinition) Allowed { clock := 0 } s ∧
      (s.NoneEscapes ∧ ∀ e ∈ s.entities.rows, s.Settled e) ∧
      (∃ x ∈ s.samples, x.success = true ∧ s.Evaluated x) ∧ s.finished.length = 2 := by
  have hreplay : ∃ s ∈ replay (step "config" osVersionDefinition) Allowed { clock := 0 }
      (oneEntity ++
        [.load, .askFreshness true, .readClock, .askTier noRows, .tick 6000000, .insert "a" true,
          .finish [], .load, .askFreshness true, .abort] ++ evaluation noRows),
      (∃ x ∈ s.samples, x.success = true ∧ s.Evaluated x) ∧ s.finished.length = 2 := by
    decide +kernel
  obtain ⟨s, hs, h⟩ := hreplay
  exact ⟨s, run_of_replay hs, noneEscapes_of_run (run_of_replay hs), h⟩

/-- **A query for changed configuration that fails loses the sample.** The evaluation goes on as
if the query had found nothing and counts the sample as evaluated; the evaluation after it does
not ask again. -/
theorem not_noneEscapes_configChanged :
    ∃ s : State, Run (step "config" osVersionDefinition) (fun _ _ => True) { clock := 0 } s ∧
      ¬s.NoneEscapes := by
  have hreplay : ∃ s ∈ replay (step "config" osVersionDefinition) (fun _ _ => True) { clock := 0 }
      (oneEntity ++ evaluation noRows ++ [.tick 6000000, .insert "a" true] ++ evaluation none ++
        [.tick 7000000] ++ evaluation noRows),
      ¬s.NoneEscapes := by
    decide +kernel
  obtain ⟨s, hs, h⟩ := hreplay
  exact ⟨s, run_of_replay hs, h⟩

end MonCTL.Alerting.Freshness
