import MonCTL.Incidents.OneOpen

/-!
# Rules That Open and Clear Nothing

When a rule of a cycle opens and clears no incident, all it can do is update those that are
open: each of them for its own entity, if that fires within the scope of the rule and the
loop gets to it. This module says which entity that is, in words of the table as it was before
the rule, and what the update leaves in the row.
-/

namespace MonCTL.Incidents

open List

open Alerting (AlertState AlertEntity Entities)

/-! ### The entity an incident is updated for -/

def hasOpen (rows : List IncidentRow) (rule : EngineRule) (key : String) : Bool :=
  rows.any fun row => row.ruleId = rule.id ∧ row.entityKey = key ∧ row.IsOpen

/-- The rule's loop takes the branch of an entity that fires, within the scope. -/
def fires (rule : EngineRule) (inst : AlertEntity) : Bool :=
  inst.state = .firing ∧
    ¬(validateScopeFilter rule.scopeFilter).any fun scope => !entityInScope inst scope

/-- The message of an entity is rendered, and that raises. -/
def raises (env : CycleEnv) (rows : List IncidentRow) (rule : EngineRule)
    (inst : AlertEntity) : Bool :=
  fires rule inst ∧ (hasOpen rows rule (incidentKey inst) ∨ meetsThreshold rule inst) ∧
    env.renderMessage rule.id inst = none

/-- The entities a rule looks at before it raises, if it does. -/
def lookedAt (config : Config) (env : CycleEnv) (rows : List IncidentRow) (rule : EngineRule) :
    List AlertEntity :=
  match config.definition rule, validateLadder rule.severityLadder with
  | some defn, .ok _ =>
    if defn.enabled then defn.entities.enabled.takeWhile fun inst => !raises env rows rule inst
    else []
  | _, _ => []

/-- The entity a rule updates its incident with a key for. -/
def updater (config : Config) (env : CycleEnv) (rows : List IncidentRow) (rule : EngineRule)
    (key : String) : Option AlertEntity :=
  (lookedAt config env rows rule).find? fun inst => incidentKey inst = key ∧ fires rule inst

/-! ### What a quiet round of the loop does -/

/-- No incident was opened or cleared. -/
def Quiet (transitions : List Transition) : Prop :=
  ∀ t ∈ transitions, t.opensOrClears = false

theorem not_quiet_opened (ts : List Transition) (rule : IncidentRule) (incident : Incident) :
    ¬Quiet (ts ++ [record rule incident "opened"]) := fun h => by
  have hlast := h _ (mem_append_right ts (mem_singleton_self _))
  simp [record, Transition.opensOrClears] at hlast

theorem not_quiet_cleared (ts : List Transition) (rule : IncidentRule) (incident : Incident) :
    ¬Quiet (ts ++ [record rule incident "cleared"]) := fun h => by
  have hlast := h _ (mem_append_right ts (mem_singleton_self _))
  simp [record, Transition.opensOrClears] at hlast

/-- What becomes of a row that is not cleared: it has some labels and some parent. -/
structure Becomes (row : IncidentRow) (labels : Dict String String)
    (parentIncidentId : Option Uuid) (row' : IncidentRow) : Prop where
  id : row'.id = row.id
  ruleId : row'.ruleId = row.ruleId
  entityKey : row'.entityKey = row.entityKey
  state : row'.state = row.state
  labels : row'.labels = labels
  parentIncidentId : row'.parentIncidentId = parentIncidentId

/-- A row that keeps its labels and its parent. -/
def Keeps (row row' : IncidentRow) : Prop :=
  Becomes row row.labels row.parentIncidentId row'

theorem Keeps.refl (row : IncidentRow) : Keeps row row := ⟨rfl, rfl, rfl, rfl, rfl, rfl⟩

variable {row row' : IncidentRow} {row'' : IncidentRow} {labels : Dict String String}
  {parent : Option Uuid}

theorem Becomes.keeps
    (h : Becomes row labels parent row') (h' : Keeps row' row'') :
    Becomes row labels parent row'' where
  id := h'.id.trans h.id
  ruleId := h'.ruleId.trans h.ruleId
  entityKey := h'.entityKey.trans h.entityKey
  state := h'.state.trans h.state
  labels := h'.labels.trans h.labels
  parentIncidentId := h'.parentIncidentId.trans h.parentIncidentId

theorem Keeps.becomes
    (h : Keeps row row') (h' : Becomes row' labels parent row'') :
    Becomes row labels parent row'' where
  id := h'.id.trans h.id
  ruleId := h'.ruleId.trans h.ruleId
  entityKey := h'.entityKey.trans h.entityKey
  state := h'.state.trans h.state
  labels := h'.labels
  parentIncidentId := h'.parentIncidentId

/-- The entity fires, within the scope. -/
def RuleContext.fires (c : RuleContext) (inst : AlertEntity) : Bool :=
  inst.state = .firing ∧ ¬c.outOfScope inst

def RuleContext.raises (c : RuleContext) (inst : AlertEntity) : Bool :=
  c.fires inst ∧ ((c.openByKey.get? (incidentKey inst)).isSome ∨ meetsThreshold c.rule inst) ∧
    c.renderMessage inst = none

/-- The parent an update gives. -/
def RuleContext.nextParent (c : RuleContext) (inst : AlertEntity) (row : IncidentRow) :
    Option Uuid :=
  if c.depends.isSome then c.parentId (refreshedLabels inst row) else row.parentIncidentId

def RuleContext.Round (c : RuleContext) (inst : AlertEntity) (row row' : IncidentRow) : Prop :=
  if c.openByKey.get? (incidentKey inst) = some row.id ∧ c.fires inst ∧ ¬c.raises inst then
    Becomes row (refreshedLabels inst row) (c.nextParent inst row) row'
  else Keeps row row'

variable {ids : UuidSource} {c : RuleContext} {rest : List AlertEntity} {s : EngineState}

theorem LoopInv.isSome_incident (h : LoopInv ids c rest s) (inst : AlertEntity) :
    (c.incident s.incidents inst).isSome = (c.openByKey.get? (incidentKey inst)).isSome := by
  cases hincident : c.incident s.incidents inst with
  | none => rw [h.get?_eq_none hincident]; rfl
  | some row => rw [(RuleContext.mem_of_incident hincident).2]; rfl

theorem LoopInv.evaluateEntity_snd (h : LoopInv ids c rest s) (inst : AlertEntity) :
    (evaluateEntity ids c inst s).2 = !c.raises inst := by
  rw [RuleContext.raises, RuleContext.fires, ← h.isSome_incident inst, evaluateEntity]
  cases c.incident s.incidents inst with
  | none =>
    cases c.outOfScope inst <;> cases inst.state <;> cases meetsThreshold c.rule inst <;>
      cases c.renderMessage inst <;> simp
  | some row =>
    cases c.outOfScope inst <;> cases inst.state <;> cases c.renderMessage inst <;>
      cases c.rule.autoClearOnResolve <;> cases hguard : flapGuarded c row <;> simp [hguard]

variable {inst : AlertEntity} {rows : List IncidentRow}

theorem round_skip
    (h : ∀ row ∈ rows, c.openByKey.get? (incidentKey inst) = some row.id → ¬c.fires inst) :
    ∃ f : IncidentRow → IncidentRow, rows = rows.map f ∧ ∀ row ∈ rows, c.Round inst row (f row) :=
    by
  refine ⟨id, (map_id rows).symm, fun row hrow => ?_⟩
  rw [RuleContext.Round, if_neg fun hfires => h row hrow hfires.1 hfires.2.1]
  exact .refl row

theorem LoopInv.round_written (h : LoopInv ids c rest s)
    (hsome : c.incident s.incidents inst = some row) (hround : c.Round inst row row') :
    ∃ f : IncidentRow → IncidentRow, putRow s.incidents row' = s.incidents.map f ∧
      ∀ r ∈ s.incidents, c.Round inst r (f r) := by
  obtain ⟨hrow, hget⟩ := RuleContext.mem_of_incident hsome
  have hid : row'.id = row.id := by
    rw [RuleContext.Round] at hround
    split at hround
    · exact hround.id
    · exact hround.id
  refine ⟨_, rfl, fun r hr => ?_⟩
  split
  next hr' =>
    rw [h.wf.eq_of_id hr hrow (hr'.trans hid)]
    exact hround
  next hr' =>
    rw [RuleContext.Round, if_neg]
    · exact .refl r
    · intro hfires
      rw [hget, Option.some.injEq] at hfires
      exact hr' (hfires.1.symm.trans hid.symm)

/-- **A quiet round** changes no row but that of its entity. -/
theorem LoopInv.evaluateEntity_quiet (h : LoopInv ids c rest s) (inst : AlertEntity)
    (hquiet : Quiet (evaluateEntity ids c inst s).1.transitions) : ∃ f : IncidentRow → IncidentRow,
      (evaluateEntity ids c inst s).1.incidents = s.incidents.map f ∧
      ∀ row ∈ s.incidents, c.Round inst row (f row) := by
  have hraises := h.evaluateEntity_snd inst
  rw [evaluateEntity] at hquiet hraises ⊢
  cases hincident : c.incident s.incidents inst with
  | none =>
    rw [hincident] at hquiet hraises
    have hskip : ∃ f : IncidentRow → IncidentRow, s.incidents = s.incidents.map f ∧
        ∀ row ∈ s.incidents, c.Round inst row (f row) :=
      round_skip fun row hrow hget => by
        rw [h.get?_eq_none hincident] at hget
        cases hget
    dsimp only at hquiet ⊢
    split_ifs at hquiet ⊢ with hscope hfiring hmeets
    · exact hskip
    · exact hskip
    · exact hskip
    · cases hrender : c.renderMessage inst with
      | none => exact hskip
      | some message =>
        rw [hrender] at hquiet
        exact absurd hquiet (not_quiet_opened _ _ _)
  | some row =>
    rw [hincident] at hquiet hraises
    obtain ⟨hrow, hget⟩ := RuleContext.mem_of_incident hincident
    dsimp only at hquiet hraises ⊢
    by_cases hscope : c.outOfScope inst = true
    · rw [if_pos hscope] at hquiet
      exact absurd hquiet (not_quiet_cleared _ _ _)
    rw [if_neg hscope] at hquiet hraises ⊢
    cases hstate : inst.state with
    | ok => exact round_skip fun _ _ _ hfires => by simp [RuleContext.fires, hstate] at hfires
    | firing =>
      rw [hstate] at hraises
      dsimp only at hraises ⊢
      have hfires : c.fires inst = true := by simp [RuleContext.fires, hstate, hscope]
      cases hrender : c.renderMessage inst with
      | none =>
        rw [hrender] at hraises
        have hraised : c.raises inst = true := by simpa using hraises
        refine h.round_written hincident ?_
        rw [RuleContext.Round, if_neg fun hround => hround.2.2 hraised]
        exact ⟨rfl, rfl, rfl, rfl, rfl, rfl⟩
      | some message =>
        rw [hrender] at hraises
        have hround : ∀ row', Becomes row (refreshedLabels inst row)
            (c.nextParent inst row) row' → c.Round inst row row' := by
          intro row' hbecomes
          rw [RuleContext.Round, if_pos ⟨hget, hfires, by simpa using hraises⟩]
          exact hbecomes
        dsimp only
        rcases updateIncident_cases c message inst row s with
          hupdate | ⟨severity, -, hupdate⟩
        · rw [hupdate]
          exact h.round_written hincident (hround _ ⟨rfl, rfl, rfl, rfl, rfl, rfl⟩)
        · rw [hupdate]
          exact h.round_written hincident (hround _ ⟨rfl, rfl, rfl, rfl, rfl, rfl⟩)
    | resolved =>
      rw [hstate] at hquiet
      dsimp only at hquiet ⊢
      have hidle : ∀ row ∈ s.incidents, c.openByKey.get? (incidentKey inst) = some row.id →
          ¬c.fires inst := fun _ _ _ hfires => by simp [RuleContext.fires, hstate] at hfires
      have hskip := round_skip hidle
      split_ifs at hquiet ⊢
      · exact hskip
      · exact hskip
      · exact absurd hquiet (not_quiet_cleared _ _ _)

/-! ### What a quiet loop does -/

theorem evaluateEntity_transitions (ids : UuidSource) (c : RuleContext) (inst : AlertEntity)
    (s : EngineState) : s.transitions <+: (evaluateEntity ids c inst s).1.transitions := by
  rw [evaluateEntity]
  cases c.incident s.incidents inst with
  | none =>
    dsimp only
    split_ifs
    · exact prefix_refl _
    · exact prefix_refl _
    · exact prefix_refl _
    · cases c.renderMessage inst with
      | none => exact prefix_refl _
      | some message => exact prefix_append ..
  | some row =>
    dsimp only
    split
    · exact prefix_append ..
    · split
      · split
        · exact prefix_refl _
        · exact prefix_append ..
      · split_ifs
        · exact prefix_refl _
        · exact prefix_refl _
        · exact prefix_append ..
      · exact prefix_refl _

theorem evaluateEntities_transitions (ids : UuidSource) (c : RuleContext)
    (insts : List AlertEntity) (s : EngineState) :
    s.transitions <+: (evaluateEntities ids c insts s).1.transitions := by
  induction insts generalizing s with
  | nil => exact prefix_refl _
  | cons inst rest ih =>
    have hstep := evaluateEntity_transitions ids c inst s
    rw [evaluateEntities]
    split
    next s' heq =>
      rw [heq] at hstep
      exact hstep.trans (ih s')
    next s' heq =>
      rw [heq] at hstep
      exact hstep

theorem Quiet.of_isPrefix {ts ts' : List Transition} (h : Quiet ts') (hle : ts <+: ts') :
    Quiet ts := fun t ht => h t (hle.subset ht)

/-- The entity the loop updates an incident for, if it gets there. -/
def RuleContext.updater (c : RuleContext) (insts : List AlertEntity) (id : Uuid) :
    Option AlertEntity :=
  (insts.takeWhile fun inst => !c.raises inst).find? fun inst =>
    c.openByKey.get? (incidentKey inst) = some id ∧ c.fires inst

/-- What the loop does to a row. -/
def RuleContext.Rounds (c : RuleContext) (insts : List AlertEntity) (row row' : IncidentRow) :
    Prop :=
  match c.updater insts row.id with
  | some inst => Becomes row (refreshedLabels inst row) (c.nextParent inst row) row'
  | none => Keeps row row'

theorem Keeps.update_eq (h : Keeps row row') (c : RuleContext)
    (inst : AlertEntity) : refreshedLabels inst row' = refreshedLabels inst row ∧
      c.nextParent inst row' = c.nextParent inst row := by
  have hlabels : refreshedLabels inst row' = refreshedLabels inst row := by
    rw [refreshedLabels, refreshedLabels, h.labels]
  rw [RuleContext.nextParent, RuleContext.nextParent, hlabels, h.parentIncidentId]
  exact ⟨rfl, rfl⟩

variable {id : Uuid}

theorem LoopInv.get?_ne (h : LoopInv ids c (inst :: rest) s)
    (hget : c.openByKey.get? (incidentKey inst) = some id) :
    ∀ inst' ∈ rest, c.openByKey.get? (incidentKey inst') ≠ some id := by
  intro inst' hinst' hget'
  obtain ⟨row, hrow, hid, hkey⟩ := h.known _ _ hget
  obtain ⟨row', hrow', hid', hkey'⟩ := h.known _ _ hget'
  have hrows : row = row' := h.wf.eq_of_id hrow hrow' (hid.trans hid'.symm)
  refine (List.nodup_cons.1 h.keys).1 ?_
  rw [show incidentKey inst = incidentKey inst' by rw [← hkey, ← hkey', hrows]]
  exact mem_map_of_mem hinst'

theorem LoopInv.updater_eq_none (h : LoopInv ids c (inst :: rest) s)
    (hget : c.openByKey.get? (incidentKey inst) = some id) : c.updater rest id = none := by
  rw [RuleContext.updater, find?_eq_none]
  intro inst' hinst'
  rw [decide_eq_true_eq]
  exact fun hfound => h.get?_ne hget inst' ((takeWhile_sublist _).subset hinst') hfound.1

variable {insts : List AlertEntity}

/-- **A quiet loop** updates each incident for its entity, if it gets there. -/
theorem LoopInv.evaluateEntities_quiet (h : LoopInv ids c insts s)
    (hquiet : Quiet (evaluateEntities ids c insts s).1.transitions) :
    ∃ f : IncidentRow → IncidentRow,
      (evaluateEntities ids c insts s).1.incidents = s.incidents.map f ∧
      ∀ row ∈ s.incidents, c.Rounds insts row (f row) := by
  induction insts generalizing s with
  | nil => exact ⟨id, (map_id _).symm, fun row _ => .refl row⟩
  | cons inst rest ih =>
    have hround := h.evaluateEntity_quiet inst
    have hraises := h.evaluateEntity_snd inst
    have hinv := h.round.1
    rw [evaluateEntities] at hquiet ⊢
    rcases hstep : evaluateEntity ids c inst s with ⟨s', completed⟩
    rw [hstep] at hround hraises hquiet hinv
    cases completed with
    | false =>
      -- the round raises, and no entity is reached
      obtain ⟨f, hf, hrows⟩ := hround hquiet
      have hraised : c.raises inst = true := by simpa using hraises
      refine ⟨f, hf, fun row hrow => ?_⟩
      have hrow' := hrows row hrow
      rw [RuleContext.Round, if_neg fun hfires => hfires.2.2 hraised] at hrow'
      rw [RuleContext.Rounds, RuleContext.updater, takeWhile_cons]
      simpa [hraised] using hrow'
    | true =>
      dsimp only at hquiet hinv ⊢
      obtain ⟨f, hf, hrows⟩ := hround (hquiet.of_isPrefix (evaluateEntities_transitions ..))
      obtain ⟨g, hg, hrest⟩ := ih hinv hquiet
      dsimp only at hf
      have hraised : c.raises inst = false := by simpa using hraises
      refine ⟨g ∘ f, by rw [hg, hf, map_map], fun row hrow => ?_⟩
      have hrow' := hrows row hrow
      have hrest' := hrest (f row) (hf ▸ mem_map_of_mem hrow)
      have hupdater : c.updater (inst :: rest) row.id =
          if c.openByKey.get? (incidentKey inst) = some row.id ∧ c.fires inst then some inst
          else c.updater rest row.id := by
        rw [RuleContext.updater, takeWhile_cons, hraised]
        simp only [Bool.not_false, if_true, find?_cons]
        split
        next hcond => rw [if_pos (by simpa using hcond)]
        next hcond => rw [if_neg (by simpa using hcond)]; rfl
      rw [RuleContext.Round] at hrow'
      rw [RuleContext.Rounds] at hrest' ⊢
      rw [hupdater]
      by_cases hfires : c.openByKey.get? (incidentKey inst) = some row.id ∧ c.fires inst
      · rw [if_pos ⟨hfires.1, hfires.2, by simp [hraised]⟩] at hrow'
        rw [if_pos hfires]
        rw [hrow'.id, h.updater_eq_none hfires.1] at hrest'
        exact hrow'.keeps hrest'
      · have hkeeps : Keeps row (f row) := by
          rwa [if_neg fun hcond => hfires ⟨hcond.1, hcond.2.1⟩] at hrow'
        rw [if_neg hfires]
        rw [hkeeps.id] at hrest'
        cases hrestUpdater : c.updater rest row.id with
        | none =>
          rw [hrestUpdater] at hrest'
          exact hkeeps.keeps hrest'
        | some inst' =>
          rw [hrestUpdater] at hrest'
          dsimp only at hrest' ⊢
          rw [(hkeeps.update_eq c inst').1, (hkeeps.update_eq c inst').2] at hrest'
          exact hkeeps.becomes hrest'

/-! ### What a quiet rule does -/

variable {n : ℕ}

theorem get?_ruleContext (h : WellFormed ids n rows) (env : CycleEnv) (rule : EngineRule)
    (ladder : Option (List LadderStep)) (key : String) (id : Uuid) :
    (ruleContext env rule ladder rows).openByKey.get? key = some id ↔
      ∃ row ∈ rows, row.ruleId = rule.id ∧ row.IsOpen ∧ row.entityKey = key ∧ row.id = id := by
  have hscan := fun row => ((env.scan rule.id).perm rows).mem_iff (a := row)
  constructor
  · intro hget
    obtain ⟨row, hrow, hkey, hid⟩ := get?_openByKey hget
    obtain ⟨hmem, hrule, hopen⟩ := mem_openIncidents.1 hrow
    exact ⟨row, (hscan row).1 hmem, hrule, hopen, hkey, hid⟩
  · rintro ⟨row, hrow, hrule, hopen, rfl, rfl⟩
    cases hget : (ruleContext env rule ladder rows).openByKey.get? row.entityKey with
    | none =>
      exact absurd rfl (get?_openByKey_eq_none hget row
        (mem_openIncidents.2 ⟨(hscan row).2 hrow, hrule, hopen⟩))
    | some id =>
      obtain ⟨row', hrow', hkey, rfl⟩ := get?_openByKey hget
      obtain ⟨hmem, hrule', hopen'⟩ := mem_openIncidents.1 hrow'
      rw [h.one_open row' ((hscan row').1 hmem) row hrow hopen' hopen (hrule'.trans hrule.symm)
        hkey]

theorem isSome_ruleContext (h : WellFormed ids n rows) (env : CycleEnv) (rule : EngineRule)
    (ladder : Option (List LadderStep)) (key : String) :
    ((ruleContext env rule ladder rows).openByKey.get? key).isSome = hasOpen rows rule key := by
  rw [Bool.eq_iff_iff, Option.isSome_iff_exists, hasOpen, any_eq_true]
  constructor
  · rintro ⟨id, hget⟩
    obtain ⟨row, hrow, hrule, hopen, hkey, -⟩ := (get?_ruleContext h env rule ladder _ id).1 hget
    exact ⟨row, hrow, by simp [hrule, hkey, hopen]⟩
  · rintro ⟨row, hrow, hprop⟩
    rw [decide_eq_true_eq] at hprop
    exact ⟨row.id, (get?_ruleContext h env rule ladder _ _).2
      ⟨row, hrow, hprop.1, hprop.2.2, hprop.2.1, rfl⟩⟩

theorem raises_ruleContext (h : WellFormed ids n rows) (env : CycleEnv) (rule : EngineRule)
    (ladder : Option (List LadderStep)) (inst : AlertEntity) :
    (ruleContext env rule ladder rows).raises inst = raises env rows rule inst := by
  rw [RuleContext.raises, isSome_ruleContext h]
  rfl

theorem updater_ruleContext (h : WellFormed ids n rows) (env : CycleEnv) (rule : EngineRule)
    (ladder : Option (List LadderStep)) (insts : List AlertEntity)
    (hrow : row ∈ rows) :
    (ruleContext env rule ladder rows).updater insts row.id =
      if row.ruleId = rule.id ∧ row.IsOpen then
        (insts.takeWhile fun inst => !raises env rows rule inst).find? fun inst =>
          incidentKey inst = row.entityKey ∧ fires rule inst
      else none := by
  have hget : ∀ key, (ruleContext env rule ladder rows).openByKey.get? key = some row.id ↔
      (row.ruleId = rule.id ∧ row.IsOpen) ∧ key = row.entityKey := by
    intro key
    rw [get?_ruleContext h]
    constructor
    · rintro ⟨row', hrow', hrule, hopen, rfl, hid⟩
      rw [← h.eq_of_id hrow' hrow hid]
      exact ⟨⟨hrule, hopen⟩, rfl⟩
    · rintro ⟨⟨hrule, hopen⟩, rfl⟩
      exact ⟨row, hrow, hrule, hopen, rfl, rfl⟩
  rw [RuleContext.updater]
  simp only [hget, raises_ruleContext h]
  by_cases hcond : row.ruleId = rule.id ∧ row.IsOpen
  · rw [if_pos hcond]
    refine congrArg (fun p => List.find? p _) (funext fun inst => ?_)
    rw [decide_eq_decide]
    exact ⟨fun hp => ⟨hp.1.2, hp.2⟩, fun hp => ⟨⟨hcond, hp.1⟩, hp.2⟩⟩
  · rw [if_neg hcond, find?_eq_none]
    intro inst _
    rw [decide_eq_true_eq]
    exact fun hp => hcond hp.1.1

/-- A parent that the engine may give: an open incident that matches; without a dependency the
one there was. -/
def ParentFrom (rows : List IncidentRow) (rule : EngineRule) (labels : Dict String String)
    (row : IncidentRow) (parentIncidentId : Option Uuid) : Prop :=
  match validateDependsOn rule.dependsOn with
  | none => parentIncidentId = row.parentIncidentId
  | some d => ∀ id ∈ parentIncidentId, ∃ parent ∈ rows, parent.id = id ∧ parent.IsOpen ∧
      parent.ruleId ∈ d.ruleIds ∧ parent.ruleId ≠ rule.id ∧
      labelsMatch d.matchOn parent.labels labels = true

/-- What a rule does to a row of its own that is open. -/
def RuleEffect (config : Config) (env : CycleEnv) (rows : List IncidentRow) (rule : EngineRule)
    (row row' : IncidentRow) : Prop :=
  match updater config env rows rule row.entityKey with
  | some inst => ∃ p, Becomes row (refreshedLabels inst row) p row' ∧
      ParentFrom rows rule (refreshedLabels inst row) row p
  | none => Keeps row row'

theorem parentFrom_nextParent (env : CycleEnv) (rule : EngineRule)
    (ladder : Option (List LadderStep)) (rows : List IncidentRow) (inst : AlertEntity)
    (row : IncidentRow) : ParentFrom rows rule (refreshedLabels inst row) row
      ((ruleContext env rule ladder rows).nextParent inst row) := by
  rw [ParentFrom, RuleContext.nextParent, ruleContext]
  cases validateDependsOn rule.dependsOn with
  | none => rfl
  | some d =>
    intro id hid
    dsimp only at hid
    rw [Option.isSome_some, if_pos rfl] at hid
    obtain ⟨parent, hfind, rfl⟩ := Option.map_eq_some_iff.1 hid
    have hmem := mem_of_find?_eq_some hfind
    rw [parentCandidates, mem_filter, decide_eq_true_eq] at hmem
    exact ⟨parent, ((env.scan rule.id).perm rows).mem_iff.1 hmem.1, rfl, hmem.2.2.2, hmem.2.1,
      hmem.2.2.1, by simpa using find?_some hfind⟩

theorem companionPass_quiet (config : Config) (rule : EngineRule)
    (now : Timestamp) (loaded : List Uuid) (h : WellFormed ids n s.incidents)
    (hquiet : Quiet (companionPass config rule now loaded s).transitions) :
    (companionPass config rule now loaded s).incidents = s.incidents := by
  rw [companionPass] at hquiet ⊢
  cases hids : validateCompanionIds rule.clearOnCompanionIds with
  | none => rfl
  | some companionIds =>
    rw [hids] at hquiet
    dsimp only at hquiet ⊢
    refine (map_congr_left fun row hrow => ?_).trans (map_id _)
    split
    next hloaded =>
      rcases companionClear_cases rule companionIds config.companionEntities now row with
        ⟨hsame, -⟩ | ⟨-, reason, -, hrecord⟩
      · exact hsame
      · -- the transition of this row would be there
        have hfalse : (record rule.toIncidentRule (row.clear now reason).toIncident
            "cleared").opensOrClears = false := by
          refine hquiet _ (mem_append_right _ (List.mem_flatMap.2 ⟨row.id, hloaded, ?_⟩))
          rw [h.find?_id hrow]
          dsimp only
          rw [hrecord]
          exact mem_singleton_self _
        simp [record, Transition.opensOrClears] at hfalse
    · rfl

theorem companionPass_transitions (config : Config) (rule : EngineRule) (now : Timestamp)
    (loaded : List Uuid) (s : EngineState) :
    s.transitions <+: (companionPass config rule now loaded s).transitions := by
  rw [companionPass]
  split
  · exact prefix_refl _
  · exact prefix_append ..

theorem evaluateRule_transitions (ids : UuidSource) (config : Config) (env : CycleEnv)
    (rule : EngineRule) (s : EngineState) :
    s.transitions <+: (evaluateRule ids config env rule s).transitions := by
  rw [evaluateRule]
  split
  · exact prefix_refl _
  next defn _ =>
    split
    · exact prefix_refl _
    · split
      · exact prefix_refl _
      next ladder _ =>
        have hloop := evaluateEntities_transitions ids (ruleContext env rule ladder s.incidents)
          defn.entities.enabled s
        dsimp only
        split
        next s' heq =>
          rw [heq] at hloop
          exact hloop
        next s' heq =>
          rw [heq] at hloop
          exact hloop.trans (companionPass_transitions ..)

/-- What a quiet rule does to a row, be it one of its open incidents or not. -/
def RuleRow (config : Config) (env : CycleEnv) (rows : List IncidentRow) (rule : EngineRule)
    (row row' : IncidentRow) : Prop :=
  if row.ruleId = rule.id ∧ row.IsOpen then RuleEffect config env rows rule row row'
  else Keeps row row'

variable {config : Config} {env : CycleEnv} {rule : EngineRule}

theorem ruleRow_refl
    (hlooked : lookedAt config env rows rule = []) (row : IncidentRow) :
    RuleRow config env rows rule row row := by
  rw [RuleRow]
  split
  · rw [RuleEffect, updater, hlooked]
    exact .refl row
  · exact .refl row

theorem ruleRow_of_rounds (h : WellFormed ids n rows)
    {ladder : Option (List LadderStep)}
    (hlooked : lookedAt config env rows rule =
      insts.takeWhile fun inst => !raises env rows rule inst)
    (hrow : row ∈ rows)
    (hrounds : (ruleContext env rule ladder rows).Rounds insts row row') :
    RuleRow config env rows rule row row' := by
  rw [RuleContext.Rounds, updater_ruleContext h env rule ladder _ hrow, ← hlooked] at hrounds
  rw [RuleRow]
  by_cases hcond : row.ruleId = rule.id ∧ row.IsOpen
  · rw [if_pos hcond] at hrounds ⊢
    rw [RuleEffect, updater]
    split at hrounds
    next inst hinst => exact ⟨_, hrounds, parentFrom_nextParent env rule ladder rows inst row⟩
    next hnone => exact hrounds
  · rw [if_neg hcond] at hrounds ⊢
    exact hrounds

/-- **A quiet rule** updates its open incidents, and touches no others. -/
theorem evaluateRule_quiet (config : Config) (env : CycleEnv)
    (rule : EngineRule) (h : WellFormed ids s.issued s.incidents)
    (hquiet : Quiet (evaluateRule ids config env rule s).transitions) :
    ∃ f : IncidentRow → IncidentRow,
      (evaluateRule ids config env rule s).incidents = s.incidents.map f ∧
      ∀ row ∈ s.incidents, RuleRow config env s.incidents rule row (f row) := by
  have hnothing : lookedAt config env s.incidents rule = [] →
      ∃ f : IncidentRow → IncidentRow, s.incidents = s.incidents.map f ∧
        ∀ row ∈ s.incidents, RuleRow config env s.incidents rule row (f row) :=
    fun hlooked => ⟨id, (map_id _).symm, fun row _ => ruleRow_refl hlooked row⟩
  rw [evaluateRule] at hquiet ⊢
  cases hdefn : config.definition rule with
  | none => exact hnothing (by rw [lookedAt, hdefn])
  | some defn =>
    rw [hdefn] at hquiet
    dsimp only at hquiet ⊢
    cases henabled : defn.enabled with
    | false =>
      refine hnothing ?_
      rw [lookedAt, hdefn]
      cases validateLadder rule.severityLadder <;> simp [henabled]
    | true =>
      rw [henabled] at hquiet
      cases hladder : validateLadder rule.severityLadder with
      | error e => exact hnothing (by rw [lookedAt, hdefn, hladder])
      | ok ladder =>
        rw [hladder] at hquiet
        have hlooked : lookedAt config env s.incidents rule =
            defn.entities.enabled.takeWhile fun inst => !raises env s.incidents rule inst := by
          rw [lookedAt, hdefn, hladder]
          exact if_pos henabled
        have hstart := loopInv_start h env rule ladder defn
        have hloop := hstart.evaluateEntities_quiet
        have hwf := hstart.rounds.1
        dsimp only at hquiet ⊢
        rcases hresult : evaluateEntities ids (ruleContext env rule ladder s.incidents)
          defn.entities.enabled s with ⟨s', completed⟩
        rw [hresult] at hquiet hloop hwf
        cases completed with
        | false =>
          obtain ⟨f, hf, hrows⟩ := hloop hquiet
          exact ⟨f, hf, fun row hrow => ruleRow_of_rounds h hlooked hrow (hrows row hrow)⟩
        | true =>
          have hcompanion := companionPass_quiet config rule _ _ hwf hquiet
          obtain ⟨f, hf, hrows⟩ := hloop (hquiet.of_isPrefix (companionPass_transitions ..))
          exact ⟨f, hcompanion.trans hf,
            fun row hrow => ruleRow_of_rounds h hlooked hrow (hrows row hrow)⟩

end MonCTL.Incidents
