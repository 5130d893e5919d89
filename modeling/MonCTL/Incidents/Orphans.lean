import MonCTL.Incidents.Handover

/-!
# Incidents Nobody Looks After

The engine reaches an incident through the entity that it is about: it goes over the enabled
entities of an enabled definition, and looks up the incident with the key of each. When the
entity or the definition is disabled or deleted, nothing leads to the incident any more, and only
a companion alert can still clear it. An entity that has left the scope of its rule is still
looked at, and its incident is cleared, unless the rule raises before it gets there.

This module says exactly which open incidents a cycle leaves without an entity.
-/

namespace MonCTL.Incidents

open List

open Alerting (AlertState AlertEntity Entities)

/-! ### Which incidents belong -/

def outside (rule : EngineRule) (inst : AlertEntity) : Bool :=
  (validateScopeFilter rule.scopeFilter).any fun scope => !entityInScope inst scope

/-- **An incident belongs** to an enabled entity of the enabled definition of its rule, in the
scope of the rule. -/
def Belongs (config : Config) (rule : EngineRule) (row : IncidentRow) : Prop :=
  ∃ defn, config.definition rule = some defn ∧ defn.enabled = true ∧
    ∃ inst ∈ defn.entities.enabled, incidentKey inst = row.entityKey ∧ outside rule inst = false

/-- The loop of a rule gets to its end. -/
def completes (config : Config) (env : CycleEnv) (rows : List IncidentRow)
    (rule : EngineRule) : Bool :=
  match config.definition rule, validateLadder rule.severityLadder with
  | some defn, .ok _ =>
    defn.enabled && defn.entities.enabled.all fun inst => !raises env rows rule inst
  | _, _ => false

def companionsClear (config : Config) (rule : EngineRule) (row : IncidentRow) : Bool :=
  match validateCompanionIds rule.clearOnCompanionIds with
  | none => false
  | some companionIds =>
    (clearReason rule.toIncidentRule.mode
      (companionStates companionIds config.companionEntities row.toIncident)).isSome

/-- What makes a cycle clear an incident that does not belong: the rule gets to its entity, which
is enabled but outside the scope, or gets through all entities, and companions are healthy. -/
def Dropped (config : Config) (env : CycleEnv) (rows : List IncidentRow) (rule : EngineRule)
    (row : IncidentRow) : Prop :=
  (∃ inst ∈ lookedAt config env rows rule, incidentKey inst = row.entityKey ∧
    outside rule inst = true) ∨
  (completes config env rows rule = true ∧ companionsClear config rule row = true)
  deriving Decidable

/-- **No incident is orphaned**: every open incident of an enabled rule belongs. -/
def NoOrphans (s : System) : Prop :=
  ∀ rule ∈ s.config.rules, rule.enabled = true → ∀ row ∈ s.incidents, row.ruleId = rule.id →
    row.IsOpen → Belongs s.config rule row

/-- **Every open incident is looked after** in a cycle: it belongs, or the cycle is committed and
clears it. -/
def LookedAfter (s : System) (env : CycleEnv) (commits : Bool) : Prop :=
  ∀ rule ∈ s.config.rules, rule.enabled = true → ∀ row ∈ s.incidents, row.ruleId = rule.id →
    row.IsOpen → Belongs s.config rule row ∨
      (commits = true ∧ Dropped s.config env s.incidents rule row)

instance (config : Config) (rule : EngineRule) (row : IncidentRow) :
    Decidable (Belongs config rule row) :=
  decidable_of_iff ((config.definition rule).any (fun defn => defn.enabled &&
      defn.entities.enabled.any fun inst =>
        incidentKey inst = row.entityKey && !outside rule inst) = true) <| by
    simp [Belongs, Option.any_eq_true]

instance (s : System) : Decidable (NoOrphans s) := by
  unfold NoOrphans
  infer_instance

instance (s : System) (env : CycleEnv) (commits : Bool) :
    Decidable (LookedAfter s env commits) := by
  unfold LookedAfter
  infer_instance

variable {config : Config} {rule : EngineRule} {row row' : IncidentRow}

theorem Belongs.congr
    (h : Belongs config rule row) (hkey : row'.entityKey = row.entityKey) :
    Belongs config rule row' := by
  obtain ⟨defn, hdefn, henabled, inst, hinst, hinstKey, hscope⟩ := h
  exact ⟨defn, hdefn, henabled, inst, hinst, hinstKey.trans hkey.symm, hscope⟩

/-! ### Tables that grow -/

/-- What becomes of a table: its rows are written in place, and new ones come after them. -/
structure Grows (rows rows' : List IncidentRow) (f : IncidentRow → IncidentRow)
    (new : List IncidentRow) : Prop where
  incidents : rows' = rows.map f ++ new
  advances : ∀ row ∈ rows, Advances row (f row)

theorem Grows.refl (rows : List IncidentRow) : Grows rows rows id [] where
  incidents := by simp
  advances row _ := .refl row

variable {rows rows' new : List IncidentRow} {f : IncidentRow → IncidentRow}

theorem Grows.mem (h : Grows rows rows' f new) (hrow : row ∈ rows) : f row ∈ rows' :=
  h.incidents ▸ mem_append_left _ (mem_map_of_mem hrow)

theorem Grows.mem_new (h : Grows rows rows' f new) (hrow : row ∈ new) : row ∈ rows' :=
  h.incidents ▸ mem_append_right _ hrow

variable {rows'' : List IncidentRow} {g : IncidentRow → IncidentRow} {new' : List IncidentRow}

theorem Grows.trans (h : Grows rows rows' f new)
    (h' : Grows rows' rows'' g new') : Grows rows rows'' (g ∘ f) (new.map g ++ new') where
  incidents := by rw [h'.incidents, h.incidents, map_append, map_map, append_assoc]
  advances row hrow := (h.advances row hrow).trans (h'.advances _ (h.mem hrow))

variable {ids : UuidSource} {n : ℕ}

theorem grows_putRow (h : WellFormed ids n rows) (hrow : row ∈ rows) (hadv : Advances row row') :
    Grows rows (putRow rows row') (fun r => if r.id = row'.id then row' else r) [] where
  incidents := by rw [append_nil]; rfl
  advances := advances_putRow h hrow hadv

/-! ### The loop over the entities -/

/-- What a loop over some entities does to the rows it finds and the rows it adds. -/
structure Visits (c : RuleContext) (insts : List AlertEntity) (rows : List IncidentRow)
    (f : IncidentRow → IncidentRow) (new : List IncidentRow) : Prop where
  others : ∀ row ∈ rows, (∀ inst ∈ insts, c.openByKey.get? (incidentKey inst) ≠ some row.id) →
    f row = row
  cleared : ∀ row ∈ rows, ∀ inst ∈ insts.takeWhile fun inst => !c.raises inst,
    c.openByKey.get? (incidentKey inst) = some row.id → c.outOfScope inst = true →
    (f row).state = .cleared
  kept : ∀ row ∈ rows, row.IsOpen →
    (∀ inst ∈ insts.takeWhile fun inst => !c.raises inst,
      c.openByKey.get? (incidentKey inst) ≠ some row.id) → (f row).IsOpen
  opened : ∀ row ∈ new, row.ruleId = c.rule.id ∧
    ∃ inst ∈ insts, incidentKey inst = row.entityKey ∧ c.outOfScope inst = false

variable {c : RuleContext} {inst : AlertEntity} {rest : List AlertEntity}

theorem Visits.of_raises (h : Visits c [inst] rows f new) (hraises : c.raises inst = true) :
    Visits c (inst :: rest) rows f new where
  others row hrow hne := h.others row hrow fun inst' hinst' =>
    hne inst' (List.mem_singleton.1 hinst' ▸ mem_cons_self)
  cleared row hrow inst' hinst' := by simp [hraises] at hinst'
  kept row hrow hopen _ := h.kept row hrow hopen (by simp [hraises])
  opened row hrow := by
    obtain ⟨hrule, inst', hinst', hkey⟩ := h.opened row hrow
    exact ⟨hrule, inst', List.mem_singleton.1 hinst' ▸ mem_cons_self, hkey⟩

theorem Visits.cons (h : Visits c [inst] rows f new) (hf : Grows rows rows' f new)
    (h' : Visits c rest rows' g new') (hg : Grows rows' rows'' g new')
    (hraises : c.raises inst = false) :
    Visits c (inst :: rest) rows (g ∘ f) (new.map g ++ new') where
  others row hrow hne := by
    have hsame : f row = row := h.others row hrow fun inst' hinst' =>
      hne inst' (List.mem_singleton.1 hinst' ▸ mem_cons_self)
    have hrow' := hf.mem hrow
    rw [Function.comp_apply]
    rw [hsame] at hrow' ⊢
    exact h'.others row hrow' fun inst' hinst' => hne inst' (mem_cons_of_mem _ hinst')
  cleared row hrow inst' hinst' hget hscope := by
    simp only [takeWhile_cons, hraises, Bool.not_false, if_true] at hinst'
    rcases List.mem_cons.1 hinst' with rfl | hinst'
    · exact (hg.advances _ (hf.mem hrow)).cleared
        (h.cleared row hrow inst' (by simp [hraises]) hget hscope)
    · exact h'.cleared _ (hf.mem hrow) inst' hinst' ((hf.advances row hrow).id ▸ hget) hscope
  kept row hrow hopen hne := by
    simp only [takeWhile_cons, hraises, Bool.not_false, if_true] at hne
    have hopen' : (f row).IsOpen := h.kept row hrow hopen fun inst' hinst' =>
      hne inst' (List.mem_singleton.1 ((takeWhile_sublist _).subset hinst') ▸
        mem_cons_self)
    refine h'.kept _ (hf.mem hrow) hopen' fun inst' hinst' => ?_
    rw [(hf.advances row hrow).id]
    exact hne inst' (mem_cons_of_mem _ hinst')
  opened row hrow := by
    rcases List.mem_append.1 hrow with hrow | hrow
    · obtain ⟨row₀, hrow₀, rfl⟩ := List.mem_map.1 hrow
      obtain ⟨hrule, inst', hinst', hkey, hscope⟩ := h.opened row₀ hrow₀
      have hadv := hg.advances row₀ (hf.mem_new hrow₀)
      exact ⟨hadv.ruleId.trans hrule, inst', List.mem_singleton.1 hinst' ▸ mem_cons_self,
        hkey.trans hadv.entityKey.symm, hscope⟩
    · obtain ⟨hrule, inst', hinst', hkey⟩ := h'.opened row hrow
      exact ⟨hrule, inst', mem_cons_of_mem _ hinst', hkey⟩

theorem evaluateEntity_outOfScope (ids : UuidSource)
    {s : EngineState} (hsome : c.incident s.incidents inst = some row)
    (hscope : c.outOfScope inst = true) : (evaluateEntity ids c inst s).1.incidents =
      putRow s.incidents (row.clear c.now "out_of_scope") := by
  rw [evaluateEntity, hsome]
  dsimp only
  rw [if_pos hscope]
  rfl

theorem evaluateEntity_raises (ids : UuidSource)
    {s : EngineState} (hsome : c.incident s.incidents inst = some row)
    (hraises : c.raises inst = true) :
    (evaluateEntity ids c inst s).1.incidents = putRow s.incidents (row.touch c.now) := by
  simp only [RuleContext.raises, RuleContext.fires, decide_eq_true_eq] at hraises
  obtain ⟨⟨hstate, hscope⟩, -, hrender⟩ := hraises
  rw [evaluateEntity, hsome]
  dsimp only
  rw [if_neg hscope, hstate, hrender]

theorem visits_id (h : ∀ row ∈ rows, c.openByKey.get? (incidentKey inst) = some row.id →
      c.outOfScope inst = false) : Visits c [inst] rows id [] where
  others _ _ _ := rfl
  cleared row hrow inst' hinst' hget hscope := by
    obtain rfl := List.mem_singleton.1 ((takeWhile_sublist _).subset hinst')
    rw [h row hrow hget] at hscope
    cases hscope
  kept _ _ hopen _ := hopen
  opened _ hrow := absurd hrow not_mem_nil

theorem visits_opened (h : c.outOfScope inst = false) (id : Uuid) (message : String) :
    Visits c [inst] rows (fun r => r) [newIncident c id message inst] where
  others _ _ _ := rfl
  cleared row hrow inst' hinst' _ hscope := by
    obtain rfl := List.mem_singleton.1 ((takeWhile_sublist _).subset hinst')
    rw [h] at hscope
    cases hscope
  kept _ _ hopen _ := hopen
  opened row hrow := by
    obtain rfl := List.mem_singleton.1 hrow
    exact ⟨rfl, inst, mem_singleton_self _, rfl, h⟩

/-- The incident of an entity is written: cleared outside the scope, and open if the round
raises. -/
theorem visits_putRow (h : WellFormed ids n rows)
    (hrow : row ∈ rows) (hget : c.openByKey.get? (incidentKey inst) = some row.id)
    (hadv : Advances row row') (hscope : c.outOfScope inst = true → row'.state = .cleared)
    (hraises : c.raises inst = true → row.IsOpen → row'.IsOpen) :
    Visits c [inst] rows (fun r => if r.id = row'.id then row' else r) [] where
  others r _ hne := by
    refine if_neg fun hid => hne inst (mem_singleton_self _) ?_
    rw [hget, hid, hadv.id]
  cleared r _ inst' hinst' hget' hout := by
    obtain rfl := List.mem_singleton.1 ((takeWhile_sublist _).subset hinst')
    have hid : r.id = row.id := Option.some.inj (hget'.symm.trans hget)
    rw [if_pos (hid.trans hadv.id.symm)]
    exact hscope hout
  kept r hr hopen hne := by
    split
    next hid =>
      have hsame : r = row := h.eq_of_id hr hrow (hid.trans hadv.id)
      refine hraises ?_ (hsame ▸ hopen)
      by_contra hnot
      refine hne inst (by simp [hnot]) ?_
      rw [hget, hsame]
    · exact hopen
  opened _ hrow := absurd hrow not_mem_nil

variable {s : EngineState}

/-- **What a round of the loop does to the table.** -/
theorem LoopInv.round_visits (h : LoopInv ids c (inst :: rest) s) :
    ∃ f new, Grows s.incidents (evaluateEntity ids c inst s).1.incidents f new ∧
      Visits c [inst] s.incidents f new := by
  cases hincident : c.incident s.incidents inst with
  | none =>
    have hget := h.get?_eq_none hincident
    rcases evaluateEntity_cases ids c inst s with
      hskip | ⟨message, -, hscope, -, -, -, hopened⟩ | ⟨_, _, _, hsome, -⟩
    · rw [hskip]
      refine ⟨id, [], .refl _, visits_id fun row _ hknown => ?_⟩
      rw [hget] at hknown
      cases hknown
    · rw [hopened]
      refine ⟨id, _, ⟨?_, fun row _ => .refl row⟩, visits_opened hscope (ids.uuid4 s.issued) message⟩
      rw [map_id]
      rfl
    · rw [hincident] at hsome
      cases hsome
  | some row =>
    obtain ⟨hrow, hget⟩ := RuleContext.mem_of_incident hincident
    by_cases hscope : c.outOfScope inst = true
    · have hquiet : c.raises inst ≠ true := by
        simp [RuleContext.raises, RuleContext.fires, hscope]
      have hadv := advances_clear row c.now "out_of_scope"
      rw [evaluateEntity_outOfScope ids hincident hscope]
      exact ⟨_, _, grows_putRow h.wf hrow hadv, visits_putRow h.wf hrow hget hadv
        (fun _ => rfl) (fun hraises => absurd hraises hquiet)⟩
    · have hin : ∀ {P : Prop}, c.outOfScope inst = true → P := fun hout => absurd hout hscope
      by_cases hraises : c.raises inst = true
      · have hadv := advances_touch row c.now
        rw [evaluateEntity_raises ids hincident hraises]
        exact ⟨_, _, grows_putRow h.wf hrow hadv,
          visits_putRow h.wf hrow hget hadv hin (fun _ hopen => hopen)⟩
      · rcases evaluateEntity_cases ids c inst s with
          hskip | ⟨_, hnone, -⟩ | ⟨row', row'', ts, hsome, hwrites, hwritten⟩
        · rw [hskip]
          exact ⟨id, [], .refl _, visits_id fun _ _ _ => Bool.eq_false_iff.2 hscope⟩
        · rw [hincident] at hnone
          cases hnone
        · obtain rfl : row = row' := Option.some.inj (hincident.symm.trans hsome)
          rw [hwritten]
          exact ⟨_, _, grows_putRow h.wf hrow hwrites.advances,
            visits_putRow h.wf hrow hget hwrites.advances hin fun h => absurd h hraises⟩

variable {insts : List AlertEntity}

/-- **What the loop does to the table.** -/
theorem LoopInv.visits (h : LoopInv ids c insts s) :
    ∃ f new, Grows s.incidents (evaluateEntities ids c insts s).1.incidents f new ∧
      Visits c insts s.incidents f new := by
  induction insts generalizing s with
  | nil =>
    exact ⟨id, [], .refl _, fun _ _ _ => rfl, fun _ _ _ hinst => absurd hinst not_mem_nil,
      fun _ _ hopen _ => hopen, fun _ hrow => absurd hrow not_mem_nil⟩
  | cons inst rest ih =>
    obtain ⟨f, new, hf, hvisits⟩ := h.round_visits
    have hinv := h.round.1
    have hraises := h.evaluateEntity_snd inst
    rw [evaluateEntities]
    rcases hstep : evaluateEntity ids c inst s with ⟨s', completed⟩
    rw [hstep] at hf hinv hraises
    cases completed with
    | false => exact ⟨f, new, hf, hvisits.of_raises (by simpa using hraises)⟩
    | true =>
      obtain ⟨g, new', hg, hvisits'⟩ := ih hinv
      exact ⟨g ∘ f, _, hf.trans hg, hvisits.cons hf hvisits' hg (by simpa using hraises)⟩

/-! ### A rule -/

theorem isOpen_companionClear {companionIds : List Uuid}
    (hids : validateCompanionIds rule.clearOnCompanionIds = some companionIds) (now : Timestamp)
    (hopen : row.IsOpen) :
    (companionClear rule companionIds config.companionEntities now row).IsOpen ↔
      companionsClear config rule row = false := by
  have hstate : row.toIncident.state = .isOpen := hopen
  rw [companionClear, clearByCompanions, companionsClear, hids, IncidentRow.IsOpen]
  dsimp only
  rw [if_neg (not_not.2 hstate)]
  cases clearReason rule.toIncidentRule.mode
    (companionStates companionIds config.companionEntities row.toIncident) with
  | none => exact iff_of_true hstate rfl
  | some reason => exact iff_of_false (fun h => by cases h) (by simp)

/-- **What the companion pass does to the table.** -/
theorem companionPass_visits (config : Config) (rule : EngineRule) (now : Timestamp)
    (loaded : List Uuid) (s : EngineState) :
    ∃ g, Grows s.incidents (companionPass config rule now loaded s).incidents g [] ∧
      (∀ row ∈ s.incidents, row.id ∉ loaded → g row = row) ∧
      ∀ row ∈ s.incidents, row.id ∈ loaded → row.IsOpen →
        ((g row).IsOpen ↔ companionsClear config rule row = false) := by
  rw [companionPass]
  cases hids : validateCompanionIds rule.clearOnCompanionIds with
  | none =>
    refine ⟨id, .refl _, fun _ _ _ => rfl, fun row _ _ hopen => iff_of_true hopen ?_⟩
    rw [companionsClear, hids]
  | some companionIds =>
    refine ⟨_, ⟨(append_nil _).symm, fun row _ => ?_⟩, fun row _ hnot => if_neg hnot,
      fun row _ hloaded hopen => ?_⟩
    · split
      · exact advances_companionClear ..
      · exact .refl row
    · rw [if_pos hloaded]
      exact isOpen_companionClear hids now hopen

/-- What a rule, or several, do to the rows of a table and what they add. -/
structure RuleVisits (config : Config) (env : CycleEnv) (rules : List EngineRule)
    (rows : List IncidentRow) (f : IncidentRow → IncidentRow) (new : List IncidentRow) : Prop where
  others : ∀ row ∈ rows, (∀ rule ∈ rules, row.ruleId ≠ rule.id) → f row = row
  dropped : ∀ rule ∈ rules, ∀ row ∈ rows, row.ruleId = rule.id → row.IsOpen →
    Dropped config env rows rule row → (f row).state = .cleared
  kept : ∀ rule ∈ rules, ∀ row ∈ rows, row.ruleId = rule.id → row.IsOpen →
    ¬Belongs config rule row → ¬Dropped config env rows rule row → (f row).IsOpen
  opened : ∀ row ∈ new, ∃ rule ∈ rules, row.ruleId = rule.id ∧ Belongs config rule row

variable {env : CycleEnv}

theorem ruleVisits_idle (hlooked : lookedAt config env rows rule = [])
    (hcompletes : completes config env rows rule = false) :
    RuleVisits config env [rule] rows id [] where
  others _ _ _ := rfl
  dropped rule' hrule' row _ _ _ hdropped := by
    obtain rfl := List.mem_singleton.1 hrule'
    rcases hdropped with ⟨inst, hinst, -⟩ | ⟨hall, -⟩
    · rw [hlooked] at hinst
      exact absurd hinst not_mem_nil
    · rw [hcompletes] at hall
      cases hall
  kept _ _ _ _ _ hopen _ _ := hopen
  opened _ hrow := absurd hrow not_mem_nil

variable {defn : DefinitionRow} {ladder : Option (List LadderStep)}

theorem completes_iff (hdefn : config.definition rule = some defn) (henabled : defn.enabled = true)
    (hladder : validateLadder rule.severityLadder = .ok ladder) :
    completes config env rows rule = true ↔
      ∀ inst ∈ defn.entities.enabled, raises env rows rule inst = false := by
  rw [completes, hdefn, hladder]
  simp [henabled]

theorem LoopInv.evaluateEntities_snd (h : LoopInv ids c insts s) :
    (evaluateEntities ids c insts s).2 = insts.all fun inst => !c.raises inst := by
  induction insts generalizing s with
  | nil => rfl
  | cons inst rest ih =>
    have hraises := h.evaluateEntity_snd inst
    have hinv := h.round.1
    rw [evaluateEntities, all_cons, ← hraises]
    rcases hstep : evaluateEntity ids c inst s with ⟨s', completed⟩
    rw [hstep] at hinv
    cases completed with
    | false => rfl
    | true => exact ih hinv

/-- What the loop of a rule does to the table, in words of the table before it. -/
structure LoopVisits (config : Config) (env : CycleEnv) (rule : EngineRule)
    (rows : List IncidentRow) (f : IncidentRow → IncidentRow) (new : List IncidentRow) : Prop where
  others : ∀ row ∈ rows, row.ruleId ≠ rule.id → f row = row
  cleared : ∀ row ∈ rows, row.ruleId = rule.id → row.IsOpen →
    (∃ inst ∈ lookedAt config env rows rule, incidentKey inst = row.entityKey ∧
      outside rule inst = true) → (f row).state = .cleared
  kept : ∀ row ∈ rows, row.ruleId = rule.id → row.IsOpen → ¬Belongs config rule row →
    ¬(∃ inst ∈ lookedAt config env rows rule, incidentKey inst = row.entityKey ∧
      outside rule inst = true) → (f row).IsOpen
  opened : ∀ row ∈ new, row.ruleId = rule.id ∧ Belongs config rule row

/-- **What the loop of a rule does to the table.** -/
theorem loop_visits (env : CycleEnv) (h : WellFormed ids s.issued s.incidents)
    (hdefn : config.definition rule = some defn)
    (henabled : defn.enabled = true) (hladder : validateLadder rule.severityLadder = .ok ladder) :
    ∃ f new, Grows s.incidents (evaluateEntities ids (ruleContext env rule ladder s.incidents)
        defn.entities.enabled s).1.incidents f new ∧
      LoopVisits config env rule s.incidents f new := by
  have hget := get?_ruleContext h env rule ladder
  have hraises := raises_ruleContext h env rule ladder
  have hlooked : lookedAt config env s.incidents rule =
      defn.entities.enabled.takeWhile fun inst => !raises env s.incidents rule inst :=
    lookedAt_eq hdefn henabled hladder
  obtain ⟨f, new, hf, hvisits⟩ := (loopInv_start h env rule ladder defn).visits
  refine ⟨f, new, hf, ?_, ?_, ?_, ?_⟩
  · intro row hrow hne
    refine hvisits.others row hrow fun inst _ hknown => hne ?_
    obtain ⟨row', hrow', hrule, -, -, hid⟩ := (hget _ _).1 hknown
    rw [← h.eq_of_id hrow' hrow hid, hrule]
  · rintro row hrow hrule hopen ⟨inst, hinst, hkey, hscope⟩
    refine hvisits.cleared row hrow inst ?_ ((hget _ _).2 ⟨row, hrow, hrule, hopen, hkey.symm, rfl⟩)
      hscope
    simp only [hraises]
    exact hlooked ▸ hinst
  · intro row hrow hrule hopen hnot hnone
    refine hvisits.kept row hrow hopen fun inst hinst hknown => ?_
    simp only [hraises] at hinst
    rw [← hlooked] at hinst
    obtain ⟨row', hrow', -, -, hkey, hid⟩ := (hget _ _).1 hknown
    rw [h.eq_of_id hrow' hrow hid] at hkey
    have hmem : inst ∈ defn.entities.enabled := by
      rw [hlooked] at hinst
      exact (takeWhile_sublist _).subset hinst
    cases hscope : outside rule inst with
    | true => exact hnone ⟨inst, hinst, hkey.symm, hscope⟩
    | false => exact hnot ⟨defn, hdefn, henabled, inst, hmem, hkey.symm, hscope⟩
  · intro row hrow
    obtain ⟨hrule, inst, hinst, hkey, hscope⟩ := hvisits.opened row hrow
    exact ⟨hrule, defn, hdefn, henabled, inst, hinst, hkey, hscope⟩

theorem LoopVisits.ruleVisits (h : LoopVisits config env rule rows f new)
    (hraises : completes config env rows rule = false) : RuleVisits config env [rule] rows f new :=
    by
  refine ⟨fun row hrow hne => h.others row hrow (hne rule (by simp)), ?_, ?_, ?_⟩
  · intro rule' hrule' row hrow hrule hopen hdropped
    obtain rfl := List.mem_singleton.1 hrule'
    refine h.cleared row hrow hrule hopen (hdropped.resolve_right fun hall => ?_)
    rw [hraises] at hall
    exact absurd hall.1 (by decide)
  · intro rule' hrule' row hrow hrule hopen hbelongs hdropped
    obtain rfl := List.mem_singleton.1 hrule'
    exact h.kept row hrow hrule hopen hbelongs fun hlook => hdropped (.inl hlook)
  · exact fun row hrow => ⟨rule, by simp, h.opened row hrow⟩

theorem LoopVisits.companions
    (h : LoopVisits config env rule rows f new) (hf : Grows rows rows' f new)
    (hall : completes config env rows rule = true) {loaded : List Uuid}
    (hmem : ∀ row ∈ rows, row.id ∈ loaded ↔ row.ruleId = rule.id ∧ row.IsOpen)
    (hg : Grows rows' rows'' g []) (hrest : ∀ row ∈ rows', row.id ∉ loaded → g row = row)
    (hloaded : ∀ row ∈ rows', row.id ∈ loaded → row.IsOpen →
      ((g row).IsOpen ↔ companionsClear config rule row = false)) :
    RuleVisits config env [rule] rows (g ∘ f) (new.map g ++ []) := by
  have hsame : ∀ row ∈ rows, companionsClear config rule (f row) =
      companionsClear config rule row := by
    intro row hrow
    rw [companionsClear, companionsClear]
    simp only [companionStates, (hf.advances row hrow).entityKey]
  have hid : ∀ row ∈ rows, row.ruleId = rule.id → row.IsOpen → (f row).id ∈ loaded := by
    intro row hrow hrule hopen
    rw [(hf.advances row hrow).id]
    exact (hmem row hrow).2 ⟨hrule, hopen⟩
  refine ⟨fun row hrow hne => ?_, ?_, ?_, ?_⟩
  · have hne := hne rule (by simp)
    rw [Function.comp_apply, hrest _ (hf.mem hrow), h.others row hrow hne]
    rw [(hf.advances row hrow).id, hmem row hrow]
    exact fun hown => hne hown.1
  · intro rule' hrule' row hrow hrule hopen hdropped
    obtain rfl := List.mem_singleton.1 hrule'
    rw [Function.comp_apply]
    cases hstate : (f row).state with
    | cleared => exact (hg.advances _ (hf.mem hrow)).cleared hstate
    | isOpen =>
      rcases hdropped with hlook | ⟨-, hclear⟩
      · rw [h.cleared row hrow hrule hopen hlook] at hstate
        cases hstate
      · have hiff := hloaded _ (hf.mem hrow) (hid row hrow hrule hopen) hstate
        rw [hsame row hrow, hclear] at hiff
        cases hafter : (g (f row)).state with
        | cleared => rfl
        | isOpen => exact absurd (hiff.1 hafter) (by decide)
  · intro rule' hrule' row hrow hrule hopen hbelongs hdropped
    obtain rfl := List.mem_singleton.1 hrule'
    have hopen' := h.kept row hrow hrule hopen hbelongs fun hlook => hdropped (.inl hlook)
    refine (hloaded _ (hf.mem hrow) (hid row hrow hrule hopen) hopen').2 ?_
    rw [hsame row hrow, Bool.eq_false_iff]
    exact fun hclear => hdropped (.inr ⟨hall, hclear⟩)
  · intro row hrow
    rw [append_nil] at hrow
    obtain ⟨row₀, hrow₀, rfl⟩ := List.mem_map.1 hrow
    obtain ⟨hrule, hbelongs⟩ := h.opened row₀ hrow₀
    have hadv := hg.advances row₀ (hf.mem_new hrow₀)
    exact ⟨rule, by simp, hadv.ruleId.trans hrule, hbelongs.congr hadv.entityKey⟩

theorem mem_loaded_iff (h : WellFormed ids n rows) (env : CycleEnv) (rule : EngineRule) :
    ∀ row ∈ rows, row.id ∈ (openIncidents rule ((env.scan rule.id).rows rows)).map (·.id) ↔
      row.ruleId = rule.id ∧ row.IsOpen := by
  intro row hrow
  constructor
  · intro hid
    obtain ⟨row', hrow', hid⟩ := List.mem_map.1 hid
    obtain ⟨hmem', hrule, hopen⟩ := mem_openIncidents.1 hrow'
    rw [← h.eq_of_id (((env.scan rule.id).perm _).mem_iff.1 hmem') hrow hid]
    exact ⟨hrule, hopen⟩
  · rintro ⟨hrule, hopen⟩
    exact mem_map_of_mem (mem_openIncidents.2
      ⟨((env.scan rule.id).perm _).mem_iff.2 hrow, hrule, hopen⟩)

/-- **What a rule does to the table.** -/
theorem evaluateRule_visits (config : Config) (env : CycleEnv)
    (rule : EngineRule) (h : WellFormed ids s.issued s.incidents) :
    ∃ f new, Grows s.incidents (evaluateRule ids config env rule s).incidents f new ∧
      RuleVisits config env [rule] s.incidents f new := by
  rw [evaluateRule]
  cases hdefn : config.definition rule with
  | none =>
    exact ⟨id, [], .refl _, ruleVisits_idle (by rw [lookedAt, hdefn]) (by rw [completes, hdefn])⟩
  | some defn =>
  dsimp only
  cases henabled : defn.enabled with
  | false =>
    refine ⟨id, [], .refl _, ruleVisits_idle ?_ ?_⟩
    · rw [lookedAt, hdefn]
      split
      next heq _ => cases heq; rw [henabled]; rfl
      · rfl
    · rw [completes, hdefn]
      split
      next heq _ => cases heq; rw [henabled]; rfl
      · rfl
  | true =>
  cases hladder : validateLadder rule.severityLadder with
  | error e =>
    refine ⟨id, [], .refl _, ruleVisits_idle ?_ ?_⟩
    · rw [lookedAt, hdefn, hladder]
    · rw [completes, hdefn, hladder]
  | ok ladder =>
  obtain ⟨f, new, hf, hvisits⟩ := loop_visits env h hdefn henabled hladder
  -- The loop gets to its end when no entity raises.
  have hend : (evaluateEntities ids (ruleContext env rule ladder s.incidents)
      defn.entities.enabled s).2 = completes config env s.incidents rule := by
    rw [(loopInv_start h env rule ladder defn).evaluateEntities_snd, Bool.eq_iff_iff,
      completes_iff hdefn henabled hladder, all_eq_true]
    simp only [raises_ruleContext h, Bool.not_eq_true']
  simp only [Bool.not_true, Bool.false_eq_true, if_false]
  rcases hresult : evaluateEntities ids (ruleContext env rule ladder s.incidents)
    defn.entities.enabled s with ⟨s', completed⟩
  rw [hresult] at hf hend
  cases completed with
  | false => exact ⟨f, new, hf, hvisits.ruleVisits hend.symm⟩
  | true =>
    obtain ⟨g, hg, hrest, hloaded⟩ := companionPass_visits config rule (env.now rule.id)
      ((openIncidents rule ((env.scan rule.id).rows s.incidents)).map (·.id)) s'
    exact ⟨g ∘ f, _, hf.trans hg,
      hvisits.companions hf hend.symm (mem_loaded_iff h env rule) hg hrest hloaded⟩

/-! ### A cycle -/

theorem dropped_congr (h : ∀ key, hasOpen rows' rule key = hasOpen rows rule key)
    (row : IncidentRow) : Dropped config env rows' rule row ↔ Dropped config env rows rule row := by
  have hcompletes : completes config env rows' rule = completes config env rows rule := by
    simp only [completes, raises, h]
  rw [Dropped, Dropped, lookedAt_congr h, hcompletes]

theorem RuleVisits.hasOpen_eq {rule' : EngineRule}
    (h : RuleVisits config env [rule] rows f new) (hf : Grows rows rows' f new)
    (hne : rule'.id ≠ rule.id) (key : String) : hasOpen rows' rule' key = hasOpen rows rule' key :=
    by
  have hframe : ∀ row ∈ rows, row.ruleId ≠ rule.id → f row = row := fun row hrow hrule =>
    h.others row hrow fun r hr => List.mem_singleton.1 hr ▸ hrule
  have hnew : hasOpen new rule' key = false := by
    rw [hasOpen, any_eq_false]
    intro row hrow
    obtain ⟨r, hr, hrule, -⟩ := h.opened row hrow
    rw [List.mem_singleton.1 hr] at hrule
    simp [hrule, hne.symm]
  rw [hf.incidents, ← hasOpen_of_frame hf.advances hframe hne key]
  rw [hasOpen] at hnew
  rw [hasOpen, any_append, hnew, Bool.or_false, hasOpen]

/-- **What a cycle does to the table.** -/
theorem foldl_evaluateRule_visits (config : Config) (env : CycleEnv)
    {rules : List EngineRule} (hnodup : (rules.map fun rule => rule.id).Nodup)
    (h : WellFormed ids s.issued s.incidents) : ∃ f new, Grows s.incidents
        (rules.foldl (fun s rule => evaluateRule ids config env rule s) s).incidents f new ∧
      RuleVisits config env rules s.incidents f new := by
  induction rules generalizing s with
  | nil =>
    exact ⟨id, [], .refl _, fun _ _ _ => rfl, fun _ hrule => absurd hrule not_mem_nil,
      fun _ hrule => absurd hrule not_mem_nil, fun _ hrow => absurd hrow not_mem_nil⟩
  | cons rule rest ih =>
    obtain ⟨hnew, hnodup'⟩ := List.nodup_cons.1 hnodup
    have hne : ∀ rule' ∈ rest, rule'.id ≠ rule.id := fun rule' hrule' heq =>
      hnew (List.mem_map.2 ⟨rule', hrule', heq⟩)
    obtain ⟨f, new, hf, hfirst⟩ := evaluateRule_visits config env rule h
    obtain ⟨g, new', hg, hrest⟩ := ih hnodup' (evaluateRule_wellFormed config env rule h).1
    have hcongr : ∀ rule' ∈ rest, ∀ row, Dropped config env _ rule' row ↔
        Dropped config env s.incidents rule' row := fun rule' hrule' =>
      dropped_congr (hfirst.hasOpen_eq hf (hne rule' hrule'))
    -- The rows of a rule are only written by that rule.
    have hown : ∀ row ∈ s.incidents, row.ruleId = rule.id → g (f row) = f row := by
      intro row hrow hrule
      refine hrest.others _ (hf.mem hrow) fun rule' hrule' heq => hne rule' hrule' ?_
      rw [← heq, (hf.advances row hrow).ruleId, hrule]
    have hothers : ∀ row ∈ s.incidents, row.ruleId ≠ rule.id → f row = row :=
      fun row hrow hrule => hfirst.others row hrow fun r hr => List.mem_singleton.1 hr ▸ hrule
    have hlater : ∀ rule' ∈ rest, ∀ row ∈ s.incidents, row.ruleId = rule'.id →
        f row = row ∧ row ∈ (evaluateRule ids config env rule s).incidents := by
      intro rule' hrule' row hrow hrule
      have hsame := hothers row hrow (hrule.trans_ne (hne rule' hrule'))
      have hmem := hf.mem hrow
      rw [hsame] at hmem
      exact ⟨hsame, hmem⟩
    refine ⟨g ∘ f, _, hf.trans hg, ?_, ?_, ?_, ?_⟩
    · intro row hrow hnone
      have hsame := hothers row hrow (hnone rule mem_cons_self)
      have hmem := hf.mem hrow
      rw [Function.comp_apply]
      rw [hsame] at hmem ⊢
      exact hrest.others row hmem fun rule' hrule' => hnone rule' (mem_cons_of_mem _ hrule')
    · intro rule' hrule' row hrow hrule hopen hdropped
      rw [Function.comp_apply]
      rcases List.mem_cons.1 hrule' with rfl | hrule'
      · rw [hown row hrow hrule]
        exact hfirst.dropped _ (mem_singleton_self _) row hrow hrule hopen hdropped
      · obtain ⟨hsame, hmem⟩ := hlater rule' hrule' row hrow hrule
        rw [hsame]
        exact hrest.dropped rule' hrule' row hmem hrule hopen
          ((hcongr rule' hrule' row).2 hdropped)
    · intro rule' hrule' row hrow hrule hopen hbelongs hdropped
      rw [Function.comp_apply]
      rcases List.mem_cons.1 hrule' with rfl | hrule'
      · rw [hown row hrow hrule]
        exact hfirst.kept _ (mem_singleton_self _) row hrow hrule hopen hbelongs hdropped
      · obtain ⟨hsame, hmem⟩ := hlater rule' hrule' row hrow hrule
        rw [hsame]
        exact hrest.kept rule' hrule' row hmem hrule hopen hbelongs
          fun h => hdropped ((hcongr rule' hrule' row).1 h)
    · intro row hrow
      rcases List.mem_append.1 hrow with hrow | hrow
      · obtain ⟨row₀, hrow₀, rfl⟩ := List.mem_map.1 hrow
        obtain ⟨rule', hrule', hid, hbelongs⟩ := hfirst.opened row₀ hrow₀
        have hadv := hg.advances row₀ (hf.mem_new hrow₀)
        exact ⟨rule', List.mem_singleton.1 hrule' ▸ mem_cons_self, hadv.ruleId.trans hid,
          hbelongs.congr hadv.entityKey⟩
      · obtain ⟨rule', hrule', hid⟩ := hrest.opened row hrow
        exact ⟨rule', mem_cons_of_mem _ hrule', hid⟩

/-- **When no incident is orphaned**: in every run of the engine among changes of rules,
definitions, entities and scopes, no open incident of an enabled rule is without its entity after
a cycle exactly when every one of them was looked after in it. -/
theorem noOrphans_cycle_iff {ids : UuidSource} {s s' : System}
    (h : Run (step ids) (fun _ _ => True) {} s) {env : CycleEnv} {commits : Bool}
    (hstep : step ids s (.cycle env commits) = some s') : NoOrphans s' ↔
    LookedAfter s env commits := by
  have hwf := run_wellFormed h
  cases commits with
  | false =>
    cases hstep
    refine forall₂_congr fun rule _ => forall_congr' fun _ => forall₂_congr fun row _ =>
      forall₂_congr fun _ _ => ?_
    simp
  | true =>
    cases hstep
    have hrules : ((s.config.rules.filter (·.enabled)).map fun rule => rule.id).Nodup :=
      s.config.rules_nodup.sublist (List.filter_sublist.map _)
    let start : EngineState := { incidents := s.incidents, issued := s.issued }
    have hstart : WellFormed ids start.issued start.incidents := hwf
    obtain ⟨f, new, hf, hvisits⟩ := foldl_evaluateRule_visits s.config env hrules hstart
    have hmem : ∀ {rule}, rule ∈ s.config.rules.filter (·.enabled) ↔
        rule ∈ s.config.rules ∧ rule.enabled = true := fun {rule} => by simp
    constructor
    · intro hno rule hrule henabled row hrow hid hopen
      by_cases hbelongs : Belongs s.config rule row
      · exact .inl hbelongs
      · refine .inr ⟨rfl, ?_⟩
        by_contra hdropped
        have hadv := hf.advances row hrow
        have hopen' := hvisits.kept rule (hmem.2 ⟨hrule, henabled⟩) row hrow hid hopen hbelongs
          hdropped
        exact hbelongs ((hno rule hrule henabled _ (hf.mem hrow) (hadv.ruleId.trans hid)
          hopen').congr hadv.entityKey.symm)
    · intro hafter rule hrule henabled row hrow hid hopen
      have hrow : row ∈ s.incidents.map f ++ new := hf.incidents ▸ hrow
      rcases List.mem_append.1 hrow with hrow | hrow
      · obtain ⟨row₀, hrow₀, rfl⟩ := List.mem_map.1 hrow
        have hadv := hf.advances row₀ hrow₀
        have hid₀ : row₀.ruleId = rule.id := hadv.ruleId.symm.trans hid
        have hopen₀ := hadv.isOpen hopen
        rcases hafter rule hrule henabled row₀ hrow₀ hid₀ hopen₀ with hbelongs | ⟨-, hdropped⟩
        · exact hbelongs.congr hadv.entityKey
        · have hcleared := hvisits.dropped rule (hmem.2 ⟨hrule, henabled⟩) row₀ hrow₀ hid₀ hopen₀
            hdropped
          rw [IncidentRow.IsOpen, hcleared] at hopen
          cases hopen
      · obtain ⟨rule', hrule', hid', hbelongs⟩ := hvisits.opened row hrow
        obtain rfl : rule' = rule := inj_on_of_nodup_map s.config.rules_nodup
          (hmem.1 hrule').1 hrule (hid'.symm.trans hid)
        exact hbelongs

/-! ### A link that goes away -/

/-- The rule is narrowed to a site that the link does not belong to. -/
def narrowedConfig : Config where
  rules := [{ linkRule with scopeFilter := .obj [("site", .str "north")] }]
  definitions := (linkConfig .firing).definitions
  dependsOn_accepted := by simp [linkRule, acceptsDependsOn]

/-- The link's assignment is deleted, and its entity with it. -/
def deletedConfig : Config where
  rules := [linkRule]
  definitions := [{ id := "d1", entities := ⟨[], nodup_nil⟩, assignments_plain := by simp }]
  rules_nodup := linkRule_nodup
  dependsOn_accepted := linkRule_accepted

/-- The alert of the link fires, and then the configuration changes. -/
def linkThen (config : Config) : List Action :=
  [.configure (linkConfig .firing), plainCycle, .configure config]

/-- The state before the cycle that follows. -/
def afterChange (config : Config) : System :=
  (replay (step .counter) (fun _ _ => True) {} (linkThen config)).getD {}

theorem run_afterChange (config : Config) :
    Run (step .counter) (fun _ _ => True) {} (afterChange config) :=
  have hreplay : replay (step .counter) (fun _ _ => True) {} (linkThen config) =
      some (afterChange config) := rfl
  run_of_replay hreplay

def afterCycle (config : Config) : System :=
  (step .counter (afterChange config) (.cycle plainEnv true)).getD {}

/-- An incident that has left the scope is cleared. -/
theorem noOrphans_narrowed : NoOrphans (afterCycle narrowedConfig) ∧
    (afterCycle narrowedConfig).incidents.map (·.state) = [.cleared] :=
  have hstep : step .counter (afterChange narrowedConfig) (.cycle plainEnv true) =
      some (afterCycle narrowedConfig) := rfl
  ⟨(noOrphans_cycle_iff (run_afterChange narrowedConfig) hstep).2 (by decide +kernel),
    by decide +kernel⟩

/-- **The incident of a deleted entity** stays open. -/
theorem not_noOrphans_deleted : ¬∀ s s' env commits, Run (step .counter) (fun _ _ => True) {} s →
    step .counter s (.cycle env commits) = some s' → NoOrphans s' := by
  intro hall
  have hno : NoOrphans (afterCycle deletedConfig) :=
    hall _ _ plainEnv true (run_afterChange deletedConfig) rfl
  exact absurd hno (by decide +kernel)

end MonCTL.Incidents
