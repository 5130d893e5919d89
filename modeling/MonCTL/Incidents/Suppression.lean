import MonCTL.Incidents.QuietCycle
import MonCTL.Lib.Acyclic

/-!
# Suppressed Incidents

A rule that depends on others suppresses its incidents while an incident of one of those is
open: the incident is given a parent, and the views of what is wrong leave it out. When the
links lead nowhere, nothing is shown.

The engine sets the link of an incident when it updates it, and only then. An incident that
is not updated keeps its link, whatever becomes of the parent; and rules that depend on each
other make incidents that are each other's parents, since only a rule's own incidents are
left out of the candidates. This module says what a cycle that opens and clears nothing does
to each incident, and from it when the links lead to an incident that is shown.
-/

namespace MonCTL.Incidents

open List

open Alerting (AlertState AlertEntity Entities)

/-! ### Dependencies -/

def Config.ruleOf (config : Config) (row : IncidentRow) : Option EngineRule :=
  config.rules.find? (·.id = row.ruleId)

def Config.dependsOf (config : Config) (row : IncidentRow) : Option DependsOn :=
  (config.ruleOf row).bind fun rule => validateDependsOn rule.dependsOn

/-- An incident matches the dependency of another, which has some labels. -/
def Matches (config : Config) (row : IncidentRow) (labels : Dict String String)
    (parent : IncidentRow) : Prop :=
  ∃ d ∈ config.dependsOf row, parent.ruleId ∈ d.ruleIds ∧ parent.ruleId ≠ row.ruleId ∧
    labelsMatch d.matchOn parent.labels labels = true

/-- **An incident that is accounted for**: it is not suppressed, or its parent is open, matches
the dependency, and is accounted for. -/
inductive Accounted (config : Config) (rows : List IncidentRow) : IncidentRow → Prop
  | primary {row : IncidentRow} : row.parentIncidentId = none → Accounted config rows row
  | suppressed {row parent : IncidentRow} : parent ∈ rows →
      row.parentIncidentId = some parent.id → parent.IsOpen →
      Matches config row row.labels parent → Accounted config rows parent →
      Accounted config rows row

/-! ### What a cycle finds -/

/-- The entity an open incident is updated for in a cycle, if it is. -/
def updaterOf (config : Config) (env : CycleEnv) (rows : List IncidentRow) (row : IncidentRow) :
    Option AlertEntity :=
  (config.ruleOf row).bind fun rule =>
    if rule.enabled then updater config env rows rule row.entityKey else none

/-- The labels an open incident has after the cycle. -/
def nextLabels (config : Config) (env : CycleEnv) (rows : List IncidentRow) (row : IncidentRow) :
    Dict String String :=
  match updaterOf config env rows row with
  | none => row.labels
  | some inst => refreshedLabels inst row

/-- The cycle looks for a parent of an open incident again. -/
def Rechecked (config : Config) (env : CycleEnv) (rows : List IncidentRow) (row : IncidentRow) :
    Prop :=
  (config.dependsOf row).isSome ∧ (updaterOf config env rows row).isSome

/-- The links after the cycle: an incident whose parent is looked for again may be given any
that matches, since the candidates come in any order; the others keep theirs. -/
def NextLink (config : Config) (env : CycleEnv) (rows : List IncidentRow)
    (row parent : IncidentRow) : Prop :=
  row ∈ rows ∧ row.IsOpen ∧ parent ∈ rows ∧ parent.IsOpen ∧ (Rechecked config env rows row →
      Matches config row (nextLabels config env rows row) parent) ∧
    (¬Rechecked config env rows row → row.parentIncidentId = some parent.id)

/-- **What a cycle has to find**: the parent of an incident that is not looked for again is open
and matches; the labels dependencies are matched on do not change; and the incidents do not
depend on each other in a circle. -/
structure Steady (config : Config) (env : CycleEnv) (rows : List IncidentRow) : Prop where
  held : ∀ row ∈ rows, row.IsOpen → ¬Rechecked config env rows row →
    ∀ id ∈ row.parentIncidentId, ∃ parent ∈ rows, parent.id = id ∧ parent.IsOpen ∧
      Matches config row row.labels parent
  labels : ∀ row ∈ rows, row.IsOpen → ∀ d ∈ config.dependsOf row, ∀ parent ∈ rows,
    parent.IsOpen → parent.ruleId ∈ d.ruleIds → parent.ruleId ≠ row.ruleId →
    ∀ key ∈ d.matchOn, (nextLabels config env rows parent).get? key = parent.labels.get? key
  acyclic : Acyclic (NextLink config env rows)

/-! ### What a quiet cycle does -/

theorem Config.ruleOf_eq {config : Config} {rule : EngineRule} (hrule : rule ∈ config.rules)
    {row : IncidentRow} (hid : row.ruleId = rule.id) : config.ruleOf row = some rule := by
  cases hfind : config.ruleOf row with
  | none =>
    have hnone := List.find?_eq_none.1 hfind rule hrule
    simp [hid] at hnone
  | some rule' =>
    have hid' : rule'.id = row.ruleId := by simpa using find?_some hfind
    rw [inj_on_of_nodup_map config.rules_nodup (mem_of_find?_eq_some hfind) hrule
      (hid'.trans hid)]

theorem Config.mem_of_ruleOf {config : Config} {rule : EngineRule} {row : IncidentRow}
    (h : config.ruleOf row = some rule) : rule ∈ config.rules ∧ row.ruleId = rule.id := by
  have hid : rule.id = row.ruleId := by simpa using find?_some h
  exact ⟨mem_of_find?_eq_some h, hid.symm⟩

/-- What the rules done so far have made of a row. -/
structure After (config : Config) (env : CycleEnv) (rows : List IncidentRow)
    (done : List EngineRule) (row row' : IncidentRow) : Prop where
  own : ∀ rule ∈ done, row.ruleId = rule.id ∧ row.IsOpen → RuleEffect config env rows rule row row'
  other : (∀ rule ∈ done, ¬(row.ruleId = rule.id ∧ row.IsOpen)) → Keeps row row'

theorem RuleEffect.becomes {config : Config} {env : CycleEnv} {rows : List IncidentRow}
    {rule : EngineRule} {row row' : IncidentRow} (h : RuleEffect config env rows rule row row') :
    ∃ labels parent, Becomes row labels parent row' := by
  rw [RuleEffect] at h
  split at h
  · obtain ⟨p, hbecomes, -⟩ := h
    exact ⟨_, p, hbecomes⟩
  · exact ⟨_, _, h⟩

theorem After.becomes {config : Config} {env : CycleEnv} {rows : List IncidentRow}
    {done : List EngineRule} {row row' : IncidentRow} (h : After config env rows done row row') :
    ∃ labels parent, Becomes row labels parent row' := by
  by_cases hown : ∃ rule ∈ done, row.ruleId = rule.id ∧ row.IsOpen
  · obtain ⟨rule, hrule, hcond⟩ := hown
    exact (h.own rule hrule hcond).becomes
  · exact ⟨_, _, h.other fun rule hrule hcond => hown ⟨rule, hrule, hcond⟩⟩

theorem Becomes.isOpen_iff {row row' : IncidentRow} {labels : Dict String String}
    {parent : Option Uuid} (h : Becomes row labels parent row') : row'.IsOpen ↔ row.IsOpen := by
  rw [IncidentRow.IsOpen, IncidentRow.IsOpen, h.state]

theorem After.labels {config : Config} {env : CycleEnv} {rows : List IncidentRow}
    {done : List EngineRule} (hdone : ∀ rule ∈ done, rule ∈ config.rules ∧ rule.enabled = true)
    {row row' : IncidentRow} (h : After config env rows done row row') (hopen : row.IsOpen) :
    row'.labels = nextLabels config env rows row ∨ row'.labels = row.labels := by
  by_cases hown : ∃ rule ∈ done, row.ruleId = rule.id
  · obtain ⟨rule, hrule, hid⟩ := hown
    have heffect := h.own rule hrule ⟨hid, hopen⟩
    rw [RuleEffect] at heffect
    rw [nextLabels, updaterOf, Config.ruleOf_eq (hdone rule hrule).1 hid, Option.bind_some,
      if_pos (hdone rule hrule).2]
    split at heffect
    next inst hinst =>
      obtain ⟨p, hbecomes, -⟩ := heffect
      rw [hinst]
      exact .inl hbecomes.labels
    · exact .inr heffect.labels
  · exact .inr (h.other fun rule hrule hcond => hown ⟨rule, hrule, hcond.1⟩).labels

theorem labelsMatch_congr {matchOn : List String} {labels labels' child : Dict String String}
    (h : ∀ key ∈ matchOn, labels.get? key = labels'.get? key) :
    labelsMatch matchOn labels child = labelsMatch matchOn labels' child := by
  rw [labelsMatch, labelsMatch, Bool.eq_iff_iff, all_eq_true, all_eq_true]
  refine forall₂_congr fun key hkey => ?_
  rw [h key hkey]

theorem Steady.labelsMatch_eq {config : Config} {env : CycleEnv} {rows : List IncidentRow}
    (hsteady : Steady config env rows) {done : List EngineRule}
    (hdone : ∀ rule ∈ done, rule ∈ config.rules ∧ rule.enabled = true)
    {row parent parent' : IncidentRow} {d : DependsOn} {child : Dict String String}
    (hrow : row ∈ rows) (hopen : row.IsOpen) (hd : config.dependsOf row = some d)
    (hparent : parent ∈ rows) (hparentOpen : parent.IsOpen) (hmem : parent.ruleId ∈ d.ruleIds)
    (hne : parent.ruleId ≠ row.ruleId) (h : After config env rows done parent parent') :
    labelsMatch d.matchOn parent'.labels child = labelsMatch d.matchOn parent.labels child := by
  refine labelsMatch_congr fun key hkey => ?_
  rcases h.labels hdone hparentOpen with hlabels | hlabels
  · rw [hlabels, hsteady.labels row hrow hopen d hd parent hparent hparentOpen hmem hne key hkey]
  · rw [hlabels]

theorem hasOpen_map {rows : List IncidentRow} {f : IncidentRow → IncidentRow}
    (h : ∀ row ∈ rows, ∃ labels parent, Becomes row labels parent (f row)) (rule : EngineRule)
    (key : String) : hasOpen (rows.map f) rule key = hasOpen rows rule key := by
  rw [hasOpen, hasOpen, any_map, Bool.eq_iff_iff, any_eq_true, any_eq_true]
  refine exists_congr fun row => and_congr_right fun hrow => ?_
  obtain ⟨labels, parent, hbecomes⟩ := h row hrow
  rw [Function.comp_apply, decide_eq_true_eq, decide_eq_true_eq, hbecomes.ruleId,
    hbecomes.entityKey, hbecomes.isOpen_iff]

theorem lookedAt_congr {config : Config} {env : CycleEnv} {rows rows' : List IncidentRow}
    {rule : EngineRule} (h : ∀ key, hasOpen rows' rule key = hasOpen rows rule key) :
    lookedAt config env rows' rule = lookedAt config env rows rule := by
  have hraises : raises env rows' rule = raises env rows rule := by
    funext inst
    rw [raises, raises, h]
  rw [lookedAt, lookedAt, hraises]

theorem updater_map {config : Config} {env : CycleEnv} {rows : List IncidentRow}
    {f : IncidentRow → IncidentRow}
    (h : ∀ row ∈ rows, ∃ labels parent, Becomes row labels parent (f row)) (rule : EngineRule)
    (key : String) :
    updater config env (rows.map f) rule key = updater config env rows rule key := by
  rw [updater, updater, lookedAt_congr (hasOpen_map h rule)]

/-- **One more rule** of a quiet, steady cycle. -/
theorem After.snoc {config : Config} {env : CycleEnv} {rows : List IncidentRow}
    (hsteady : Steady config env rows) {done : List EngineRule} {rule : EngineRule}
    (hdone : ∀ r ∈ done, r ∈ config.rules ∧ r.enabled = true) (hrule : rule ∈ config.rules)
    (hfresh : ∀ r ∈ done, r.id ≠ rule.id) {f : IncidentRow → IncidentRow}
    (hafter : ∀ row ∈ rows, After config env rows done row (f row)) {row row' : IncidentRow}
    (hrow : row ∈ rows) (heffect : RuleRow config env (rows.map f) rule (f row) row') :
    After config env rows (done ++ [rule]) row row' := by
  have hbecomes : ∀ row ∈ rows, ∃ labels parent, Becomes row labels parent (f row) :=
    fun row hrow => (hafter row hrow).becomes
  obtain ⟨labels, parent, hrowBecomes⟩ := hbecomes row hrow
  simp only [RuleRow, hrowBecomes.ruleId, hrowBecomes.isOpen_iff] at heffect
  by_cases hcond : row.ruleId = rule.id ∧ row.IsOpen
  · -- the row is one of this rule's: the rules before it have kept it
    have hkeeps : Keeps row (f row) := (hafter row hrow).other fun r hr hcond' =>
      hfresh r hr (hcond'.1.symm.trans hcond.1)
    rw [if_pos hcond, RuleEffect, updater_map hbecomes, hkeeps.entityKey] at heffect
    refine ⟨fun r hr hcond' => ?_, fun h => absurd hcond (h rule (by simp))⟩
    obtain rfl : r = rule := by
      rcases List.mem_append.1 hr with hr | hr
      · exact absurd (hcond'.1.symm.trans hcond.1) (hfresh r hr)
      · exact List.mem_singleton.1 hr
    rw [RuleEffect]
    split at heffect
    next inst _ =>
      obtain ⟨p, hp, hfrom⟩ := heffect
      have hrefreshed : refreshedLabels inst (f row) = refreshedLabels inst row := by
        rw [refreshedLabels, refreshedLabels, hkeeps.labels]
      rw [hrefreshed] at hp hfrom
      refine ⟨p, hkeeps.becomes hp, ?_⟩
      rw [ParentFrom] at hfrom ⊢
      split at hfrom
      · rw [hfrom, hkeeps.parentIncidentId]
      next d hd =>
        have hdepends : config.dependsOf row = some d := by
          rw [Config.dependsOf, Config.ruleOf_eq hrule hcond.1, Option.bind_some, hd]
        intro id hid
        obtain ⟨parent', hparent', rfl, hopen', hmem, hne, hmatch⟩ := hfrom id hid
        obtain ⟨q, hq, rfl⟩ := List.mem_map.1 hparent'
        obtain ⟨_, _, hqBecomes⟩ := hbecomes q hq
        have hqOpen := hqBecomes.isOpen_iff.1 hopen'
        rw [hqBecomes.ruleId] at hmem hne
        refine ⟨q, hq, hqBecomes.id.symm, hqOpen, hmem, hne, ?_⟩
        rw [← hsteady.labelsMatch_eq hdone hrow hcond.2 hdepends hq hqOpen hmem
          (fun heq => hne (heq.trans hcond.1)) (hafter q hq)]
        exact hmatch
    · exact hkeeps.keeps heffect
  · rw [if_neg hcond] at heffect
    refine ⟨fun r hr hcond' => ?_, fun h => ?_⟩
    · rcases List.mem_append.1 hr with hr | hr
      · have hown := (hafter row hrow).own r hr hcond'
        rw [RuleEffect] at hown ⊢
        split at hown
        · obtain ⟨p, hp, hfrom⟩ := hown
          exact ⟨p, hp.keeps heffect, hfrom⟩
        · exact hown.keeps heffect
      · exact absurd (List.mem_singleton.1 hr ▸ hcond') hcond
    · exact ((hafter row hrow).other fun r hr => h r (mem_append_left _ hr)).keeps heffect

theorem foldl_evaluateRule_transitions (ids : UuidSource) (config : Config) (env : CycleEnv)
    (rules : List EngineRule) (s : EngineState) :
    s.transitions <+:
      (rules.foldl (fun s rule => evaluateRule ids config env rule s) s).transitions := by
  induction rules generalizing s with
  | nil => exact prefix_refl _
  | cons rule rules ih =>
    exact (evaluateRule_transitions ids config env rule s).trans (ih _)

theorem foldl_evaluateRule_quiet {ids : UuidSource} {config : Config} {env : CycleEnv}
    {rows : List IncidentRow} (hsteady : Steady config env rows) {rest : List EngineRule} :
    ∀ {done : List EngineRule} {s : EngineState} {f : IncidentRow → IncidentRow},
      (∀ rule ∈ done ++ rest, rule ∈ config.rules ∧ rule.enabled = true) →
      ((done ++ rest).map fun rule => rule.id).Nodup →
      WellFormed ids s.issued s.incidents → s.incidents = rows.map f →
      (∀ row ∈ rows, After config env rows done row (f row)) →
      Quiet (rest.foldl (fun s rule => evaluateRule ids config env rule s) s).transitions →
      ∃ g : IncidentRow → IncidentRow,
        (rest.foldl (fun s rule => evaluateRule ids config env rule s) s).incidents = rows.map g ∧
        ∀ row ∈ rows, After config env rows (done ++ rest) row (g row) := by
  induction rest with
  | nil =>
    intro done s f _ _ _ hf hafter _
    rw [append_nil]
    exact ⟨f, hf, hafter⟩
  | cons rule rest ih =>
    intro done s f hdone hnodup hwf hf hafter hquiet
    obtain ⟨g, hg, hrows⟩ := evaluateRule_quiet config env rule hwf
      (hquiet.of_isPrefix (foldl_evaluateRule_transitions ids config env rest _))
    rw [append_cons] at hdone hnodup ⊢
    have hfresh : ∀ r ∈ done, r.id ≠ rule.id := by
      intro r hr hid
      rw [map_append, map_append, nodup_append, nodup_append] at hnodup
      exact hnodup.1.2.2 r.id (mem_map_of_mem hr) rule.id (by simp) hid
    refine ih hdone hnodup (evaluateRule_wellFormed config env rule hwf).1
      (f := g ∘ f) (by rw [hg, hf, map_map]) (fun row hrow => ?_) hquiet
    refine After.snoc hsteady (fun r hr => hdone r (by simp [hr])) (hdone rule (by simp)).1
      hfresh hafter hrow ?_
    rw [← hf]
    exact hrows (f row) (hf ▸ mem_map_of_mem hrow)

/-- **A quiet, steady cycle** does to each row what the row's own rule does. -/
theorem evaluateAll_quiet {ids : UuidSource} {config : Config} {env : CycleEnv}
    {rows : List IncidentRow} {issued : ℕ} (hwf : WellFormed ids issued rows)
    (hsteady : Steady config env rows)
    (hquiet : Quiet (evaluateAll ids config env rows issued).transitions) :
    ∃ f : IncidentRow → IncidentRow,
      (evaluateAll ids config env rows issued).incidents = rows.map f ∧
      ∀ row ∈ rows, After config env rows (config.rules.filter (·.enabled)) row (f row) := by
  refine @foldl_evaluateRule_quiet ids config env rows hsteady (config.rules.filter (·.enabled))
    [] { incidents := rows, issued } id ?_ ?_ hwf (map_id _).symm (fun row _ => ⟨by simp, fun _ => .refl row⟩) hquiet
  · intro rule hrule
    rw [nil_append, mem_filter] at hrule
    exact hrule
  · rw [nil_append]
    exact config.rules_nodup.sublist (List.filter_sublist.map _)

/-! ### Where the links lead -/

theorem mem_enabled {config : Config} {rule : EngineRule} :
    rule ∈ config.rules.filter (·.enabled) ↔ rule ∈ config.rules ∧ rule.enabled = true :=
  mem_filter

/-- The labels and the parent of an open incident after a quiet, steady cycle. -/
theorem After.link {config : Config} {env : CycleEnv} {rows : List IncidentRow}
    (hsteady : Steady config env rows) {row row' : IncidentRow} (hrow : row ∈ rows)
    (hopen : row.IsOpen)
    (h : After config env rows (config.rules.filter (·.enabled)) row row') {id : Uuid}
    (hid : row'.parentIncidentId = some id) :
    ∃ parent ∈ rows, parent.id = id ∧ NextLink config env rows row parent ∧
      Matches config row row'.labels parent := by
  cases hupdater : updaterOf config env rows row with
  | none =>
    -- the incident is not updated
    have hkeeps : Keeps row row' := by
      by_cases hown : ∃ rule ∈ config.rules.filter (·.enabled), row.ruleId = rule.id
      · obtain ⟨rule, hrule, hruleId⟩ := hown
        have heffect := h.own rule hrule ⟨hruleId, hopen⟩
        rw [updaterOf, Config.ruleOf_eq (mem_enabled.1 hrule).1 hruleId, Option.bind_some,
          if_pos (mem_enabled.1 hrule).2] at hupdater
        rw [RuleEffect, hupdater] at heffect
        exact heffect
      · exact h.other fun rule hrule hcond => hown ⟨rule, hrule, hcond.1⟩
    have hrechecked : ¬Rechecked config env rows row := by simp [Rechecked, hupdater]
    have hparent : row.parentIncidentId = some id := hkeeps.parentIncidentId.symm.trans hid
    obtain ⟨parent, hmem, rfl, hparentOpen, hmatch⟩ :=
      hsteady.held row hrow hopen hrechecked id hparent
    rw [hkeeps.labels]
    exact ⟨parent, hmem, rfl,
      ⟨hrow, hopen, hmem, hparentOpen, (absurd · hrechecked), fun _ => hparent⟩, hmatch⟩
  | some inst =>
    obtain ⟨rule, hruleOf, hupdate⟩ := Option.bind_eq_some_iff.1 hupdater
    obtain ⟨hrule, hruleId⟩ := Config.mem_of_ruleOf hruleOf
    have henabled : rule.enabled = true := by
      by_contra hdisabled
      rw [if_neg hdisabled] at hupdate
      cases hupdate
    rw [if_pos henabled] at hupdate
    have heffect := h.own rule (mem_enabled.2 ⟨hrule, henabled⟩) ⟨hruleId, hopen⟩
    rw [RuleEffect, hupdate] at heffect
    obtain ⟨p, hbecomes, hfrom⟩ := heffect
    have hp : p = some id := hbecomes.parentIncidentId.symm.trans hid
    have hnext : nextLabels config env rows row = refreshedLabels inst row := by
      rw [nextLabels, hupdater]
    rw [ParentFrom] at hfrom
    split at hfrom
    next hnone =>
      -- the rule depends on nothing, and the incident must not have a parent
      have hdepends : config.dependsOf row = none := by
        rw [Config.dependsOf, hruleOf, Option.bind_some, hnone]
      have hrechecked : ¬Rechecked config env rows row := by simp [Rechecked, hdepends]
      obtain ⟨_, _, _, _, d, hd, _⟩ :=
        hsteady.held row hrow hopen hrechecked id (hfrom.symm.trans hp)
      rw [hdepends] at hd
      cases hd
    next d hd =>
      have hdepends : config.dependsOf row = some d := by
        rw [Config.dependsOf, hruleOf, Option.bind_some, hd]
      have hrechecked : Rechecked config env rows row := by simp [Rechecked, hdepends, hupdater]
      obtain ⟨parent, hparent, rfl, hparentOpen, hmem, hne, hmatch⟩ := hfrom id hp
      have hmatches : Matches config row (refreshedLabels inst row) parent :=
        ⟨d, hdepends, hmem, hruleId ▸ hne, hmatch⟩
      rw [hbecomes.labels]
      exact ⟨parent, hparent, rfl, ⟨hrow, hopen, hparent, hparentOpen, fun _ => hnext ▸ hmatches,
        (absurd hrechecked ·)⟩, hmatches⟩

/-- **After a quiet, steady cycle every open incident is accounted for.** -/
theorem accounted_of_cycle {ids : UuidSource} {config : Config} {env : CycleEnv}
    {rows : List IncidentRow} {issued : ℕ} (hwf : WellFormed ids issued rows)
    (hsteady : Steady config env rows)
    (hquiet : Quiet (evaluateAll ids config env rows issued).transitions) :
    ∀ row' ∈ (evaluateAll ids config env rows issued).incidents, row'.IsOpen →
      Accounted config (evaluateAll ids config env rows issued).incidents row' := by
  obtain ⟨f, hf, hafter⟩ := evaluateAll_quiet hwf hsteady hquiet
  rw [hf]
  have hall : ∀ row ∈ rows, row.IsOpen → Accounted config (rows.map f) (f row) := by
    -- along the links of the cycle
    refine hsteady.acyclic.induction fun row hrow ih hopen => ?_
    cases hparent : (f row).parentIncidentId with
    | none => exact .primary hparent
    | some id =>
      obtain ⟨parent, hmem, rfl, hlink, d, hd, hruleIds, hne, hmatch⟩ :=
        (hafter row hrow).link hsteady hrow hopen hparent
      have hparentOpen : parent.IsOpen := hlink.2.2.2.1
      obtain ⟨_, _, hbecomes⟩ := (hafter parent hmem).becomes
      obtain ⟨_, _, hrowBecomes⟩ := (hafter row hrow).becomes
      refine .suppressed (mem_map_of_mem hmem) (hparent.trans (congrArg some hbecomes.id.symm))
        (hbecomes.isOpen_iff.2 hparentOpen) ⟨d, ?_, ?_, ?_, ?_⟩ (ih parent hmem hlink hparentOpen)
      · rw [Config.dependsOf, Config.ruleOf, hrowBecomes.ruleId]
        exact hd
      · rw [hbecomes.ruleId]
        exact hruleIds
      · rw [hbecomes.ruleId, hrowBecomes.ruleId]
        exact hne
      · rw [hsteady.labelsMatch_eq (fun rule hrule => mem_enabled.1 hrule) hrow hopen hd hmem
          hparentOpen hruleIds hne (hafter parent hmem)]
        exact hmatch
  intro row' hrow' hopen
  obtain ⟨row, hrow, rfl⟩ := List.mem_map.1 hrow'
  obtain ⟨_, _, hbecomes⟩ := (hafter row hrow).becomes
  exact hall row hrow (hbecomes.isOpen_iff.1 hopen)

/-! ### Runs -/

/-- A step that is a cycle finds what it has to find. -/
def SteadyStep (s : System) : Action → Prop
  | .cycle env true => Steady s.config env s.incidents
  | _ => True

/-- **When no outage is hidden**: in a run whose cycles are steady, after every cycle that opens
and clears nothing, the links of every suppressed open incident lead, over open incidents that
match the dependencies, to an open incident that is not suppressed. -/
theorem accounted_of_steady {ids : UuidSource} {s : System}
    (h : Run (step ids) SteadyStep {} s) (hquiet : s.quiet = true) :
    ∀ row ∈ s.incidents, row.IsOpen → Accounted s.config s.incidents row := by
  refine (h.invariant (I := fun s => WellFormed ids s.issued s.incidents ∧ (s.quiet = true →
    ∀ row ∈ s.incidents, row.IsOpen → Accounted s.config s.incidents row))
    ⟨wellFormed_nil ids, by simp⟩ ?_).2 hquiet
  intro s a s' hinv hallowed hstep
  refine ⟨(step_wellFormed hinv.1 hstep).1, fun hquiet => ?_⟩
  cases a with
  | configure config => cases hstep; cases hquiet
  | clearManually chosen now => cases hstep; cases hquiet
  | cycle env commits =>
    cases commits with
    | false => cases hstep; cases hquiet
    | true =>
      cases hstep
      refine accounted_of_cycle hinv.1 hallowed ?_
      simpa [Quiet] using hquiet

/-! ### Two sites and their uplinks -/

/-- The id of the rule about uplinks. -/
def uplinkId : Uuid := "11111111-1111-1111-1111-111111111111"

/-- The id of the rule about sites. -/
def siteId : Uuid := "22222222-2222-2222-2222-222222222222"

/-- `{"rule_ids": [id]}`. -/
def dependsOnRule (id : Uuid) : Json := .obj [("rule_ids", .arr [.str id])]

/-- A rule that depends on some others, or on none. -/
def dependentRule (id definitionId : Uuid) (dependsOn : Json) : EngineRule where
  id
  clearOnCompanionIds := .null
  clearCompanionMode := some "any"
  definitionId
  dependsOn

def firingDefinition (id : Uuid) : DefinitionRow where
  id
  entities := ⟨[{ assignmentId := "a1", state := .firing, fireCount := 1 }], by simp⟩
  assignments_plain := by simp

/-- A site is down because its uplink is. -/
def siteConfig : Config where
  rules := [dependentRule uplinkId "d1" .null, dependentRule siteId "d2" (dependsOnRule uplinkId)]
  definitions := [firingDefinition "d1", firingDefinition "d2"]
  dependsOn_accepted := by decide +kernel

/-- Each of the two rules depends on the other. -/
def circularConfig : Config where
  rules := [dependentRule uplinkId "d1" (dependsOnRule siteId),
    dependentRule siteId "d2" (dependsOnRule uplinkId)]
  definitions := [firingDefinition "d1", firingDefinition "d2"]
  dependsOn_accepted := by decide +kernel

/-- A cycle of the examples. -/
def plainEnv : CycleEnv := ⟨fun _ => 0, fun _ _ => some "down", fun _ => .inOrder⟩

def twoCycles (config : Config) : List Action :=
  [.configure config, .cycle plainEnv true, .cycle plainEnv true]

def afterTwoCycles (config : Config) : System :=
  (replay (step .counter) (fun _ _ => True) {} (twoCycles config)).getD {}

theorem not_accounted_of_all_suppressed {config : Config} {rows : List IncidentRow}
    (h : ∀ row ∈ rows, row.parentIncidentId ≠ none) : ∀ row ∈ rows, ¬Accounted config rows row := by
  intro row hrow haccounted
  induction haccounted with
  | primary hnone => exact h _ hrow hnone
  | suppressed hparent _ _ _ _ ih => exact ih hparent

/-- The rules depend on each other, both incidents are suppressed, and none is shown. -/
theorem not_accounted : ¬∀ s, Run (step .counter) (fun _ _ => True) {} s → s.quiet = true →
      ∀ row ∈ s.incidents, row.IsOpen → Accounted s.config s.incidents row := by
  intro h
  have hrun : Run (step .counter) (fun _ _ => True) {} (afterTwoCycles circularConfig) :=
    run_of_replay (show replay _ _ _ (twoCycles circularConfig) = _ from rfl)
  have hquiet : (afterTwoCycles circularConfig).quiet = true := by decide +kernel
  have hsuppressed : ∀ row ∈ (afterTwoCycles circularConfig).incidents,
      row.parentIncidentId ≠ none := by decide +kernel
  have hopen : ∃ row ∈ (afterTwoCycles circularConfig).incidents, row.IsOpen := by decide +kernel
  obtain ⟨row, hrow, hrowOpen⟩ := hopen
  exact not_accounted_of_all_suppressed hsuppressed row hrow (h _ hrun hquiet row hrow hrowOpen)

/-- The incidents after the first cycle: the uplink's, and the site's with the uplink's as its
parent. -/
def siteRows : List IncidentRow :=
  (evaluateAll .counter siteConfig plainEnv [] 0).incidents

theorem steady_nil (config : Config) (env : CycleEnv) : Steady config env [] where
  held := by simp
  labels := by simp
  acyclic := acyclic_of_rank (fun _ => 0) fun _ _ hlink => by simp [NextLink] at hlink

/-- The second cycle finds what it has to find: the site's incident is looked at again, and
only the uplink's is in question. -/
theorem steady_siteRows : Steady siteConfig plainEnv siteRows where
  held := by
    have hrechecked : ∀ row ∈ siteRows, row.parentIncidentId = none ∨
        (siteConfig.dependsOf row).isSome ∧ (updaterOf siteConfig plainEnv siteRows row).isSome := by
      decide +kernel
    intro row hrow _ hnot id hid
    rcases hrechecked row hrow with hnone | hrechecked
    · rw [hnone] at hid
      cases hid
    · exact absurd hrechecked hnot
  labels := by
    have hmatchOn : ∀ row ∈ siteRows, ∀ d ∈ siteConfig.dependsOf row, d.matchOn = [] := by
      decide +kernel
    intro row hrow _ d hd parent _ _ _ _ key hkey
    rw [hmatchOn row hrow d hd] at hkey
    cases hkey
  acyclic := by
    have hdepends : ∀ row ∈ siteRows, (updaterOf siteConfig plainEnv siteRows row).isSome ∧
        ∀ d ∈ siteConfig.dependsOf row, row.ruleId = siteId ∧ d.ruleIds = [uplinkId] := by
      decide +kernel
    have hparents : ∀ row ∈ siteRows, siteConfig.dependsOf row = none →
        row.parentIncidentId = none := by decide +kernel
    refine acyclic_of_rank (fun row => if row.ruleId = siteId then 1 else 0) fun row parent hlink => ?_
    obtain ⟨hrow, -, hparent, -, hre, hkept⟩ := hlink
    by_cases hrechecked : Rechecked siteConfig plainEnv siteRows row
    · obtain ⟨d, hd, hmem, -, -⟩ := hre hrechecked
      obtain ⟨hsite, huplink⟩ := (hdepends row hrow).2 d hd
      rw [huplink, mem_singleton] at hmem
      rw [hmem, hsite]
      decide
    · have hnone : siteConfig.dependsOf row = none := by
        cases hdepends' : siteConfig.dependsOf row with
        | none => rfl
        | some d =>
          exact absurd ⟨by rw [hdepends']; rfl, (hdepends row hrow).1⟩ hrechecked
      have hid := hkept hrechecked
      rw [hparents row hrow hnone] at hid
      cases hid

theorem accounted_of_steady_site :
    ∃ s : System, s.incidents.map (·.parentIncidentId) = [none, some "0"] ∧
      ∀ row ∈ s.incidents, row.IsOpen → Accounted s.config s.incidents row := by
  have hrun : Run (step .counter) SteadyStep {} (afterTwoCycles siteConfig) := by
    refine .step (.step (.step .start (a := .configure siteConfig) trivial rfl)
      (a := .cycle plainEnv true) (steady_nil siteConfig plainEnv) rfl)
      (a := .cycle plainEnv true) steady_siteRows rfl
  exact ⟨_, by decide +kernel, accounted_of_steady hrun (by decide +kernel)⟩

end MonCTL.Incidents
