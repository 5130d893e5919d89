import Mathlib.Data.Rat.Defs
import MonCTL.Basic
import MonCTL.Lib.BestOf

/-!
# Interface Rules

A rule gives its settings to the interfaces that it matches. Of the rules that match an interface
the one of the highest priority decides. Rules are applied to all interfaces of a device, except to
those that have been set by hand, and can be previewed.

A setting is missing or has the type of its column; settings under other names are kept apart. The
matching of globs and of regular expressions is a parameter.
-/

namespace MonCTL.Templates

open List

/-! ### Rules -/

/-- What a rule says about a field: a pattern with its type, or a number with an operator. -/
structure MatchSpec where
  type : String := "glob"
  pattern : String := ""
  op : String := "eq"
  value : ℚ := 0
  deriving DecidableEq

structure RuleSettings where
  pollingEnabled : Option Bool := none
  alertingEnabled : Option Bool := none
  pollMetrics : Option String := none
  others : List (String × String) := []
  deriving DecidableEq

structure InterfaceRule where
  name : Option String := none
  criteria : List (String × MatchSpec) := []
  settings : RuleSettings := {}
  priority : ℤ := 0
  deriving DecidableEq

/-- `InterfaceMetadata`. -/
structure InterfaceMetadata where
  id : Uuid
  ifName : String
  currentIfIndex : ℤ := 0
  ifDescr : String := ""
  ifAlias : String := ""
  ifSpeedMbps : ℤ := 0
  pollingEnabled : Bool := true
  alertingEnabled : Bool := true
  pollMetrics : String := "all"
  rulesManaged : Bool := false
  deriving DecidableEq

/-- `fnmatch.fnmatch` and `re.search`, where an error is no match. -/
structure Patterns where
  fnmatch : String → String → Bool
  search : String → String → Bool

/-- `_match_string`. -/
def matchString (p : Patterns) (fieldValue : String) (spec : MatchSpec) : Bool :=
  if spec.type = "glob" then p.fnmatch fieldValue spec.pattern
  else if spec.type = "regex" then p.search spec.pattern fieldValue
  else spec.type = "exact" && fieldValue = spec.pattern

/-- `_match_numeric`. -/
def matchNumeric (fieldValue : ℚ) (spec : MatchSpec) : Bool :=
  if spec.op = "eq" then fieldValue = spec.value
  else if spec.op = "gt" then spec.value < fieldValue
  else if spec.op = "lt" then fieldValue < spec.value
  else if spec.op = "gte" then spec.value ≤ fieldValue
  else spec.op = "lte" && fieldValue ≤ spec.value

/-- The criterion of a field. -/
def matchField (p : Patterns) (iface : InterfaceMetadata) (field : String) (spec : MatchSpec) :
    Bool :=
  if field = "if_alias" then matchString p iface.ifAlias spec
  else if field = "if_name" then matchString p iface.ifName spec
  else if field = "if_descr" then matchString p iface.ifDescr spec
  else field = "if_speed_mbps" && matchNumeric iface.ifSpeedMbps spec

/-- `match_interface`. -/
def matchInterface (p : Patterns) (rule : InterfaceRule) (iface : InterfaceMetadata) : Bool :=
  rule.criteria ≠ [] && rule.criteria.all fun c => matchField p iface c.1 c.2

/-- A round of the loop over the rules. -/
def considerRule (p : Patterns) (iface : InterfaceMetadata) (best : Option InterfaceRule)
    (rule : InterfaceRule) : Option InterfaceRule :=
  if (best.map InterfaceRule.priority).getD (-1) < rule.priority && matchInterface p rule iface then
    some rule
  else best

def decidingRule (p : Patterns) (rules : List InterfaceRule) (iface : InterfaceMetadata) :
    Option InterfaceRule :=
  rules.foldl (considerRule p iface) none

/-- `evaluate_rules`. -/
def evaluateRules (p : Patterns) (rules : List InterfaceRule) (iface : InterfaceMetadata) :
    Option RuleSettings :=
  (decidingRule p rules iface).map InterfaceRule.settings

/-! ### Application -/

/-- The row with the settings. -/
def RuleSettings.write (settings : RuleSettings) (iface : InterfaceMetadata) : InterfaceMetadata :=
  { iface with
    pollingEnabled := settings.pollingEnabled.getD iface.pollingEnabled
    alertingEnabled := settings.alertingEnabled.getD iface.alertingEnabled
    pollMetrics := settings.pollMetrics.getD iface.pollMetrics }

/-- `apply_settings_to_meta`, with whether anything has changed. -/
def applySettingsToMeta (iface : InterfaceMetadata) (settings : RuleSettings) :
    InterfaceMetadata × Bool :=
  ({ settings.write iface with rulesManaged := true },
    settings.pollingEnabled.any (· ≠ iface.pollingEnabled) ||
      settings.alertingEnabled.any (· ≠ iface.alertingEnabled) ||
      settings.pollMetrics.any (· ≠ iface.pollMetrics) || !iface.rulesManaged)

/-- `_has_non_default_settings`. -/
def hasNonDefaultSettings (iface : InterfaceMetadata) : Bool :=
  !(iface.pollingEnabled && iface.alertingEnabled && iface.pollMetrics = "all")

/-- What the loop does with an interface. -/
inductive RuleOutcome
  | unmatched
  | skippedManual
  | matched (iface : InterfaceMetadata) (changed : Bool)

/-- A round of the loop over the interfaces. -/
def applyToInterface (p : Patterns) (rules : List InterfaceRule) (force : Bool)
    (iface : InterfaceMetadata) : RuleOutcome :=
  match evaluateRules p rules iface with
  | none => .unmatched
  | some settings =>
    if !force && !iface.rulesManaged && hasNonDefaultSettings iface then .skippedManual
    else .matched (applySettingsToMeta iface settings).1 (applySettingsToMeta iface settings).2

/-- The row afterwards. -/
def RuleOutcome.row (iface : InterfaceMetadata) : RuleOutcome → InterfaceMetadata
  | .matched iface' _ => iface'
  | _ => iface

/-- Whether the row counts as changed. -/
def RuleOutcome.changed : RuleOutcome → Bool
  | .matched _ changed => changed
  | _ => false

/-- The summary of an application. -/
structure RuleSummary where
  total : ℕ
  matched : ℕ
  changed : ℕ
  skippedManual : ℕ
  unmatched : ℕ

/-- `apply_rules_to_all_interfaces`. -/
def applyRulesToAllInterfaces (p : Patterns) (rules : List InterfaceRule) (force : Bool)
    (rows : List InterfaceMetadata) : List InterfaceMetadata × RuleSummary :=
  let outcomes := rows.map (applyToInterface p rules force)
  (rows.map fun iface => (applyToInterface p rules force iface).row iface,
    { total := rows.length
      matched := outcomes.countP fun o => o matches .matched _ _
      changed := outcomes.countP RuleOutcome.changed
      skippedManual := outcomes.countP fun o => o matches .skippedManual
      unmatched := outcomes.countP fun o => o matches .unmatched })

/-! ### Preview -/

def currentSettings (iface : InterfaceMetadata) : RuleSettings where
  pollingEnabled := iface.pollingEnabled
  alertingEnabled := iface.alertingEnabled
  pollMetrics := iface.pollMetrics

structure InterfacePreview where
  interfaceId : Uuid
  rulesManaged : Bool
  matchedRule : Option String
  currentSettings : RuleSettings
  proposedSettings : RuleSettings
  wouldChange : Bool

/-- A round of the loop of the preview. -/
def previewInterface (p : Patterns) (rules : List InterfaceRule) (iface : InterfaceMetadata) :
    InterfacePreview :=
  let proposed := match evaluateRules p rules iface with
    | none => currentSettings iface
    | some settings => { currentSettings (settings.write iface) with others := settings.others }
  { interfaceId := iface.id
    rulesManaged := iface.rulesManaged
    matchedRule := (decidingRule p rules iface).bind InterfaceRule.name
    currentSettings := currentSettings iface
    proposedSettings := proposed
    wouldChange := currentSettings iface ≠ proposed }

/-- `preview_rules`. -/
def previewRules (p : Patterns) (rules : List InterfaceRule) (rows : List InterfaceMetadata) :
    List InterfacePreview :=
  (rows.mergeSort fun iface iface' => iface.currentIfIndex ≤ iface'.currentIfIndex).map
    (previewInterface p rules)

/-! ### Agreement -/

variable {p : Patterns} {rules : List InterfaceRule} {force : Bool}

/-- **The preview is right** about the interfaces: those that would change are those whose rows are
written, with the proposed settings; and a second application writes nothing. -/
structure PreviewAgrees (p : Patterns) (rules : List InterfaceRule) (force : Bool)
    (rows : List InterfaceMetadata) : Prop where
  changing : ∀ iface ∈ rows, (previewInterface p rules iface).wouldChange = true ↔
    (applyToInterface p rules force iface).row iface ≠ iface
  values : ∀ iface ∈ rows, (previewInterface p rules iface).wouldChange = true →
    (previewInterface p rules iface).proposedSettings =
      currentSettings ((applyToInterface p rules force iface).row iface)
  again : applyRulesToAllInterfaces p rules force
      (applyRulesToAllInterfaces p rules force rows).1 =
    ((applyRulesToAllInterfaces p rules force rows).1,
      { (applyRulesToAllInterfaces p rules force rows).2 with changed := 0 })

/-- An interface that a rule matches is neither left alone although its settings would change nor
written only to mark it, and the rule has settings under known names only. -/
def Faithfully (force : Bool) (iface : InterfaceMetadata) (settings : RuleSettings) : Prop :=
  settings.others = [] ∧ (iface.rulesManaged = true ∨
    ((force = false ∧ hasNonDefaultSettings iface = true) ↔ settings.write iface = iface))

variable {iface : InterfaceMetadata} {settings : RuleSettings}

theorem currentSettings_inj : currentSettings (settings.write iface) = currentSettings iface ↔
      settings.write iface = iface := by
  constructor
  · intro h
    obtain ⟨hpolling, halerting, hmetrics⟩ : _ ∧ _ ∧ _ := by simpa [currentSettings] using h
    cases iface
    simp_all [RuleSettings.write]
  · intro h
    rw [h]

theorem evaluateRules_row (iface : InterfaceMetadata) : evaluateRules p rules
    ((applyToInterface p rules force iface).row iface) = evaluateRules p rules iface := by
  unfold applyToInterface
  split
  · rfl
  · split <;> rfl

/-- An outcome that leaves nothing to change. -/
def RuleOutcome.settled : RuleOutcome → RuleOutcome
  | .matched iface _ => .matched iface false
  | outcome => outcome

theorem applySettingsToMeta_again (iface : InterfaceMetadata) (settings : RuleSettings) :
    applySettingsToMeta (applySettingsToMeta iface settings).1 settings =
      ((applySettingsToMeta iface settings).1, false) := by
  obtain ⟨_ | polling, _ | alerting, _ | metrics, others⟩ := settings <;>
    simp [applySettingsToMeta, RuleSettings.write]

theorem applyToInterface_again (iface : InterfaceMetadata) :
    applyToInterface p rules force ((applyToInterface p rules force iface).row iface) =
      (applyToInterface p rules force iface).settled := by
  have hsame := @evaluateRules_row p rules force iface
  cases hsettings : evaluateRules p rules iface with
  | none =>
    have houtcome : applyToInterface p rules force iface = .unmatched := by
      rw [applyToInterface, hsettings]
    rw [houtcome]
    exact houtcome
  | some settings =>
    by_cases hskip : (!force && !iface.rulesManaged && hasNonDefaultSettings iface) = true
    · have houtcome : applyToInterface p rules force iface = .skippedManual := by
        simp only [applyToInterface, hsettings, if_pos hskip]
      rw [houtcome]
      exact houtcome
    · have houtcome : applyToInterface p rules force iface =
          .matched (applySettingsToMeta iface settings).1 (applySettingsToMeta iface settings).2 := by
        simp only [applyToInterface, hsettings, if_neg hskip]
      rw [houtcome] at hsame ⊢
      simp only [RuleOutcome.row, RuleOutcome.settled] at hsame ⊢
      rw [applyToInterface, hsame, hsettings]
      simp only [applySettingsToMeta_again]
      exact if_neg (by simp [applySettingsToMeta])

theorem applyRulesToAllInterfaces_again (rows : List InterfaceMetadata) :
    applyRulesToAllInterfaces p rules force (applyRulesToAllInterfaces p rules force rows).1 =
      ((applyRulesToAllInterfaces p rules force rows).1,
        { (applyRulesToAllInterfaces p rules force rows).2 with changed := 0 }) := by
  have hrow : ∀ iface, (applyToInterface p rules force iface).settled.row
      ((applyToInterface p rules force iface).row iface) =
        (applyToInterface p rules force iface).row iface := fun iface => by
    cases applyToInterface p rules force iface <;> rfl
  have hcount : ∀ f : RuleOutcome → Bool, (∀ o, f o.settled = f o) →
      (rows.map fun iface => (applyToInterface p rules force iface).settled).countP f =
        (rows.map (applyToInterface p rules force)).countP f := fun f hf => by
    simp only [countP_map, Function.comp_def, hf]
  simp only [applyRulesToAllInterfaces, map_map, Function.comp_def, applyToInterface_again,
    hrow, length_map, Prod.mk.injEq, RuleSummary.mk.injEq, true_and]
  refine ⟨hcount _ fun o => by cases o <;> rfl, ?_, hcount _ fun o => by cases o <;> rfl,
    hcount _ fun o => by cases o <;> rfl⟩
  rw [countP_map, countP_eq_zero]
  intro iface _
  simp only [Function.comp_apply]
  cases applyToInterface p rules force iface <;> simp [RuleOutcome.settled, RuleOutcome.changed]

theorem wouldChange_iff (h : evaluateRules p rules iface = some settings) :
    (previewInterface p rules iface).wouldChange = true ↔
      settings.others ≠ [] ∨ settings.write iface ≠ iface := by
  have hsame : currentSettings iface =
      { currentSettings (settings.write iface) with others := settings.others } ↔
        settings.others = [] ∧ settings.write iface = iface := by
    rw [← currentSettings_inj]
    constructor
    · intro heq
      have hothers := congrArg RuleSettings.others heq
      refine ⟨hothers.symm, ?_⟩
      rw [heq, ← hothers]
      rfl
    · rintro ⟨hothers, heq⟩
      rw [heq, hothers]
      rfl
  simp only [previewInterface, h, decide_eq_true_eq, ne_eq, hsame]
  tauto

theorem row_ne_iff (h : evaluateRules p rules iface = some settings) :
    (applyToInterface p rules force iface).row iface ≠ iface ↔
      ¬(force = false ∧ iface.rulesManaged = false ∧ hasNonDefaultSettings iface = true) ∧
        (iface.rulesManaged = false ∨ settings.write iface ≠ iface) := by
  by_cases hskip : (!force && !iface.rulesManaged && hasNonDefaultSettings iface) = true
  · have hrow : (applyToInterface p rules force iface).row iface = iface := by
      simp only [applyToInterface, h, if_pos hskip, RuleOutcome.row]
    rw [hrow]
    simp only [Bool.and_eq_true, Bool.not_eq_true'] at hskip
    tauto
  · have hrow : (applyToInterface p rules force iface).row iface =
        { settings.write iface with rulesManaged := true } := by
      simp only [applyToInterface, h, if_neg hskip, RuleOutcome.row, applySettingsToMeta]
    have hiff : { settings.write iface with rulesManaged := true } = iface ↔
        iface.rulesManaged = true ∧ settings.write iface = iface := by
      constructor
      · intro heq
        have hmanaged : iface.rulesManaged = true :=
          (congrArg InterfaceMetadata.rulesManaged heq).symm
        refine ⟨hmanaged, ?_⟩
        rw [← hmanaged] at heq
        exact heq
      · rintro ⟨hmanaged, heq⟩
        rw [heq, ← hmanaged]
    rw [hrow, ne_eq, hiff]
    simp only [Bool.and_eq_true, Bool.not_eq_true'] at hskip
    cases hmanaged : iface.rulesManaged <;> simp_all

theorem agrees_iff (h : evaluateRules p rules iface = some settings) :
    (((previewInterface p rules iface).wouldChange = true ↔
        (applyToInterface p rules force iface).row iface ≠ iface) ∧
      ((previewInterface p rules iface).wouldChange = true →
        (previewInterface p rules iface).proposedSettings =
          currentSettings ((applyToInterface p rules force iface).row iface))) ↔
      Faithfully force iface settings := by
  rw [wouldChange_iff h, row_ne_iff h, Faithfully]
  constructor
  · rintro ⟨hiff, hvalues⟩
    have hothers : settings.others = [] := by
      by_contra hne
      have heq := congrArg RuleSettings.others (hvalues (.inl hne))
      simp only [previewInterface, h] at heq
      exact hne heq
    refine ⟨hothers, ?_⟩
    simp only [hothers, ne_eq, not_true_eq_false, false_or] at hiff
    cases hmanaged : iface.rulesManaged
    · simp only [hmanaged, true_and, true_or, and_true] at hiff
      exact .inr (by tauto)
    · exact .inl rfl
  · rintro ⟨hothers, hmanaged⟩
    have hiff : ¬settings.write iface = iface ↔
        ¬(force = false ∧ iface.rulesManaged = false ∧ hasNonDefaultSettings iface = true) ∧
          (iface.rulesManaged = false ∨ settings.write iface ≠ iface) := by
      cases hflag : iface.rulesManaged <;> simp_all
    refine ⟨by simpa [hothers] using hiff, fun hchange => ?_⟩
    have hwrite := hiff.1 (by simpa [hothers] using hchange)
    have hskip : ¬(!force && !iface.rulesManaged && hasNonDefaultSettings iface) = true := by
      simp only [Bool.and_eq_true, Bool.not_eq_true']
      tauto
    simp only [previewInterface, applyToInterface, h, if_neg hskip, RuleOutcome.row, hothers]
    rfl

/-- **The preview agrees with the application** iff this holds of every interface with the settings
of the rule that decides. -/
theorem previewAgrees_iff (p : Patterns) (rules : List InterfaceRule) (force : Bool)
    (rows : List InterfaceMetadata) : PreviewAgrees p rules force rows ↔
      ∀ iface ∈ rows, ∀ settings ∈ evaluateRules p rules iface,
        Faithfully force iface settings := by
  constructor
  · intro h iface hiface settings hsettings
    exact (agrees_iff hsettings).1 ⟨h.changing iface hiface, h.values iface hiface⟩
  · intro h
    have hagrees : ∀ iface ∈ rows, ((previewInterface p rules iface).wouldChange = true ↔
        (applyToInterface p rules force iface).row iface ≠ iface) ∧
      ((previewInterface p rules iface).wouldChange = true →
        (previewInterface p rules iface).proposedSettings =
          currentSettings ((applyToInterface p rules force iface).row iface)) := by
      intro iface hiface
      cases hsettings : evaluateRules p rules iface with
      | none => simp [previewInterface, applyToInterface, hsettings, RuleOutcome.row]
      | some settings => exact (agrees_iff hsettings).2 (h iface hiface settings hsettings)
    exact ⟨fun iface hiface => (hagrees iface hiface).1, fun iface hiface => (hagrees iface hiface).2,
      applyRulesToAllInterfaces_again rows⟩

/-- The preview says that an interface changes whose settings were made by hand. -/
theorem not_previewAgrees : ¬PreviewAgrees ⟨fun _ _ => false, fun _ _ => false⟩
    [{ name := some "uplinks", criteria := [("if_name", { type := "exact", pattern := "eth0" })],
       settings := { pollMetrics := some "traffic" } }] false
    [{ id := "i", ifName := "eth0", alertingEnabled := false }] := by
  intro h
  refine (h.changing _ mem_cons_self).1 ?_ ?_
  · decide +kernel
  · decide +kernel

end MonCTL.Templates
