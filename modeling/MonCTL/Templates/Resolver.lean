import Mathlib.Data.Prod.Lex
import Mathlib.Data.String.Basic
import MonCTL.Lib.Dict
import MonCTL.Templates.InterfaceRules

/-!
# The Templates of a Device

The templates that are bound to a device's category and to its type are merged into one
configuration, in ascending order of priority and those of the type after those of the category.
What a later one sets takes the place of what an earlier one has set, but interface rules are
appended.

A mapping is a function to optional values. Keys that nothing reads, and null values, are kept apart
with their texts.
-/

namespace MonCTL.Templates

open List Option

/-! ### Configurations -/

/-- The monitoring roles. -/
inductive Role
  | availability
  | latency
  | interface
  deriving DecidableEq

/-- The configuration of a role. -/
structure CheckConfig where
  appName : Option String := none
  intervalSeconds : Option ℤ := none
  config : Option (Dict String String) := none
  credentialId : Option String := none
  others : Dict String String := []
  deriving DecidableEq

structure AppEntry where
  appName : Option String := none
  appId : Option String := none
  role : Option String := none
  config : Option (Dict String String) := none
  scheduleType : Option String := none
  scheduleValue : Option String := none
  credentialId : Option String := none
  others : Dict String String := []

/-- The configuration of a template. A role without a configuration has an empty one. -/
structure TemplateConfig where
  monitoring : Role → CheckConfig := fun _ => {}
  apps : List AppEntry := []
  labels : String → Option String := fun _ => none
  credentials : String → Option String := fun _ => none
  defaultCollectorGroupId : String := ""
  interfaceRules : List InterfaceRule := []

def namedApps (apps : List AppEntry) : List (String × AppEntry) :=
  apps.filterMap fun a => (a.appName.filter (· ≠ "")).map fun name => (name, a)

def appsByName (apps : List AppEntry) : Dict String AppEntry := Dict.setAll [] (namedApps apps)

/-- `merge_configs`. -/
def mergeConfigs (base overlay : TemplateConfig) : TemplateConfig where
  monitoring role := if overlay.monitoring role ≠ {} then overlay.monitoring role
    else base.monitoring role
  apps := if overlay.apps ≠ [] then
      ((appsByName base.apps).setAll (namedApps overlay.apps)).map Prod.snd
    else base.apps
  labels key := (overlay.labels key).or (base.labels key)
  credentials key := (overlay.credentials key).or (base.credentials key)
  defaultCollectorGroupId :=
    if overlay.defaultCollectorGroupId ≠ "" then overlay.defaultCollectorGroupId
    else base.defaultCollectorGroupId
  interfaceRules := base.interfaceRules ++ overlay.interfaceRules

/-! ### Bindings -/

/-- `Template`. -/
structure Template where
  id : Uuid
  name : String
  config : TemplateConfig

/-- A binding of a template, to a category or to a type. -/
structure TemplateBinding where
  priority : ℤ
  template : Template

/-- The bindings, with the name of the category or the id of the type. -/
structure Bindings where
  category : List (String × TemplateBinding)
  deviceType : List (Uuid × TemplateBinding)

/-- `Device`, as far as it is read. -/
structure Device where
  deviceCategory : Option String := none
  deviceTypeId : Option Uuid := none

/-- `_sort_key`. -/
def sortKey (b : TemplateBinding) : ℤ ×ₗ String := toLex (b.priority, b.template.name)

def sorted (bindings : List TemplateBinding) : List TemplateBinding :=
  bindings.mergeSort fun b b' => sortKey b ≤ sortKey b'

def Bindings.ofCategory (db : Bindings) (d : Device) : List TemplateBinding :=
  db.category.filterMap fun b => if d.deviceCategory = some b.1 ∧ b.1 ≠ "" then some b.2 else none

def Bindings.ofType (db : Bindings) (d : Device) : List TemplateBinding :=
  db.deviceType.filterMap fun b => if d.deviceTypeId = some b.1 then some b.2 else none

/-- A template that has been merged, and whether it is one of the type. -/
structure SourceTemplate where
  templateId : Uuid
  templateName : String
  isTypeLevel : Bool
  step : ℤ

def TemplateBinding.source (isTypeLevel : Bool) (b : TemplateBinding) : SourceTemplate where
  templateId := b.template.id
  templateName := b.template.name
  isTypeLevel
  step := b.priority

/-- The result of a resolution. -/
structure Resolution where
  config : TemplateConfig
  sourceTemplates : List SourceTemplate

/-- `resolve_templates_for_device`. -/
def resolveTemplatesForDevice (db : Bindings) (d : Device) : Resolution :=
  let category := sorted (db.ofCategory d)
  let deviceType := sorted (db.ofType d)
  { config := (category ++ deviceType).foldl (fun merged b => mergeConfigs merged b.template.config) {}
    sourceTemplates := category.map (·.source false) ++ deviceType.map (·.source true) }

/-! ### Settings -/

/-- What a configuration can set, apart from rules. -/
inductive Setting
  | role (role : Role)
  | app (name : String)
  | label (key : String)
  | credential (key : String)
  | collectorGroup

inductive SettingValue
  | check (config : CheckConfig)
  | app (entry : AppEntry)
  | text (value : String)

/-- What a configuration sets. -/
def TemplateConfig.value (c : TemplateConfig) : Setting → Option SettingValue
  | .role role => if c.monitoring role = {} then none else some (.check (c.monitoring role))
  | .app name => ((appsByName c.apps).get? name).map .app
  | .label key => (c.labels key).map .text
  | .credential key => (c.credentials key).map .text
  | .collectorGroup =>
    if c.defaultCollectorGroupId = "" then none else some (.text c.defaultCollectorGroupId)

variable {d : Dict String AppEntry}

theorem mem_setAll {writes : Dict String AppEntry} {e : String × AppEntry}
    (h : e ∈ d.setAll writes) : e ∈ d ∨ e ∈ writes := by
  induction writes generalizing d with
  | nil => exact .inl h
  | cons w writes ih =>
    rw [Dict.setAll_cons] at h
    obtain h | h := ih h
    · obtain h | rfl := Dict.mem_set h
      · exact .inl h
      · exact .inr mem_cons_self
    · exact .inr (mem_cons_of_mem _ h)

theorem nodup_keys_setAll (h : d.keys.Nodup)
    (writes : List (String × AppEntry)) : (d.setAll writes).keys.Nodup := by
  induction writes generalizing d with
  | nil => exact h
  | cons w writes ih => exact ih (Dict.nodup_keys_set h _ _)

theorem appsByName_map (hkeys : d.keys.Nodup)
    (hnamed : ∀ e ∈ d, ∃ apps, e ∈ namedApps apps) : appsByName (d.map Prod.snd) = d := by
  have hself : namedApps (d.map Prod.snd) = d := by
    rw [namedApps, filterMap_map]
    refine (filterMap_congr fun e he => ?_).trans (filterMap_some)
    obtain ⟨apps, happs⟩ := hnamed e he
    obtain ⟨a, -, ha⟩ := List.mem_filterMap.1 happs
    obtain ⟨name, hname, rfl⟩ := map_eq_some_iff.1 ha
    simp only [Function.comp_apply, hname, map_some]
  rw [appsByName, hself, Dict.setAll_of_nodup (by exact hkeys), nil_append]

theorem appsByName_merge (base overlay : TemplateConfig) :
    appsByName (mergeConfigs base overlay).apps =
      (appsByName base.apps).setAll (namedApps overlay.apps) := by
  by_cases happs : overlay.apps = []
  · simp [mergeConfigs, happs, namedApps]
  · have heq : (mergeConfigs base overlay).apps =
        ((appsByName base.apps).setAll (namedApps overlay.apps)).map Prod.snd := if_pos happs
    rw [heq]
    refine appsByName_map (nodup_keys_setAll (@nodup_keys_setAll [] nodup_nil _) _)
      fun e he => ?_
    obtain he | he := mem_setAll he
    · obtain he | he := mem_setAll he
      · cases he
      · exact ⟨_, he⟩
    · exact ⟨_, he⟩

theorem value_mergeConfigs (base overlay : TemplateConfig) (s : Setting) :
    (mergeConfigs base overlay).value s = (overlay.value s).or (base.value s) := by
  cases s with
  | role role =>
    simp only [TemplateConfig.value, mergeConfigs]
    split_ifs <;> simp_all
  | app name =>
    have hoverlay : (appsByName overlay.apps).get? name =
        (namedApps overlay.apps).reverse.lookup name := by
      rw [appsByName, Dict.get?, Dict.lookup_setAll, lookup_nil, Option.or_none]
    simp only [TemplateConfig.value, appsByName_merge, hoverlay]
    rw [Dict.get?, Dict.lookup_setAll, Option.map_or]
    rfl
  | label key => exact Option.map_or ..
  | credential key => exact Option.map_or ..
  | collectorGroup =>
    simp only [TemplateConfig.value, mergeConfigs]
    split_ifs <;> simp_all

/-! ### Precedence -/

/-- A binding of the device, and whether it is one of the type. -/
def Applies (db : Bindings) (d : Device) (b : Bool × TemplateBinding) : Prop :=
  b.2 ∈ if b.1 then db.ofType d else db.ofCategory d

/-- The order of the bindings: by level, then by priority, and then by name. -/
def rank (b : Bool × TemplateBinding) : Bool ×ₗ (ℤ ×ₗ String) := toLex (b.1, sortKey b.2)

def mergeOrder (db : Bindings) (d : Device) : List (Bool × TemplateBinding) :=
  (sorted (db.ofCategory d)).map (false, ·) ++ (sorted (db.ofType d)).map (true, ·)

variable {db : Bindings}

theorem mem_mergeOrder {d : Device} {b : Bool × TemplateBinding} :
    b ∈ mergeOrder db d ↔ Applies db d b := by
  obtain ⟨_ | _, b⟩ := b <;> simp [mergeOrder, Applies, sorted]

theorem pairwise_mergeOrder (db : Bindings) (d : Device) :
    (mergeOrder db d).Pairwise fun b b' => rank b ≤ rank b' := by
  have hsorted : ∀ (l : List TemplateBinding) (level : Bool),
      ((sorted l).map (level, ·)).Pairwise fun b b' => rank b ≤ rank b' := by
    intro l level
    rw [pairwise_map]
    refine (@List.pairwise_mergeSort _ (fun b b' => decide (sortKey b ≤ sortKey b')) ?_ ?_ l).imp
      fun {b b'} h => ?_
    · intro b b' b'' h h'
      exact decide_eq_true ((of_decide_eq_true h).trans (of_decide_eq_true h'))
    · intro b b'
      simpa using le_total (sortKey b) (sortKey b')
    · exact Prod.Lex.toLex_le_toLex.2 (.inr ⟨rfl, of_decide_eq_true h⟩)
  refine List.pairwise_append.2 ⟨hsorted _ _, hsorted _ _, fun b hb b' hb' => ?_⟩
  obtain ⟨b, -, rfl⟩ := List.mem_map.1 hb
  obtain ⟨b', -, rfl⟩ := List.mem_map.1 hb'
  exact Prod.Lex.toLex_le_toLex.2 (.inl Bool.false_lt_true)

theorem config_eq (db : Bindings) (d : Device) : (resolveTemplatesForDevice db d).config =
    (mergeOrder db d).foldl (fun merged b => mergeConfigs merged b.2.template.config) {} := by
  rw [mergeOrder, foldl_append, foldl_map, foldl_map, resolveTemplatesForDevice,
    foldl_append]

theorem value_foldl {l : List (Bool × TemplateBinding)}
    (h : l.Pairwise fun b b' => rank b ≤ rank b') (s : Setting) :
    (∀ v, (l.foldl (fun merged b => mergeConfigs merged b.2.template.config) {}).value s = some v →
      ∃ b ∈ l, b.2.template.config.value s = some v ∧
        ∀ b' ∈ l, (b'.2.template.config.value s).isSome → rank b' ≤ rank b) ∧
      ((l.foldl (fun merged b => mergeConfigs merged b.2.template.config) {}).value s = none →
        ∀ b ∈ l, b.2.template.config.value s = none) := by
  induction l using List.reverseRecOn with
  | nil =>
    refine ⟨fun v hv => ?_, fun _ b hb => by cases hb⟩
    cases s <;> cases hv
  | append_singleton l b ih =>
    obtain ⟨hl, -, hlast⟩ := List.pairwise_append.1 h
    obtain ⟨hsome, hnone⟩ := ih hl
    rw [foldl_append, foldl_cons, foldl_nil, value_mergeConfigs]
    cases hb : b.2.template.config.value s with
    | some v =>
      refine ⟨fun v' hv => ?_, fun hnone => by cases hnone⟩
      cases hv
      refine ⟨b, mem_append_right _ mem_cons_self, hb, fun b' hb' _ => ?_⟩
      obtain hb' | hb' := List.mem_append.1 hb'
      · exact hlast b' hb' b mem_cons_self
      · exact (List.mem_singleton.1 hb') ▸ le_rfl
    | none =>
      have hset : ∀ b' ∈ l ++ [b], (b'.2.template.config.value s).isSome → b' ∈ l := by
        intro b' hb' hset
        obtain hb' | hb' := List.mem_append.1 hb'
        · exact hb'
        · rw [List.mem_singleton.1 hb', hb] at hset
          cases hset
      refine ⟨fun v hv => ?_, fun hv b' hb' => ?_⟩
      · obtain ⟨b₁, hb₁, hvalue, hle⟩ := hsome v hv
        exact ⟨b₁, mem_append_left _ hb₁, hvalue, fun b' hb' h => hle b' (hset b' hb' h) h⟩
      · by_contra hne
        have hmem := hset b' hb' (isSome_iff_ne_none.2 hne)
        exact hne (hnone hv b' hmem)

def Highest (db : Bindings) (d : Device) (s : Setting) (b : Bool × TemplateBinding) : Prop :=
  Applies db d b ∧ ∀ b', Applies db d b' → (b'.2.template.config.value s).isSome → rank b' ≤ rank b

/-- A rule of one of the device's bindings that matches an interface. -/
def Candidate (p : Patterns) (db : Bindings) (d : Device) (iface : InterfaceMetadata)
    (rule : InterfaceRule) : Prop :=
  ∃ b, Applies db d b ∧ rule ∈ b.2.template.config.interfaceRules ∧
    matchInterface p rule iface = true

theorem decidingRule_eq (p : Patterns) (rules : List InterfaceRule) (iface : InterfaceMetadata) :
    decidingRule p rules iface =
      bestOf InterfaceRule.priority (-1) (rules.filter (matchInterface p · iface)) := by
  rw [bestOf, foldl_filter, decidingRule]
  congr 1
  funext best rule
  simp only [considerRule, better, Bool.and_eq_true, decide_eq_true_eq]
  split_ifs <;> simp_all

theorem mem_interfaceRules {d : Device} {rule : InterfaceRule} :
    rule ∈ (resolveTemplatesForDevice db d).config.interfaceRules ↔
      ∃ b, Applies db d b ∧ rule ∈ b.2.template.config.interfaceRules := by
  have hfold : ∀ l : List (Bool × TemplateBinding),
      (l.foldl (fun merged b => mergeConfigs merged b.2.template.config) {}).interfaceRules =
        l.flatMap fun b => b.2.template.config.interfaceRules := by
    intro l
    induction l using List.reverseRecOn with
    | nil => rfl
    | append_singleton l b ih =>
      rw [foldl_append, flatMap_append, ← ih]
      simp [mergeConfigs]
  rw [config_eq, hfold, mem_flatMap]
  simp only [mem_mergeOrder]

/-- **Every setting of the resolved configuration is that of the highest binding that has it**, and
the rule that decides about an interface has the highest priority of all rules that match it. -/
theorem resolve_spec (db : Bindings) (d : Device) :
    (∀ s, (∀ v, (resolveTemplatesForDevice db d).config.value s = some v →
        ∃ b, Highest db d s b ∧ b.2.template.config.value s = some v) ∧
      ((resolveTemplatesForDevice db d).config.value s = none →
        ∀ b, Applies db d b → b.2.template.config.value s = none)) ∧
      ∀ p iface, (∀ rule, decidingRule p (resolveTemplatesForDevice db d).config.interfaceRules
          iface = some rule →
        Candidate p db d iface rule ∧ ∀ rule', Candidate p db d iface rule' →
          rule'.priority ≤ rule.priority) ∧
        (decidingRule p (resolveTemplatesForDevice db d).config.interfaceRules iface = none ↔
          ∀ rule, Candidate p db d iface rule → rule.priority < 0) := by
  constructor
  · intro s
    obtain ⟨hsome, hnone⟩ := value_foldl (pairwise_mergeOrder db d) s
    rw [config_eq]
    refine ⟨fun v hv => ?_, fun hv b hb => hnone hv b (mem_mergeOrder.2 hb)⟩
    obtain ⟨b, hb, hvalue, hle⟩ := hsome v hv
    exact ⟨b, ⟨mem_mergeOrder.1 hb, fun b' hb' => hle b' (mem_mergeOrder.2 hb')⟩, hvalue⟩
  · intro p iface
    have hmem : ∀ rule, rule ∈ (resolveTemplatesForDevice db d).config.interfaceRules.filter
        (matchInterface p · iface) ↔ Candidate p db d iface rule := by
      intro rule
      rw [mem_filter, mem_interfaceRules, Candidate]
      constructor
      · rintro ⟨⟨b, hb, hrule⟩, hmatch⟩
        exact ⟨b, hb, hrule, hmatch⟩
      · rintro ⟨b, hb, hrule, hmatch⟩
        exact ⟨⟨b, hb, hrule⟩, hmatch⟩
    rw [decidingRule_eq]
    refine ⟨fun rule hrule => ?_, ?_⟩
    · refine ⟨(hmem rule).1 ((bestOf_spec _ _ _).1 rule hrule).1, fun rule' hrule' => ?_⟩
      exact le_of_bestOf hrule ((hmem rule').2 hrule')
    · rw [bestOf_eq_none_iff]
      simp only [hmem]
      exact forall₂_congr fun rule _ => by omega

def ruleFor (ifName pollMetrics : String) (priority : ℤ) : InterfaceRule where
  name := some pollMetrics
  criteria := [("if_name", { type := "exact", pattern := ifName })]
  settings := { pollMetrics := some pollMetrics }
  priority

/-- A rule of the category decides against one of the type that has a lower priority. -/
theorem not_level_first :
    ¬∀ (p : Patterns) (db : Bindings) (d : Device) (iface : InterfaceMetadata)
    (rule : InterfaceRule),
      decidingRule p (resolveTemplatesForDevice db d).config.interfaceRules iface = some rule →
        (∃ b ∈ db.ofType d, ∃ rule' ∈ b.template.config.interfaceRules,
          matchInterface p rule' iface = true ∧ 0 ≤ rule'.priority) →
        ∃ b ∈ db.ofType d, rule ∈ b.template.config.interfaceRules := by
  intro h
  obtain ⟨b, hb, hrule⟩ := h ⟨fun _ _ => false, fun _ _ => false⟩
    ⟨[("router", ⟨0, "t1", "base", { interfaceRules := [ruleFor "eth0" "traffic" 10] }⟩)],
      [("mx204", ⟨0, "t2", "special", { interfaceRules := [ruleFor "eth0" "errors" 5] }⟩)]⟩
    ⟨some "router", some "mx204"⟩ { id := "i", ifName := "eth0" } (ruleFor "eth0" "traffic" 10)
    (by decide +kernel)
    ⟨_, mem_cons_self, _, mem_cons_self, by decide +kernel, by decide⟩
  obtain rfl := List.mem_singleton.1 hb
  revert hrule
  decide

end MonCTL.Templates
