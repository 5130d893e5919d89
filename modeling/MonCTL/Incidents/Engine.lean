import MonCTL.Incidents.CompanionClear
import MonCTL.Lib.PyValue

/-!
# The Incident Engine

Once a cycle the engine goes over the enabled rules. For each of them it loads the entities of
the rule's definition and the open incidents of the rule, and then looks at one entity after
the other: it opens an incident, updates the one that is open, or clears it. At the end of a
rule companions may clear what is still open. A rule that raises is abandoned where it stands;
what it has done so far is kept, and the cycle goes on with the next rule.

A query without an order may give its rows in any order, and the table is written while the
cycle reads it, so every rule has an order of its own (`Scan`). What a message template is
rendered to is a parameter; rendering may raise.
-/

namespace MonCTL.Incidents

open Alerting (AlertState AlertEntity Entities)

/-! ### Rules, definitions and incidents -/

/-- The columns of `IncidentRule` the engine reads. -/
structure EngineRule extends IncidentRule where
  definitionId : Uuid
  mode : String := "consecutive"
  fireCountThreshold : ℕ := 1
  windowSize : ℕ := 5
  severity : String := "warning"
  autoClearOnResolve : Bool := true
  scopeFilter : Json := .null
  severityLadder : PyValue := .none
  dependsOn : Json := .null
  flapGuardSeconds : Option ℕ := none
  enabled : Bool := true

/-- An alert definition with its entities. The id of an assignment is the text of a UUID, and
has no bar in it. -/
structure DefinitionRow where
  id : Uuid
  enabled : Bool := true
  entities : Entities
  assignments_plain : ∀ e ∈ entities.rows, '|' ∉ e.assignmentId.toList := by decide

/-- The columns of `Incident` the engine reads and writes. -/
structure IncidentRow extends Incident where
  ruleId : Uuid
  assignmentId : Uuid
  fireCount : ℕ
  openedAt : Timestamp
  lastFiredAt : Timestamp
  severityReachedAt : Option Timestamp := none
  parentIncidentId : Option Uuid := none

variable (row : IncidentRow)

def IncidentRow.IsOpen : Prop := row.state = .isOpen

instance : DecidablePred IncidentRow.IsOpen := fun row =>
  inferInstanceAs (Decidable (row.state = .isOpen))

/-! ### Severity ladders -/

/-- `_SEVERITY_PRIORITY`. -/
def severityPriority : Dict String ℤ :=
  [("info", 0), ("warning", 1), ("critical", 2), ("emergency", 3)]

structure LadderStep where
  afterSeconds : ℤ
  severity : String

/-- The value of an `int`; a `bool` is one. -/
def asInt : PyValue → Option ℤ
  | .int i => some i
  | .bool b => some (if b then 1 else 0)
  | _ => none

/-- `sev in _SEVERITY_PRIORITY`, with the priority it has there: looking up a list or a
dictionary raises. -/
def lookupPriority : PyValue → Except PyError (Option (String × ℤ))
  | .str sev => .ok ((severityPriority.get? sev).map (sev, ·))
  | .list _ => .error .typeError
  | .dict _ => .error .typeError
  | _ => .ok none

/-- The loop over the entries of a ladder: each starts later than the one before it and is at
least as severe. -/
def validateSteps (lastSeconds lastPriority : ℤ) :
    List PyValue → Except PyError (Option (List LadderStep))
  | [] => .ok (some [])
  | .dict entry :: rest =>
    match asInt (PyDict.getD entry "after_seconds" .none) with
    | none => .ok none
    | some after =>
      if after < 0 then .ok none
      else
        match lookupPriority (PyDict.getD entry "severity" .none) with
        | .error e => .error e
        | .ok none => .ok none
        | .ok (some (sev, priority)) =>
          if after ≤ lastSeconds then .ok none
          else if priority < lastPriority then .ok none
          else (validateSteps after priority rest).map (Option.map (LadderStep.mk after sev :: ·))
  | _ :: _ => .ok none

/-- `_validate_ladder`. -/
def validateLadder : PyValue → Except PyError (Option (List LadderStep))
  | .list (entry :: rest) => do
      let normalized ← validateSteps (-1) (-1) (entry :: rest)
      return normalized.filter fun steps => (steps.head?.map LadderStep.afterSeconds) = some 0
  | _ => .ok none

/-- A number of seconds, in microseconds. -/
def seconds (n : ℤ) : ℤ := n * 1000000

/-- `_ladder_severity_at`, for a time in microseconds. -/
def ladderSeverityAt (ladder : List LadderStep) (elapsed : ℤ) : Option String :=
  ((ladder.reverse.find? fun step => seconds step.afterSeconds ≤ elapsed).or
    ladder.head?).map LadderStep.severity

def IncidentRow.escalate (severity : String) (now : Timestamp) : IncidentRow :=
  { row with severity, severityReachedAt := some now }

/-- `_apply_ladder`: the row, and whether its severity was raised. -/
def applyLadder (ladder : List LadderStep) (now : Timestamp) :
    IncidentRow × Bool :=
  match ladderSeverityAt ladder (now - row.openedAt) with
  | none => (row, false)
  | some target =>
    if target = row.severity then (row, false)
    else if (severityPriority.get? target).getD (-1) ≤
        (severityPriority.get? row.severity).getD (-1) then (row, false)
    else (row.escalate target now, true)

/-! ### Scopes and dependencies -/

/-- `_validate_scope_filter`. -/
def validateScopeFilter : Json → Option (Dict String String)
  | .obj [] => none
  | .obj raw => raw.mapM fun entry =>
    match entry.2 with
    | .str value => some (entry.1, value)
    | _ => none
  | _ => none

/-- `_entity_in_scope`: every key is there, with the value required unless that is empty. -/
def entityInScope (inst : AlertEntity) (scope : Dict String String) : Bool :=
  scope.all fun entry =>
    match inst.entityLabels.get? entry.1 with
    | none => false
    | some actual => entry.2 = "" || actual = entry.2

/-- What `_validate_depends_on` returns. -/
structure DependsOn where
  ruleIds : List Uuid
  matchOn : List String

/-- `_validate_depends_on`. -/
def validateDependsOn : Json → Option DependsOn
  | .obj raw =>
    match Dict.get? raw "rule_ids" with
    | some (.arr (rid :: rids)) => do
        let ruleIds ← (rid :: rids).mapM fun rid =>
          match rid with
          | .str text => parseUuid text
          | _ => none
        match (Dict.get? raw "match_on").getD (.arr []) with
        | .arr keys =>
          let matchOn ← keys.mapM fun key =>
            match key with
            | .str text => some text
            | _ => none
          return ⟨ruleIds, matchOn⟩
        | _ => none
    | _ => none
  | _ => none

/-- `_reject_if_depends_on_invalid`: what the router lets into the table. -/
def acceptsDependsOn : Json → Bool
  | .null => true
  | raw => (validateDependsOn raw).isSome

/-- The labels agree on all keys, and have them. -/
def labelsMatch (matchOn : List String) (parentLabels childLabels : Dict String String) : Bool :=
  matchOn.all fun key =>
    match parentLabels.get? key, childLabels.get? key with
    | some pVal, some cVal => pVal = cVal
    | _, _ => false

/-- `_find_matching_parent`. -/
def findMatchingParent (parentCandidates : List IncidentRow) (matchOn : List String)
    (childLabels : Dict String String) : Option Uuid :=
  (parentCandidates.find? fun parent => labelsMatch matchOn parent.labels childLabels).map (·.id)

/-! ### What a cycle is given -/

/-- The order in which a query gives rows. -/
structure Scan where
  rows : List IncidentRow → List IncidentRow
  perm : ∀ table, (rows table).Perm table

/-- The order of the table. -/
def Scan.inOrder : Scan := ⟨id, fun _ => .refl _⟩

/-- The clock, what messages are rendered to, and the order of rows, for each rule. -/
structure CycleEnv where
  now : Uuid → Timestamp
  renderMessage : Uuid → AlertEntity → Option String
  scan : Uuid → Scan

/-- Rules and definitions, with what the database and the router make sure of. -/
structure Config where
  rules : List EngineRule := []
  definitions : List DefinitionRow := []
  rules_nodup : (rules.map fun rule => rule.id).Nodup := by decide
  dependsOn_accepted : ∀ rule ∈ rules, acceptsDependsOn rule.dependsOn = true := by simp

/-- No rules and no definitions. -/
def Config.empty : Config := {}

/-- `rule.definition`. -/
def Config.definition (config : Config) (rule : EngineRule) : Option DefinitionRow :=
  config.definitions.find? (·.id = rule.definitionId)

/-- The entities of all definitions, as the companion pass reads them. -/
def Config.companionEntities (config : Config) : List CompanionEntity :=
  config.definitions.flatMap fun defn => defn.entities.rows.map fun e =>
    ⟨defn.id, e.assignmentId, e.deviceId, e.entityKey, e.enabled, e.state⟩

/-- Random ids, which never repeat. -/
structure UuidSource where
  uuid4 : ℕ → Uuid
  injective : uuid4.Injective

/-- What a cycle writes: the incidents, the ids issued, and the transitions to dispatch. -/
structure EngineState where
  incidents : List IncidentRow
  issued : ℕ
  transitions : List Transition := []

/-- Write the row of an id. -/
def putRow (rows : List IncidentRow) (row : IncidentRow) : List IncidentRow :=
  rows.map fun r => if r.id = row.id then row else r

/-! ### The loop over the entities -/

/-- What the loop over the entities of a rule has at hand. -/
structure RuleContext where
  rule : EngineRule
  now : Timestamp
  renderMessage : AlertEntity → Option String
  openByKey : Dict String Uuid
  ladder : Option (List LadderStep)
  scope : Option (Dict String String)
  depends : Option DependsOn
  parentCandidates : List IncidentRow

def incidentKey (inst : AlertEntity) : String := inst.assignmentId ++ "|" ++ inst.entityKey

variable (c : RuleContext)

/-- `open_by_key.get(entity_key)`, as the row is now. -/
def RuleContext.incident (rows : List IncidentRow) (inst : AlertEntity) :
    Option IncidentRow :=
  (c.openByKey.get? (incidentKey inst)).bind fun id => rows.find? fun row => row.id = id

def RuleContext.outOfScope (inst : AlertEntity) : Bool :=
  c.scope.any fun scope => !entityInScope inst scope

/-- `_find_matching_parent` for some labels; a rule without dependencies has no candidates. -/
def RuleContext.parentId (childLabels : Dict String String) : Option Uuid :=
  findMatchingParent c.parentCandidates ((c.depends.map DependsOn.matchOn).getD []) childLabels

variable (rule : EngineRule)

/-- `_meets_threshold`. -/
def meetsThreshold (inst : AlertEntity) : Bool :=
  if rule.mode = "consecutive" then rule.fireCountThreshold ≤ inst.fireCount
  else if rule.mode = "cumulative" then
    let history := inst.fireHistory
    let window := if rule.windowSize = 0 then history
      else history.drop (history.length - rule.windowSize)
    rule.fireCountThreshold ≤ window.count true
  else false

/-- The severity an incident opens with. -/
def baseSeverity (inst : AlertEntity) : String :=
  ((inst.severity.filter (· ≠ "")).or
    ((c.ladder.bind List.head?).map LadderStep.severity)).getD c.rule.severity

/-- The incident of an entity that starts firing. -/
def newIncident (id : Uuid) (message : String) (inst : AlertEntity) :
    IncidentRow where
  id
  entityKey := incidentKey inst
  deviceId := inst.deviceId
  state := .isOpen
  severity := baseSeverity c inst
  message
  labels := inst.entityLabels
  ruleId := c.rule.id
  assignmentId := inst.assignmentId
  fireCount := 1
  openedAt := c.now
  lastFiredAt := c.now
  severityReachedAt := some c.now
  parentIncidentId := c.parentId inst.entityLabels

variable (ids : UuidSource)

/-- Open an incident. It is recorded before it has an id. -/
def openIncident (c : RuleContext) (message : String) (inst : AlertEntity)
    (s : EngineState) : EngineState :=
  let row := newIncident c (ids.uuid4 s.issued) message inst
  { incidents := s.incidents ++ [row]
    issued := s.issued + 1
    transitions := s.transitions ++
      [record c.rule.toIncidentRule { row.toIncident with id := "None" } "opened"] }

def IncidentRow.clear (now : Timestamp) (reason : String) : IncidentRow :=
  { row with state := .cleared, clearedAt := some now, clearedReason := some reason }

def clearIncident (reason : String) (row : IncidentRow) (s : EngineState) :
    EngineState :=
  { s with
    incidents := putRow s.incidents (row.clear c.now reason)
    transitions := s.transitions ++
      [record c.rule.toIncidentRule (row.clear c.now reason).toIncident "cleared"] }

/-- The first writes to the incident of an entity that is still firing. -/
def IncidentRow.touch (now : Timestamp) : IncidentRow :=
  { row with lastFiredAt := now, fireCount := row.fireCount + 1 }

/-- The labels after an update: those of the entity, if it has some. -/
def refreshedLabels (inst : AlertEntity) (row : IncidentRow) : Dict String String :=
  if inst.entityLabels = [] then row.labels else inst.entityLabels

/-- The writes that follow when the message could be rendered: message, labels, and the parent
if the rule depends on others. -/
def refreshIncident (message : String) (inst : AlertEntity)
    (row : IncidentRow) : IncidentRow :=
  { row.touch c.now with
    message
    labels := refreshedLabels inst row
    parentIncidentId := if c.depends.isSome then c.parentId (refreshedLabels inst row)
      else row.parentIncidentId }

/-- The incident of an entity that is still firing: updated, and raised along the ladder. -/
def updateIncident (message : String) (inst : AlertEntity) (row : IncidentRow)
    (s : EngineState) : EngineState :=
  let row := refreshIncident c message inst row
  let (row, escalated) := match c.ladder with
    | none => (row, false)
    | some ladder => applyLadder row ladder c.now
  { s with
    incidents := putRow s.incidents row
    transitions := s.transitions ++
      if escalated then [record c.rule.toIncidentRule row.toIncident "escalated"] else [] }

/-- The clear is held: the incident's alert has fired too recently. -/
def flapGuarded (row : IncidentRow) : Bool :=
  c.rule.flapGuardSeconds.any fun guardS => 0 < guardS && c.now - row.lastFiredAt < seconds guardS

/-- One round of the loop over the entities: the state after it, and whether it did not
raise. -/
def evaluateEntity (c : RuleContext) (inst : AlertEntity) (s : EngineState) :
    EngineState × Bool :=
  match c.incident s.incidents inst with
  | none =>
    if c.outOfScope inst then (s, true)
    else if inst.state ≠ .firing then (s, true)
    else if !meetsThreshold c.rule inst then (s, true)
    else
      match c.renderMessage inst with
      | none => (s, false)
      | some message => (openIncident ids c message inst s, true)
  | some row =>
    if c.outOfScope inst then (clearIncident c "out_of_scope" row s, true)
    else
      match inst.state with
      | .firing =>
        match c.renderMessage inst with
        | none => ({ s with incidents := putRow s.incidents (row.touch c.now) }, false)
        | some message => (updateIncident c message inst row s, true)
      | .resolved =>
        if !c.rule.autoClearOnResolve then (s, true)
        else if flapGuarded c row then (s, true)
        else (clearIncident c "auto" row s, true)
      | .ok => (s, true)

/-- The loop over the entities. -/
def evaluateEntities (ids : UuidSource) (c : RuleContext) :
    List AlertEntity → EngineState → EngineState × Bool
  | [], s => (s, true)
  | inst :: rest, s =>
    match evaluateEntity ids c inst s with
    | (s, true) => evaluateEntities ids c rest s
    | (s, false) => (s, false)

/-! ### A rule -/

/-- `open_incidents`: the open incidents of a rule. -/
def openIncidents (rows : List IncidentRow) : List IncidentRow :=
  rows.filter fun row => row.ruleId = rule.id ∧ row.IsOpen

/-- `open_by_key`. -/
def openByKey (rows : List IncidentRow) : Dict String Uuid :=
  Dict.setAll [] (rows.map fun row => (row.entityKey, row.id))

/-- `parent_candidates`: the open incidents of the rules depended on, but not of the rule
itself. -/
def parentCandidates (depends : Option DependsOn) (rows : List IncidentRow) :
    List IncidentRow :=
  match depends with
  | none => []
  | some d => rows.filter fun row => row.ruleId ∈ d.ruleIds ∧ row.ruleId ≠ rule.id ∧ row.IsOpen

/-- What the loop over the entities works with. -/
def ruleContext (env : CycleEnv) (rule : EngineRule) (ladder : Option (List LadderStep))
    (rows : List IncidentRow) : RuleContext where
  rule
  now := env.now rule.id
  renderMessage := env.renderMessage rule.id
  openByKey := openByKey (openIncidents rule ((env.scan rule.id).rows rows))
  ladder
  scope := validateScopeFilter rule.scopeFilter
  depends := validateDependsOn rule.dependsOn
  parentCandidates := parentCandidates rule (validateDependsOn rule.dependsOn)
    ((env.scan rule.id).rows rows)

/-- `_apply_companion_clear` for one of the incidents the rule has loaded. -/
def companionClear (companionIds : List Uuid)
    (entities : List CompanionEntity) (now : Timestamp) (row : IncidentRow) : IncidentRow :=
  { row with
    toIncident := (clearByCompanions rule.toIncidentRule companionIds entities now
      row.toIncident).1 }

/-- The companion pass over the incidents that were open when the rule started. -/
def companionPass (config : Config) (rule : EngineRule) (now : Timestamp) (loaded : List Uuid)
    (s : EngineState) : EngineState :=
  match validateCompanionIds rule.clearOnCompanionIds with
  | none => s
  | some companionIds =>
    let entities := config.companionEntities
    { s with
      incidents := s.incidents.map fun row =>
        if row.id ∈ loaded then companionClear rule companionIds entities now row else row
      transitions := s.transitions ++ loaded.flatMap fun id =>
        match s.incidents.find? fun row => row.id = id with
        | none => []
        | some row =>
          (clearByCompanions rule.toIncidentRule companionIds entities now row.toIncident).2 }

/-- `_evaluate_rule`: the state it leaves, also when it raises. -/
def evaluateRule (config : Config) (env : CycleEnv) (rule : EngineRule)
    (s : EngineState) : EngineState :=
  match config.definition rule with
  | none => s
  | some defn =>
    if !defn.enabled then s
    else
      match validateLadder rule.severityLadder with
      | .error _ => s
      | .ok ladder =>
        let c := ruleContext env rule ladder s.incidents
        match evaluateEntities ids c defn.entities.enabled s with
        | (s', false) => s'
        | (s', true) =>
          let loaded := openIncidents rule ((env.scan rule.id).rows s.incidents)
          companionPass config rule c.now (loaded.map (·.id)) s'

/-! ### A cycle -/

/-- `evaluate_all`: the incidents and ids after the loop over the enabled rules, and the
transitions. -/
def evaluateAll (config : Config) (env : CycleEnv)
    (incidents : List IncidentRow) (issued : ℕ) : EngineState :=
  (config.rules.filter (·.enabled)).foldl (fun s rule => evaluateRule ids config env rule s)
    { incidents, issued }

end MonCTL.Incidents
