import MonCTL.Alerting.Messages

/-!
# Incident Messages

The message of an incident is rendered from the template of its rule, or else from that of the tier
the alert is in, with the numbers and the errors treated as for the messages of alerts.
-/

namespace MonCTL.Incidents

open Alerting PyFormat

section

variable {Obj : Type} (python : Interpreter Obj) (defn : MessageDefinition)

/-- The texts a template of an incident can name. Thresholds have a dollar sign. -/
def incidentContext (inst : MessageEntity) :
    Except FormatError (Dict String String) := do
  let context := Dict.setAll [] inst.entityLabels
  let context := context.set "value" (← fmtNumber inst.currentValue)
  let context := context.set "alert_name" defn.name
  let context := context.set "rule_name" defn.name
  let context := context.set "fire_count" (toString inst.fireCount)
  let context := context.set "entity_key" inst.entityKey
  let context := context.setAll (← fmtValues inst.metricValues)
  let thresholds ← fmtValues inst.thresholdValues
  return context.setAll (thresholds.map fun kv => ("$" ++ kv.1, kv.2))

def tierTemplate (inst : MessageEntity) : Option String := do
  let tier ← defn.severityTiers.find? fun tier => some tier.severity = inst.severity
  tier.messageTemplate

variable (ruleTemplate : Option String)

/-- The templates of an incident: that of its rule and that of the tier, if they are not empty. -/
def incidentTemplates (defn : MessageDefinition)
    (inst : MessageEntity) : List String :=
  [ruleTemplate, tierTemplate defn inst].filterMap nonempty

/-- The loop over the templates: the first that can be rendered. -/
def renderFirst (context : Except FormatError (Dict String String)) :
    List String → Except FormatError (Option String)
  | [] => return none
  | template :: rest => do
      match formatMap python.toObjects (← context) template with
      | .ok rendered => return some rendered
      | .error e => if Caught e then renderFirst context rest else .error e

/-- `_render_message`, for the template of a rule. -/
def renderMessage (defn : MessageDefinition)
    (inst : MessageEntity) : Except FormatError String := do
  let rendered ← renderFirst python (incidentContext defn inst)
    (incidentTemplates ruleTemplate defn inst)
  return rendered.getD (fallback python defn.name inst)

/-! ### When there is a message -/

def Renders (context : Except FormatError (Dict String String)) (template : String) : Prop :=
  ∃ texts, context = .ok texts ∧ Succeeds (formatMap python.toObjects texts template)

/-- **A template is tried** when none of those before it can be rendered. -/
def Tried (context : Except FormatError (Dict String String)) (templates : List String)
    (template : String) : Prop :=
  ∃ before later, templates = before ++ template :: later ∧ ∀ t ∈ before, ¬Renders python context t

theorem succeeds_incidentContext_iff (inst : MessageEntity) :
    Succeeds (incidentContext defn inst) ↔ inst.Printable :=
  succeeds_numbers_iff inst _

variable {context : Except FormatError (Dict String String)}

theorem forall_tried_cons {template : String} {rest : List String} {P : String → Prop} :
    (∀ t, Tried python context (template :: rest) t → P t) ↔
      P template ∧ (¬Renders python context template → ∀ t, Tried python context rest t → P t) := by
  constructor
  · intro h
    refine ⟨h template ⟨[], rest, rfl, by simp⟩, ?_⟩
    rintro hnot t ⟨before, later, heq, hbefore⟩
    refine h t ⟨template :: before, later, by rw [heq]; rfl, ?_⟩
    intro u hu
    rcases List.mem_cons.1 hu with rfl | hu
    · exact hnot
    · exact hbefore u hu
  · rintro ⟨hfirst, hrest⟩ t ⟨before, later, heq, hbefore⟩
    cases before with
    | nil =>
      cases heq
      exact hfirst
    | cons u before =>
      cases heq
      exact hrest (hbefore _ List.mem_cons_self) t
        ⟨before, later, rfl, fun v hv => hbefore v (List.mem_cons_of_mem _ hv)⟩

theorem succeeds_renderFirst_iff {inst : MessageEntity}
    (hcontext : Succeeds context ↔ inst.Printable) (templates : List String) :
    Succeeds (renderFirst python context templates) ↔
      ∀ t, Tried python context templates t → MessageSafe python inst context t := by
  induction templates with
  | nil =>
    refine iff_of_true (succeeds_pure _) ?_
    rintro t ⟨before, later, heq, -⟩
    cases before <;> cases heq
  | cons template rest ih =>
    rw [forall_tried_cons, ← ih, renderFirst]
    exact succeeds_try_iff python hcontext template some _

/-- **There is a message of an incident** exactly if every template that is tried can be. -/
theorem succeeds_renderMessage_iff (defn : MessageDefinition)
    (inst : MessageEntity) : Succeeds (renderMessage python ruleTemplate defn inst) ↔
      ∀ t, Tried python (incidentContext defn inst) (incidentTemplates ruleTemplate defn inst) t →
        MessageSafe python inst (incidentContext defn inst) t := by
  rw [renderMessage, succeeds_bind_pure_iff]
  exact succeeds_renderFirst_iff python (succeeds_incidentContext_iff defn inst) _

/-- **Messages**: both engines return a text, for an entity with any numbers, exactly if the
templates that are tried meet finite numbers only, and no field in them that is reached raises
something other than a value or a type error. -/
theorem messages_iff : (∀ defn inst action, Succeeds (buildMessage python defn inst action) ↔
      ∀ template, alertTemplate defn inst action = some template →
        MessageSafe python inst (alertContext defn inst) template) ∧
    ∀ ruleTemplate defn inst, Succeeds (renderMessage python ruleTemplate defn inst) ↔
      ∀ t, Tried python (incidentContext defn inst) (incidentTemplates ruleTemplate defn inst) t →
        MessageSafe python inst (incidentContext defn inst) t :=
  ⟨succeeds_buildMessage_iff python, succeeds_renderMessage_iff python⟩

end

/-! ### A value that is not a number -/

/-- An interpreter in which attributes lead to no other objects. -/
def textInterpreter : Interpreter Empty where
  getattr := fun _ _ => .error .attributeError
  getitem := fun o _ => o.elim
  repr := fun _ => .ok "''"
  ascii := fun _ => .ok "''"
  str := fun o => o.elim
  format := fun o _ => o.elim
  room := 1000000
  round2 := fun _ => "nan"

/-- A definition whose message shows the value. -/
def valueDefinition : MessageDefinition where
  name := "Latency"
  severityTiers := [⟨"warning", some "\x7bvalue\x7d ms"⟩]

/-- An entity whose average is NaN. -/
def nanEntity : MessageEntity where
  severity := some "warning"
  currentValue := some .nan

/-- **NaN raises**, in both engines. -/
theorem not_succeeds_buildMessage :
    ¬Succeeds (buildMessage textInterpreter valueDefinition nanEntity .fire) ∧
      ¬Succeeds (renderMessage textInterpreter none valueDefinition nanEntity) :=
  ⟨not_succeeds_error _, not_succeeds_error _⟩

end MonCTL.Incidents
