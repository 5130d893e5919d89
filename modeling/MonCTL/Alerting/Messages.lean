import MonCTL.Alerting.Engine
import MonCTL.Lib.PyFormat

/-!
# Alert Messages

The message of an alert is rendered from the template of a severity tier, with the labels, metric
values and thresholds of the entity formatted as texts. Errors of the template are caught if they
are value or type errors; a template that could not be rendered, or is rendered to nothing, is
replaced by a text that needs no template. Numbers are formatted before, where nothing is caught.
-/

namespace MonCTL.Alerting

open PyFormat

/-! ### Numbers -/

/-- `f"{v:.2f}"`. -/
def fixed2 (q : ℚ) : String :=
  let hundredths := (roundHalfEven (|q| * 100)).toNat
  let sign := if q < 0 then "-" else ""
  s!"{sign}{hundredths / 100}.{hundredths / 10 % 10}{hundredths % 10}"

/-- `_fmt_number`: the conversion to `int` raises for an infinity and for NaN. -/
def fmtNumber : Option PyFloat → Except FormatError String
  | none => .ok "N/A"
  | some (.finite q) => .ok (if q = ⌊q⌋ then toString ⌊q⌋ else fixed2 q)
  | some (.inf _) => .error .overflowError
  | some .nan => .error .valueError

/-- A number that is finite, or missing. -/
def Printable (v : Option PyFloat) : Prop := v = none ∨ ∃ q, v = some (.finite q)

/-- **The numbers that can be formatted.** -/
theorem succeeds_fmtNumber_iff (v : Option PyFloat) : Succeeds (fmtNumber v) ↔ Printable v := by
  rcases v with _ | q | negative | _
  · exact iff_of_true (succeeds_ok _) (.inl rfl)
  · exact iff_of_true (succeeds_ok _) (.inr ⟨q, rfl⟩)
  · exact iff_of_false (not_succeeds_error _) (by simp [Printable])
  · exact iff_of_false (not_succeeds_error _) (by simp [Printable])

def fmtValues (values : Dict String (Option PyFloat)) :
    Except FormatError (List (String × String)) :=
  values.mapM fun kv => return (kv.1, ← fmtNumber kv.2)

theorem succeeds_fmtValues_iff (values : Dict String (Option PyFloat)) :
    Succeeds (fmtValues values) ↔ ∀ kv ∈ values, Printable kv.2 := by
  rw [fmtValues, succeeds_mapM_iff]
  simp only [succeeds_bind_pure_iff, succeeds_fmtNumber_iff]

/-! ### Entities and definitions -/

/-- The columns of `AlertEntity` that messages show. -/
structure MessageEntity where
  severity : Option String := none
  entityKey : String := ""
  fireCount : ℕ := 0
  currentValue : Option PyFloat := none
  entityLabels : Dict String String := []
  metricValues : Dict String (Option PyFloat) := []
  thresholdValues : Dict String (Option PyFloat) := []

/-- A severity tier with its template. -/
structure MessageTier where
  severity : String
  messageTemplate : Option String := none

/-- The columns of `AlertDefinition` that messages show. -/
structure MessageDefinition where
  name : String
  severityTiers : List MessageTier := []

/-- The value, the metrics and the thresholds are finite, or missing. -/
structure MessageEntity.Printable (inst : MessageEntity) : Prop where
  value : Alerting.Printable inst.currentValue
  metrics : ∀ kv ∈ inst.metricValues, Alerting.Printable kv.2
  thresholds : ∀ kv ∈ inst.thresholdValues, Alerting.Printable kv.2

/-- The built-in functions that messages need: those of format strings, and `str(round(v, 2))`. -/
structure Interpreter (Obj : Type) extends Objects Obj where
  round2 : PyFloat → String

/-- The errors that the engines catch around a template. -/
def Caught (e : FormatError) : Prop := e = .valueError ∨ e = .typeError

instance : DecidablePred Caught := fun _ => inferInstanceAs (Decidable (_ ∨ _))

section

variable {Obj : Type} (python : Interpreter Obj)

/-! ### Messages without a template -/

/-- `str.strip`. -/
def strip (text : String) : String :=
  String.ofList ((text.toList.dropWhile isPySpace).reverse.dropWhile isPySpace).reverse

/-- What is true among texts: those that are not empty. -/
def nonempty (text : Option String) : Option String := text.filter (· ≠ "")

def MessageEntity.device (inst : MessageEntity) : String :=
  (inst.entityLabels.get? "device_name").getD "unknown"

/-- The part of the device an entity is. -/
def MessageEntity.component (inst : MessageEntity) : String :=
  ((nonempty (inst.entityLabels.get? "if_name")).or
    (nonempty (inst.entityLabels.get? "component"))).getD inst.entityKey

/-- The message without a template. -/
def fallback (name : String) (inst : MessageEntity) : String :=
  let valStr := (inst.currentValue.map fun value => " = " ++ python.round2 value).getD ""
  strip (name ++ valStr ++ " on " ++ inst.device ++ " " ++ inst.component ++ " [" ++
    toString inst.fireCount ++ "x]")

/-! ### Messages with a template -/

variable (defn : MessageDefinition)

/-- The texts a template of an alert can name. -/
def alertContext (inst : MessageEntity) :
    Except FormatError (Dict String String) := do
  let context := Dict.setAll [] inst.entityLabels
  let context := context.set "value" (← fmtNumber inst.currentValue)
  let context := context.set "fire_count" (toString inst.fireCount)
  let context := context.set "alert_name" defn.name
  let context := context.set "entity_key" inst.entityKey
  let context := context.setAll (← fmtValues inst.metricValues)
  let thresholds ← fmtValues inst.thresholdValues
  return context.setAll (thresholds.flatMap fun kv => [kv, ("$" ++ kv.1, kv.2)])

/-- `_render_template`. -/
def renderTemplate (template : String) (defn : MessageDefinition) (inst : MessageEntity) :
    Except FormatError (Option String) := do
  let context ← alertContext defn inst
  match formatMap python.toObjects context template with
  | .ok rendered => return some rendered
  | .error e => if Caught e then return none else .error e

/-- The template of an alert: that of the tier its severity names, or of the healthy one when the
alert is cleared. -/
def alertTemplate (inst : MessageEntity) (action : LogAction) :
    Option String :=
  nonempty do
    let severity ← if action = .clear then some "healthy" else nonempty inst.severity
    let tier ← defn.severityTiers.find? (·.severity = severity)
    tier.messageTemplate

/-- `_build_message`. -/
def buildMessage (inst : MessageEntity) (action : LogAction) :
    Except FormatError String := do
  let rendered ← match alertTemplate defn inst action with
    | none => pure none
    | some template => renderTemplate python template defn inst
  return (nonempty rendered).getD (if action = .clear then
    strip (defn.name ++ " on " ++ inst.device ++ " recovered") else fallback python defn.name inst)

/-! ### When there is a message -/

/-- **A template can be tried**: the numbers are finite, and no field that is reached raises an
error that is not caught. -/
structure MessageSafe (inst : MessageEntity) (context : Except FormatError (Dict String String))
    (template : String) : Prop where
  printable : inst.Printable
  harmless : ∀ texts, context = .ok texts → Harmless python.toObjects texts Caught template

theorem succeeds_numbers_iff (inst : MessageEntity) (texts : String → List (String × String) →
    List (String × String) → Dict String String) : Succeeds (do
      let value ← fmtNumber inst.currentValue
      let metrics ← fmtValues inst.metricValues
      let thresholds ← fmtValues inst.thresholdValues
      return texts value metrics thresholds) ↔ inst.Printable := by
  constructor
  · intro h
    obtain ⟨value, hvalue, h⟩ := succeeds_bind_iff.1 h
    obtain ⟨metrics, hmetrics, h⟩ := succeeds_bind_iff.1 h
    exact ⟨(succeeds_fmtNumber_iff _).1 ⟨value, hvalue⟩,
      (succeeds_fmtValues_iff _).1 ⟨metrics, hmetrics⟩,
      (succeeds_fmtValues_iff _).1 (succeeds_bind_pure_iff.1 h)⟩
  · rintro ⟨hvalue, hmetrics, hthresholds⟩
    obtain ⟨value, hvalue⟩ := (succeeds_fmtNumber_iff _).2 hvalue
    obtain ⟨metrics, hmetrics⟩ := (succeeds_fmtValues_iff _).2 hmetrics
    refine succeeds_bind_iff.2 ⟨value, hvalue, succeeds_bind_iff.2 ⟨metrics, hmetrics, ?_⟩⟩
    exact succeeds_bind_pure_iff.2 ((succeeds_fmtValues_iff _).2 hthresholds)

theorem succeeds_alertContext_iff (inst : MessageEntity) :
    Succeeds (alertContext defn inst) ↔ inst.Printable :=
  succeeds_numbers_iff inst _

theorem raisesOnly_caught_iff {texts : Dict String String} {template : String} :
    RaisesOnly (formatMap python.toObjects texts template) Caught ↔
      Harmless python.toObjects texts Caught template :=
  raisesOnly_formatMap_iff (.inl rfl) template

theorem succeeds_try_iff {α : Type} {inst : MessageEntity}
    {context : Except FormatError (Dict String String)}
    (hcontext : Succeeds context ↔ inst.Printable) (template : String) (found : String → α)
    (next : Except FormatError α) : Succeeds (do
      match formatMap python.toObjects (← context) template with
      | .ok rendered => return found rendered
      | .error e => if Caught e then next else .error e) ↔
      MessageSafe python inst context template ∧
        ((¬∃ texts, context = .ok texts ∧ Succeeds (formatMap python.toObjects texts template)) →
          Succeeds next) := by
  rw [succeeds_bind_iff]
  constructor
  · rintro ⟨texts, htexts, h⟩
    cases hresult : formatMap python.toObjects texts template with
    | ok rendered =>
      refine ⟨⟨hcontext.1 ⟨texts, htexts⟩, fun texts' htexts' => ?_⟩,
        fun hnot => absurd ⟨texts, htexts, rendered, hresult⟩ hnot⟩
      cases htexts.symm.trans htexts'
      exact (raisesOnly_caught_iff python).1 (hresult ▸ raisesOnly_ok rendered Caught)
    | error e =>
      rw [hresult] at h
      by_cases hcaught : Caught e
      · simp only [if_pos hcaught] at h
        refine ⟨⟨hcontext.1 ⟨texts, htexts⟩, fun texts' htexts' => ?_⟩, fun _ => h⟩
        cases htexts.symm.trans htexts'
        exact (raisesOnly_caught_iff python).1 (hresult ▸ raisesOnly_error hcaught)
      · simp only [if_neg hcaught] at h
        exact absurd h (not_succeeds_error e)
  · rintro ⟨⟨hprintable, hharmless⟩, hnext⟩
    obtain ⟨texts, htexts⟩ := hcontext.2 hprintable
    refine ⟨texts, htexts, ?_⟩
    cases hresult : formatMap python.toObjects texts template with
    | ok rendered => exact succeeds_pure _
    | error e =>
      have hcaught := (raisesOnly_caught_iff python).2 (hharmless texts htexts) e hresult
      simp only [if_pos hcaught]
      refine hnext ?_
      rintro ⟨texts', htexts', hrendered⟩
      cases htexts.symm.trans htexts'
      rw [hresult] at hrendered
      exact not_succeeds_error e hrendered

/-- **A template of an alert** does not raise exactly if it can be tried. -/
theorem succeeds_renderTemplate_iff (template : String) (defn : MessageDefinition)
    (inst : MessageEntity) : Succeeds (renderTemplate python template defn inst) ↔
      MessageSafe python inst (alertContext defn inst) template :=
  (succeeds_try_iff python (succeeds_alertContext_iff defn inst) template some
    (pure none)).trans (and_iff_left fun _ => succeeds_pure _)

/-- **There is a message of an alert** exactly if its template, if it has one, can be tried. -/
theorem succeeds_buildMessage_iff (inst : MessageEntity)
    (action : LogAction) : Succeeds (buildMessage python defn inst action) ↔
      ∀ template, alertTemplate defn inst action = some template →
        MessageSafe python inst (alertContext defn inst) template := by
  rw [buildMessage]
  cases alertTemplate defn inst action with
  | none =>
    refine iff_of_true (succeeds_bind_pure_iff.2 (succeeds_pure _)) fun template h => ?_
    cases h
  | some template =>
    refine succeeds_bind_pure_iff.trans ((succeeds_renderTemplate_iff python template defn
      inst).trans ⟨fun h template' heq => ?_, fun h => h template rfl⟩)
    cases heq
    exact h

end

end MonCTL.Alerting
