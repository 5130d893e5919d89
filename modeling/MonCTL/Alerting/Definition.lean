import MonCTL.Dsl.Validate

/-!
# Alert Definitions

An alert definition is an ordered list of severity tiers, each with an expression of its
own. A tier called `healthy` may carry an expression as well; it clears an alert instead of
raising it. Message templates, which no modelled function reads, are left out.
-/

namespace MonCTL.Alerting

open Dsl

structure SeverityTier where
  severity : String
  expression : Option String
  deriving DecidableEq

structure AlertDefinition where
  tiers : List SeverityTier
  window : String
  deriving DecidableEq

/-- `tier.get("expression")`, when it is there and not empty. -/
def SeverityTier.text (tier : SeverityTier) : Option String :=
  tier.expression.filter fun e => e ≠ ""

/-! ### What the router accepts -/

/-- The severities a tier can have. -/
def allowedSeverities : List String := ["info", "warning", "critical", "emergency", "healthy"]

/-- `_validate_tier_list` and the field checks of a tier: known severities, each used once,
and an expression for every tier that is not the healthy one. -/
def validTierList (tiers : List SeverityTier) : Bool :=
  tiers ≠ [] ∧ (∀ tier ∈ tiers, tier.severity ∈ allowedSeverities) ∧
    (∀ tier ∈ tiers, ∀ e ∈ tier.expression, e.toList.length ≤ maxExpressionLength) ∧
    (tiers.map SeverityTier.severity).Nodup ∧
    ∀ tier ∈ tiers, tier.severity ≠ "healthy" → tier.text ≠ none

/-- The router validates the expression of every tier that has one. -/
def acceptsTiers (table : String) (tiers : List SeverityTier) : Bool :=
  validTierList tiers ∧ ∀ tier ∈ tiers, ∀ e ∈ tier.text,
    (validateExpression e table none none none).valid = true

/-! ### Compilation -/

/-- `parse_expression` and `compile_to_sql` of a tier's expression. -/
def compileExpression (table window e : String) : Option CompiledQuery :=
  match parse e with
  | .ok ast => (compileToSql ast table window).toOption
  | .error _ => none

/-- The compiled tiers: those that raise the alert, with their severities, and the healthy
one. -/
structure CompiledDefinition where
  tiers : List (String × CompiledQuery)
  healthy : Option CompiledQuery
  deriving DecidableEq

/-- One round of the loop over the tiers. -/
def compileTier (table window : String) (compiled : CompiledDefinition) (tier : SeverityTier) :
    Option CompiledDefinition :=
  match tier.text with
  | none => some compiled
  | some e => (compileExpression table window e).map fun q =>
    if tier.severity = "healthy" then { compiled with healthy := some q }
    else { compiled with tiers := compiled.tiers ++ [(tier.severity, q)] }

/-- The loop over the tiers: if any tier fails to compile, the whole definition is
skipped. -/
def compileDefinition (table : String) (defn : AlertDefinition) : Option CompiledDefinition :=
  defn.tiers.foldlM (compileTier table defn.window) ⟨[], none⟩

/-- The flag of the first tier that raises the alert. -/
def CompiledDefinition.isConfigChanged (compiled : CompiledDefinition) : Bool :=
  match compiled.tiers with
  | [] => false
  | (_, q) :: _ => q.isConfigChanged

/-- Whether the engine evaluates a definition by looking for changed configuration keys. -/
def AlertDefinition.isConfigChanged (table : String) (defn : AlertDefinition) : Bool :=
  match compileDefinition table defn with
  | some compiled => compiled.isConfigChanged
  | none => false

end MonCTL.Alerting
