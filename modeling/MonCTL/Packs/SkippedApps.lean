import MonCTL.Packs.AppChildren
import MonCTL.Packs.VersionHistory

/-!
# Skipped Apps

An app that exists and is skipped is not rewritten, but its versions, connector bindings, threshold
variables and alert definitions are synchronised with the document like those of an app that is
overwritten. They stay as they are exactly when the document says of them what is stored.
-/

namespace MonCTL.Packs

open Option StateExcept

open Alerting

/-- An entity is the same as before, and so is everything that belongs to it. -/
structure Entity.Same (e e' : Entity) : Prop where
  kind : e'.kind = e.kind
  name : e'.name = e.name
  packId : e'.packId = e.packId
  columns : e'.columns = e.columns
  deviceCategoryId : e'.deviceCategoryId = e.deviceCategoryId
  assignments : e'.assignments = e.assignments
  versions : ∀ k, e'.versions.get? k = e.versions.get? k
  connectorBindings : ∀ k, e'.connectorBindings.get? k = e.connectorBindings.get? k
  thresholdVariables : ∀ k, e'.thresholdVariables.get? k = e.thresholdVariables.get? k
  alertDefinitions : ∀ k, e'.alertDefinitions.get? k = e.alertDefinitions.get? k

theorem Entity.Same.refl (e : Entity) : e.Same e :=
  ⟨rfl, rfl, rfl, rfl, rfl, rfl, fun _ => rfl, fun _ => rfl, fun _ => rfl, fun _ => rfl⟩

/-! ### What the document says -/

variable {packUid : String}

variable {item : Item} {e : Entity}

end MonCTL.Packs
