import MonCTL.Packs.SkippedApps

/-!
# Reconciled Packs

A reconciliation is meant to rewrite only what came with the pack, and to leave what an operator
has set on it. Two branches of the import do not ask whose a row is: a device type that is found
by its pattern instead of its name is overwritten, and a template binding that exists is taken
over.
-/

namespace MonCTL.Packs

open List Alerting Option StateExcept

/-- What an operator has set on an entity of the pack: alert definitions of another origin, the
flags that enable the others, the values of threshold variables, and the versions. -/
structure OwnedKept (packUid : String) (e e' : Entity) : Prop where
  packId : e'.packId = some packUid
  otherOrigin : ∀ name row, e.alertDefinitions.get? name = some row →
    row.packOrigin ≠ some packUid → e'.alertDefinitions.get? name = some row
  enabled : ∀ name row, e.alertDefinitions.get? name = some row →
    ∃ row', e'.alertDefinitions.get? name = some row' ∧ row'.enabled = row.enabled
  appValue : ∀ name var, e.thresholdVariables.get? name = some var →
    ∃ var', e'.thresholdVariables.get? name = some var' ∧ var'.appValue = var.appValue
  source : ∀ version v, e.versions.get? version = some v →
    ∃ v', e'.versions.get? version = some v' ∧ v'.columns = v.columns

/-- What is set on the entities of the pack is left. -/
def AllOwnedKept (packUid : String) (entities entities' : Table ℕ Entity) : Prop :=
  ∀ id e, entities.get? id = some e → e.packId = some packUid →
    ∃ e', entities'.get? id = some e' ∧ OwnedKept packUid e e'

variable {packUid : String} {e : Entity}

theorem OwnedKept.refl (h : e.packId = some packUid) : OwnedKept packUid e e :=
  ⟨h, fun _ _ hrow _ => hrow, fun _ row hrow => ⟨row, hrow, rfl⟩,
    fun _ var hvar => ⟨var, hvar, rfl⟩, fun _ v hv => ⟨v, hv, rfl⟩⟩

theorem OwnedKept.trans {e₁ e₂ e₃ : Entity} (h : OwnedKept packUid e₁ e₂)
    (h' : OwnedKept packUid e₂ e₃) : OwnedKept packUid e₁ e₃ := by
  refine ⟨h'.packId, fun name row hrow horigin => ?_, fun name row hrow => ?_,
    fun name var hvar => ?_, fun version v hv => ?_⟩
  · exact h'.otherOrigin name row (h.otherOrigin name row hrow horigin) horigin
  · obtain ⟨row₂, hrow₂, henabled₂⟩ := h.enabled name row hrow
    obtain ⟨row₃, hrow₃, henabled₃⟩ := h'.enabled name row₂ hrow₂
    exact ⟨row₃, hrow₃, henabled₃.trans henabled₂⟩
  · obtain ⟨var₂, hvar₂, hvalue₂⟩ := h.appValue name var hvar
    obtain ⟨var₃, hvar₃, hvalue₃⟩ := h'.appValue name var₂ hvar₂
    exact ⟨var₃, hvar₃, hvalue₃.trans hvalue₂⟩
  · obtain ⟨v₂, hv₂, hcolumns₂⟩ := h.source version v hv
    obtain ⟨v₃, hv₃, hcolumns₃⟩ := h'.source version v₂ hv₂
    exact ⟨v₃, hv₃, hcolumns₃.trans hcolumns₂⟩

theorem OwnedKept.updateEntity (packUid : String) (e : Entity) (item : Item)
    (category : Option ℕ) : OwnedKept packUid e (Packs.updateEntity e item packUid category) :=
  ⟨rfl, fun _ _ hrow _ => hrow, fun _ row hrow => ⟨row, hrow, rfl⟩,
    fun _ var hvar => ⟨var, hvar, rfl⟩, fun _ v hv => ⟨v, hv, rfl⟩⟩

theorem columns_syncVersionsTracked {cols : List Column} {items : List VersionItem}
    {versions versions' : Versions} (h : syncVersionsTracked cols items versions = .ok versions')
    {version : String} {v : Version} (hv : versions.get? version = some v) :
    ∃ v', versions'.get? version = some v' ∧ v'.columns = v.columns := by
  obtain ⟨versions₁, hadd, hrest⟩ := bind_eq_ok.1 h
  cases hrest
  rw [Table.get?_mapRows, get?_addMissing hadd hv]
  exact ⟨_, rfl, rfl⟩

theorem get?_alertDefinitions_reconcileApp (packUid : String) (items : List AlertItem)
    (app : Entity) (name : String) (row : AlertRow)
    (hrow : app.alertDefinitions.get? name = some row) :
    ∃ row', (reconcileAppAlertDefinitions packUid items app).alertDefinitions.get? name =
        some row' ∧ row'.enabled = row.enabled ∧
      (row.packOrigin ≠ some packUid → row' = row) := by
  rw [reconcileAppAlertDefinitions]
  split
  · exact ⟨row, hrow, rfl, fun _ => rfl⟩
  · have hfold := get?_foldl_reconcileAlert packUid items app.alertDefinitions name
    obtain ⟨row', hrow', henabled, horigin, hsame⟩ := foldl_reconcileRow packUid
      (items.filter fun item => item.name = name) row
    rw [hrow, hrow'] at hfold
    rw [withAlertDefinitions, get?_syncInstances, hfold, map_some]
    refine ⟨_, rfl, ?_, fun hne => ?_⟩
    · split
      · exact henabled
      · exact henabled
    · rw [if_neg, hsame hne]
      rw [horigin]
      simpa using hne

variable {db : Database} {item : Item}

theorem OwnedKept.reconcileApp {app app' : Entity} (howned : app.packId = some packUid)
    (h : Packs.reconcileApp db packUid item app = .ok app') : OwnedKept packUid app app' := by
  have hversions := reconcileApp_versions h
  obtain ⟨versions, -, hrest⟩ := bind_eq_ok.1 h
  obtain ⟨bindings, -, hrest⟩ := bind_eq_ok.1 hrest
  generalize happ : ({ app with
    versions
    connectorBindings := bindings
    thresholdVariables := importThresholdVariables item.thresholdVariables
      app.thresholdVariables } : Entity) = app₁ at hrest
  have hdefs : app₁.alertDefinitions = app.alertDefinitions := happ ▸ rfl
  cases hrest
  refine ⟨?_, fun name row hrow horigin => ?_, fun name row hrow => ?_, fun name var hvar => ?_,
    fun version v hv => columns_syncVersionsTracked hversions hv⟩
  · subst happ
    rw [reconcileAppAlertDefinitions]
    split
    · exact howned
    · exact howned
  · obtain ⟨row', hrow', -, hsame⟩ := get?_alertDefinitions_reconcileApp packUid
      item.alertDefinitions app₁ name row (hdefs ▸ hrow)
    rw [hrow', hsame horigin]
  · obtain ⟨row', hrow', henabled, -⟩ := get?_alertDefinitions_reconcileApp packUid
      item.alertDefinitions app₁ name row (hdefs ▸ hrow)
    exact ⟨row', hrow', henabled⟩
  · have hlisted : app₁.thresholdVariables.get? name =
        settle (listedDefault item.thresholdVariables name) (some var) := by
      rw [← hvar, ← get?_importThresholdVariables, ← happ]
    rw [reconcileAppAlertDefinitions]
    split
    · rw [hlisted]
      exact appValue_settle
    · rw [withAlertDefinitions, get?_syncThresholds, hlisted, settle_settle]
      exact appValue_settle

variable {e' : Entity}

theorem OwnedKept.reconcileChildren (howned : e.packId = some packUid)
    (h : Packs.reconcileChildren db packUid item e = .ok e') : OwnedKept packUid e e' := by
  rw [Packs.reconcileChildren] at h
  split at h
  · exact .reconcileApp howned h
  · obtain ⟨versions, hversions, hrest⟩ := bind_eq_ok.1 h
    cases hrest
    exact ⟨howned, fun _ _ hrow _ => hrow, fun _ row hrow => ⟨row, hrow, rfl⟩,
      fun _ var hvar => ⟨var, hvar, rfl⟩,
      fun _ v hv => columns_syncVersionsTracked hversions hv⟩
  · cases h
    exact .refl howned

/-! ### One item -/

variable {kind : PackSection}

variable {db' : Database}

theorem AllOwnedKept.trans {t₁ t₂ t₃ : Table ℕ Entity}
    (h : AllOwnedKept packUid t₁ t₂) (h' : AllOwnedKept packUid t₂ t₃) :
    AllOwnedKept packUid t₁ t₃ := by
  intro id e hget howned
  obtain ⟨e₂, hget₂, hkept₂⟩ := h id e hget howned
  obtain ⟨e₃, hget₃, hkept₃⟩ := h' id e₂ hget₂ hkept₂.packId
  exact ⟨e₃, hget₃, hkept₂.trans hkept₃⟩

variable {items : List BindingItem} {bindings bindings' : Table (ℕ × ℕ) TemplateBinding}

end MonCTL.Packs
