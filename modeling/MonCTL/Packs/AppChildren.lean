import MonCTL.Packs.Importer

/-!
# What Belongs to an App

What the routines that synchronise connector bindings, threshold variables, alert definitions and
versions leave behind, read by name. Each of them writes one name for each entry of the document,
so what is read under a name depends on the entries with that name alone.
-/

namespace MonCTL.Packs

open List Alerting

/-! ### Threshold variables -/

/-- A variable after a default has been written, or not. -/
def settle (value : Option ℚ) (old : Option ThresholdVariable) : Option ThresholdVariable :=
  match value with
  | some value => some (withDefault value old)
  | none => old

theorem settle_settle (value value' : Option ℚ) (old : Option ThresholdVariable) :
    settle value (settle value' old) = settle (value.or value') old := by
  cases value with
  | none => rfl
  | some value => cases value' <;> rfl

theorem appValue_settle {value : Option ℚ} {var : ThresholdVariable} :
    ∃ var', settle value (some var) = some var' ∧ var'.appValue = var.appValue := by
  cases value with
  | none => exact ⟨var, rfl, rfl⟩
  | some value => exact ⟨_, rfl, rfl⟩

/-- The default that a document lists last for a name. -/
def listedDefault (items : List ThresholdItem) (name : String) : Option ℚ :=
  (items.reverse.find? fun item => item.name = name).map ThresholdItem.defaultValue

theorem get?_importThresholdVariables (items : List ThresholdItem) (vars : Variables)
    (name : String) :
    (importThresholdVariables items vars).get? name =
      settle (listedDefault items name) (vars.get? name) := by
  rw [importThresholdVariables, listedDefault]
  induction items generalizing vars with
  | nil => rfl
  | cons item items ih =>
    rw [foldl_cons, ih, Dict.get?_set, reverse_cons, find?_append]
    cases items.reverse.find? fun item => item.name = name with
    | some item' =>
      by_cases hname : name = item.name
      · rw [if_pos hname, hname]
        rfl
      · rw [if_neg hname]
        rfl
    | none =>
      by_cases hname : name = item.name
      · rw [if_pos hname, hname]
        simp [settle]
      · have hne : item.name ≠ name := fun heq => hname heq.symm
        rw [if_neg hname]
        simp [settle, hne]

/-- The default that the definitions of a document write last for a name: the first inline
threshold of the last definition that has one. -/
def inlineDefault (meant : AlertRow → Bool) (table : String) (defs : Dict String AlertRow)
    (items : List AlertItem) (name : String) : Option ℚ :=
  items.reverse.findSome? fun item =>
    ((defs.get? item.name).filter meant).bind fun row =>
      firstInline name (definitionRefs table row.definition)

theorem get?_syncThresholds (meant : AlertRow → Bool) (table : String)
    (defs : Dict String AlertRow) (items : List AlertItem) (vars : Variables) (name : String) :
    (syncThresholds meant table defs items vars).get? name =
      settle (inlineDefault meant table defs items name) (vars.get? name) := by
  rw [syncThresholds, inlineDefault]
  induction items generalizing vars with
  | nil => rfl
  | cons item items ih =>
    rw [foldl_cons, ih, reverse_cons, findSome?_append, ← settle_settle]
    congr 1
    rw [findSome?_cons, findSome?_nil]
    cases hrow : defs.get? item.name with
    | none => rfl
    | some row =>
      dsimp only
      cases hmeant : meant row with
      | false => simp [Option.filter, hmeant, settle]
      | true =>
        have hsync := lookup_syncThresholdVariables table row.definition vars name
        rw [Dict.lookup_eq_get?, Dict.lookup_eq_get?] at hsync
        rw [if_pos rfl, hsync]
        cases hinline : firstInline name (definitionRefs table row.definition) <;>
          simp [Option.filter, hmeant, hinline, settle]

/-! ### Alert definitions -/

/-- The entities of a definition after the missing ones have been added. -/
def AlertRow.synced (assignments : List AppAssignment) (row : AlertRow) : AlertRow :=
  { row with entities := syncInstancesForDefinition row.enabled assignments row.entities }

theorem get?_syncInstances (meant : AlertRow → Bool) (assignments : List AppAssignment)
    (defs : Dict String AlertRow) (name : String) :
    (syncInstances meant assignments defs).get? name =
      (defs.get? name).map fun row => if meant row then row.synced assignments else row :=
  Dict.get?_map_values (fun row => if meant row then row.synced assignments else row) defs name

/-- The document says of a definition what is stored. -/
def SameContent (item : AlertItem) (row : AlertRow) : Prop :=
  row.tiers = item.tiers ∧ row.window = item.window ∧ row.description = item.description ∧
    row.enabled = item.enabled
  deriving Decidable

/-- A definition rewritten with what the document says. -/
def AlertItem.rewrite (item : AlertItem) (packUid : String) (row : AlertRow) : AlertRow :=
  { item.row packUid with entities := row.entities }

/-- The definition of a name after an entry of that name, when an app is not reconciled. -/
def syncRow (packUid : String) (row : Option AlertRow) (item : AlertItem) : Option AlertRow :=
  match row with
  | some row => some (if SameContent item row then row else item.rewrite packUid row)
  | none => some (item.row packUid)

theorem get?_foldl_syncAlert (packUid : String) (items : List AlertItem)
    (defs : Dict String AlertRow) (name : String) :
    (items.foldl (syncAlert packUid) defs).get? name =
      (items.filter fun item => item.name = name).foldl (syncRow packUid) (defs.get? name) := by
  refine Dict.get?_foldl_write _ AlertItem.name _ (fun defs item name => ?_) items defs name
  rw [syncAlert]
  cases hrow : defs.get? item.name with
  | none =>
    dsimp only
    rw [Dict.get?_set]
    split
    next heq => rw [heq, hrow]; rfl
    · rfl
  | some row =>
    dsimp only
    by_cases hsame : SameContent item row
    · obtain ⟨h₁, h₂, h₃, h₄⟩ := id hsame
      rw [if_neg (by simp [h₁, h₂, h₃, h₄])]
      split
      next heq => rw [heq, hrow, syncRow, if_pos hsame]
      · rfl
    · have hdiffers : row.tiers ≠ item.tiers ∨ row.window ≠ item.window ∨
          row.description ≠ item.description ∨ row.enabled ≠ item.enabled := by
        by_contra hnot
        push Not at hnot
        exact hsame hnot
      rw [if_pos hdiffers, Dict.get?_set]
      split
      next heq =>
        rw [heq, hrow, syncRow, if_neg hsame]
        rfl
      · rfl

variable {packUid : String} {items : List AlertItem} {row : AlertRow}

/-- The definition of a name after an entry of that name, when an app is reconciled. -/
def reconcileRow (packUid : String) (row : Option AlertRow) (item : AlertItem) : Option AlertRow :=
  match row with
  | some row =>
    some (if row.packOrigin = some packUid then
      { row with tiers := item.tiers, window := item.window, description := item.description }
    else row)
  | none => some (item.row packUid)

/-- The definitions after the entries of a document have been reconciled. -/
theorem get?_foldl_reconcileAlert (packUid : String) (items : List AlertItem)
    (defs : Dict String AlertRow) (name : String) :
    (items.foldl (reconcileAlert packUid) defs).get? name =
      (items.filter fun item => item.name = name).foldl (reconcileRow packUid)
        (defs.get? name) := by
  refine Dict.get?_foldl_write _ AlertItem.name _ (fun defs item name => ?_) items defs name
  rw [reconcileAlert]
  cases hrow : defs.get? item.name with
  | none =>
    dsimp only
    rw [Dict.get?_set]
    split
    next heq => rw [heq, hrow]; rfl
    · rfl
  | some row =>
    dsimp only
    by_cases horigin : row.packOrigin = some packUid
    · rw [if_neg (not_not_intro horigin)]
      split
      · rw [Dict.get?_set]
        split
        next heq => rw [heq, hrow, reconcileRow, if_pos horigin]
        · rfl
      next hsame =>
        push Not at hsame
        obtain ⟨h₁, h₂, h₃⟩ := hsame
        split
        next heq => rw [heq, hrow, reconcileRow, if_pos horigin, ← h₁, ← h₂, ← h₃]
        · rfl
    · rw [if_pos horigin]
      split
      next heq => rw [heq, hrow, reconcileRow, if_neg horigin]
      · rfl

/-- **What an operator has set stays**: a definition of another origin, and the flag that enables
one of the pack. -/
theorem foldl_reconcileRow (packUid : String) (items : List AlertItem) (row : AlertRow) :
    ∃ row', items.foldl (reconcileRow packUid) (some row) = some row' ∧
      row'.enabled = row.enabled ∧ row'.packOrigin = row.packOrigin ∧
      (row.packOrigin ≠ some packUid → row' = row) := by
  induction items generalizing row with
  | nil => exact ⟨row, rfl, rfl, rfl, fun _ => rfl⟩
  | cons item items ih =>
    rw [foldl_cons, reconcileRow]
    by_cases horigin : row.packOrigin = some packUid
    · rw [if_pos horigin]
      obtain ⟨row', hfold, henabled, horigin', -⟩ := ih
        { row with tiers := item.tiers, window := item.window, description := item.description }
      exact ⟨row', hfold, henabled, horigin', fun hne => absurd horigin hne⟩
    · rw [if_neg horigin]
      exact ih row

/-! ### Connector bindings -/

theorem get?_addMissing {cols : List Column} {existing : List String} {items : List VersionItem}
    {versions versions' : Versions}
    (h : addMissing cols existing false items versions = .ok versions') {k : String} {v : Version}
    (hk : versions.get? k = some v) : versions'.get? k = some v := by
  induction items generalizing versions with
  | nil =>
    cases h
    exact hk
  | cons item items ih =>
    rw [addMissing] at h
    split at h
    · exact ih h hk
    · obtain ⟨versions₁, hadd, hrest⟩ := StateExcept.bind_eq_ok.1 h
      obtain ⟨columns, -, hupsert⟩ := StateExcept.bind_eq_ok.1 hadd
      split at hupsert
      · cases hupsert
      next hnone =>
        cases hupsert
        refine ih hrest ?_
        rw [Table.get?_upsert, if_neg, hk]
        rintro rfl
        rw [hnone] at hk
        cases hk

end MonCTL.Packs
