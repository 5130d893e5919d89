import MonCTL.Packs.AppChildren
import MonCTL.Packs.Schema
import MonCTL.Packs.VersionHistory

/-!
# The Tiers That Are Stored

The engine compiles the tiers of an alert definition for the target table of its app, and skips the
definition if one of them does not compile. Definitions are created and updated through the API,
which validates the expressions, and by imports, which do not; the target table is set when an app
is created, updated or imported.

A request is one whose fields have passed their checks. The other changes of apps and definitions
are left out.
-/

namespace MonCTL.Packs

open List Alerting Dsl

def Entity.targetTable (e : Entity) : String := textOf e.columns "target_table"

/-- Every tier that has an expression compiles. -/
def Compiles (table : String) (tiers : List PackTier) (window : String) : Prop :=
  ∀ t ∈ tiers, ∀ text ∈ t.tier.text, (compileExpression table window text).isSome = true
  deriving Decidable

/-- The definitions of an app compile. -/
def Entity.Evaluable (e : Entity) : Prop :=
  ∀ name row, e.alertDefinitions.get? name = some row → Compiles e.targetTable row.tiers row.window

/-- **Every stored tier compiles** for the target table of its app. -/
def Evaluable (db : Database) : Prop :=
  ∀ id e, db.entities.get? id = some e → e.kind = .apps → e.Evaluable

/-! ### What an import checks -/

/-- `_validate_severity_tiers`. Whether an expression can be parsed is not looked at. -/
def AlertItem.PassesSchema (a : AlertItem) : Prop :=
  a.name ≠ "" ∧ a.tiers ≠ [] ∧ (a.tiers.map fun t => t.tier.severity).Nodup ∧
    (∀ t ∈ a.tiers, (∃ text ∈ t.messageTemplate, text ≠ "") ∧ (t.tier.severity = "healthy" ∨
      t.tier.severity ∈ validSeverities ∧ t.tier.text ≠ none)) ∧
    (a.window = "" ∨ a.window ∈ validWindows)
  deriving Decidable

/-- What `validate_pack_schema` checks of the alert definitions of a document. -/
def Document.PassesSchema (doc : Document) : Prop :=
  ∀ x ∈ doc.items, x.1 = .apps → ∀ a ∈ x.2.alertDefinitions, a.PassesSchema

instance (doc : Document) : Decidable doc.PassesSchema :=
  inferInstanceAs (Decidable (∀ x ∈ doc.items, _ → ∀ a ∈ x.2.alertDefinitions, _))

/-! ### Changes through the API -/

/-- `VALID_TARGET_TABLES`. -/
def validTargetTables : List String := ["availability_latency", "performance", "interface", "config"]

def Database.changeApp (db : Database) (id : ℕ) (change : Entity → Option Entity) :
    Option Database :=
  (db.entities.get? id).bind fun e =>
    if e.kind = .apps then (change e).map fun e' =>
      { db with entities := db.entities.upsert id e' fun _ => e' }
    else none

/-- `create_app`. -/
def Database.createApp (db : Database) (name table : String) : Option Database :=
  if table ∈ validTargetTables then db.createEntity .apps name [("target_table", .str table)]
  else none

/-- `update_app`, of the target table. -/
def setTargetTable (table : String) (e : Entity) : Option Entity :=
  if table ∈ validTargetTables then
    some { e with columns := e.columns.set "target_table" (.str table) }
  else none

/-- A definition is stored, with its entities and its threshold variables. -/
def storeDefinition (name : String) (row : AlertRow) (e : Entity) : Entity :=
  { e with
    alertDefinitions := e.alertDefinitions.set name (row.synced e.assignments)
    thresholdVariables :=
      (syncThresholdVariables e.targetTable row.definition e.thresholdVariables).1 }

/-- `create_alert_definition`. -/
def createDefinition (name : String) (row : AlertRow) (e : Entity) : Option Entity :=
  if acceptsTiers e.targetTable (row.tiers.map PackTier.tier) = true ∧
      e.alertDefinitions.get? name = none then
    some (storeDefinition name { row with packOrigin := none, entities := ⟨[], nodup_nil⟩ } e)
  else none

structure DefinitionUpdate where
  name : Option String := none
  description : Option String := none
  tiers : Option (List PackTier) := none
  window : Option String := none
  enabled : Option Bool := none

def DefinitionUpdate.apply (r : DefinitionUpdate) (row : AlertRow) : AlertRow :=
  { row with
    description := r.description.or row.description
    tiers := r.tiers.getD row.tiers
    window := r.window.getD row.window
    enabled := r.enabled.getD row.enabled }

/-- `update_alert_definition`. Only new tiers are validated. -/
def updateDefinition (name : String) (r : DefinitionUpdate) (e : Entity) : Option Entity :=
  (e.alertDefinitions.get? name).bind fun row =>
    if (∀ tiers ∈ r.tiers, acceptsTiers e.targetTable (tiers.map PackTier.tier) = true) ∧
        ∀ new ∈ r.name, new = name ∨ e.alertDefinitions.get? new = none then
      some
        { e with
          alertDefinitions :=
            Dict.set (e.alertDefinitions.filter fun entry => entry.1 ≠ name) (r.name.getD name)
              (r.apply row)
          thresholdVariables := if r.tiers.isSome then
              (syncThresholdVariables e.targetTable ((r.apply row).definition) e.thresholdVariables).1
            else e.thresholdVariables }
    else none

/-! ### Steps -/

/-- What may happen to definitions and target tables. -/
inductive TierAction
  | createApp (name table : String)
  | updateApp (id : ℕ) (table : String)
  | createDefinition (id : ℕ) (name : String) (row : AlertRow)
  | updateDefinition (id : ℕ) (name : String) (r : DefinitionUpdate)
  | importPack (doc : Document) (resolutions : Dict String String)

/-- The database after an action, unless it is refused. -/
def tierStep (db : Database) : TierAction → Option Database
  | .createApp name table => db.createApp name table
  | .updateApp id table => db.changeApp id (setTargetTable table)
  | .createDefinition id name row => db.changeApp id (Packs.createDefinition name row)
  | .updateDefinition id name r => db.changeApp id (Packs.updateDefinition name r)
  | .importPack doc resolutions =>
    if doc.PassesSchema then (importPack doc resolutions db).toOption else none

/-! ### The condition -/

/-- The definition that a document lists last under a name. -/
def listed (items : List AlertItem) (name : String) : Option AlertItem :=
  (items.filter fun item => item.name = name).getLast?

/-- The definitions that are stored when some are rewritten, and the others, compile. -/
def Stores (table : String) (rewrites : AlertRow → Bool) (items : List AlertItem)
    (defs : Dict String AlertRow) : Prop :=
  (∀ item ∈ items, ∀ last ∈ listed items item.name,
    (∀ row ∈ defs.get? item.name, rewrites row = true) → Compiles table last.tiers last.window) ∧
  ∀ entry ∈ defs, (listed items entry.1 = none ∨ rewrites entry.2 = false) →
    Compiles table entry.2.tiers entry.2.window
  deriving Decidable

/-- A new app, before its definitions are stored. -/
def newApp (packUid : String) (item : Item) : Option Entity :=
  (createColumns (columnsOf .apps) item.columns).toOption.map fun columns =>
    { kind := .apps, name := item.name.getD "", columns, packId := some packUid }

/-- The app to which an item's definitions are added, and whether it is reconciled. -/
def importedApp (packUid : String) (item : Item) (existing : Option (ℕ × Entity))
    (resolution : String) : Option (Entity × Bool) :=
  match existing with
  | some (_, e) =>
    if resolution = "skip" then some (e, false)
    else if resolution = "overwrite" then some (updateEntity e item packUid none, false)
    else if resolution = "reconcile" then
      if e.packId ≠ some packUid then none
      else some (if entityItemDiffers e item then updateEntity e item packUid none else e, true)
    else (newApp packUid item).map (·, false)
  | none => (newApp packUid item).map (·, false)

/-- The definitions that an import rewrites: all of them, or those that came with the pack. -/
def rewrites (packUid : String) (reconciled : Bool) (row : AlertRow) : Bool :=
  !reconciled || row.packOrigin = some packUid

/-- The definitions of an app compile after the import of an item. -/
def ItemKeepsTiers (packUid : String) (resolutions : Dict String String) (kind : PackSection)
    (item : Item) (db : Database) : Prop :=
  kind = .apps → ∀ row ∈ (existingRow resolutions kind item db).toOption,
    ∀ app ∈ importedApp packUid item row.1 row.2,
      Stores app.1.targetTable (rewrites packUid app.2) item.alertDefinitions app.1.alertDefinitions
  deriving Decidable

/-- Each item of an import keeps to it when its turn comes. -/
def ItemsKeepTiers (packUid : String) (resolutions : Dict String String) :
    List (PackSection × Item) → Database → Prop
  | [], _ => True
  | (kind, item) :: items, db => ItemKeepsTiers packUid resolutions kind item db ∧
      ∀ db' ∈ (importItem packUid resolutions kind item db).toOption,
        ItemsKeepTiers packUid resolutions items db'

instance ItemsKeepTiers.decidable (packUid : String) (resolutions : Dict String String) :
    ∀ items db, Decidable (ItemsKeepTiers packUid resolutions items db)
  | [], _ => isTrue trivial
  | (kind, item) :: items, db =>
    have := ItemsKeepTiers.decidable packUid resolutions items
    inferInstanceAs (Decidable (_ ∧ ∀ db' ∈ (importItem packUid resolutions kind item db).toOption,
      ItemsKeepTiers packUid resolutions items db'))

/-- **The condition**: the definitions that an import stores or leaves compile for the target table
that the app then has, and so do those of an app whose target table is updated. -/
def KeepsTiers (db : Database) : TierAction → Prop
  | .importPack doc resolutions =>
    ItemsKeepTiers doc.packUid resolutions doc.items (doc.storePack db)
  | .updateApp id table => ∀ e ∈ db.entities.get? id, ∀ entry ∈ e.alertDefinitions,
      Compiles table entry.2.tiers entry.2.window
  | .createApp _ _ | .createDefinition _ _ _ | .updateDefinition _ _ _ => True

instance (db : Database) : ∀ action : TierAction, Decidable (KeepsTiers db action)
  | .importPack doc resolutions => inferInstanceAs
      (Decidable (ItemsKeepTiers doc.packUid resolutions doc.items (doc.storePack db)))
  | .updateApp id _ => inferInstanceAs
      (Decidable (∀ e ∈ db.entities.get? id, ∀ entry ∈ e.alertDefinitions, _))
  | .createApp _ _ | .createDefinition _ _ _ | .updateDefinition _ _ _ =>
    inferInstanceAs (Decidable True)

/-! ### Compilation -/

variable {table : String}

theorem Compiles.window {tiers : List PackTier} {window : String}
    (h : Compiles table tiers window) (window' : String) : Compiles table tiers window' := by
  intro t ht text htext
  have hsome := h t ht text htext
  rw [compileExpression] at hsome ⊢
  cases hparse : parse text with
  | error e =>
    rw [hparse] at hsome
    cases hsome
  | ok ast =>
    rw [hparse] at hsome
    dsimp only at hsome ⊢
    cases hcompile : compileToSql ast table window with
    | error e =>
      rw [hcompile] at hsome
      cases hsome
    | ok q =>
      obtain ⟨q', hq'⟩ := exists_compileToSql_of_ok hcompile window'
      rw [hq']
      rfl

theorem compiles_of_acceptsTiers {tiers : List PackTier} (window : String)
    (h : acceptsTiers table (tiers.map PackTier.tier) = true) : Compiles table tiers window := by
  have hvalid := (of_decide_eq_true h).2
  intro t ht text htext
  obtain ⟨ast, q, hparse, -, hcompile⟩ :=
    validateExpression_valid (hvalid t.tier (mem_map_of_mem ht) text htext)
  obtain ⟨q', hq'⟩ := exists_compileToSql_of_ok hcompile window
  rw [compileExpression, hparse]
  dsimp only
  rw [hq']
  rfl

variable {row : AlertRow}

/-- **A definition whose tiers compile is not skipped.** -/
theorem isSome_compileDefinition (h : Compiles table row.tiers row.window) :
    (compileDefinition table row.definition).isSome = true := by
  rw [compileDefinition, AlertRow.definition]
  dsimp only
  generalize (⟨[], none⟩ : CompiledDefinition) = compiled
  rw [Compiles] at h
  revert h
  generalize row.tiers = tiers
  intro h
  induction tiers generalizing compiled with
  | nil => rfl
  | cons t tiers ih =>
    rw [map_cons, foldlM_cons]
    have hrest := fun compiled => ih compiled fun t' ht' => h t' (mem_cons_of_mem _ ht')
    have htier : ∃ compiled', compileTier table row.window compiled t.tier = some compiled' := by
      rw [compileTier]
      cases htext : t.tier.text with
      | none => exact ⟨compiled, rfl⟩
      | some text =>
        obtain ⟨q, hq⟩ := Option.isSome_iff_exists.1 (h t (mem_cons_self ..) text htext)
        dsimp only
        rw [hq]
        exact ⟨_, rfl⟩
    obtain ⟨compiled', hcompiled⟩ := htier
    rw [hcompiled]
    exact hrest compiled'

/-! ### Rows after an import -/

/-- A row holds what the last entry of its name says, or it is as it was. -/
def Written (rewrites : AlertRow → Bool) (last : Option AlertItem) (old : Option AlertRow)
    (row : AlertRow) : Prop :=
  (∃ item ∈ last, row.tiers = item.tiers ∧ row.window = item.window ∧
    ∀ o ∈ old, rewrites o = true) ∨
  old = some row ∧ (last = none ∨ rewrites row = false)

variable {packUid : String} {items : List AlertItem}

theorem written_syncRow {old : Option AlertRow} (h : items.foldl (syncRow packUid) old = some row) :
    Written (rewrites packUid false) items.getLast? old row := by
  rcases eq_nil_or_concat' items with rfl | ⟨before, item, rfl⟩
  · exact .inr ⟨h, .inl rfl⟩
  · rw [foldl_append, foldl_cons, foldl_nil] at h
    refine .inl ⟨item, getLast?_concat, ?_⟩
    cases hbefore : before.foldl (syncRow packUid) old with
    | none =>
      rw [hbefore] at h
      cases h
      exact ⟨rfl, rfl, fun _ _ => rfl⟩
    | some row₀ =>
      rw [hbefore, syncRow] at h
      cases h
      split
      next hsame => exact ⟨hsame.1, hsame.2.1, fun _ _ => rfl⟩
      · exact ⟨rfl, rfl, fun _ _ => rfl⟩

theorem packOrigin_foldl_reconcileRow
    (h : items.foldl (reconcileRow packUid) none = some row) : row.packOrigin = some packUid := by
  cases items with
  | nil => cases h
  | cons item items =>
    rw [foldl_cons] at h
    obtain ⟨row', hfold, -, horigin, -⟩ :=
      foldl_reconcileRow packUid items (item.row packUid)
    rw [reconcileRow, hfold] at h
    cases h
    exact horigin

theorem written_reconcileRow {old : Option AlertRow}
    (h : items.foldl (reconcileRow packUid) old = some row) :
    Written (rewrites packUid true) items.getLast? old row := by
  rcases eq_nil_or_concat' items with rfl | ⟨before, item, rfl⟩
  · exact .inr ⟨h, .inl rfl⟩
  · rw [foldl_append, foldl_cons, foldl_nil] at h
    cases old with
    | none =>
      refine .inl ⟨item, getLast?_concat, ?_⟩
      cases hbefore : before.foldl (reconcileRow packUid) none with
      | none =>
        rw [hbefore] at h
        cases h
        refine ⟨rfl, rfl, fun o ho => ?_⟩
        cases ho
      | some row₀ =>
        rw [hbefore, reconcileRow, if_pos (packOrigin_foldl_reconcileRow hbefore)] at h
        cases h
        refine ⟨rfl, rfl, fun o ho => ?_⟩
        cases ho
    | some o =>
      obtain ⟨row₀, hbefore, -, horigin, hsame⟩ := foldl_reconcileRow packUid before o
      rw [hbefore, reconcileRow] at h
      cases h
      by_cases howned : o.packOrigin = some packUid
      · rw [if_pos (horigin.trans howned)]
        refine .inl ⟨item, getLast?_concat, rfl, rfl, fun o' ho' => ?_⟩
        obtain rfl := Option.some.inj ho'
        exact decide_eq_true howned
      · rw [if_neg (horigin.symm ▸ howned), hsame howned]
        exact .inr ⟨rfl, .inr (decide_eq_false howned)⟩

variable {name : String}

theorem Stores.compiles {rewrites : AlertRow → Bool} {defs : Dict String AlertRow}
    (h : Stores table rewrites items defs)
    (hrow : Written rewrites (listed items name) (defs.get? name) row) :
    Compiles table row.tiers row.window := by
  rcases hrow with ⟨item, hlast, htiers, hwindow, hrewrites⟩ | ⟨hold, hkept⟩
  · obtain ⟨hmem, hname⟩ := List.mem_filter.1 (mem_of_getLast? hlast)
    obtain rfl := of_decide_eq_true hname
    rw [htiers, hwindow]
    exact h.1 item hmem item hlast hrewrites
  · exact h.2 (name, row) (Dict.mem_of_get? hold) hkept

variable {app : Entity}

theorem evaluable_withAlertDefinitions {meant : AlertRow → Bool} {defs : Dict String AlertRow}
    (h : ∀ name row, defs.get? name = some row → Compiles app.targetTable row.tiers row.window) :
    (withAlertDefinitions meant items defs app).Evaluable := by
  intro name row hrow
  rw [withAlertDefinitions] at hrow
  dsimp only at hrow
  rw [get?_syncInstances] at hrow
  obtain ⟨row₀, hrow₀, rfl⟩ := Option.map_eq_some_iff.1 hrow
  have hcompiles := h name row₀ hrow₀
  split
  · exact hcompiles
  · exact hcompiles

variable {e : Entity}

theorem Stores.evaluable_nil {rewrites : AlertRow → Bool}
    (h : Stores e.targetTable rewrites [] e.alertDefinitions) : e.Evaluable :=
  fun name row hrow => h.2 (name, row) (Dict.mem_of_get? hrow) (.inl rfl)

theorem Stores.syncAppAlertDefinitions
    (h : Stores app.targetTable (rewrites packUid false) items app.alertDefinitions) :
    (syncAppAlertDefinitions packUid items app).Evaluable := by
  rw [Packs.syncAppAlertDefinitions]
  split
  next hnil =>
    rw [hnil] at h
    exact h.evaluable_nil
  · refine evaluable_withAlertDefinitions fun name row hrow => ?_
    rw [get?_foldl_syncAlert] at hrow
    exact h.compiles (written_syncRow hrow)

theorem Stores.reconcileAppAlertDefinitions
    (h : Stores app.targetTable (rewrites packUid true) items app.alertDefinitions) :
    (reconcileAppAlertDefinitions packUid items app).Evaluable := by
  rw [Packs.reconcileAppAlertDefinitions]
  split
  next hnil =>
    rw [hnil] at h
    exact h.evaluable_nil
  · refine evaluable_withAlertDefinitions fun name row hrow => ?_
    rw [get?_foldl_reconcileAlert] at hrow
    exact h.compiles (written_reconcileRow hrow)

variable {db : Database} {item : Item}

theorem Stores.syncChildren {app' : Entity}
    (h : Stores app.targetTable (rewrites packUid false) item.alertDefinitions app.alertDefinitions)
    (hsync : syncChildren db packUid item app = .ok app') : app'.Evaluable := by
  obtain ⟨bindings, -, hrest⟩ := StateExcept.bind_eq_ok.1 hsync
  cases hrest
  exact Stores.syncAppAlertDefinitions h

theorem Stores.reconcileApp {app' : Entity}
    (h : Stores app.targetTable (rewrites packUid true) item.alertDefinitions app.alertDefinitions)
    (hsync : reconcileApp db packUid item app = .ok app') : app'.Evaluable := by
  obtain ⟨versions, -, hrest⟩ := StateExcept.bind_eq_ok.1 hsync
  obtain ⟨bindings, -, hrest⟩ := StateExcept.bind_eq_ok.1 hrest
  cases hrest
  exact Stores.reconcileAppAlertDefinitions h

/-! ### What a step preserves -/

variable {db' : Database} {id : ℕ}

theorem Evaluable.putEntity (h : Packs.Evaluable db)
    (hput : db.putEntity id e = .ok db') (he : e.kind = .apps → e.Evaluable) :
    Packs.Evaluable db' := by
  intro id' e' hget
  rw [(Database.putEntity_eq_ok hput).2] at hget
  split at hget
  · cases hget
    exact he
  · exact h id' e' hget

theorem evaluable_of_kind_ne (hkind : e.kind ≠ .apps) : e.kind = .apps → e.Evaluable :=
  fun happs => absurd happs hkind

theorem Evaluable.skipItem (h : Packs.Evaluable db)
    (hkeeps : e.kind = .apps → Stores e.targetTable (rewrites packUid false) item.alertDefinitions
      e.alertDefinitions)
    (hskip : Packs.skipItem packUid item id e db = .ok db') : Packs.Evaluable db' := by
  rw [Packs.skipItem] at hskip
  split at hskip
  next hkind =>
    obtain ⟨e', hsync, hput⟩ := StateExcept.bind_eq_ok.1 hskip
    obtain ⟨versions, -, hchildren⟩ := StateExcept.bind_eq_ok.1 hsync
    refine h.putEntity hput fun _ => Stores.syncChildren ?_ hchildren
    exact hkeeps hkind
  · cases hskip
    exact h

variable {category : Option ℕ}

theorem Evaluable.overwriteItem (h : Packs.Evaluable db)
    (hkeeps : e.kind = .apps → Stores (updateEntity e item packUid category).targetTable
      (rewrites packUid false) item.alertDefinitions e.alertDefinitions)
    (hover : Packs.overwriteItem packUid item category id e db = .ok db') : Packs.Evaluable db' :=
    by
  obtain ⟨e', hsync, hput⟩ := StateExcept.bind_eq_ok.1 hover
  rw [overwriteChildren] at hsync
  split at hsync
  next hkind =>
    obtain ⟨versions, -, hchildren⟩ := StateExcept.bind_eq_ok.1 hsync
    refine h.putEntity hput fun _ => Stores.syncChildren ?_ hchildren
    exact hkeeps hkind
  next hkind =>
    obtain ⟨versions, -, hrest⟩ := StateExcept.bind_eq_ok.1 hsync
    cases hrest
    refine h.putEntity hput (evaluable_of_kind_ne ?_)
    exact fun happs => PackSection.noConfusion (hkind.symm.trans happs)
  next happs _ =>
    cases hsync
    exact h.putEntity hput (evaluable_of_kind_ne happs)

theorem Evaluable.reconcileItem (h : Packs.Evaluable db)
    (hkeeps : e.kind = .apps → e.packId = some packUid →
      Stores (if entityItemDiffers e item then updateEntity e item packUid category
        else e).targetTable (rewrites packUid true) item.alertDefinitions e.alertDefinitions)
    (hreconcile : Packs.reconcileItem packUid item category id e db = .ok db') :
    Packs.Evaluable db' := by
  rw [Packs.reconcileItem] at hreconcile
  split at hreconcile
  · cases hreconcile
    exact h
  next howned =>
    obtain ⟨e', hsync, hput⟩ := StateExcept.bind_eq_ok.1 hreconcile
    have hsame : ∀ e₁ : Entity, (e₁ = if entityItemDiffers e item then
        updateEntity e item packUid category else e) →
        e₁.kind = e.kind ∧ e₁.alertDefinitions = e.alertDefinitions := by
      rintro e₁ rfl
      split <;> exact ⟨rfl, rfl⟩
    generalize hupdated : (if entityItemDiffers e item then
      updateEntity e item packUid category else e) = e₁ at hsync hkeeps
    obtain ⟨hkind₁, hdefs⟩ := hsame e₁ hupdated.symm
    rw [reconcileChildren] at hsync
    split at hsync
    next hkind =>
      refine h.putEntity hput fun _ => ?_
      refine Stores.reconcileApp ?_ hsync
      rw [hdefs]
      exact hkeeps (hkind₁.symm.trans hkind) (not_not.1 howned)
    next hkind =>
      obtain ⟨versions, -, hrest⟩ := StateExcept.bind_eq_ok.1 hsync
      cases hrest
      refine h.putEntity hput (evaluable_of_kind_ne ?_)
      exact fun happs => PackSection.noConfusion (hkind.symm.trans happs)
    next happs _ =>
      cases hsync
      exact h.putEntity hput (evaluable_of_kind_ne happs)

theorem newApp_of_createEntity (h : createEntity .apps item packUid category = .ok e) :
    ∃ app, newApp packUid item = some app ∧ e.targetTable = app.targetTable ∧
      e.alertDefinitions = app.alertDefinitions := by
  obtain ⟨name, -, hrest⟩ := StateExcept.bind_eq_ok.1 h
  split at hrest
  · cases hrest
  · obtain ⟨columns, hcolumns, hrest⟩ := StateExcept.bind_eq_ok.1 hrest
    cases hrest
    rw [newApp, hcolumns]
    exact ⟨_, rfl, rfl, rfl⟩

variable {kind : PackSection}

theorem Evaluable.createItem (h : Packs.Evaluable db)
    (hkeeps : kind = .apps → ∀ app ∈ newApp packUid item, Stores app.targetTable
      (rewrites packUid false) item.alertDefinitions app.alertDefinitions)
    (hcreate : Packs.createItem packUid kind item category db = .ok db') : Packs.Evaluable db' := by
  obtain ⟨e, hentity, hrest⟩ := StateExcept.bind_eq_ok.1 hcreate
  obtain ⟨e', hchildren, hput⟩ := StateExcept.bind_eq_ok.1 hrest
  obtain ⟨hkind, -, -⟩ := createEntity_eq_ok hentity
  rw [createChildren] at hchildren
  split at hchildren
  next happs =>
    obtain rfl := hkind.symm.trans happs
    obtain ⟨app, happ, htable, hdefs⟩ := newApp_of_createEntity hentity
    obtain ⟨versions, -, hsync⟩ := StateExcept.bind_eq_ok.1 hchildren
    refine h.putEntity hput fun _ => ?_
    refine Stores.syncChildren ?_ hsync
    have hstores := hkeeps rfl app happ
    rw [← htable, ← hdefs] at hstores
    exact hstores
  next hconnectors =>
    obtain ⟨versions, -, hrest⟩ := StateExcept.bind_eq_ok.1 hchildren
    cases hrest
    refine h.putEntity hput (evaluable_of_kind_ne ?_)
    exact fun happs => PackSection.noConfusion (hconnectors.symm.trans happs)
  next happs _ =>
    cases hchildren
    exact h.putEntity hput (evaluable_of_kind_ne happs)

variable {resolutions : Dict String String}

theorem Evaluable.importResolved
    (h : Packs.Evaluable db) (hkeeps : ItemKeepsTiers packUid resolutions kind item db)
    (himport : Packs.importResolved packUid resolutions kind item category db = .ok db') :
    Packs.Evaluable db' := by
  obtain ⟨⟨existing, resolution⟩, hrow, hrest⟩ := StateExcept.bind_eq_ok.1 himport
  have hstores : ∀ app ∈ importedApp packUid item existing resolution, kind = .apps →
      Stores app.1.targetTable (rewrites packUid app.2) item.alertDefinitions
        app.1.alertDefinitions := by
    intro app happ happs
    refine hkeeps happs (existing, resolution) ?_ app happ
    rw [hrow]
    rfl
  simp only at hrest
  split at hrest
  next id e =>
    obtain ⟨-, hkind⟩ := get?_of_existingRow hrow
    rw [importedApp] at hstores
    split at hrest
    next hresolution =>
      rw [if_pos hresolution] at hstores
      exact h.skipItem (fun happs => hstores _ rfl (hkind.symm.trans happs)) hrest
    next hskip =>
      rw [if_neg hskip] at hstores
      split at hrest
      next hresolution =>
        rw [if_pos hresolution] at hstores
        refine h.overwriteItem (fun happs => ?_) hrest
        exact hstores _ rfl (hkind.symm.trans happs)
      next hover =>
        rw [if_neg hover] at hstores
        split at hrest
        next hresolution =>
          rw [if_pos hresolution] at hstores
          refine h.reconcileItem (fun happs howned => ?_) hrest
          rw [if_neg (not_not.2 howned)] at hstores
          have hreconciled := hstores _ rfl (hkind.symm.trans happs)
          split
          next hdiffers =>
            rw [if_pos hdiffers] at hreconciled
            exact hreconciled
          next hdiffers =>
            rw [if_neg hdiffers] at hreconciled
            exact hreconciled
        next hreconcile =>
          rw [if_neg hreconcile] at hstores
          have hnew : kind = .apps → ∀ app ∈ newApp packUid item, Stores app.targetTable
              (rewrites packUid false) item.alertDefinitions app.alertDefinitions := by
            intro happs app happ
            exact hstores (app, false) (Option.map_eq_some_iff.2 ⟨app, happ, rfl⟩) happs
          split at hrest
          · refine h.createItem (fun happs app happ => ?_) hrest
            obtain ⟨columns, hcolumns, rfl⟩ := Option.map_eq_some_iff.1 happ
            obtain ⟨app, happ, htable, hdefs⟩ : ∃ app, newApp packUid item = some app ∧
                app.columns = columns ∧ app.alertDefinitions = [] :=
              ⟨_, Option.map_eq_some_iff.2 ⟨columns, hcolumns, rfl⟩, rfl, rfl⟩
            have hstored := hnew happs app happ
            rw [hdefs, Entity.targetTable, htable] at hstored
            exact hstored
          · exact h.createItem hnew hrest
  · refine h.createItem (fun happs app happ => ?_) hrest
    exact hstores (app, false) (Option.map_eq_some_iff.2 ⟨app, happ, rfl⟩) happs

/-- **Importing an item.** -/
theorem Evaluable.importItem
    (h : Packs.Evaluable db) (hkeeps : ItemKeepsTiers packUid resolutions kind item db)
    (himport : Packs.importItem packUid resolutions kind item db = .ok db') : Packs.Evaluable db' :=
    by
  obtain ⟨category, -, hrest⟩ := StateExcept.bind_eq_ok.1 himport
  split at hrest
  · exact h.importResolved hkeeps hrest
  · cases hrest
    exact h

theorem Evaluable.importItems {items : List (PackSection × Item)} (h : Packs.Evaluable db)
    (hkeeps : ItemsKeepTiers packUid resolutions items db)
    (himport : Packs.importItems packUid resolutions items db = .ok db') : Packs.Evaluable db' := by
  induction items generalizing db with
  | nil =>
    cases himport
    exact h
  | cons x items ih =>
    obtain ⟨db₁, hitem, hrest⟩ := StateExcept.bind_eq_ok.1 himport
    refine ih (h.importItem hkeeps.1 hitem) (hkeeps.2 db₁ ?_) hrest
    rw [hitem]
    rfl

theorem Evaluable.importPack {doc : Document} (h : Packs.Evaluable db)
    (hkeeps : ItemsKeepTiers doc.packUid resolutions doc.items (doc.storePack db))
    (himport : Packs.importPack doc resolutions db = .ok db') : Packs.Evaluable db' := by
  obtain ⟨db₁, hitems, hrest⟩ := StateExcept.bind_eq_ok.1 himport
  obtain ⟨categoryBindings, -, hrest⟩ := StateExcept.bind_eq_ok.1 hrest
  obtain ⟨typeBindings, -, hrest⟩ := StateExcept.bind_eq_ok.1 hrest
  cases hrest
  have hstored : Packs.Evaluable (doc.storePack db) := h
  have himported : Packs.Evaluable db₁ := hstored.importItems hkeeps hitems
  exact himported

/-! ### What the API preserves -/

theorem Evaluable.changeApp {change : Entity → Option Entity} (h : Packs.Evaluable db)
    (hchange : ∀ e e', db.entities.get? id = some e → e.Evaluable → change e = some e' →
      e'.Evaluable) (hdb : db.changeApp id change = some db') : Packs.Evaluable db' := by
  rw [Database.changeApp] at hdb
  obtain ⟨e, hget, hrest⟩ := Option.bind_eq_some_iff.1 hdb
  split at hrest
  next hkind =>
    obtain ⟨e', he', rfl⟩ := Option.map_eq_some_iff.1 hrest
    intro id' e'' hget' happs
    dsimp only at hget'
    rw [Table.get?_upsert, hget] at hget'
    split at hget'
    · cases hget'
      exact hchange e e' hget (h id e hget hkind) he'
    · exact h id' e'' hget' happs
  · cases hrest

variable {e' : Entity}

theorem evaluable_setTargetTable
    (hkeeps : ∀ entry ∈ e.alertDefinitions, Compiles table entry.2.tiers entry.2.window)
    (h : setTargetTable table e = some e') : e'.Evaluable := by
  rw [setTargetTable] at h
  split at h
  · cases h
    intro name row hrow
    have htable : ({ e with columns := e.columns.set "target_table" (.str table) } :
        Entity).targetTable = table := by
      rw [Entity.targetTable, textOf, Dict.get?_set, if_pos rfl]
    rw [htable]
    exact hkeeps (name, row) (Dict.mem_of_get? hrow)
  · cases h

theorem evaluable_createDefinition
    (he : e.Evaluable) (h : createDefinition name row e = some e') : e'.Evaluable := by
  rw [createDefinition] at h
  split at h
  next haccepts =>
    cases h
    intro name' row' hrow
    rw [storeDefinition] at hrow
    dsimp only at hrow
    rw [Dict.get?_set] at hrow
    split at hrow
    · cases hrow
      exact compiles_of_acceptsTiers _ haccepts.1
    · exact he name' row' hrow
  · cases h

theorem evaluable_updateDefinition {r : DefinitionUpdate}
    (he : e.Evaluable) (h : updateDefinition name r e = some e') : e'.Evaluable := by
  obtain ⟨row, hrow, hrest⟩ := Option.bind_eq_some_iff.1 h
  split at hrest
  next haccepts =>
    cases hrest
    have hcompiles : Compiles e.targetTable (r.apply row).tiers (r.apply row).window := by
      rw [DefinitionUpdate.apply]
      dsimp only
      cases htiers : r.tiers with
      | none => exact (he name row hrow).window _
      | some tiers => exact compiles_of_acceptsTiers _ (haccepts.1 tiers htiers)
    intro name' row' hrow'
    dsimp only at hrow'
    rw [Dict.get?_set] at hrow'
    split at hrow'
    · cases hrow'
      exact hcompiles
    · rw [Dict.get?, Dict.lookup_filter_ne] at hrow'
      split at hrow'
      · cases hrow'
      · exact he name' row' hrow'
  · cases hrest

/-- **A step leaves every stored tier compiling.** -/
theorem Evaluable.step {action : TierAction} (h : Packs.Evaluable db)
    (hkeeps : KeepsTiers db action) (hstep : tierStep db action = some db') : Packs.Evaluable db' :=
    by
  cases action with
  | createApp name table =>
    rw [tierStep, Database.createApp] at hstep
    split at hstep
    · rw [Database.createEntity] at hstep
      cases hput : db.putEntity db.entities.fresh
          { kind := .apps, name, columns := [("target_table", .str table)], packId := none } with
      | error error =>
        rw [hput] at hstep
        cases hstep
      | ok db₁ =>
        rw [hput] at hstep
        cases hstep
        refine h.putEntity hput fun _ name row hrow => ?_
        cases hrow
    · cases hstep
  | updateApp id table =>
    refine h.changeApp (fun e e' hget _ he' => ?_) hstep
    exact evaluable_setTargetTable (hkeeps e hget) he'
  | createDefinition id name row =>
    exact h.changeApp (fun e e' _ he he' => evaluable_createDefinition he he') hstep
  | updateDefinition id name r =>
    exact h.changeApp (fun e e' _ he he' => evaluable_updateDefinition he he') hstep
  | importPack doc resolutions =>
    rw [tierStep] at hstep
    split at hstep
    · cases himport : Packs.importPack doc resolutions db with
      | error error =>
        rw [himport] at hstep
        cases hstep
      | ok db₁ =>
        rw [himport] at hstep
        cases hstep
        exact h.importPack hkeeps himport
    · cases hstep

/-- **Every stored tier can be evaluated.** In every run of app and definition creations and
updates, imports and changes of target tables, in which imports leave only definitions that
compile for the target table of their app, and a new target table is one for which those of the
app compile, every tier of every definition compiles, and no definition is skipped. -/
theorem evaluable_of_run {db : Database} (h : Run tierStep KeepsTiers {} db) :
    Packs.Evaluable db ∧ ∀ id e, db.entities.get? id = some e → e.kind = .apps →
      ∀ name row, e.alertDefinitions.get? name = some row →
        (compileDefinition e.targetTable row.definition).isSome = true := by
  have hstart : Packs.Evaluable {} := by
    intro id e hget
    cases hget
  have heval := h.invariant (I := Packs.Evaluable) hstart
    fun heval hkeeps hstep => heval.step hkeeps hstep
  refine ⟨heval, fun id e hget hkind name row hrow => ?_⟩
  exact isSome_compileDefinition (heval id e hget hkind name row hrow)

/-- A pack with one app that has one alert definition. -/
def alertPack (packVersion expression : String) : Document where
  packUid := "basic-checks"
  name := "Basic checks"
  version := packVersion
  contents := [(.apps, [
    { name := some "ping_check"
      versions := [{ version := "1.0.0", isLatest := true }]
      alertDefinitions := [
        { name := "Latency"
          tiers := [⟨⟨"warning", some expression⟩, some "slow"⟩] }] }])]

/-- A definition with one tier, as the API receives it. -/
def oneTier (name severity expression : String) : AlertRow :=
  AlertItem.row { name, tiers := [⟨⟨severity, some expression⟩, some "alert"⟩] } ""

/-- A pack is imported, its definition and another one are edited, a second release is
reconciled, and the app moves to another table. -/
def twoAlertReleases : List TierAction :=
  [.importPack (alertPack "1.0.0" "rtt_ms > 100") [],
    .updateDefinition 0 "Latency" { tiers := some [⟨⟨"critical", some "rtt_ms > 90"⟩, none⟩] },
    .createDefinition 0 "Loss" (oneTier "Loss" "warning" "packet_loss > 5"),
    .importPack (alertPack "1.1.0" "avg(rtt_ms) > 80") [("*", "reconcile")],
    .updateApp 0 "performance"]

theorem evaluable_twoAlertReleases : ∃ db : Database, Run tierStep KeepsTiers {} db ∧
    (db.entities.rows.map fun row => row.2.alertDefinitions.keys) = [["Latency", "Loss"]] ∧
    Evaluable db := by
  have hreplay : ∃ db ∈ replay tierStep KeepsTiers {} twoAlertReleases,
      (db.entities.rows.map fun row => row.2.alertDefinitions.keys) = [["Latency", "Loss"]] := by
    decide +kernel
  obtain ⟨db, hdb, hkeys⟩ := hreplay
  have hrun := run_of_replay hdb
  exact ⟨db, hrun, hkeys, (evaluable_of_run hrun).1⟩

/-- An import stores an expression that cannot be parsed. -/
theorem not_evaluable : ¬∀ db : Database, Run tierStep (fun _ _ => True) {} db →
    ∀ id e, db.entities.get? id = some e → e.kind = .apps →
      ∀ name row, e.alertDefinitions.get? name = some row →
        (compileDefinition e.targetTable row.definition).isSome = true := by
  have hreplay : ∃ db ∈ replay tierStep (fun _ _ => True) {}
      [.importPack (alertPack "1.0.0" "avg(rtt_ms") []],
      ∃ e ∈ db.entities.get? 0, e.kind = .apps ∧ ∃ row ∈ e.alertDefinitions.get? "Latency",
        (compileDefinition e.targetTable row.definition).isSome = false := by
    decide +kernel
  obtain ⟨db, hdb, e, hget, hkind, row, hrow, hskipped⟩ := hreplay
  intro hall
  have hsome := hall db (run_of_replay hdb) 0 e hget hkind "Latency" row hrow
  rw [hskipped] at hsome
  cases hsome

end MonCTL.Packs
