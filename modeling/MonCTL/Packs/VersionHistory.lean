import MonCTL.Packs.LatestVersion

/-!
# Histories of Versions

The versions of apps and connectors change by imports and through the API, in any order. The
flag of the latest version stays unique as long as no reconciliation brings a new latest version
while it does not mention the one before.
-/

namespace MonCTL.Packs

/-! ### Changes through the API -/

/-- The flags of all versions are cleared. -/
def clearLatest (versions : Versions) : Versions :=
  versions.mapRows fun _ v => { v with isLatest := false }

/-- `create_app_version` and `create_connector_version`: the first version is the latest. -/
def createVersion (version : String) (columns : JsonObject) (setLatest : Bool)
    (versions : Versions) : Option Versions :=
  let shouldBeLatest := setLatest || versions.rows.isEmpty
  match versions.get? version with
  | some _ => none
  | none =>
    some ((if shouldBeLatest then clearLatest versions else versions).upsert version
      ⟨columns, shouldBeLatest⟩ id)

/-- `set_latest_version`. -/
def setLatestVersion (version : String) (versions : Versions) : Option Versions :=
  match versions.get? version with
  | some _ =>
    some ((clearLatest versions).modify version fun v => { v with isLatest := true })
  | none => none

/-- `clone_app_version` and `clone_connector_version`: the copy is not the latest. -/
def cloneVersion (source new : String) (versions : Versions) : Option Versions :=
  match versions.get? source, versions.get? new with
  | some v, none => some (versions.upsert new { v with isLatest := false } id)
  | _, _ => none

/-- `delete_app_version` and `delete_connector_version`, of a version that is in use or not. -/
def deleteVersion (version : String) (inUse : Bool) (versions : Versions) : Option Versions :=
  match versions.get? version with
  | some _ => if inUse then none else some (versions.erase version)
  | none => none

/-- A change of the versions of an app or of a connector. -/
def Database.changeVersions (db : Database) (kind : PackSection) (id : ℕ)
    (change : Versions → Option Versions) : Option Database :=
  match db.entities.get? id with
  | some e =>
    if e.kind = kind then
      (change e.versions).map fun versions =>
        { db with entities := db.entities.modify id fun e => { e with versions } }
    else none
  | none => none

/-- `create_app` and `create_connector`. -/
def Database.createEntity (db : Database) (kind : PackSection) (name : String)
    (columns : JsonObject) : Option Database :=
  (db.putEntity db.entities.fresh { kind, name, columns, packId := none }).toOption

/-- `delete_app` and `delete_connector`, of an entity that is in use or not. -/
def Database.deleteEntity (db : Database) (kind : PackSection) (id : ℕ) (inUse : Bool) :
    Option Database :=
  match db.entities.get? id with
  | some e =>
    if e.kind = kind ∧ inUse = false then some { db with entities := db.entities.erase id }
    else none
  | none => none

/-- `create_pack`: entities that exist are tagged. -/
def Database.createPack (db : Database) (packUid : String) (pack : Pack) (ids : List ℕ) :
    Option Database :=
  match db.packs.get? packUid with
  | some _ => none
  | none =>
    some
      { db with
        packs := db.packs.upsert packUid pack id
        entities := db.entities.mapRows fun id e =>
          if id ∈ ids then { e with packId := some packUid } else e }

/-- `ON DELETE SET NULL`. -/
def setNull (packUid : String) (packId : Option String) : Option String :=
  if packId = some packUid then none else packId

/-- `delete_pack`: what came with it stays. -/
def Database.deletePack (db : Database) (packUid : String) : Option Database :=
  match db.packs.get? packUid with
  | some _ =>
    some
      { packs := db.packs.erase packUid
        entities := db.entities.mapRows fun _ e => { e with packId := setNull packUid e.packId }
        categoryBindings := db.categoryBindings.mapRows fun _ b =>
          { b with packId := setNull packUid b.packId }
        typeBindings := db.typeBindings.mapRows fun _ b =>
          { b with packId := setNull packUid b.packId } }
  | none => none

/-! ### Steps -/

/-- What can happen to the versions. A kind is that of the endpoint. -/
inductive Action
  | importPack (doc : Document) (resolutions : Dict String String)
  | createEntity (kind : PackSection) (name : String) (columns : JsonObject)
  | createVersion (kind : PackSection) (id : ℕ) (version : String) (columns : JsonObject)
      (setLatest : Bool)
  | setLatestVersion (kind : PackSection) (id : ℕ) (version : String)
  | cloneVersion (kind : PackSection) (id : ℕ) (source new : String)
  | deleteVersion (kind : PackSection) (id : ℕ) (version : String) (inUse : Bool)
  | deleteEntity (kind : PackSection) (id : ℕ) (inUse : Bool)
  | createPack (packUid : String) (pack : Pack) (ids : List ℕ)
  | deletePack (packUid : String)

/-- The database after an action, unless it is refused. -/
def step (db : Database) : Action → Option Database
  | .importPack doc resolutions => (importPack doc resolutions db).toOption
  | .createEntity kind name columns => db.createEntity kind name columns
  | .createVersion kind id version columns setLatest =>
    db.changeVersions kind id (Packs.createVersion version columns setLatest)
  | .setLatestVersion kind id version =>
    db.changeVersions kind id (Packs.setLatestVersion version)
  | .cloneVersion kind id source new => db.changeVersions kind id (Packs.cloneVersion source new)
  | .deleteVersion kind id version inUse =>
    db.changeVersions kind id (Packs.deleteVersion version inUse)
  | .deleteEntity kind id inUse => db.deleteEntity kind id inUse
  | .createPack packUid pack ids => db.createPack packUid pack ids
  | .deletePack packUid => db.deletePack packUid

/-- The document flags at most one version of each app and of each connector. -/
def Document.WellFormed (doc : Document) : Prop :=
  ∀ x ∈ doc.items, x.1.versioned → FlaggedOnce x.2.versions
  deriving Decidable

/-- The document of an import is well formed. -/
def Action.WellFormed : Action → Prop
  | importPack doc _ => doc.WellFormed
  | _ => True

instance : ∀ action : Action, Decidable action.WellFormed
  | .importPack doc _ => inferInstanceAs (Decidable doc.WellFormed)
  | .createEntity .. | .createVersion .. | .setLatestVersion .. | .cloneVersion ..
  | .deleteVersion .. | .deleteEntity .. | .createPack .. | .deletePack .. =>
    inferInstanceAs (Decidable True)

def reconciledEntity (packUid : String) (resolutions : Dict String String) (kind : PackSection)
    (item : Item) (db : Database) : Option Entity :=
  match existingRow resolutions kind item db with
  | .ok (some (_, e), resolution) =>
    if resolution = "reconcile" ∧ e.packId = some packUid then some e else none
  | _ => none

/-- If the item reconciles an app or a connector, then it heeds its flags. -/
def ItemKeepsOneLatest (packUid : String) (resolutions : Dict String String) (kind : PackSection)
    (item : Item) (db : Database) : Prop :=
  kind.versioned → ∀ e ∈ reconciledEntity packUid resolutions kind item db,
    Heeds item.versions e.versions
  deriving Decidable

/-- Each item of an import heeds the flags it finds when its turn comes. -/
def ItemsKeepOneLatest (packUid : String) (resolutions : Dict String String) :
    List (PackSection × Item) → Database → Prop
  | [], _ => True
  | (kind, item) :: items, db =>
    ItemKeepsOneLatest packUid resolutions kind item db ∧
      ∀ db' ∈ (importItem packUid resolutions kind item db).toOption,
        ItemsKeepOneLatest packUid resolutions items db'

instance ItemsKeepOneLatest.decidable (packUid : String) (resolutions : Dict String String) :
    ∀ items db, Decidable (ItemsKeepOneLatest packUid resolutions items db)
  | [], _ => isTrue trivial
  | (kind, item) :: items, db =>
    have := ItemsKeepOneLatest.decidable packUid resolutions items
    inferInstanceAs (Decidable (_ ∧ ∀ db' ∈ (importItem packUid resolutions kind item db).toOption,
      ItemsKeepOneLatest packUid resolutions items db'))

/-- Every entity that an import reconciles is so with a document that heeds its flags. -/
def Action.KeepsOneLatest (db : Database) : Action → Prop
  | importPack doc resolutions =>
    ItemsKeepOneLatest doc.packUid resolutions doc.items (doc.storePack db)
  | _ => True

instance (db : Database) : ∀ action : Action, Decidable (action.KeepsOneLatest db)
  | .importPack doc resolutions =>
    inferInstanceAs
      (Decidable (ItemsKeepOneLatest doc.packUid resolutions doc.items (doc.storePack db)))
  | .createEntity .. | .createVersion .. | .setLatestVersion .. | .cloneVersion ..
  | .deleteVersion .. | .deleteEntity .. | .createPack .. | .deletePack .. =>
    inferInstanceAs (Decidable True)

/-- Every app and every connector has at most one latest version. -/
def OneLatest (db : Database) : Prop :=
  ∀ row ∈ db.entities.rows, row.2.kind.versioned → AtMostOneLatest row.2.versions
  deriving Decidable

/-! ### What a step preserves -/

variable {db : Database}

theorem oneLatest_iff : OneLatest db ↔ ∀ id e, db.entities.get? id = some e →
    e.kind.versioned = true → AtMostOneLatest e.versions := by
  refine ⟨fun h id e hget => h (id, e) (Table.mem_rows.2 hget), ?_⟩
  rintro h ⟨id, e⟩ hmem
  exact h id e (Table.mem_rows.1 hmem)

variable {db' : Database} {e : Entity}

theorem OneLatest.putEntity {id : ℕ} (h : OneLatest db) (hput : db.putEntity id e = .ok db')
    (he : e.kind.versioned = true → AtMostOneLatest e.versions) : OneLatest db' := by
  rw [oneLatest_iff] at h ⊢
  intro id' e' hget
  rw [(Database.putEntity_eq_ok hput).2] at hget
  split at hget
  · cases hget
    exact he
  · exact h id' e' hget

variable {packUid : String} {item : Item} {app app' : Entity}

theorem syncChildren_versions (h : syncChildren db packUid item app = .ok app') :
    app'.versions = app.versions ∧ app'.kind = app.kind := by
  obtain ⟨bindings, -, hrest⟩ := StateExcept.bind_eq_ok.1 h
  cases hrest
  rw [syncAppAlertDefinitions]
  split
  · exact ⟨rfl, rfl⟩
  · exact ⟨rfl, rfl⟩

theorem OneLatest.skipItem {id : ℕ} (h : OneLatest db)
    (hitem : e.kind.versioned = true → FlaggedOnce item.versions)
    (hskip : Packs.skipItem packUid item id e db = .ok db') : OneLatest db' := by
  rw [Packs.skipItem] at hskip
  split at hskip
  next hkind =>
    obtain ⟨e', hsync, hput⟩ := StateExcept.bind_eq_ok.1 hskip
    obtain ⟨versions, hversions, hchildren⟩ := StateExcept.bind_eq_ok.1 hsync
    refine h.putEntity hput fun _ => ?_
    rw [(syncChildren_versions hchildren).1]
    exact atMostOneLatest_syncVersions hversions (hitem (hkind ▸ rfl))
  · cases hskip
    exact h

variable {kind : PackSection}

theorem not_versioned (happs : kind ≠ .apps) (hconnectors : kind ≠ .connectors) :
    kind.versioned ≠ true := by
  cases kind with
  | apps => exact absurd rfl happs
  | connectors => exact absurd rfl hconnectors
  | credentialTemplates | snmpOids | deviceTemplates | deviceCategories | labelKeys
  | deviceTypes => nofun

variable {category : Option ℕ}

theorem OneLatest.overwriteItem {id : ℕ} (h : OneLatest db)
    (hitem : e.kind.versioned = true → FlaggedOnce item.versions)
    (hover : Packs.overwriteItem packUid item category id e db = .ok db') : OneLatest db' := by
  obtain ⟨e', hsync, hput⟩ := StateExcept.bind_eq_ok.1 hover
  refine h.putEntity hput fun hversioned => ?_
  rw [overwriteChildren] at hsync
  split at hsync
  next hkind =>
    obtain ⟨versions, hversions, hchildren⟩ := StateExcept.bind_eq_ok.1 hsync
    rw [(syncChildren_versions hchildren).1]
    exact atMostOneLatest_syncVersions hversions (hitem (congrArg PackSection.versioned hkind))
  next hkind =>
    obtain ⟨versions, hversions, hrest⟩ := StateExcept.bind_eq_ok.1 hsync
    cases hrest
    exact atMostOneLatest_syncVersions hversions (hitem (congrArg PackSection.versioned hkind))
  next happs hconnectors =>
    cases hsync
    exact absurd hversioned (not_versioned happs hconnectors)

theorem reconcileApp_versions (h : reconcileApp db packUid item app = .ok app') :
    syncVersionsTracked appVersionColumns item.versions app.versions = .ok app'.versions := by
  obtain ⟨versions, hversions, hrest⟩ := StateExcept.bind_eq_ok.1 h
  obtain ⟨bindings, -, hrest⟩ := StateExcept.bind_eq_ok.1 hrest
  cases hrest
  rw [hversions, reconcileAppAlertDefinitions]
  split <;> rfl

theorem OneLatest.reconcileItem {id : ℕ} (h : OneLatest db) (hget : db.entities.get? id = some e)
    (hitem : e.kind.versioned = true → FlaggedOnce item.versions)
    (hheeds : e.kind.versioned = true → e.packId = some packUid → Heeds item.versions e.versions)
    (hreconcile : Packs.reconcileItem packUid item category id e db = .ok db') : OneLatest db' := by
  rw [Packs.reconcileItem] at hreconcile
  split at hreconcile
  · cases hreconcile
    exact h
  next howned =>
    obtain ⟨e', hsync, hput⟩ := StateExcept.bind_eq_ok.1 hreconcile
    have hsame : ∀ e₁ : Entity, (e₁ = if entityItemDiffers e item = true then
        updateEntity e item packUid category else e) → e₁.kind = e.kind ∧ e₁.versions = e.versions := by
      rintro e₁ rfl
      split <;> exact ⟨rfl, rfl⟩
    generalize hupdated : (if entityItemDiffers e item = true then
      updateEntity e item packUid category else e) = e₁ at hsync
    obtain ⟨hkind, hversions⟩ := hsame e₁ hupdated.symm
    have hone : e.kind.versioned = true → ∀ {cols versions},
        syncVersionsTracked cols item.versions e₁.versions = .ok versions →
        AtMostOneLatest versions := by
      intro hversioned cols versions hsync
      rw [hversions] at hsync
      exact (atMostOneLatest_syncVersionsTracked_iff hsync (hitem hversioned)
        (oneLatest_iff.1 h id e hget hversioned)).2 (hheeds hversioned (not_not.1 howned))
    refine h.putEntity hput fun hversioned => ?_
    rw [reconcileChildren] at hsync
    split at hsync
    next happs =>
      exact hone (by rw [← hkind, happs]; rfl) (reconcileApp_versions hsync)
    next hconnectors =>
      obtain ⟨versions, hversions, hrest⟩ := StateExcept.bind_eq_ok.1 hsync
      cases hrest
      exact hone (by rw [← hkind, hconnectors]; rfl) hversions
    next happs hconnectors =>
      cases hsync
      exact absurd hversioned (not_versioned happs hconnectors)

theorem createEntity_eq_ok {packId : String} (h : Packs.createEntity kind item packId category =
    .ok e) :
    e.kind = kind ∧ e.versions = {} ∧ e.packId = some packId := by
  obtain ⟨name, -, hrest⟩ := StateExcept.bind_eq_ok.1 h
  split at hrest
  · cases hrest
  · obtain ⟨columns, -, hrest⟩ := StateExcept.bind_eq_ok.1 hrest
    cases hrest
    exact ⟨rfl, rfl, rfl⟩

theorem OneLatest.createItem (h : OneLatest db)
    (hitem : kind.versioned = true → FlaggedOnce item.versions)
    (hcreate : Packs.createItem packUid kind item category db = .ok db') : OneLatest db' := by
  obtain ⟨e, hentity, hrest⟩ := StateExcept.bind_eq_ok.1 hcreate
  obtain ⟨e', hchildren, hput⟩ := StateExcept.bind_eq_ok.1 hrest
  obtain ⟨hkind, hnew, -⟩ := createEntity_eq_ok hentity
  refine h.putEntity hput fun hversioned => ?_
  rw [createChildren] at hchildren
  split at hchildren
  next happs =>
    obtain ⟨versions, hversions, hsync⟩ := StateExcept.bind_eq_ok.1 hchildren
    rw [(syncChildren_versions hsync).1]
    exact atMostOneLatest_createVersions (hnew ▸ hversions)
      (hitem (by rw [← hkind, happs]; rfl))
  next hconnectors =>
    obtain ⟨versions, hversions, hrest⟩ := StateExcept.bind_eq_ok.1 hchildren
    cases hrest
    exact atMostOneLatest_createVersions (hnew ▸ hversions)
      (hitem (by rw [← hkind, hconnectors]; rfl))
  next happs hconnectors =>
    cases hchildren
    exact absurd hversioned (not_versioned happs hconnectors)

variable {resolutions : Dict String String}

theorem get?_of_existingRow {id : ℕ} {resolution : String}
    (h : existingRow resolutions kind item db = .ok (some (id, e), resolution)) :
    db.entities.get? id = some e ∧ e.kind = kind := by
  obtain ⟨found, hfind, hrest⟩ := StateExcept.bind_eq_ok.1 h
  split at hrest
  next row =>
    cases hrest
    obtain ⟨hget, hkind, -⟩ := Database.get?_of_find hfind
    exact ⟨hget, hkind⟩
  · dsimp only at hrest
    split at hrest
    next hpattern =>
      obtain ⟨found', hfind', hrest⟩ := StateExcept.bind_eq_ok.1 hrest
      split at hrest
      next row =>
        cases hrest
        obtain ⟨hget, hkind⟩ := Database.get?_of_findPattern hfind'
        exact ⟨hget, hkind.trans hpattern.1.symm⟩
      · cases hrest
    · cases hrest

theorem OneLatest.importResolved
    (h : OneLatest db) (hitem : kind.versioned = true → FlaggedOnce item.versions)
    (hkeeps : ItemKeepsOneLatest packUid resolutions kind item db)
    (himport : Packs.importResolved packUid resolutions kind item category db = .ok db') :
    OneLatest db' := by
  obtain ⟨⟨existing, resolution⟩, hrow, hrest⟩ := StateExcept.bind_eq_ok.1 himport
  simp only at hrest
  split at hrest
  next id e =>
    obtain ⟨hget, rfl⟩ := get?_of_existingRow hrow
    split at hrest
    · exact h.skipItem hitem hrest
    split at hrest
    · exact h.overwriteItem hitem hrest
    split at hrest
    next hresolution =>
      refine h.reconcileItem hget hitem (fun hversioned howned => ?_) hrest
      refine hkeeps hversioned e ?_
      rw [reconciledEntity, hrow]
      exact if_pos ⟨hresolution, howned⟩
    split at hrest
    · refine h.createItem ?_ hrest
      exact hitem
    · exact h.createItem hitem hrest
  · exact h.createItem hitem hrest

/-- **Importing an item.** -/
theorem OneLatest.importItem (h : OneLatest db)
    (hitem : kind.versioned = true → FlaggedOnce item.versions)
    (hkeeps : ItemKeepsOneLatest packUid resolutions kind item db)
    (himport : Packs.importItem packUid resolutions kind item db = .ok db') : OneLatest db' := by
  obtain ⟨category, -, hrest⟩ := StateExcept.bind_eq_ok.1 himport
  split at hrest
  · exact h.importResolved hitem hkeeps hrest
  · cases hrest
    exact h

theorem OneLatest.importItems {items : List (PackSection × Item)} (h : OneLatest db)
    (hitems : ∀ x ∈ items, x.1.versioned = true → FlaggedOnce x.2.versions)
    (hkeeps : ItemsKeepOneLatest packUid resolutions items db)
    (himport : Packs.importItems packUid resolutions items db = .ok db') : OneLatest db' := by
  induction items generalizing db with
  | nil =>
    cases himport
    exact h
  | cons x items ih =>
    obtain ⟨db₁, hitem, hrest⟩ := StateExcept.bind_eq_ok.1 himport
    refine ih (h.importItem (hitems x (List.mem_cons_self ..)) hkeeps.1 hitem)
      (fun y hy => hitems y (List.mem_cons_of_mem _ hy)) (hkeeps.2 db₁ ?_) hrest
    rw [hitem]
    rfl

theorem OneLatest.importPack {doc : Document} (h : OneLatest db) (hdoc : doc.WellFormed)
    (hkeeps : ItemsKeepOneLatest doc.packUid resolutions doc.items (doc.storePack db))
    (himport : Packs.importPack doc resolutions db = .ok db') : OneLatest db' := by
  obtain ⟨db₁, hitems, hrest⟩ := StateExcept.bind_eq_ok.1 himport
  obtain ⟨categoryBindings, -, hrest⟩ := StateExcept.bind_eq_ok.1 hrest
  obtain ⟨typeBindings, -, hrest⟩ := StateExcept.bind_eq_ok.1 hrest
  cases hrest
  have hstored : OneLatest (doc.storePack db) := h
  have hone : OneLatest db₁ := hstored.importItems hdoc hkeeps hitems
  exact hone

/-! ### What the API preserves -/

theorem OneLatest.changeVersions {id : ℕ} {change : Versions → Option Versions} (h : OneLatest db)
    (hchange : ∀ {versions versions'}, AtMostOneLatest versions →
      change versions = some versions' → AtMostOneLatest versions')
    (hdb : db.changeVersions kind id change = some db') : OneLatest db' := by
  rw [Database.changeVersions] at hdb
  split at hdb
  next e hget =>
    split at hdb
    next hkind =>
      obtain ⟨versions, hversions, hrest⟩ := Option.map_eq_some_iff.1 hdb
      cases hrest
      rw [oneLatest_iff] at h ⊢
      intro id' e' hget' hversioned
      rw [Table.get?_modify] at hget'
      split at hget'
      next heq =>
        rw [heq, hget] at hget'
        cases hget'
        exact hchange (h id e hget hversioned) hversions
      · exact h id' e' hget' hversioned
    · cases hdb
  · cases hdb

theorem flagIn_clearLatest (versions : Versions) (k : String) :
    flagIn (clearLatest versions) k ≠ some true := by
  rw [clearLatest, flagIn_mapRows versions fun _ _ => false]
  cases flagIn versions k <;> simp

variable {versions : Versions}

theorem atMostOneLatest_of_eq (version : String)
    (h : ∀ k, flagIn versions k = some true → k = version) : AtMostOneLatest versions :=
  atMostOneLatest_iff.2 fun k k' hk hk' => (h k hk).trans (h k' hk').symm

variable {versions' : Versions}

theorem AtMostOneLatest.mono (h : AtMostOneLatest versions)
    (hflags : ∀ k, flagIn versions' k = some true → flagIn versions k = some true) :
    AtMostOneLatest versions' :=
  atMostOneLatest_iff.2 fun k k' hk hk' =>
    atMostOneLatest_iff.1 h k k' (hflags k hk) (hflags k' hk')

variable {version : String}

theorem flagIn_upsert {v : Version}
    (hnone : versions.get? version = none) (k : String) :
    flagIn (versions.upsert version v id) k =
      if k = version then some v.isLatest else flagIn versions k := by
  rw [flagIn, Table.get?_upsert, hnone]
  split <;> rfl

theorem AtMostOneLatest.createVersion {columns : JsonObject} {setLatest : Bool}
    (h : AtMostOneLatest versions)
    (hcreate : Packs.createVersion version columns setLatest versions = some versions') :
    AtMostOneLatest versions' := by
  rw [Packs.createVersion] at hcreate
  generalize (setLatest || versions.rows.isEmpty) = shouldBeLatest at hcreate
  split at hcreate
  · cases hcreate
  next hnone =>
    cases hcreate
    cases shouldBeLatest with
    | true =>
      have hclear : (clearLatest versions).get? version = none := by
        rw [clearLatest, Table.get?_mapRows, hnone, Option.map_none]
      refine atMostOneLatest_of_eq version fun k hk => ?_
      rw [if_pos rfl, flagIn_upsert hclear] at hk
      split at hk
      next heq => exact heq
      · exact absurd hk (flagIn_clearLatest versions k)
    | false =>
      refine h.mono fun k hk => ?_
      rw [if_neg Bool.false_ne_true, flagIn_upsert hnone] at hk
      split at hk
      · cases hk
      · exact hk

theorem AtMostOneLatest.setLatestVersion
    (hset : Packs.setLatestVersion version versions = some versions') : AtMostOneLatest versions' :=
    by
  rw [Packs.setLatestVersion] at hset
  split at hset
  · cases hset
    refine atMostOneLatest_of_eq version fun k hk => ?_
    rw [flagIn, Table.get?_modify] at hk
    split at hk
    next heq => exact heq
    · exact absurd hk (flagIn_clearLatest versions k)
  · cases hset

theorem AtMostOneLatest.cloneVersion {source new : String} (h : AtMostOneLatest versions)
    (hclone : Packs.cloneVersion source new versions = some versions') :
    AtMostOneLatest versions' := by
  rw [Packs.cloneVersion] at hclone
  split at hclone
  next v hsource hnone =>
    cases hclone
    refine h.mono fun k hk => ?_
    rw [flagIn_upsert hnone] at hk
    split at hk
    · cases hk
    · exact hk
  · cases hclone

theorem AtMostOneLatest.deleteVersion {inUse : Bool} (h : AtMostOneLatest versions)
    (hdelete : Packs.deleteVersion version inUse versions = some versions') :
    AtMostOneLatest versions' := by
  rw [Packs.deleteVersion] at hdelete
  split at hdelete
  · split at hdelete
    · cases hdelete
    · cases hdelete
      refine h.mono fun k hk => ?_
      rw [flagIn, Table.get?_erase] at hk
      split at hk
      · cases hk
      · exact hk
  · cases hdelete

theorem OneLatest.mapRows (h : OneLatest db) (tag : ℕ → Entity → Entity)
    (hentities : db'.entities = db.entities.mapRows tag)
    (htag : ∀ id e, (tag id e).versions = e.versions ∧ (tag id e).kind = e.kind) : OneLatest db' :=
    by
  rw [oneLatest_iff] at h ⊢
  intro id e hget hversioned
  rw [hentities, Table.get?_mapRows] at hget
  obtain ⟨e₀, hget₀, rfl⟩ := Option.map_eq_some_iff.1 hget
  obtain ⟨hversions, hkind⟩ := htag id e₀
  rw [hversions]
  exact h id e₀ hget₀ (hkind ▸ hversioned)

/-- **A step leaves at most one latest version** of every app and of every connector. -/
theorem OneLatest.step {action : Action} (h : OneLatest db)
    (hwell : action.WellFormed) (hkeeps : action.KeepsOneLatest db)
    (hstep : Packs.step db action = some db') : OneLatest db' := by
  cases action with
  | importPack doc resolutions =>
    rw [Packs.step] at hstep
    cases himport : Packs.importPack doc resolutions db with
    | error e =>
      rw [himport] at hstep
      cases hstep
    | ok db₁ =>
      rw [himport] at hstep
      cases hstep
      exact h.importPack hwell hkeeps himport
  | createEntity kind name columns =>
    rw [Packs.step, Database.createEntity] at hstep
    cases hput : db.putEntity db.entities.fresh { kind, name, columns, packId := none } with
    | error e =>
      rw [hput] at hstep
      cases hstep
    | ok db₁ =>
      rw [hput] at hstep
      cases hstep
      exact h.putEntity hput fun _ => Nat.zero_le _
  | createVersion kind id version columns setLatest =>
    exact h.changeVersions AtMostOneLatest.createVersion hstep
  | setLatestVersion kind id version =>
    refine h.changeVersions ?_ hstep
    exact fun _ hset => AtMostOneLatest.setLatestVersion hset
  | cloneVersion kind id source new =>
    exact h.changeVersions AtMostOneLatest.cloneVersion hstep
  | deleteVersion kind id version inUse =>
    exact h.changeVersions AtMostOneLatest.deleteVersion hstep
  | deleteEntity kind id inUse =>
    rw [Packs.step, Database.deleteEntity] at hstep
    split at hstep
    · split at hstep
      · cases hstep
        rw [oneLatest_iff] at h ⊢
        intro id' e' hget
        rw [Table.get?_erase] at hget
        split at hget
        · cases hget
        · exact h id' e' hget
      · cases hstep
    · cases hstep
  | createPack packUid pack ids =>
    rw [Packs.step, Database.createPack] at hstep
    split at hstep
    · cases hstep
    · cases hstep
      refine h.mapRows (fun id e => if id ∈ ids then { e with packId := some packUid } else e)
        rfl fun id e => ?_
      split <;> exact ⟨rfl, rfl⟩
  | deletePack packUid =>
    rw [Packs.step, Database.deletePack] at hstep
    split at hstep
    · cases hstep
      exact h.mapRows (fun _ e => { e with packId := setNull packUid e.packId }) rfl
        fun _ _ => ⟨rfl, rfl⟩
    · cases hstep

/-- **At most one latest version.** From a database in which every app and every connector has
at most one, every run of imports of well-formed documents and of changes through the API ends
in one, as long as every entity that is reconciled is so with a document that has its latest
version or flags none. -/
theorem oneLatest_of_run {start db : Database} (hstart : OneLatest start)
    (h : Run Packs.step (fun db action => action.WellFormed ∧ action.KeepsOneLatest db) start db) :
    OneLatest db :=
  h.invariant hstart fun hone hallowed hstep => hone.step hallowed.1 hallowed.2 hstep

def release (packVersion : String) (versions : List VersionItem) : Document where
  packUid := "basic-checks"
  name := "Basic checks"
  version := packVersion
  contents := [(.apps, [{ name := some "ping_check", versions }])]

/-- The first release is installed, and an operator tries a version of their own before the
second release, which still lists the first version, is reconciled. -/
def twoReleases : List Action :=
  [.importPack (release "1.0.0" [{ version := "1.0.0", isLatest := true }]) [],
    .createVersion .apps 0 "1.0.1" [] true, .setLatestVersion .apps 0 "1.0.0",
    .importPack (release "1.1.0" [{ version := "1.0.0" }, { version := "1.1.0", isLatest := true }])
      [("*", "reconcile")]]

theorem oneLatest_twoReleases : ∃ db : Database,
    Run Packs.step (fun db action => action.WellFormed ∧ action.KeepsOneLatest db) {} db ∧
      db.entities.rows.map (fun row => latestVersions row.2.versions) = [["1.1.0"]] ∧
        OneLatest db := by
  have hreplay : ∃ db ∈ replay Packs.step
      (fun db action => action.WellFormed ∧ action.KeepsOneLatest db) {} twoReleases,
      db.entities.rows.map (fun row => latestVersions row.2.versions) = [["1.1.0"]] := by
    decide +kernel
  obtain ⟨db, hdb, hlatest⟩ := hreplay
  have hrun := run_of_replay hdb
  exact ⟨db, hrun, hlatest, oneLatest_of_run (by decide) hrun⟩

/-- A second release that lists its new version alone leaves two latest versions. -/
theorem not_oneLatest_reconcile : ¬∀ start db : Database, OneLatest start →
    Run Packs.step (fun _ action => action.WellFormed) start db → OneLatest db := by
  have hreplay : ∃ db ∈ replay Packs.step (fun _ action => action.WellFormed) {}
      [.importPack (release "1.0.0" [{ version := "1.0.0", isLatest := true }]) [],
        .importPack (release "1.1.0" [{ version := "1.1.0", isLatest := true }])
          [("*", "reconcile")]], ¬OneLatest db := by
    decide +kernel
  obtain ⟨db, hdb, hnot⟩ := hreplay
  exact fun hall => hnot (hall _ db (by decide) (run_of_replay hdb))

end MonCTL.Packs
