import MonCTL.Lib.Http
import MonCTL.Lib.Runs
import MonCTL.Lib.StateExcept
import MonCTL.Lib.Table

/-!
# Connector Slots

The source of an app's version declares the types of the connectors that the app needs. The app has
a slot for each type, into which a connector is put. When a version is uploaded as the latest, the
slots are made to follow its declaration: what is missing is added, with the connector if there is
only one of the type, and a slot that is not declared any more is orphaned.

What the source declares is read from its syntax tree. The parser is Python's, and so is the text of
a literal; what is modelled is the search in the tree. Of a version all but its source and its entry
class are left out, and of a slot its settings. A state is that of one app.
-/

namespace MonCTL.Apps.ConnectorSlots

open Option

/-! ### Declarations -/

/-- An item of a literal: a text, or something else, with its `repr`. -/
inductive LiteralItem
  | str (text : String)
  | other (repr : String)

/-- The right side of an assignment in a class: there is none, it is no literal, its value has a
key that cannot be one, or it is a dictionary with its values, a list or a tuple, or a literal of
another type. -/
inductive Rhs
  | absent
  | notLiteral (error : String)
  | unhashable
  | dict (values : List LiteralItem)
  | sequence (values : List LiteralItem)
  | other (typeName : String)

/-- An assignment in a class, with the names that it assigns. -/
structure ClassStatement where
  targets : List String
  rhs : Rhs

structure ClassDef where
  name : String
  body : List ClassStatement

structure Connector where
  id : String
  name : String
  connectorType : String

/-- A declaration that cannot be read: it is refused, the source has an error, or another error
is raised, which nobody catches. -/
inductive DeclarationError
  | invalid (text : String)
  | syntaxError (text : String)
  | unhandled

/-- What is given: the classes in the syntax tree of a source, or the error of the parser; the
`repr` of texts; and the connectors. -/
structure Setting where
  parse : String → Except DeclarationError (List ClassDef)
  repr : String → String := fun text => text
  connectors : List Connector

variable (c : Setting)

/-- The types of a declaration, after those that have been seen. -/
def checkItems : List LiteralItem → List String → Except DeclarationError (List String)
  | [], _ => .ok []
  | .other repr :: _, _ =>
    .error (.invalid ("required_connectors entries must be non-empty strings (got " ++ repr ++ ")"))
  | .str ctype :: items, seen =>
    if ctype = "" then
      .error (.invalid ("required_connectors entries must be non-empty strings (got " ++
        c.repr ctype ++ ")"))
    else if ctype ∈ seen then
      .error (.invalid ("required_connectors contains duplicate connector type " ++ c.repr ctype))
    else (checkItems items (ctype :: seen)).map (ctype :: ·)

/-- `extract_required_connectors`. -/
def extractRequiredConnectors (source entryClass : String) :
    Except DeclarationError (Option (List String)) :=
  match c.parse source with
  | .error error => .error error
  | .ok classes =>
    match ((classes.filter (·.name = entryClass)).flatMap ClassDef.body).find?
        fun stmt => "required_connectors" ∈ stmt.targets with
    | none => .ok none
    | some stmt => match stmt.rhs with
        | .absent => .ok none
        | .notLiteral error => .error (.invalid ("required_connectors must be a literal list of " ++
            "connector-type strings (got expression that cannot be evaluated): " ++ error))
        | .unhashable => .error .unhandled
        | .dict values | .sequence values => (checkItems c values []).map some
        | .other typeName =>
          .error (.invalid ("required_connectors must be a list, got " ++ typeName))

/-! ### Apps -/

/-- `AppVersion`. -/
structure AppVersion where
  sourceCode : Option String
  entryClass : Option String
  isLatest : Bool := false

/-- `AppConnectorBinding`, a slot. -/
structure AppConnectorBinding where
  connectorId : Option String := none
  connectorVersionId : Option String := none
  isOrphaned : Bool := false
  deriving DecidableEq

/-- A connector is put into a slot. -/
def AppConnectorBinding.fill (connectorId : String) (connectorVersionId : Option String)
    (b : AppConnectorBinding) : AppConnectorBinding :=
  { b with connectorId := some connectorId, connectorVersionId := connectorVersionId }

/-- An app: its versions, and its slots by their types. -/
structure App where
  versions : Table ℕ AppVersion := {}
  bindings : Table String AppConnectorBinding := {}

def AppVersion.uploaded (source entryClass : String) (isLatest : Bool) : AppVersion where
  sourceCode := some source
  entryClass := some entryClass
  isLatest

def AppVersion.edit (v : AppVersion) (source entryClass : Option String) : AppVersion :=
  { v with sourceCode := source.or v.sourceCode, entryClass := entryClass.or v.entryClass }

def declaredTypes (v : AppVersion) : Option (List String) :=
  v.sourceCode.bind fun source => v.entryClass.bind fun entryClass =>
    (extractRequiredConnectors c source entryClass).toOption.join

variable {ctype connector source entryClass connectorId : String} {types : List String} {s' : App}
    {v : AppVersion} {setLatest : Bool} {connectorVersionId : Option String}

namespace App

variable (s : App)

/-- The connector of a new slot: the one of its type, if there is only one. -/
def autoConnector (ctype : String) : Option String :=
  match c.connectors.filter (·.connectorType = ctype) with
  | [connector] => some connector.id
  | _ => none

/-- The slots that follow a declaration. -/
def reconcile (declared : List String) : Table String AppConnectorBinding :=
  (declared.foldl (fun t ctype => t.upsert ctype { connectorId := autoConnector c ctype } id)
    s.bindings).mapRows fun ctype b => { b with isOrphaned := ctype ∉ declared }

/-- `_sync_connector_slots`. -/
def syncConnectorSlots (source entryClass : String) : Except HttpError App :=
  match extractRequiredConnectors c source entryClass with
  | .error (.invalid text) => .error ⟨400, "Invalid required_connectors declaration: " ++ text⟩
  | .error (.syntaxError text) => .error ⟨400, "Could not parse app source code: " ++ text⟩
  | .error .unhandled => .error ⟨500, "Internal Server Error"⟩
  | .ok none => .ok s
  | .ok (some declared) => .ok { s with bindings := s.reconcile c declared }

def addVersion (v : AppVersion) : App :=
  { s with versions := s.versions.upsert s.versions.fresh v fun _ => v }

/-- At most one version is the latest. -/
def markLatest (latest : Option ℕ) : App :=
  { s with versions := s.versions.mapRows fun id v => { v with isLatest := some id = latest } }

/-- `create_app_version`. The first version is always the latest. -/
def createAppVersion (source entryClass : String) (setLatest : Bool) : Except HttpError App :=
  if setLatest = true ∨ s.versions.rows = [] then
    ((s.markLatest none).addVersion (.uploaded source entryClass true)).syncConnectorSlots
      c source entryClass
  else .ok (s.addVersion (.uploaded source entryClass false))

/-- `set_latest_version`. -/
def setLatestVersion (id : ℕ) : Except HttpError App :=
  match s.versions.get? id with
  | none => .error ⟨404, "Version not found"⟩
  | some _ => .ok (s.markLatest (some id))

/-- `update_app_version`. -/
def updateAppVersion (id : ℕ) (source entryClass : Option String) : Except HttpError App :=
  match s.versions.get? id with
  | none => .error ⟨404, "Version not found"⟩
  | some _ => .ok { s with versions := s.versions.modify id fun v => v.edit source entryClass }

/-- `clone_app_version`. -/
def cloneAppVersion (id : ℕ) : Except HttpError App :=
  match s.versions.get? id with
  | none => .error ⟨404, "Source version not found"⟩
  | some v => .ok (s.addVersion { v with isLatest := false })

/-- `delete_app_version`, of a version that some assignments refer to. -/
def deleteAppVersion (id count : ℕ) : Except HttpError App :=
  match s.versions.get? id with
  | none => .error ⟨404, "Version not found"⟩
  | some _ =>
    if 0 < count then
      .error ⟨409, s!"Version is in use by {count} assignment(s). Remove them first."⟩
    else .ok { s with versions := s.versions.erase id }

/-! ### Slots -/

/-- The connector of a request, which is to be of the type. -/
def connectorOf (connectorId ctype expected : String) : Except HttpError Connector :=
  match c.connectors.find? (·.id = connectorId) with
  | none => .error ⟨404, "Connector not found"⟩
  | some connector =>
    if connector.connectorType = ctype then .ok connector
    else .error ⟨400, s!"Connector type mismatch: {expected} '{ctype}' but connector " ++
      s!"'{connector.name}' is '{connector.connectorType}'"⟩

/-- A connector is put into the slot of a type. -/
def fillSlot (ctype connectorId : String) (connectorVersionId : Option String) : App :=
  { s with bindings := s.bindings.modify ctype (·.fill connectorId connectorVersionId) }

def addSlot (ctype connectorId : String) (connectorVersionId : Option String) : App :=
  { s with bindings := s.bindings.upsert ctype (.fill connectorId connectorVersionId {}) id }

/-- `assign_connector_to_slot`. -/
def assignConnectorToSlot (ctype connectorId : String) (connectorVersionId : Option String) :
    Except HttpError App :=
  match s.bindings.get? ctype with
  | none => .error ⟨404, s!"Connector slot for type '{ctype}' not found on this app"⟩
  | some b =>
    if b.isOrphaned then
      .error ⟨409, s!"Slot '{ctype}' is orphaned (not declared by the current app version). " ++
        "Delete it or upload a version that declares it."⟩
    else (connectorOf c connectorId ctype "slot expects").map fun connector =>
      s.fillSlot ctype connector.id connectorVersionId

/-- `add_app_connector`. -/
def addAppConnector (ctype connectorId : String) (connectorVersionId : Option String) :
    Except HttpError App :=
  match s.bindings.get? ctype with
  | some _ => .error ⟨409, s!"Connector type '{ctype}' already bound on this app"⟩
  | none => (connectorOf c connectorId ctype "requested").map fun connector =>
    s.addSlot ctype connector.id connectorVersionId

/-- `update_app_connector`. -/
def updateAppConnector (ctype connectorId : String) (connectorVersionId : Option String) :
    Except HttpError App :=
  match s.bindings.get? ctype with
  | none => .error ⟨404, "Connector binding not found"⟩
  | some _ => .ok (s.fillSlot ctype connectorId connectorVersionId)

/-- `delete_app_connector`. -/
def deleteAppConnector (ctype : String) : Except HttpError App :=
  match s.bindings.get? ctype with
  | none => .error ⟨404, "Connector binding not found"⟩
  | some _ => .ok { s with bindings := s.bindings.erase ctype }

/-! ### Runs -/

/-- What happens. -/
inductive Action
  | upload (source entryClass : String) (setLatest : Bool)
  | edit (id : ℕ) (source entryClass : Option String)
  | setLatest (id : ℕ)
  | clone (id : ℕ)
  | delete (id count : ℕ)
  | assign (ctype connectorId : String) (connectorVersionId : Option String)
  | addConnector (ctype connectorId : String) (connectorVersionId : Option String)
  | updateConnector (ctype connectorId : String) (connectorVersionId : Option String)
  | deleteConnector (ctype : String)

def request : Action → Except HttpError App
  | .upload source entryClass setLatest => s.createAppVersion c source entryClass setLatest
  | .edit id source entryClass => s.updateAppVersion id source entryClass
  | .setLatest id => s.setLatestVersion id
  | .clone id => s.cloneAppVersion id
  | .delete id count => s.deleteAppVersion id count
  | .assign ctype connectorId version => s.assignConnectorToSlot c ctype connectorId version
  | .addConnector ctype connectorId version => s.addAppConnector c ctype connectorId version
  | .updateConnector ctype connectorId version => s.updateAppConnector ctype connectorId version
  | .deleteConnector ctype => s.deleteAppConnector ctype

def step (a : Action) : Option App := (s.request c a).toOption

/-- The latest version declares types. -/
def Declares (types : List String) : Prop :=
  ∃ id v, s.versions.get? id = some v ∧ v.isLatest = true ∧ declaredTypes c v = some types

/-- **The slots follow the latest version**: the slots that are not orphaned are those of the types
that its source declares, if it declares them. -/
def Matching : Prop :=
  ∀ types, s.Declares c types → ∀ ctype, ctype ∈ types ↔
    ∃ b, s.bindings.get? ctype = some b ∧ b.isOrphaned = false

/-- The connector in a slot. -/
def chosen (ctype : String) : Option String := (s.bindings.get? ctype).bind (·.connectorId)

/-- The type whose connector is chosen. -/
def Action.chooses : Action → Option String
  | .assign ctype _ _ | .updateConnector ctype _ _ => some ctype
  | _ => none

/-- **No connector is dropped** that has been chosen for a type that stays declared. -/
def KeepsChosen (a : Action) (s' : App) : Prop :=
  ∀ types types' ctype connector, s.Declares c types → ctype ∈ types → s'.Declares c types' →
    ctype ∈ types' → s.chosen ctype = some connector →
      s'.chosen ctype = some connector ∨ a.chooses = some ctype

/-! ### The condition -/

/-- The slots that are not orphaned are of these types. -/
def SameTypes (types : List String) : Prop :=
  (∀ ctype ∈ types, ∃ b ∈ s.bindings.get? ctype, b.isOrphaned = false) ∧
    ∀ e ∈ s.bindings.rows, e.2.isOrphaned = false → e.1 ∈ types
  deriving Decidable

def Undeclared : Prop := ∀ e ∈ s.versions.rows, e.2.isLatest = true → declaredTypes c e.2 = none
  deriving Decidable

/-- **The condition**: the latest version is edited so that it still declares the types of the
slots, or none; a version is made the latest only if it does; and slots are added, or deleted before
they are orphaned, only while no types are declared. -/
def Keeps : Action → Prop
  | .edit id source entryClass => ∀ v ∈ s.versions.get? id, v.isLatest = true →
      ∀ types ∈ declaredTypes c (v.edit source entryClass), s.SameTypes types
  | .setLatest id => ∀ v ∈ s.versions.get? id, ∀ types ∈ declaredTypes c v, s.SameTypes types
  | .addConnector _ _ _ => s.Undeclared c
  | .deleteConnector ctype => (∀ b ∈ s.bindings.get? ctype, b.isOrphaned = true) ∨ s.Undeclared c
  | .upload _ _ _ | .clone _ | .delete _ _ | .assign _ _ _ | .updateConnector _ _ _ => True

instance : ∀ a, Decidable (s.Keeps c a)
  | .edit id _ _ => inferInstanceAs (Decidable (∀ v ∈ s.versions.get? id, _ →
      ∀ types ∈ declaredTypes c _, _))
  | .setLatest id => inferInstanceAs (Decidable (∀ v ∈ s.versions.get? id,
      ∀ types ∈ declaredTypes c _, _))
  | .addConnector _ _ _ => inferInstanceAs (Decidable (s.Undeclared c))
  | .deleteConnector ctype => inferInstanceAs (Decidable ((∀ b ∈ s.bindings.get? ctype, _) ∨ _))
  | .upload _ _ _ | .clone _ | .delete _ _ | .assign _ _ _ | .updateConnector _ _ _ =>
    inferInstanceAs (Decidable True)

/-! ### Slots that follow a declaration -/

section Matching

variable {c : Setting} {s : App} {a : Action}

theorem get?_reconcile (declared : List String) (ctype : String) :
    (s.reconcile c declared).get? ctype = (if ctype ∈ declared then
        some ((s.bindings.get? ctype).getD { connectorId := autoConnector c ctype })
      else s.bindings.get? ctype).map fun b => { b with isOrphaned := ctype ∉ declared } := by
  rw [reconcile, Table.get?_mapRows, Table.get?_foldl_upsert]

theorem mem_declared_iff (declared : List String) (ctype : String) :
    ctype ∈ declared ↔ ∃ b, (s.reconcile c declared).get? ctype = some b ∧ b.isOrphaned = false :=
    by
  rw [get?_reconcile]
  constructor
  · intro hmem
    rw [if_pos hmem]
    exact ⟨_, rfl, decide_eq_false fun hnot => hnot hmem⟩
  · rintro ⟨b, hb, horphaned⟩
    obtain ⟨b', -, rfl⟩ := map_eq_some_iff.1 hb
    exact not_not.1 (of_decide_eq_false horphaned)

theorem chosen_reconcile {declared : List String} (h : s.chosen ctype = some connector) :
    ((s.reconcile c declared).get? ctype).bind (·.connectorId) = some connector := by
  obtain ⟨b, hb, hconnector⟩ := bind_eq_some_iff.1 h
  rw [get?_reconcile, hb, getD_some, ite_self]
  exact hconnector

theorem SameTypes.mem_iff (h : s.SameTypes types) (ctype : String) :
    ctype ∈ types ↔ ∃ b, s.bindings.get? ctype = some b ∧ b.isOrphaned = false := by
  constructor
  · intro hmem
    obtain ⟨b, hb, horphaned⟩ := h.1 ctype hmem
    exact ⟨b, hb, horphaned⟩
  · rintro ⟨b, hb, horphaned⟩
    exact h.2 (ctype, b) (Table.mem_rows.2 hb) horphaned

theorem Undeclared.not_declares (h : s.Undeclared c) (types : List String) : ¬s.Declares c types :=
    by
  rintro ⟨id, v, hv, hlatest, htypes⟩
  rw [h (id, v) (Table.mem_rows.2 hv) hlatest] at htypes
  cases htypes

theorem Matching.congr (h : s.Matching c)
    (hdeclares : ∀ types, s'.Declares c types → s.Declares c types)
    (hbindings : ∀ ctype, (s'.bindings.get? ctype).map (·.isOrphaned) =
      (s.bindings.get? ctype).map (·.isOrphaned)) : s'.Matching c := by
  intro types htypes ctype
  have heq : (∃ b, s'.bindings.get? ctype = some b ∧ b.isOrphaned = false) ↔
      ∃ b, s.bindings.get? ctype = some b ∧ b.isOrphaned = false := by
    rw [← map_eq_some_iff, ← map_eq_some_iff, hbindings ctype]
  exact (h types (hdeclares types htypes) ctype).trans heq.symm

variable {id : ℕ}

theorem declares_markLatest (h : (s.markLatest (some id)).Declares c types) :
    ∃ v, s.versions.get? id = some v ∧ declaredTypes c v = some types := by
  obtain ⟨id', v', hv', hlatest, htypes⟩ := h
  rw [markLatest, Table.get?_mapRows] at hv'
  obtain ⟨v, hv, rfl⟩ := map_eq_some_iff.1 hv'
  obtain rfl := some.inj (of_decide_eq_true hlatest)
  exact ⟨v, hv, htypes⟩

theorem declares_addVersion (hv : v.isLatest = false)
    (h : (s.addVersion v).Declares c types) : s.Declares c types := by
  obtain ⟨id, v', hv', hlatest, htypes⟩ := h
  rw [addVersion, Table.get?_upsert, Table.get?_fresh] at hv'
  split at hv'
  · obtain rfl := some.inj hv'
    rw [map_none, getD_none, hv] at hlatest
    cases hlatest
  · exact ⟨id, v', hv', hlatest, htypes⟩

theorem declares_addLatest (h : ((s.markLatest none).addVersion v).Declares c types) :
    declaredTypes c v = some types := by
  obtain ⟨id, v', hv', hlatest, htypes⟩ := h
  rw [addVersion, Table.get?_upsert, Table.get?_fresh] at hv'
  split at hv'
  · obtain rfl := some.inj hv'
    exact htypes
  · rw [markLatest, Table.get?_mapRows] at hv'
    obtain ⟨v'', -, rfl⟩ := map_eq_some_iff.1 hv'
    exact absurd (of_decide_eq_true hlatest) (some_ne_none id)

theorem declaredTypes_uploaded (source entryClass : String) (isLatest : Bool) :
    declaredTypes c (.uploaded source entryClass isLatest) =
      (extractRequiredConnectors c source entryClass).toOption.join := rfl

/-! ### What the requests do -/

theorem createAppVersion_spec (hs : s.createAppVersion c source entryClass setLatest = .ok s') :
    (∃ t, t = (s.markLatest none).addVersion (.uploaded source entryClass true) ∧
      ((extractRequiredConnectors c source entryClass = .ok none ∧ s' = t) ∨
        ∃ declared, extractRequiredConnectors c source entryClass = .ok (some declared) ∧
          s' = { t with bindings := s.reconcile c declared })) ∨
      s' = s.addVersion (.uploaded source entryClass false) := by
  rw [createAppVersion] at hs
  split at hs
  · left
    rw [syncConnectorSlots] at hs
    split at hs
    · cases hs
    · cases hs
    · cases hs
    next hnone =>
      cases hs
      exact ⟨_, rfl, .inl ⟨hnone, rfl⟩⟩
    next declared hsome =>
      cases hs
      exact ⟨_, rfl, .inr ⟨declared, hsome, rfl⟩⟩
  · cases hs
    exact .inr rfl

theorem setLatestVersion_spec (hs : s.setLatestVersion id = .ok s') :
    s' = s.markLatest (some id) := by
  rw [setLatestVersion] at hs
  split at hs
  · cases hs
  · cases hs
    rfl

theorem updateAppVersion_spec {source entryClass : Option String}
    (hs : s.updateAppVersion id source entryClass = .ok s') : s' =
    { s with versions := s.versions.modify id fun v => v.edit source entryClass } := by
  rw [updateAppVersion] at hs
  split at hs
  · cases hs
  · cases hs
    rfl

theorem cloneAppVersion_spec (hs : s.cloneAppVersion id = .ok s') :
    ∃ v : AppVersion, v.isLatest = false ∧ s' = s.addVersion v := by
  rw [cloneAppVersion] at hs
  split at hs
  · cases hs
  · cases hs
    exact ⟨_, rfl, rfl⟩

theorem deleteAppVersion_spec {count : ℕ} (hs : s.deleteAppVersion id count = .ok s') :
    s' = { s with versions := s.versions.erase id } := by
  rw [deleteAppVersion] at hs
  split at hs
  · cases hs
  · split at hs
    · cases hs
    · cases hs
      rfl

theorem assignConnectorToSlot_spec
    (hs : s.assignConnectorToSlot c ctype connectorId connectorVersionId = .ok s') :
    ∃ connector, s' = s.fillSlot ctype connector connectorVersionId := by
  rw [assignConnectorToSlot] at hs
  split at hs
  · cases hs
  · split at hs
    · cases hs
    · cases hconnector : connectorOf c connectorId ctype "slot expects" with
      | error e =>
        rw [hconnector] at hs
        cases hs
      | ok connector =>
        rw [hconnector] at hs
        cases hs
        exact ⟨connector.id, rfl⟩

theorem updateAppConnector_spec
    (hs : s.updateAppConnector ctype connectorId connectorVersionId = .ok s') :
    s' = s.fillSlot ctype connectorId connectorVersionId := by
  rw [updateAppConnector] at hs
  split at hs
  · cases hs
  · cases hs
    rfl

theorem addAppConnector_spec
    (hs : s.addAppConnector c ctype connectorId connectorVersionId = .ok s') :
    ∃ connector, s' = s.addSlot ctype connector connectorVersionId := by
  rw [addAppConnector] at hs
  split at hs
  · cases hs
  · cases hconnector : connectorOf c connectorId ctype "requested" with
    | error e =>
      rw [hconnector] at hs
      cases hs
    | ok connector =>
      rw [hconnector] at hs
      cases hs
      exact ⟨connector.id, rfl⟩

theorem deleteAppConnector_spec (hs : s.deleteAppConnector ctype = .ok s') : s' =
    { s with bindings := s.bindings.erase ctype } := by
  rw [deleteAppConnector] at hs
  split at hs
  · cases hs
  · cases hs
    rfl

/-! ### Steps -/

theorem Matching.createAppVersion
    (h : s.Matching c) (hs : s.createAppVersion c source entryClass setLatest = .ok s') :
    s'.Matching c := by
  rcases createAppVersion_spec hs with ⟨_, rfl, hlatest⟩ | rfl
  · rcases hlatest with ⟨hnone, rfl⟩ | ⟨declared, hsome, rfl⟩
    · intro types htypes
      have hdeclared := declares_addLatest htypes
      rw [declaredTypes_uploaded, hnone] at hdeclared
      cases hdeclared
    · intro types htypes ctype
      have hdeclared := declares_addLatest htypes
      rw [declaredTypes_uploaded, hsome] at hdeclared
      obtain rfl : declared = types := some.inj hdeclared
      exact mem_declared_iff declared ctype
  · exact h.congr (fun types htypes => declares_addVersion rfl htypes) fun _ => rfl

theorem Matching.edit (h : s.Matching c) {source entryClass : Option String}
    (hk : ∀ v ∈ s.versions.get? id, v.isLatest = true →
      ∀ types ∈ declaredTypes c (v.edit source entryClass), s.SameTypes types) :
    Matching c { s with versions := s.versions.modify id fun v => v.edit source entryClass } := by
  rintro types ⟨id', v', hv', hlatest, htypes⟩ ctype
  rw [Table.get?_modify] at hv'
  split at hv'
  next hid =>
    obtain ⟨v, hv, rfl⟩ := map_eq_some_iff.1 hv'
    exact (hk v (hid ▸ hv) hlatest types htypes).mem_iff ctype
  · exact h types ⟨id', v', hv', hlatest, htypes⟩ ctype

theorem Matching.erase (h : s.Matching c) (id : ℕ) : Matching c
    { s with versions := s.versions.erase id } := by
  refine h.congr (fun types htypes => ?_) fun _ => rfl
  obtain ⟨id', v', hv', hlatest, hdeclared⟩ := htypes
  rw [Table.get?_erase] at hv'
  split at hv'
  · cases hv'
  · exact ⟨id', v', hv', hlatest, hdeclared⟩

theorem Matching.fillSlot (h : s.Matching c) (ctype connectorId : String)
    (connectorVersionId : Option String) :
    Matching c (s.fillSlot ctype connectorId connectorVersionId) := by
  refine h.congr (fun _ htypes => htypes) fun ctype' => ?_
  rw [App.fillSlot, Table.get?_modify]
  split
  · rw [Option.map_map]
    rfl
  · rfl

theorem Matching.eraseSlot (h : s.Matching c)
    (horphaned : ∀ b ∈ s.bindings.get? ctype, b.isOrphaned = true) : Matching c
    { s with bindings := s.bindings.erase ctype } := by
  intro types htypes ctype'
  rw [h types htypes ctype', Table.get?_erase]
  split
  next heq =>
    constructor
    · rintro ⟨b, hb, hb'⟩
      rw [horphaned b (heq ▸ hb)] at hb'
      cases hb'
    · rintro ⟨b, hb, -⟩
      cases hb
  · exact Iff.rfl

theorem Undeclared.matching (h : s.Undeclared c) (bindings : Table String AppConnectorBinding) :
    Matching c { s with bindings } := by
  intro types htypes
  exact absurd htypes (h.not_declares types)

theorem Matching.step (h : s.Matching c) (hk : s.Keeps c a)
    (hs : s.request c a = .ok s') : s'.Matching c := by
  cases a with
  | upload source entryClass setLatest => exact h.createAppVersion hs
  | edit id source entryClass =>
    rw [updateAppVersion_spec hs]
    exact h.edit hk
  | setLatest id =>
    rw [setLatestVersion_spec hs]
    intro types htypes ctype
    obtain ⟨v, hv, hdeclared⟩ := declares_markLatest htypes
    exact (hk v hv types hdeclared).mem_iff ctype
  | clone id =>
    obtain ⟨v, hv, rfl⟩ := cloneAppVersion_spec hs
    exact h.congr (fun types htypes => declares_addVersion hv htypes) fun _ => rfl
  | delete id count =>
    rw [deleteAppVersion_spec hs]
    exact h.erase id
  | assign ctype connectorId version =>
    obtain ⟨connector, rfl⟩ := assignConnectorToSlot_spec hs
    exact h.fillSlot ctype connector version
  | addConnector ctype connectorId version =>
    obtain ⟨connector, rfl⟩ := addAppConnector_spec hs
    exact Undeclared.matching hk _
  | updateConnector ctype connectorId version =>
    rw [updateAppConnector_spec hs]
    exact h.fillSlot ctype connectorId version
  | deleteConnector ctype =>
    rw [deleteAppConnector_spec hs]
    rcases hk with horphaned | hk
    · exact h.eraseSlot horphaned
    · exact hk.matching _

theorem chosen_fillSlot {ctype' : String} (h : s.chosen ctype = some connector) :
    (s.fillSlot ctype' connectorId connectorVersionId).chosen ctype = some connector ∨
      some ctype' = some ctype := by
  rw [chosen, fillSlot, Table.get?_modify]
  split
  next heq => exact .inr (heq ▸ rfl)
  · exact .inl h

theorem Matching.keepsChosen (h : s.Matching c) (hk : s.Keeps c a)
    (hs : s.request c a = .ok s') : s.KeepsChosen c a s' := by
  intro types types' ctype connector htypes hmem _ _ hchosen
  cases a with
  | upload source entryClass setLatest =>
    left
    rcases createAppVersion_spec hs with ⟨_, rfl, ⟨-, rfl⟩ | ⟨declared, -, rfl⟩⟩ | rfl
    · exact hchosen
    · exact chosen_reconcile hchosen
    · exact hchosen
  | edit id source entryClass =>
    rw [updateAppVersion_spec hs]
    exact .inl hchosen
  | setLatest id =>
    rw [setLatestVersion_spec hs]
    exact .inl hchosen
  | clone id =>
    obtain ⟨v, -, rfl⟩ := cloneAppVersion_spec hs
    exact .inl hchosen
  | delete id count =>
    rw [deleteAppVersion_spec hs]
    exact .inl hchosen
  | assign ctype' connectorId version =>
    obtain ⟨connector', rfl⟩ := assignConnectorToSlot_spec hs
    exact chosen_fillSlot hchosen
  | addConnector ctype' connectorId version => exact absurd htypes (Undeclared.not_declares hk types)
  | updateConnector ctype' connectorId version =>
    rw [updateAppConnector_spec hs]
    exact chosen_fillSlot hchosen
  | deleteConnector ctype' =>
    left
    rcases hk with horphaned | hk
    · rw [deleteAppConnector_spec hs, chosen, Table.get?_erase, if_neg]
      · exact hchosen
      · rintro rfl
        obtain ⟨b, hb, hb'⟩ := (h types htypes ctype).1 hmem
        rw [horphaned b hb] at hb'
        cases hb'
    · exact absurd htypes (hk.not_declares types)

end Matching

end App

/-! ### Runs -/

open App

/-- **Connector slots follow the latest version**: after every run whose steps all meet the
condition they do, and no further step under the condition drops a connector of a type that stays
declared. -/
theorem matching_of_run {c : Setting} {s : App} (h : Run (step c) (Keeps c) {} s) :
    s.Matching c ∧ ∀ a s', s.Keeps c a → s.step c a = some s' → s.KeepsChosen c a s' := by
  have hok {s s' : App} {a : Action} (hs : s.step c a = some s') : s.request c a = .ok s' := by
    rw [App.step] at hs
    cases hrequest : s.request c a with
    | error e =>
      rw [hrequest] at hs
      cases hs
    | ok t =>
      rw [hrequest] at hs
      cases hs
      rfl
  have hinv : s.Matching c := by
    refine h.invariant (I := Matching c) ?_ fun hinv hk hs => hinv.step hk (hok hs)
    rintro types ⟨id, v, hv, -⟩
    cases hv
  exact ⟨hinv, fun a s' hk hs => hinv.keepsChosen hk (hok hs)⟩

/-- A source that declares some types. -/
def pollerClass (types : List String) : List ClassDef :=
  [⟨"Poller", [⟨["required_connectors"], .sequence (types.map .str)⟩]⟩]

/-- Three sources, and a connector of each of two types. -/
def threeSources : Setting where
  parse source :=
    if source = "snmp only" then .ok (pollerClass ["snmp"])
    else if source = "ssh only" then .ok (pollerClass ["ssh"])
    else if source = "both" then .ok (pollerClass ["snmp", "ssh"])
    else .ok [⟨"Poller", []⟩]
  connectors := [⟨"c1", "SNMP v2", "snmp"⟩, ⟨"c2", "SSH", "ssh"⟩, ⟨"c3", "SNMP v3", "snmp"⟩]

/-- Two versions are uploaded, another connector is chosen, and the first version is cloned, made
the latest again, and deleted as the only one that declares the types. -/
theorem matching_of_run_snmp : ∃ s : App, s.bindings.rows =
    [("snmp", ⟨some "c3", none, false⟩), ("ssh", ⟨some "c2", none, true⟩)] ∧
      s.Declares threeSources ["snmp"] ∧ s.Matching threeSources ∧
        ∀ a s', s.Keeps threeSources a → s.step threeSources a = some s' →
          s.KeepsChosen threeSources a s' := by
  have h : ∃ s ∈ replay (step threeSources) (Keeps threeSources) {}
      [.upload "both" "Poller" false, .assign "snmp" "c3" none, .upload "snmp only" "Poller" true,
        .clone 1, .setLatest 2, .edit 2 (some "legacy") none, .edit 2 (some "snmp only") none,
        .delete 1 0], s.bindings.rows =
          [("snmp", ⟨some "c3", none, false⟩), ("ssh", ⟨some "c2", none, true⟩)] ∧
            ∃ v ∈ s.versions.get? 2, v.isLatest = true ∧
              declaredTypes threeSources v = some ["snmp"] := by
    decide +kernel
  obtain ⟨s, hs, hrows, v, hv, hlatest, htypes⟩ := h
  exact ⟨s, hrows, ⟨2, v, hv, hlatest, htypes⟩, matching_of_run (run_of_replay hs)⟩

/-- **Slots that do not follow the latest version.** The latest version is switched back to an older
one, and its source is edited; the slots stay those of the last upload. -/
theorem not_matching : (∃ s, Run (step threeSources) (fun _ _ => True) {} s ∧
      s.Declares threeSources ["snmp"] ∧ s.bindings.rows.map (fun e => (e.1, e.2.isOrphaned)) =
        [("snmp", true), ("ssh", false)] ∧ ¬s.Matching threeSources) ∧
    (∃ s, Run (step threeSources) (fun _ _ => True) {} s ∧
      s.Declares threeSources ["ssh"] ∧ s.bindings.rows.map (fun e => (e.1, e.2.isOrphaned)) =
        [("snmp", false)] ∧ ¬s.Matching threeSources) := by
  constructor
  · have h : ∃ s ∈ replay (step threeSources) (fun _ _ => True) {}
        [.upload "snmp only" "Poller" true, .upload "ssh only" "Poller" true, .setLatest 0],
        s.bindings.rows = [("snmp", ⟨none, none, true⟩), ("ssh", ⟨some "c2", none, false⟩)] ∧
          ∃ v ∈ s.versions.get? 0, v.isLatest = true ∧
            declaredTypes threeSources v = some ["snmp"] := by
      decide +kernel
    obtain ⟨s, hs, hrows, v, hv, hlatest, htypes⟩ := h
    refine ⟨s, run_of_replay hs, ⟨0, v, hv, hlatest, htypes⟩, by rw [hrows]; rfl, fun hmatch => ?_⟩
    obtain ⟨b, hb, horphaned⟩ :=
      (hmatch ["snmp"] ⟨0, v, hv, hlatest, htypes⟩ "snmp").1 List.mem_cons_self
    rw [Table.get?, hrows] at hb
    cases hb
    cases horphaned
  · have h : ∃ s ∈ replay (step threeSources) (fun _ _ => True) {}
        [.upload "snmp only" "Poller" true, .edit 0 (some "ssh only") none],
        s.bindings.rows = [("snmp", ⟨none, none, false⟩)] ∧
          ∃ v ∈ s.versions.get? 0, v.isLatest = true ∧
            declaredTypes threeSources v = some ["ssh"] := by
      decide +kernel
    obtain ⟨s, hs, hrows, v, hv, hlatest, htypes⟩ := h
    refine ⟨s, run_of_replay hs, ⟨0, v, hv, hlatest, htypes⟩, by rw [hrows]; rfl, fun hmatch => ?_⟩
    obtain ⟨b, hb, -⟩ := (hmatch ["ssh"] ⟨0, v, hv, hlatest, htypes⟩ "ssh").1 List.mem_cons_self
    rw [Table.get?, hrows] at hb
    cases hb

end MonCTL.Apps.ConnectorSlots
