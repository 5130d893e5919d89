import Mathlib.Data.List.Dedup
import Mathlib.Data.List.Sort
import MonCTL.Lib.Runs
import MonCTL.Lib.Table

/-!
# Audit Rows and Committed Changes

During a request the session's listener looks at the objects that are about to be flushed, and
makes audit rows of them; the middleware forwards the rows when the request ends, whatever has
become of the transaction. A row thus tells what has been flushed, while what counts is what has
been committed.

The session is the one of the ORM: its new objects, and for each persistent one its attributes,
with what they were when they were assigned for the first time since the last flush. Of an object
that has not been loaded, or has been expired, no attribute is known. A savepoint remembers the
rows, and which objects have been flushed since. What a flush does beyond its objects (orphans,
cascades), and what a statement does that is not about objects, is a statement of its own. Nothing
else writes to the database in between, and no object takes the place of one that is deleted in
the same flush. Recorded are the commits.
-/

namespace MonCTL.Audit.Capture

open List
open Option (map_eq_some_iff bind_eq_some_iff)

/-! ### Tables and objects -/

/-- `TABLE_TO_RESOURCE`. -/
def tableToResource : List (String × String) :=
  [("devices", "device"), ("device_categories", "device_category"), ("device_types", "device_type"),
    ("apps", "app"), ("app_versions", "app_version"), ("app_assignments", "assignment"),
    ("credentials", "credential"), ("credential_keys", "credential_key"),
    ("credential_templates", "credential_template"), ("credential_types", "credential_type"),
    ("credential_values", "credential_value"), ("connectors", "connector"),
    ("connector_versions", "connector_version"),
    ("users", "user"), ("user_tenants", "user_tenant"), ("roles", "role"),
    ("role_permissions", "role_permission"), ("tenants", "tenant"),
    ("alert_definitions", "alert_definition"), ("threshold_variables", "threshold_variable"),
    ("threshold_overrides", "threshold_override"), ("incident_rules", "incident_rule"),
    ("actions", "action"), ("automations", "automation"), ("automation_steps", "automation_step"),
    ("templates", "template"), ("device_category_template_bindings", "template_binding"),
    ("device_type_template_bindings", "template_binding"), ("packs", "pack"),
    ("python_modules", "python_module"), ("snmp_oids", "snmp_oid"), ("label_keys", "label_key"),
    ("collectors", "collector"), ("collector_groups", "collector_group"),
    ("collector_clusters", "collector_cluster"),
    ("system_settings", "system_setting"),
    ("data_retention_overrides", "data_retention_override"),
    ("tls_certificates", "tls_certificate"), ("api_keys", "api_key"),
    ("assignment_credential_overrides", "assignment_credential_override"),
    ("upgrade_packages", "upgrade_package"), ("upgrade_jobs", "upgrade_job"),
    ("os_install_jobs", "os_install_job"), ("os_install_audit", "os_install_audit")]

/-- `resource_type_for`. -/
def resourceTypeFor (tablename : String) : Option String := Dict.get? tableToResource tablename

/-- A row of the database: its table and the text of its key. -/
structure Ident where
  table : String
  id : String
  deriving DecidableEq

/-- The values of columns. -/
abbrev Values (V : Type) := String → Option V

/-- The columns that a table is mapped to, and the text of values. -/
structure Mapping (V : Type) where
  columns : String → List String
  toJson : List (String × Option V) → String

variable {V : Type} [DecidableEq V]

/-- The attributes of an object: their values, and for each one that has been assigned since the
last flush what it was before, if that was known. -/
structure Attributes (V : Type) where
  dict : Values V := fun _ => none
  committed : String → Option (Option V) := fun _ => none

namespace Attributes

def assign (o : Attributes V) (col : String) (v : V) : Attributes V where
  dict := Function.update o.dict col (some v)
  committed := Function.update o.committed col (some ((o.committed col).getD (o.dict col)))

/-- `history.has_changes()`. -/
def hasChanges (o : Attributes V) (col : String) : Bool :=
  match o.committed col with
  | none => false
  | some none => true
  | some (some original) => o.dict col ≠ some original

/-- What a flush makes of a row. -/
def write (o : Attributes V) (row : Values V) : Values V := fun col =>
  if o.hasChanges col then o.dict col else row col

end Attributes

/-- An object of the session: a new one, with whether it has been given its `id`, or a persistent
one, with whether it is to be deleted. -/
inductive Instance (V : Type)
  | new (values : Values V) (hasId : Bool)
  | persistent (attrs : Attributes V) (deleted : Bool)

omit [DecidableEq V] in
/-- An object is new, is kept, or is to be deleted. -/
@[elab_as_elim]
theorem Instance.byKind {motive : Instance V → Prop}
    (new : ∀ values hasId, motive (.new values hasId)) (kept : ∀ o, motive (.persistent o false))
    (deleted : ∀ o, motive (.persistent o true)) (inst : Instance V) : motive inst := by
  cases inst with
  | new values hasId => exact new values hasId
  | persistent o isDeleted => cases isDeleted with
    | false => exact kept o
    | true => exact deleted o

/-- The rows of the database. -/
abbrev Rows (V : Type) := Table Ident (Values V)

/-! ### The listener -/

/-- What has been done to an object. -/
inductive RowAction
  | create
  | update
  | delete
  deriving DecidableEq

/-- An audit row. What it says about the request is left out. -/
structure AuditRow where
  resourceType : String
  resourceId : String
  action : RowAction
  oldValues : String
  newValues : String
  changedFields : List String

namespace Mapping

variable (m : Mapping V)

/-- `_model_to_dict`. -/
def modelToDict (table : String) (getattr : Values V) : List (String × Option V) :=
  (m.columns table).map fun col => (col, getattr col)

/-- `_old_values_from_history`. -/
def oldValuesFromHistory (table : String) (o : Attributes V) : List (String × Option V) :=
  (m.columns table).filterMap fun col =>
    if o.hasChanges col then ((o.committed col).join).map fun old => (col, some old) else none

/-- `_changed_new_values`. -/
def changedNewValues (table : String) (o : Attributes V) : List (String × Option V) :=
  ((m.columns table).filter o.hasChanges).map fun col => (col, o.dict col)

omit [DecidableEq V] in
/-- `_build_row`. -/
def buildRow (action : RowAction) (ident : Ident) (resourceId : String)
    (old new : List (String × Option V)) : Option AuditRow :=
  (resourceTypeFor ident.table).map fun resourceType => {
    resourceType, resourceId, action
    oldValues := if old.isEmpty then "\x7b\x7d" else m.toJson old
    newValues := if new.isEmpty then "\x7b\x7d" else m.toJson new
    changedFields := ((old.map Prod.fst ++ new.map Prod.fst).dedup).insertionSort (· ≤ ·) }

/-- The row that the listener makes of an object in one of its three loops. An attribute that a
deleted object has not loaded is read from the database. -/
def captureOf (tx : Rows V) (ident : Ident) : Instance V → RowAction → Option AuditRow
  | .new values hasId, .create =>
    m.buildRow .create ident (if hasId then ident.id else "") []
      (m.modelToDict ident.table values)
  | .persistent o false, .update =>
    let old := m.oldValuesFromHistory ident.table o
    let new := m.changedNewValues ident.table o
    if old.isEmpty ∧ new.isEmpty then none else m.buildRow .update ident ident.id old new
  | .persistent o true, .delete =>
    m.buildRow .delete ident ident.id
      (m.modelToDict ident.table fun col =>
        (o.dict col).or ((tx.get? ident).bind fun row => row col)) []
  | _, _ => none

end Mapping

/-! ### The session -/

/-- A savepoint: the rows at its time, and the objects that have been flushed since. -/
structure Frame (V : Type) where
  tx : Rows V
  touched : List Ident := []

/-- A commit, with the number of its transaction and the rows before and after. -/
structure Commit (V : Type) where
  number : ℕ
  before : Rows V
  after : Rows V

/-- An audit row, with the number of the transaction in which it was made and the object. -/
structure Captured where
  number : ℕ
  ident : Ident
  row : AuditRow

/-- A request: what has been committed, what its transaction sees, the savepoints, the session, and
the `mutations` of the context. -/
structure State (V : Type) where
  base : Rows V
  tx : Rows V
  frames : List (Frame V) := []
  session : Table Ident (Instance V) := {}
  number : ℕ := 0
  mutations : List Captured := []
  forwarded : Option (List Captured) := none
  closed : Bool := false
  commits : List (Commit V) := []

/-- What happens. -/
inductive Action (V : Type)
  | load (ident : Ident)
  | refresh (ident : Ident)
  | add (ident : Ident) (values : Values V) (hasId : Bool)
  | assign (ident : Ident) (col : String) (v : V)
  | delete (ident : Ident)
  | flush
  /-- A flush that the database turns down. -/
  | flushFails
  | savepoint
  | release
  | rollbackTo
  | rollback
  | commit
  /-- A statement that is not about objects, or a cascade, changes a row. -/
  | execute (ident : Ident) (row : Option (Values V))
  /-- The middleware forwards the rows. -/
  | forward
  | close

namespace State

variable (m : Mapping V) (s : State V)

/-- What `_on_before_flush` appends. -/
def onBeforeFlush : List (Ident × AuditRow) :=
  [RowAction.create, .update, .delete].flatMap fun action =>
    s.session.rows.filterMap fun e => (m.captureOf s.tx e.1 e.2 action).map fun row => (e.1, row)

/-- The rows are appended. -/
def capture : State V :=
  { s with mutations := s.mutations ++ (s.onBeforeFlush m).map fun e => ⟨s.number, e.1, e.2⟩ }

/-- A persistent object is to be written. -/
def isDirty (table : String) (o : Attributes V) : Bool := (m.columns table).any o.hasChanges

/-- The database accepts what is written of an object. -/
def accepts (ident : Ident) : Instance V → Bool
  | .new _ _ => (s.tx.get? ident).isNone
  | .persistent o deleted => (deleted || isDirty m ident.table o) → (s.tx.get? ident).isSome

/-- What is written of an object. -/
def writeInstance (tx : Rows V) (e : Ident × Instance V) : Rows V :=
  match e.2 with
  | .new values _ => tx.upsert e.1 values fun _ => values
  | .persistent o false => tx.modify e.1 o.write
  | .persistent _ true => tx.erase e.1

/-- An object after it has been flushed. -/
def settle (_ : Ident) : Instance V → Option (Instance V)
  | .new values _ => some (.persistent { dict := values } false)
  | .persistent o false => some (.persistent { o with committed := fun _ => none } false)
  | .persistent _ true => none

/-- An object that a flush writes. -/
def touches (ident : Ident) : Instance V → Bool
  | .new _ _ => true
  | .persistent o deleted => deleted || isDirty m ident.table o

/-- The frames after objects have been flushed. -/
def touch (idents : List Ident) : List (Frame V) → List (Frame V)
  | [] => []
  | frame :: frames => { frame with touched := idents ++ frame.touched } :: frames

def flush? : Option (State V) :=
  if ∀ e ∈ s.session.rows, s.accepts m e.1 e.2 = true then
    some { s.capture m with
      tx := s.session.rows.foldl writeInstance s.tx
      session := s.session.filterMapRows settle
      frames := touch ((s.session.rows.filter fun e => touches m e.1 e.2).map Prod.fst) s.frames }
  else none

/-- An object after a rollback to a savepoint: it goes if it was new, and is expired if it has been
flushed since or has been changed. -/
def restore (touched : List Ident) (ident : Ident) : Instance V → Option (Instance V)
  | .new _ _ => none
  | .persistent o _ =>
    if ident ∈ touched ∨ ∃ col ∈ m.columns ident.table, (o.committed col).isSome = true then none
    else some (.persistent o false)

def rollback : State V :=
  { s with tx := s.base, frames := [], session := {}, number := s.number + 1 }

/-- A rollback to the last savepoint. -/
def rollbackTo (frame : Frame V) (frames : List (Frame V)) : State V :=
  { s with tx := frame.tx, frames, session := s.session.filterMapRows (restore m frame.touched) }

/-- The rollback after a flush that has failed. -/
def rollbackInner : State V :=
  match s.frames with
  | [] => s.rollback
  | frame :: frames => s.rollbackTo m frame frames

/-- The transaction is committed. -/
def commit : State V :=
  { s with
    base := s.tx
    frames := []
    number := s.number + 1
    commits := s.commits ++ [⟨s.number, s.base, s.tx⟩] }

/-- A savepoint is given up, and its changes are kept. -/
def release : List (Frame V) → Option (List (Frame V))
  | [] => none
  | frame :: frames => some (touch frame.touched frames)

/-- The session has an object. -/
def put (ident : Ident) (inst : Instance V) : State V :=
  { s with session := s.session.upsert ident inst fun _ => inst }

/-- A persistent object, of which nothing may be known. -/
def persistent? (ident : Ident) : Option (Attributes V) :=
  match s.session.get? ident with
  | some (.persistent o false) => some o
  | some _ => none
  | none => if (s.tx.get? ident).isSome then some {} else none

/-- The attributes that are not known are loaded. -/
def load (ident : Ident) : Option (State V) :=
  (s.persistent? ident).bind fun o => (s.tx.get? ident).map fun row =>
    s.put ident (.persistent { o with dict := fun col => (o.dict col).or (row col) } false)

/-- All attributes are loaded. -/
def refresh (ident : Ident) : Option (State V) :=
  (s.persistent? ident).bind fun _ => (s.tx.get? ident).map fun row =>
    s.put ident (.persistent { dict := row } false)

/-- An attribute is assigned. -/
def assign (ident : Ident) (col : String) (v : V) : Option (State V) :=
  match s.session.get? ident with
  | some (.new values hasId) =>
    some (s.put ident (.new (Function.update values col (some v)) hasId))
  | _ => (s.persistent? ident).map fun o => s.put ident (.persistent (o.assign col v) false)

def execute (ident : Ident) (row : Option (Values V)) : State V :=
  { s with tx := match row with
      | some row => s.tx.upsert ident row fun _ => row
      | none => s.tx.erase ident }

/-- What is done with the session. -/
def operate : Action V → Option (State V)
  | .load ident => s.load ident
  | .refresh ident => s.refresh ident
  | .add ident values hasId =>
    if (s.session.get? ident).isNone then some (s.put ident (.new values hasId)) else none
  | .assign ident col v => s.assign ident col v
  | .delete ident => (s.persistent? ident).map fun o => s.put ident (.persistent o true)
  | .flush => s.flush? m
  | .flushFails => some ((s.capture m).rollbackInner m)
  | .savepoint => (s.flush? m).map fun s => { s with frames := ⟨s.tx, []⟩ :: s.frames }
  | .release => (s.flush? m).bind fun s => (release s.frames).map fun frames => { s with frames }
  | .rollbackTo => match s.frames with
      | [] => none
      | frame :: frames => some (s.rollbackTo m frame frames)
  | .rollback => some s.rollback
  | .commit => (s.flush? m).map commit
  | .execute ident row => some (s.execute ident row)
  | .close => some { s.rollback with closed := true }
  | .forward => none

/-- One step. Only the middleware does something after the session has been closed. -/
def step : Action V → Option (State V)
  | .forward => if s.forwarded.isSome then none else some { s with forwarded := some s.mutations }
  | a => if s.closed then none else s.operate m a

end State

/-! ### Changes -/

/-- What a transaction has done to a row of an audited table. -/
inductive Change
  | insert
  | update (fields : List String)
  | delete

def Change.action : Change → RowAction
  | .insert => .create
  | .update _ => .update
  | .delete => .delete

/-- The change of a row, if its table is audited. -/
def Mapping.changeOf (m : Mapping V) (ident : Ident) (before after : Option (Values V)) :
    Option Change :=
  if (resourceTypeFor ident.table).isNone then none else
    match before, after with
    | none, none => none
    | none, some _ => some .insert
    | some _, none => some .delete
    | some before, some after =>
      let fields := (m.columns ident.table).filter fun col => before col ≠ after col
      if fields.isEmpty then none else some (.update fields)

/-- An audit row tells of a change: of an update, exactly the columns. -/
structure Tells (ident : Ident) (row : AuditRow) (change : Change) : Prop where
  resourceType : resourceTypeFor ident.table = some row.resourceType
  resourceId : row.resourceId = ident.id ∨ change = .insert
  action : row.action = change.action
  fields : ∀ fields, change = .update fields → ∀ col, col ∈ row.changedFields ↔ col ∈ fields

/-- The audit rows of a row: one if there has been a change, else none. -/
def Faithful (ident : Ident) (rows : List AuditRow) : Option Change → Prop
  | none => rows = []
  | some change => ∃ row, rows = [row] ∧ Tells ident row change

/-- The rows of a transaction and an object. -/
def rowsOf (mutations : List Captured) (number : ℕ) (ident : Ident) : List AuditRow :=
  (mutations.filter fun e => e.number = number ∧ e.ident = ident).map Captured.row

namespace State

variable (m : Mapping V) (s : State V)

/-- **The rows are those of the committed changes**: each one is of a transaction that has been
committed, and in each of these an object has one row, which tells of its change, or none if it has
not been changed. -/
structure Recorded : Prop where
  committed : ∀ rows, s.forwarded = some rows → s.closed = true → ∀ e ∈ rows,
    ∃ c ∈ s.commits, c.number = e.number
  changes : ∀ rows, s.forwarded = some rows → s.closed = true → ∀ c ∈ s.commits, ∀ ident,
    Faithful ident (rowsOf rows c.number ident)
      (m.changeOf ident (c.before.get? ident) (c.after.get? ident))
  distinct : (s.commits.map Commit.number).Nodup

/-- A request that starts. -/
structure IsNew : Prop where
  tx : s.tx = s.base
  mutations : s.mutations = []
  forwarded : s.forwarded = none
  closed : s.closed = false
  commits : s.commits = []

/-! ### The condition -/

/-- No row of an audited table is another one. -/
def Unchanged (before after : Rows V) : Prop :=
  ∀ ident ∈ before.rows.keys ++ after.rows.keys,
    m.changeOf ident (before.get? ident) (after.get? ident) = none
  deriving Decidable

/-- What is assigned differs from what the row has. -/
def Differs (ident : Ident) : Instance V → Prop
  | .persistent o false => ∀ col ∈ m.columns ident.table, o.hasChanges col = true →
      ∀ row ∈ s.tx.get? ident, row col ≠ o.dict col
  | _ => True

/-- A flush captures only before the rows are forwarded, only objects of which nothing has changed
in the transaction so far, and only real changes. -/
def CapturesOnce : Prop :=
  (s.forwarded.isSome = true → s.onBeforeFlush m = []) ∧
  (∀ e ∈ s.onBeforeFlush m, m.changeOf e.1 (s.base.get? e.1) (s.tx.get? e.1) = none) ∧
  ∀ e ∈ s.session.rows, (resourceTypeFor e.1.table).isSome = true → s.Differs m e.1 e.2

/-- The rows after a rollback to the last savepoint, or of the whole transaction. -/
def target : Rows V :=
  match s.frames with
  | [] => s.base
  | frame :: _ => frame.tx

/-- **The condition**: rows are captured before they are forwarded, and of an object at most once
in a transaction, with what has really changed; nothing that is rolled back has changed an audited
table; and no statement that is not about objects does. -/
def Keeps : Action V → Prop
  | .load _ | .refresh _ | .add _ _ _ | .assign _ _ _ | .delete _ | .forward => True
  | .flush | .savepoint | .release | .commit => s.CapturesOnce m
  | .flushFails => s.onBeforeFlush m = [] ∧ Unchanged m s.target s.tx
  | .rollbackTo => Unchanged m s.target s.tx
  | .rollback | .close => Unchanged m s.base s.tx
  | .execute ident row => m.changeOf ident (s.tx.get? ident) row = none

instance (ident : Ident) : ∀ inst, Decidable (s.Differs m ident inst)
  | .new _ _ => inferInstanceAs (Decidable True)
  | .persistent _ true => inferInstanceAs (Decidable True)
  | .persistent _ false =>
    inferInstanceAs (Decidable (∀ col ∈ _, _ → ∀ row ∈ s.tx.get? ident, _ ≠ _))

instance : Decidable (s.CapturesOnce m) := inferInstanceAs (Decidable (_ ∧ _ ∧ ∀ e ∈ _, _ → _))

instance : ∀ a, Decidable (s.Keeps m a)
  | .load _ | .refresh _ | .add _ _ _ | .assign _ _ _ | .delete _ | .forward =>
    inferInstanceAs (Decidable True)
  | .flush | .savepoint | .release | .commit => inferInstanceAs (Decidable (s.CapturesOnce m))
  | .flushFails => inferInstanceAs (Decidable (_ ∧ _))
  | .rollbackTo => inferInstanceAs (Decidable (Unchanged m s.target s.tx))
  | .rollback | .close => inferInstanceAs (Decidable (Unchanged m s.base s.tx))
  | .execute _ _ => inferInstanceAs (Decidable (_ = _))

end State

/-! ### Changes of a row -/

section Changes

variable {m : Mapping V} {ident : Ident}

theorem changeOf_eq_none (haudited : (resourceTypeFor ident.table).isSome = true)
    {before after : Option (Values V)} : m.changeOf ident before after = none ↔
      before = none ∧ after = none ∨ ∃ row row', before = some row ∧ after = some row' ∧
        ∀ col ∈ m.columns ident.table, row col = row' col := by
  have hnot : ¬(resourceTypeFor ident.table).isNone = true := by
    rw [Option.isNone_iff_eq_none]
    exact Option.isSome_iff_ne_none.1 haudited
  unfold Mapping.changeOf
  rw [if_neg hnot]
  cases before with
  | none => cases after with
    | none => simp
    | some row' => simp
  | some row => cases after with
    | none => simp
    | some row' =>
      have hfilter : ((m.columns ident.table).filter fun col => row col ≠ row' col).isEmpty = true ↔
          ∀ col ∈ m.columns ident.table, row col = row' col := by
        rw [List.isEmpty_iff, filter_eq_nil_iff]
        simp
      constructor
      · intro h
        dsimp only at h
        split at h
        next hnil => exact .inr ⟨row, row', rfl, rfl, hfilter.1 hnil⟩
        · cases h
      · rintro (h | ⟨_, _, ⟨⟩, ⟨⟩, h⟩)
        · cases h.1
        · exact if_pos (hfilter.2 h)

theorem changeOf_of_isNone (hnot : (resourceTypeFor ident.table).isSome = false)
    (before after : Option (Values V)) : m.changeOf ident before after = none := by
  unfold Mapping.changeOf
  rw [if_pos (by rw [← Option.not_isSome, hnot]; rfl)]

theorem changeOf_congr {before row row' : Option (Values V)}
    (h : m.changeOf ident row row' = none) :
    m.changeOf ident before row = m.changeOf ident before row' := by
  cases haudited : (resourceTypeFor ident.table).isSome with
  | false => rw [changeOf_of_isNone haudited, changeOf_of_isNone haudited]
  | true =>
    rcases (changeOf_eq_none haudited).1 h with ⟨rfl, rfl⟩ | ⟨r, r', rfl, rfl, hcols⟩
    · rfl
    · have hfilter (b : Values V) :
          ((m.columns ident.table).filter fun col => b col ≠ r col) =
            (m.columns ident.table).filter fun col => b col ≠ r' col :=
        filter_congr fun col hcol => by rw [hcols col hcol]
      cases before with
      | none => rfl
      | some b => simp only [Mapping.changeOf, hfilter]

theorem changeOf_self (row : Option (Values V)) : m.changeOf ident row row = none := by
  cases haudited : (resourceTypeFor ident.table).isSome with
  | false => exact changeOf_of_isNone haudited row row
  | true =>
    refine (changeOf_eq_none haudited).2 ?_
    cases row with
    | none => exact .inl ⟨rfl, rfl⟩
    | some row => exact .inr ⟨row, row, rfl, rfl, fun _ _ => rfl⟩

theorem changeOf_symm {row row' : Option (Values V)} (h : m.changeOf ident row row' = none) :
    m.changeOf ident row' row = none := by
  rw [changeOf_congr h]
  exact changeOf_self row'

theorem changeOf_of_unchanged {before after : Rows V} (h : State.Unchanged m before after)
    (ident : Ident) : m.changeOf ident (before.get? ident) (after.get? ident) = none := by
  by_cases hmem : ident ∈ before.rows.keys ++ after.rows.keys
  · exact h ident hmem
  · rw [mem_append, not_or] at hmem
    rw [Table.get?_eq_none.2 hmem.1, Table.get?_eq_none.2 hmem.2]
    exact changeOf_self none

end Changes

/-! ### What a flush captures -/

section Capture

variable {m : Mapping V} {ident : Ident} {tx : Rows V}

/-- The row of an object after a flush. -/
def written : Instance V → Option (Values V) → Option (Values V)
  | .new values _, _ => some values
  | .persistent o false, row => row.map o.write
  | .persistent _ true, _ => none

/-- The loop of the listener that looks at an object. -/
def loopOf : Instance V → RowAction
  | .new _ _ => .create
  | .persistent _ false => .update
  | .persistent _ true => .delete

omit [DecidableEq V] in
theorem buildRow_isSome {action : RowAction} {resourceId : String}
    {old new : List (String × Option V)} (haudited : (resourceTypeFor ident.table).isSome = true) :
    (m.buildRow action ident resourceId old new).isSome = true := by
  rw [Mapping.buildRow, Option.isSome_map]
  exact haudited

theorem mem_changed {o : Attributes V} {col : String} :
    col ∈ ((m.oldValuesFromHistory ident.table o).map Prod.fst ++
        (m.changedNewValues ident.table o).map Prod.fst).dedup.insertionSort (· ≤ ·) ↔
      col ∈ m.columns ident.table ∧ o.hasChanges col = true := by
  rw [(perm_insertionSort _ _).mem_iff, mem_dedup, mem_append]
  have hnew : col ∈ (m.changedNewValues ident.table o).map Prod.fst ↔
      col ∈ m.columns ident.table ∧ o.hasChanges col = true := by
    rw [Mapping.changedNewValues, map_map, ← mem_filter]
    simp [Function.comp_def]
  rw [hnew]
  refine or_iff_right_of_imp fun hold => ?_
  obtain ⟨e, he, rfl⟩ := List.mem_map.1 hold
  obtain ⟨col, hcol, he⟩ := List.mem_filterMap.1 he
  split at he
  next hchanges =>
    obtain ⟨old, -, rfl⟩ := map_eq_some_iff.1 he
    exact ⟨hcol, hchanges⟩
  · cases he

theorem exists_hasChanges {o : Attributes V}
    (h : ¬((m.oldValuesFromHistory ident.table o).isEmpty = true ∧
      (m.changedNewValues ident.table o).isEmpty = true)) :
    ∃ col ∈ m.columns ident.table, o.hasChanges col = true := by
  by_contra hnone
  have hcol (col : String) (hmem : col ∈ (m.oldValuesFromHistory ident.table o).map Prod.fst ++
      (m.changedNewValues ident.table o).map Prod.fst) : False := by
    refine hnone ⟨col, mem_changed.1 ?_⟩
    rwa [(perm_insertionSort _ _).mem_iff, mem_dedup]
  refine h ⟨List.isEmpty_iff.2 (List.eq_nil_iff_forall_not_mem.2 fun e he => ?_),
    List.isEmpty_iff.2 (List.eq_nil_iff_forall_not_mem.2 fun e he => ?_)⟩
  · exact hcol e.1 (mem_append_left _ (mem_map_of_mem he))
  · exact hcol e.1 (mem_append_right _ (mem_map_of_mem he))

theorem tells_of_captureOf {s : State V} {inst : Instance V} {row : AuditRow}
    {before : Option (Values V)} (h : m.captureOf s.tx ident inst (loopOf inst) = some row)
    (haccepts : s.accepts m ident inst = true)
    (hbefore : m.changeOf ident before (s.tx.get? ident) = none)
    (hdiffers : (resourceTypeFor ident.table).isSome = true → s.Differs m ident inst) :
    ∃ change, m.changeOf ident before (written inst (s.tx.get? ident)) = some change ∧
      Tells ident row change := by
  have hbuilt {action : RowAction} {resourceId : String} {old new : List (String × Option V)}
      (h : m.buildRow action ident resourceId old new = some row) :
      resourceTypeFor ident.table = some row.resourceType ∧ row.resourceId = resourceId ∧
        row.action = action ∧
        row.changedFields = (old.map Prod.fst ++ new.map Prod.fst).dedup.insertionSort (· ≤ ·) := by
    obtain ⟨resourceType, htype, rfl⟩ := map_eq_some_iff.1 h
    exact ⟨htype, rfl, rfl, rfl⟩
  induction inst using Instance.byKind with
  | new values hasId =>
    obtain ⟨htype, -, haction, -⟩ := hbuilt h
    have haudited : (resourceTypeFor ident.table).isSome = true := by rw [htype]; rfl
    have hnone : s.tx.get? ident = none := Option.isNone_iff_eq_none.1 haccepts
    rw [hnone] at hbefore
    rcases (changeOf_eq_none haudited).1 hbefore with ⟨rfl, -⟩ | ⟨_, _, -, ⟨⟩, -⟩
    refine ⟨.insert, ?_, htype, .inr rfl, haction, fun fields hfields => ?_⟩
    · unfold Mapping.changeOf
      rw [if_neg (by rw [htype]; exact Bool.false_ne_true)]
      rfl
    · cases hfields
  | deleted o =>
    obtain ⟨htype, hid, haction, -⟩ := hbuilt h
    have haudited : (resourceTypeFor ident.table).isSome = true := by rw [htype]; rfl
    have hsome : (s.tx.get? ident).isSome = true := by
      simpa only [State.accepts, Bool.true_or, decide_eq_true_eq, forall_const] using haccepts
    rcases (changeOf_eq_none haudited).1 hbefore with ⟨-, hnone⟩ | ⟨b, r, rfl, hr, -⟩
    · rw [hnone] at hsome
      cases hsome
    · refine ⟨.delete, ?_, htype, .inl hid, haction, fun fields hfields => ?_⟩
      · unfold Mapping.changeOf
        rw [if_neg (by rw [htype]; exact Bool.false_ne_true)]
        rfl
      · cases hfields
  | kept o =>
    simp only [loopOf, Mapping.captureOf] at h
    split at h
    · cases h
    next hchanged =>
      obtain ⟨htype, hid, haction, hfields⟩ := hbuilt h
      have haudited : (resourceTypeFor ident.table).isSome = true := by rw [htype]; rfl
      obtain ⟨col₀, hcol₀, hchanges₀⟩ := exists_hasChanges hchanged
      have hsome : (s.tx.get? ident).isSome = true := by
        have hdirty : State.isDirty m ident.table o = true :=
          List.any_eq_true.2 ⟨col₀, hcol₀, hchanges₀⟩
        simpa only [State.accepts, hdirty, Bool.or_true, decide_eq_true_eq, forall_const]
          using haccepts
      rcases (changeOf_eq_none haudited).1 hbefore with ⟨-, hnone⟩ | ⟨b, r, rfl, hr, hcols⟩
      · rw [hnone] at hsome
        cases hsome
      · have hdiffers := hdiffers haudited
        have hiff (col : String) (hcol : col ∈ m.columns ident.table) :
            b col ≠ o.write r col ↔ o.hasChanges col = true := by
          rw [hcols col hcol, Attributes.write]
          split
          next hchanges => exact iff_of_true (hdiffers col hcol hchanges r hr) hchanges
          next hchanges => exact iff_of_false (fun h => h rfl) hchanges
        refine ⟨.update ((m.columns ident.table).filter fun col => b col ≠ o.write r col), ?_,
          htype, .inl hid, haction, ?_⟩
        · unfold Mapping.changeOf
          rw [if_neg (by rw [htype]; exact Bool.false_ne_true), hr]
          refine if_neg fun hempty => ?_
          rw [List.isEmpty_iff, filter_eq_nil_iff] at hempty
          exact hempty col₀ hcol₀ (decide_eq_true ((hiff col₀ hcol₀).2 hchanges₀))
        · rintro _ ⟨⟩ col
          rw [hfields, mem_changed, mem_filter, decide_eq_true_eq]
          exact and_congr_right fun hcol => (hiff col hcol).symm

theorem unchanged_of_captureOf {inst : Instance V}
    (h : m.captureOf tx ident inst (loopOf inst) = none) :
    m.changeOf ident (tx.get? ident) (written inst (tx.get? ident)) = none := by
  cases haudited : (resourceTypeFor ident.table).isSome with
  | false => exact changeOf_of_isNone haudited _ _
  | true =>
    have hbuild {action : RowAction} {resourceId : String} {old new : List (String × Option V)} :
        m.buildRow action ident resourceId old new ≠ none :=
      Option.isSome_iff_ne_none.1 (buildRow_isSome haudited)
    induction inst using Instance.byKind with
    | new values hasId => exact absurd h hbuild
    | deleted o => exact absurd h hbuild
    | kept o =>
      simp only [loopOf, Mapping.captureOf] at h
      split at h
      next hempty =>
        refine (changeOf_eq_none haudited).2 ?_
        cases tx.get? ident with
        | none => exact .inl ⟨rfl, rfl⟩
        | some row =>
          refine .inr ⟨row, o.write row, rfl, rfl, fun col hcol => ?_⟩
          rw [Attributes.write, if_neg]
          intro hchanges
          have hmem := mem_changed.2 ⟨hcol, hchanges⟩
          rw [List.isEmpty_iff.1 hempty.1, List.isEmpty_iff.1 hempty.2] at hmem
          cases hmem
      · exact absurd h hbuild

end Capture

/-! ### A flush -/

section Flush

variable {m : Mapping V} {s s' : State V}

theorem get?_flushed (s : State V) (ident : Ident) :
    (s.session.rows.foldl State.writeInstance s.tx).get? ident =
      ((s.session.get? ident).map fun inst => written inst (s.tx.get? ident)).getD
        (s.tx.get? ident) := by
  refine Table.get?_foldl_rows (g := fun _ => written) (fun t e k => ?_) s.tx s.session ident
  obtain ⟨ident, inst⟩ := e
  induction inst using Instance.byKind with
  | new values hasId =>
    rw [State.writeInstance, Table.get?_upsert]
    cases t.get? ident with
    | none => rfl
    | some row => rfl
  | kept o => rw [State.writeInstance, Table.get?_modify]; rfl
  | deleted o => rw [State.writeInstance, Table.get?_erase]; rfl

theorem filter_onBeforeFlush (m : Mapping V) (s : State V) (ident : Ident) :
    ((s.onBeforeFlush m).filter (·.1 = ident)).map Prod.snd =
      ((s.session.get? ident).bind fun inst => m.captureOf s.tx ident inst (loopOf inst)).toList :=
      by
  have hloop (action : RowAction) : ((s.session.rows.filterMap fun e =>
      (m.captureOf s.tx e.1 e.2 action).map fun row => (e.1, row)).filter (·.1 = ident)).map
        Prod.snd = ((s.session.get? ident).bind fun inst =>
          m.captureOf s.tx ident inst action).toList := by
    rw [Table.filter_filterMap_rows s.session
      (fun ident inst => m.captureOf s.tx ident inst action) ident]
    cases (s.session.get? ident).bind fun inst => m.captureOf s.tx ident inst action with
    | none => rfl
    | some row => rfl
  simp only [State.onBeforeFlush, flatMap_cons, flatMap_nil, append_nil,
    filter_append, map_append, hloop]
  cases s.session.get? ident with
  | none => rfl
  | some inst => induction inst using Instance.byKind with
    | new values hasId => exact append_nil _
    | kept o => exact append_nil _
    | deleted o => rfl

theorem rowsOf_capture (m : Mapping V) (s : State V) (number : ℕ) (ident : Ident) :
    rowsOf (s.capture m).mutations number ident = rowsOf s.mutations number ident ++
      if s.number = number then ((s.session.get? ident).bind fun inst =>
        m.captureOf s.tx ident inst (loopOf inst)).toList else [] := by
  rw [← filter_onBeforeFlush, rowsOf, rowsOf, State.capture, filter_append, map_append]
  congr 1
  rw [filter_map, map_map]
  split
  next hnumber =>
    have hp : ((fun e : Captured => decide (e.number = number ∧ e.ident = ident)) ∘
        fun e : Ident × AuditRow => ⟨s.number, e.1, e.2⟩) = fun e => decide (e.1 = ident) := by
      funext e
      exact decide_eq_decide.2 (and_iff_right hnumber)
    rw [hp]
    rfl
  next hnumber =>
    rw [map_eq_nil_iff, filter_eq_nil_iff]
    intro e _ he
    exact hnumber (of_decide_eq_true he).1

end Flush

/-! ### The invariant -/

namespace State

variable {m : Mapping V} {s s' : State V}

/-- What holds in a request under the condition: the rows are those of the committed changes, and
of the changes so far of the current transaction. -/
structure Inv (m : Mapping V) (s : State V) : Prop where
  numbers : ∀ c ∈ s.commits, c.number < s.number
  distinct : (s.commits.map Commit.number).Nodup
  rows : ∀ e ∈ s.mutations, e.number = s.number ∨ ∃ c ∈ s.commits, c.number = e.number
  past : ∀ c ∈ s.commits, ∀ ident, Faithful ident (rowsOf s.mutations c.number ident)
    (m.changeOf ident (c.before.get? ident) (c.after.get? ident))
  now : ∀ ident, Faithful ident (rowsOf s.mutations s.number ident)
    (m.changeOf ident (s.base.get? ident) (s.tx.get? ident))
  forwarded : ∀ rows, s.forwarded = some rows → rows = s.mutations
  closed : s.closed = true → ∀ ident, m.changeOf ident (s.base.get? ident) (s.tx.get? ident) = none

theorem Inv.committed (h : Inv m s)
    (hnone : ∀ ident, m.changeOf ident (s.base.get? ident) (s.tx.get? ident) = none) :
    ∀ e ∈ s.mutations, ∃ c ∈ s.commits, c.number = e.number := by
  intro e he
  refine (h.rows e he).resolve_left fun hnumber => ?_
  have hnow := h.now e.ident
  rw [hnone, Faithful, rowsOf, map_eq_nil_iff, filter_eq_nil_iff] at hnow
  exact hnow e he (decide_eq_true ⟨hnumber, rfl⟩)

theorem Inv.recorded (h : Inv m s) : Recorded m s where
  committed := by
    intro rows hrows hclosed
    rw [h.forwarded rows hrows]
    exact h.committed (h.closed hclosed)
  changes := by
    intro rows hrows _
    rw [h.forwarded rows hrows]
    exact h.past
  distinct := h.distinct

theorem Inv.start (hnew : s.IsNew) : Inv m s where
  numbers := by
    rw [hnew.commits]
    exact nofun
  distinct := by
    rw [hnew.commits]
    exact nodup_nil
  rows := by
    rw [hnew.mutations]
    exact nofun
  past := by
    rw [hnew.commits]
    exact nofun
  now := by
    intro ident
    rw [hnew.tx, changeOf_self, hnew.mutations]
    rfl
  forwarded := by
    rw [hnew.forwarded]
    exact nofun
  closed := by
    rw [hnew.closed]
    exact nofun

theorem Inv.rowsOf_succ (h : Inv m s) (ident : Ident) :
    rowsOf s.mutations (s.number + 1) ident = [] := by
  rw [rowsOf, map_eq_nil_iff, filter_eq_nil_iff]
  intro e he hnext
  have hnumber := (of_decide_eq_true hnext).1
  rcases h.rows e he with hnow | ⟨c, hc, hpast⟩
  · omega
  · have hlt := h.numbers c hc
    omega

theorem Inv.rollback (h : Inv m s) (hnone : Unchanged m s.base s.tx) : Inv m s.rollback where
  numbers := fun c hc => Nat.lt_succ_of_lt (h.numbers c hc)
  distinct := h.distinct
  rows := fun e he => .inr (h.committed (changeOf_of_unchanged hnone) e he)
  past := h.past
  now := by
    intro ident
    change Faithful ident (rowsOf s.mutations (s.number + 1) ident)
      (m.changeOf ident (s.base.get? ident) (s.base.get? ident))
    rw [changeOf_self, h.rowsOf_succ]
    rfl
  forwarded := h.forwarded
  closed := fun _ ident => changeOf_self (s.base.get? ident)

theorem Inv.commit (h : Inv m s) (hclosed : s.closed = false) : Inv m s.commit where
  numbers := by
    intro c hc
    rcases List.mem_append.1 hc with hc | hc
    · exact Nat.lt_succ_of_lt (h.numbers c hc)
    · rw [List.mem_singleton.1 hc]
      exact Nat.lt_succ_self s.number
  distinct := by
    change ((s.commits ++ [_]).map Commit.number).Nodup
    rw [map_append, nodup_append]
    refine ⟨h.distinct, nodup_singleton _, ?_⟩
    intro n hn n' hn' heq
    obtain ⟨c, hc, rfl⟩ := List.mem_map.1 hn
    rw [map_singleton, mem_singleton] at hn'
    have hlt := h.numbers c hc
    rw [heq, hn'] at hlt
    exact Nat.lt_irrefl _ hlt
  rows := by
    intro e he
    rcases h.rows e he with hnow | ⟨c, hc, hpast⟩
    · exact .inr ⟨_, mem_append_right _ (mem_singleton_self _), hnow.symm⟩
    · exact .inr ⟨c, mem_append_left _ hc, hpast⟩
  past := by
    intro c hc
    rcases List.mem_append.1 hc with hc | hc
    · exact h.past c hc
    · rw [List.mem_singleton.1 hc]
      exact h.now
  now := by
    intro ident
    change Faithful ident (rowsOf s.mutations (s.number + 1) ident)
      (m.changeOf ident (s.tx.get? ident) (s.tx.get? ident))
    rw [changeOf_self, h.rowsOf_succ]
    rfl
  forwarded := h.forwarded
  closed := fun hc => by
    rw [show s.commit.closed = s.closed from rfl, hclosed] at hc
    cases hc

theorem Inv.setTx (h : Inv m s) {tx : Rows V}
    (hsame : ∀ ident, m.changeOf ident (s.tx.get? ident) (tx.get? ident) = none)
    (hbase : s'.base = s.base) (htx : s'.tx = tx) (hnumber : s'.number = s.number)
    (hmutations : s'.mutations = s.mutations) (hcommits : s'.commits = s.commits)
    (hforwarded : s'.forwarded = s.forwarded) (hclosed : s'.closed = s.closed) : Inv m s' where
  numbers := by
    rw [hcommits, hnumber]
    exact h.numbers
  distinct := by
    rw [hcommits]
    exact h.distinct
  rows := by
    rw [hmutations, hnumber, hcommits]
    exact h.rows
  past := by
    rw [hcommits, hmutations]
    exact h.past
  now := by
    intro ident
    rw [hmutations, hnumber, hbase, htx, ← changeOf_congr (hsame ident)]
    exact h.now ident
  forwarded := by
    rw [hforwarded, hmutations]
    exact h.forwarded
  closed := by
    intro hc ident
    rw [hbase, htx, ← changeOf_congr (hsame ident)]
    exact h.closed (hclosed ▸ hc) ident

theorem Inv.rollbackTo (h : Inv m s) {frame : Frame V} (hnone : Unchanged m frame.tx s.tx)
    (frames : List (Frame V)) : Inv m (s.rollbackTo m frame frames) :=
  h.setTx (fun ident => changeOf_symm (changeOf_of_unchanged hnone ident)) rfl rfl rfl rfl rfl rfl rfl

theorem Inv.execute (h : Inv m s) {ident : Ident} {row : Option (Values V)}
    (hnone : m.changeOf ident (s.tx.get? ident) row = none) : Inv m (s.execute ident row) := by
  refine h.setTx (fun ident' => ?_) rfl rfl rfl rfl rfl rfl rfl
  have hget : (s.execute ident row).tx.get? ident' =
      if ident' = ident then row else s.tx.get? ident' := by
    cases row with
    | none => exact Table.get?_erase s.tx ident ident'
    | some row =>
      refine (Table.get?_upsert s.tx ident ident' row _).trans ?_
      cases s.tx.get? ident with
      | none => rfl
      | some _ => rfl
  rw [hget]
  split
  next hident =>
    rw [hident]
    exact hnone
  · exact changeOf_self _

theorem Inv.now_flush (h : Inv m s) (haccepts : ∀ e ∈ s.session.rows, s.accepts m e.1 e.2 = true)
    (hk : s.CapturesOnce m) (ident : Ident) :
    Faithful ident (rowsOf s.mutations s.number ident ++ ((s.session.get? ident).bind fun inst =>
        m.captureOf s.tx ident inst (loopOf inst)).toList)
      (m.changeOf ident (s.base.get? ident)
        ((s.session.rows.foldl writeInstance s.tx).get? ident)) := by
  have hnow := h.now ident
  rw [get?_flushed]
  cases hinst : s.session.get? ident with
  | none =>
    rw [Option.bind_none, Option.toList_none, append_nil]
    exact hnow
  | some inst =>
    have hmem := Table.mem_rows.2 hinst
    rw [Option.bind_some, Option.map_some, Option.getD_some]
    cases hcapture : m.captureOf s.tx ident inst (loopOf inst) with
    | none =>
      rw [Option.toList_none, append_nil, ← changeOf_congr (unchanged_of_captureOf hcapture)]
      exact hnow
    | some row =>
      have hcaptured : (ident, row) ∈ s.onBeforeFlush m := by
        have hfilter := filter_onBeforeFlush m s ident
        rw [hinst, Option.bind_some, hcapture] at hfilter
        obtain ⟨e, he, hrow⟩ := List.mem_map.1
          (hfilter ▸ mem_singleton_self row :
            row ∈ ((s.onBeforeFlush m).filter (·.1 = ident)).map Prod.snd)
        obtain ⟨hmem, hident⟩ := List.mem_filter.1 he
        rwa [← of_decide_eq_true hident, ← hrow]
      have hbefore := hk.2.1 _ hcaptured
      obtain ⟨change, hchange, htells⟩ := tells_of_captureOf hcapture (haccepts _ hmem) hbefore
        (hk.2.2 _ hmem)
      rw [hbefore] at hnow
      rw [hchange, show rowsOf s.mutations s.number ident = [] from hnow]
      exact ⟨row, rfl, htells⟩

theorem Inv.flush (h : Inv m s) (hclosed : s.closed = false) (hk : s.CapturesOnce m)
    (hs : s.flush? m = some s') : Inv m s' ∧ s'.closed = false := by
  rw [flush?] at hs
  split at hs
  next haccepts =>
    cases hs
    refine ⟨⟨h.numbers, h.distinct, ?_, ?_, ?_, ?_, ?_⟩, hclosed⟩
    · intro e he
      rcases List.mem_append.1 he with he | he
      · exact h.rows e he
      · obtain ⟨e, -, rfl⟩ := List.mem_map.1 he
        exact .inl rfl
    · intro c hc ident
      have hne : s.number ≠ c.number := Nat.ne_of_gt (h.numbers c hc)
      have hrows := rowsOf_capture m s c.number ident
      rw [if_neg hne, append_nil] at hrows
      exact hrows ▸ h.past c hc ident
    · intro ident
      have hrows := rowsOf_capture m s s.number ident
      rw [if_pos rfl] at hrows
      exact hrows ▸ h.now_flush haccepts hk ident
    · intro rows hrows
      have hnil : s.onBeforeFlush m = [] := hk.1 (by rw [show s.forwarded = some rows from hrows]; rfl)
      change rows = s.mutations ++ (s.onBeforeFlush m).map _
      rw [hnil, map_nil, append_nil]
      exact h.forwarded rows hrows
    · intro hc
      rw [show s.closed = true from hc] at hclosed
      cases hclosed
  · cases hs

theorem Inv.put (h : Inv m s) (ident : Ident) (inst : Instance V) : Inv m (s.put ident inst) :=
  ⟨h.numbers, h.distinct, h.rows, h.past, h.now, h.forwarded, h.closed⟩

theorem Inv.setFrames (h : Inv m s) (frames : List (Frame V)) : Inv m { s with frames } :=
  ⟨h.numbers, h.distinct, h.rows, h.past, h.now, h.forwarded, h.closed⟩

theorem Inv.flushFails (h : Inv m s) (hnil : s.onBeforeFlush m = [])
    (hnone : Unchanged m s.target s.tx) : Inv m ((s.capture m).rollbackInner m) := by
  have hcapture : s.capture m = s := by rw [capture, hnil, map_nil, append_nil]
  rw [hcapture]
  unfold target at hnone
  unfold rollbackInner
  cases hframes : s.frames with
  | nil =>
    rw [hframes] at hnone
    exact h.rollback hnone
  | cons frame frames =>
    rw [hframes] at hnone
    exact h.rollbackTo hnone frames

theorem Inv.operate {a : Action V} (h : Inv m s) (hclosed : s.closed = false) (hk : s.Keeps m a)
    (hs : s.operate m a = some s') : Inv m s' := by
  cases a with
  | load ident =>
    obtain ⟨o, -, hs⟩ := bind_eq_some_iff.1 hs
    obtain ⟨row, -, rfl⟩ := map_eq_some_iff.1 hs
    exact h.put ident _
  | refresh ident =>
    obtain ⟨o, -, hs⟩ := bind_eq_some_iff.1 hs
    obtain ⟨row, -, rfl⟩ := map_eq_some_iff.1 hs
    exact h.put ident _
  | add ident values hasId =>
    rw [State.operate] at hs
    split at hs
    · cases hs
      exact h.put ident _
    · cases hs
  | assign ident col v =>
    rw [State.operate, State.assign] at hs
    split at hs
    next values hasId hnew =>
      cases hs
      exact h.put ident _
    · obtain ⟨o, -, rfl⟩ := map_eq_some_iff.1 hs
      exact h.put ident _
  | delete ident =>
    obtain ⟨o, -, rfl⟩ := map_eq_some_iff.1 hs
    exact h.put ident _
  | flush => exact (h.flush hclosed hk hs).1
  | flushFails =>
    cases hs
    exact h.flushFails hk.1 hk.2
  | savepoint =>
    obtain ⟨t, ht, rfl⟩ := map_eq_some_iff.1 hs
    exact (h.flush hclosed hk ht).1.setFrames _
  | release =>
    obtain ⟨t, ht, hs⟩ := bind_eq_some_iff.1 hs
    obtain ⟨frames, -, rfl⟩ := map_eq_some_iff.1 hs
    exact (h.flush hclosed hk ht).1.setFrames frames
  | rollbackTo =>
    rw [State.operate] at hs
    have hnone : Unchanged m s.target s.tx := hk
    unfold target at hnone
    cases hframes : s.frames with
    | nil =>
      rw [hframes] at hs
      cases hs
    | cons frame frames =>
      rw [hframes] at hs hnone
      cases hs
      exact h.rollbackTo hnone frames
  | rollback =>
    cases hs
    exact h.rollback hk
  | commit =>
    obtain ⟨t, ht, rfl⟩ := map_eq_some_iff.1 hs
    obtain ⟨hflush, hopen⟩ := h.flush hclosed hk ht
    exact hflush.commit hopen
  | execute ident row =>
    cases hs
    exact h.execute hk
  | close =>
    cases hs
    have hrollback := h.rollback hk
    exact ⟨hrollback.numbers, hrollback.distinct, hrollback.rows, hrollback.past, hrollback.now,
      hrollback.forwarded, fun _ ident => changeOf_self _⟩
  | forward => cases hs

theorem Inv.step {a : Action V} (h : Inv m s) (hk : s.Keeps m a) (hs : s.step m a = some s') :
    Inv m s' := by
  unfold State.step at hs
  split at hs
  · split at hs
    · cases hs
    · cases hs
      refine ⟨h.numbers, h.distinct, h.rows, h.past, h.now, ?_, h.closed⟩
      rintro _ ⟨⟩
      rfl
  · split at hs
    · cases hs
    next hopen => exact h.operate (Bool.eq_false_iff.2 hopen) hk hs

end State

/-! ### Requests -/

end MonCTL.Audit.Capture
