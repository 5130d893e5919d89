import MonCTL.Lib.Dict

/-!
# Authorisation in the Database

The rows from which a request is authorised: users, their tenants, the permissions of their roles,
and their API keys. What the database gives for a credential depends on its *view*, the rows that a
request with the credential reads; the administrative changes commit what their endpoints have
computed from the rows they had read.

The version of a user's row, which revokes access tokens, is a table of its own here.
-/

namespace MonCTL.AuthCache

open Option

/-- The identifiers of users, roles and tenants. -/
abbrev UserId := ℕ
abbrev RoleId := ℕ
abbrev TenantId := ℕ

/-- The columns of `User` that authorise its requests. -/
structure User where
  username : String
  role : String := "user"
  roleId : Option RoleId := none
  allTenants : Bool := false
  isActive : Bool := true
  deriving DecidableEq

/-- `RolePermission`. -/
structure RolePermission where
  roleId : RoleId
  resource : String
  action : String

/-- `ApiKey`, of a user. -/
structure ApiKey where
  userId : UserId
  expiresAt : Option ℕ := none

/-- The claims of an access token. -/
structure Token where
  sub : UserId
  username : String
  role : String
  tv : ℕ
  deriving DecidableEq

/-- What a request carries: a cookie whose token has been decoded and has not expired, or an API
key, of which the database and the caches have the hash. -/
inductive Credential
  | cookie (token : Token)
  | apiKey (hash : String)

/-- What a request is authorised with. The permissions of an administrator with a cookie are not
looked up. -/
structure Auth where
  userId : UserId
  username : String
  role : String
  roleId : Option RoleId
  tenantIds : Option (List TenantId)
  permissions : Option (List String)
  deriving DecidableEq

/-- The tables, the version of each user, the roles with the flag of the system roles, and the
time. -/
structure Database where
  now : ℕ := 0
  users : Dict UserId User := []
  tokenVersion : Dict UserId ℕ := []
  userTenants : List (UserId × TenantId) := []
  roles : Dict RoleId Bool := []
  rolePermissions : List RolePermission := []
  apiKeys : Dict String ApiKey := []

/-- The rows that a request with a credential reads: the user of its key, if that is there and has
not expired, and the rows of the user. -/
structure View where
  userId : Option UserId
  user : Option User
  version : ℕ
  tenants : List TenantId
  permissions : List String
  deriving DecidableEq

namespace Database

variable (db : Database)

/-- `user.token_version or 0`. -/
def versionOf (u : UserId) : ℕ := (db.tokenVersion.get? u).getD 0

def tenantsOf (u : UserId) : List TenantId :=
  (db.userTenants.filter fun row => row.1 = u).map Prod.snd

/-- The permissions of a role, each as `resource:action`. -/
def permissionsOf (roleId : Option RoleId) : List String :=
  match roleId with
  | some r =>
    (db.rolePermissions.filter fun row => row.roleId = r).map fun row =>
      row.resource ++ ":" ++ row.action
  | none => []

/-- The user of an API key that is there and has not expired. -/
def keyUser (hash : String) : Option UserId :=
  match db.apiKeys.get? hash with
  | some key =>
    match key.expiresAt with
    | some expiresAt => if expiresAt < db.now then none else some key.userId
    | none => some key.userId
  | none => none

def userPermissions (u : UserId) : List String :=
  db.permissionsOf ((db.users.get? u).bind User.roleId)

/-- What is read for a user. -/
def userView (u : Option UserId) (version : ℕ) : View where
  userId := u
  user := u.bind db.users.get?
  version := version
  tenants := (u.map db.tenantsOf).getD []
  permissions := (u.map db.userPermissions).getD []

/-- What is read for a credential. A key is not revoked by the version. -/
def view : Credential → View
  | .cookie t => db.userView (some t.sub) (db.versionOf t.sub)
  | .apiKey hash => db.userView (db.keyUser hash) 0

end Database

def User.tenantIds (user : User) (role : String) (tenants : List TenantId) :
    Option (List TenantId) :=
  if role = "admin" ∨ user.allTenants = true then none else some tenants

/-- A user may use a credential: it is active, and a token has its version. -/
def User.Admits (user : User) (version : ℕ) : Credential → Prop
  | .cookie t => user.isActive = true ∧ t.tv = version
  | .apiKey _ => user.isActive = true

instance (user : User) (version : ℕ) : ∀ c, Decidable (user.Admits version c)
  | .cookie t => inferInstanceAs (Decidable (user.isActive = true ∧ t.tv = version))
  | .apiKey _ => inferInstanceAs (Decidable (user.isActive = true))

/-- What a request is authorised with, given the name and the role of its user. A cookie gives no
role to an administrator. -/
def User.auth (user : User) (u : UserId) (c : Credential) (username role : String)
    (tenantIds : Option (List TenantId)) (permissions : List String) : Auth :=
  match c with
  | .cookie _ =>
    ⟨u, username, role, if role = "admin" then none else user.roleId, tenantIds,
      if role = "admin" then none else some permissions⟩
  | .apiKey _ => ⟨u, username, role, user.roleId, tenantIds, some permissions⟩

def View.authorise (v : View) (c : Credential) : Option Auth :=
  match v.userId, v.user with
  | some u, some user =>
    if user.Admits v.version c then
      some (user.auth u c user.username user.role (user.tenantIds user.role v.tenants)
        v.permissions)
    else none
  | _, _ => none

/-- **What the database authorises a credential to.** -/
def Database.authorise (db : Database) (c : Credential) : Option Auth := (db.view c).authorise c

/-! ### Changes -/

/-- The columns that `update_user` writes: those that differ from the row it has read, and the
version after the one it has read. -/
structure UserColumns where
  role : Option String
  roleId : Option (Option RoleId)
  allTenants : Option Bool
  isActive : Option Bool
  readVersion : Option ℕ

/-- What a transaction is going to commit. -/
inductive Change
  | updateUser (u : UserId) (columns : UserColumns)
  | deleteUser (u : UserId)
  | assignTenant (u : UserId) (t : TenantId)
  | removeTenant (u : UserId) (t : TenantId)
  /-- The permissions, if they are replaced, and the versions read of the users of the role. -/
  | updateRole (r : RoleId) (permissions : Option (List (String × String)))
      (versions : List (UserId × ℕ))
  | deleteRole (r : RoleId)
  | deleteKey (hash : String)
  /-- The next version: a password reset, a logout or a replayed refresh token. -/
  | revoke (u : UserId) (readVersion : ℕ)
  /-- The second write of a logout. -/
  | rewrite (u : UserId) (version : ℕ)

/-- The row of a user with other columns. -/
def User.update (user : User) (columns : UserColumns) : User where
  username := user.username
  role := columns.role.getD user.role
  roleId := columns.roleId.getD user.roleId
  allTenants := columns.allTenants.getD user.allTenants
  isActive := columns.isActive.getD user.isActive

/-- A row that is there changes. -/
def Database.modifyUser (db : Database) (u : UserId) (f : User → User) : Dict UserId User :=
  db.users.map fun e => if e.1 = u then (e.1, f e.2) else e

/-- Pairs of a user and a tenant are compared lawfully. -/
scoped instance : LawfulBEq (UserId × TenantId) := inferInstance

/-- What a change does to the tables. -/
def Change.apply (db : Database) : Change → Database
  | updateUser u columns =>
    { db with
      users := db.modifyUser u fun user => user.update columns
      tokenVersion := match columns.readVersion with
        | some v => db.tokenVersion.set u (v + 1)
        | none => db.tokenVersion }
  | deleteUser u =>
    { db with
      users := db.users.filter fun e => e.1 ≠ u
      userTenants := db.userTenants.filter fun row => row.1 ≠ u
      apiKeys := db.apiKeys.filter fun e => e.2.userId ≠ u }
  | assignTenant u t =>
    if (u, t) ∈ db.userTenants then db else { db with userTenants := db.userTenants ++ [(u, t)] }
  | removeTenant u t => { db with userTenants := db.userTenants.filter fun row => row ≠ (u, t) }
  | updateRole r permissions versions =>
    { db with
      rolePermissions := match permissions with
        | some new =>
          (db.rolePermissions.filter fun row => row.roleId ≠ r) ++ new.map fun p => ⟨r, p.1, p.2⟩
        | none => db.rolePermissions
      tokenVersion := db.tokenVersion.setAll (versions.map fun e => (e.1, e.2 + 1)) }
  | deleteRole r =>
    { db with
      users := db.users.map fun e =>
        (e.1, if e.2.roleId = some r then { e.2 with roleId := none } else e.2)
      roles := db.roles.filter fun e => e.1 ≠ r
      rolePermissions := db.rolePermissions.filter fun row => row.roleId ≠ r }
  | deleteKey hash => { db with apiKeys := db.apiKeys.filter fun e => e.1 ≠ hash }
  | revoke u readVersion => { db with tokenVersion := db.tokenVersion.set u (readVersion + 1) }
  | rewrite u version => { db with tokenVersion := db.tokenVersion.set u version }

/-- A change finds the versions that it has read. -/
def Change.Finds (db : Database) : Change → Prop
  | updateUser u columns => ∀ v ∈ columns.readVersion, v = db.versionOf u
  | updateRole _ _ versions => ∀ e ∈ versions, e.2 = db.versionOf e.1
  | revoke u v | rewrite u v => v = db.versionOf u
  | _ => True

instance (db : Database) : ∀ change : Change, Decidable (change.Finds db)
  | .updateUser u columns =>
    inferInstanceAs (Decidable (∀ v ∈ columns.readVersion, v = db.versionOf u))
  | .updateRole _ _ versions => inferInstanceAs (Decidable (∀ e ∈ versions, e.2 = db.versionOf e.1))
  | .revoke u v | .rewrite u v => inferInstanceAs (Decidable (v = db.versionOf u))
  | .deleteUser _ | .assignTenant .. | .removeTenant .. | .deleteRole _ | .deleteKey _ =>
    inferInstanceAs (Decidable True)

/-- A change of a role comes with a new version. -/
def Change.Bumps : Change → Prop
  | updateUser _ columns => columns.role ≠ none → columns.readVersion ≠ none
  | _ => True

/-! ### What a change does to a user -/

theorem versionOf_set (db : Database) (u u' : UserId) (v : ℕ) :
    ((db.tokenVersion.set u v).get? u').getD 0 = if u' = u then v else db.versionOf u' := by
  rw [Dict.get?_set]
  split
  · rfl
  · rfl

theorem versionOf_setAll {db : Database} {versions : List (UserId × ℕ)}
    (hfinds : ∀ e ∈ versions, e.2 = db.versionOf e.1) (u : UserId) :
    ((db.tokenVersion.setAll (versions.map fun e => (e.1, e.2 + 1))).get? u).getD 0 =
        db.versionOf u + 1 ∨
      ((db.tokenVersion.setAll (versions.map fun e => (e.1, e.2 + 1))).get? u).getD 0 =
        db.versionOf u := by
  rw [Dict.get?, Dict.lookup_setAll]
  cases hlookup : (versions.map fun e => (e.1, e.2 + 1)).reverse.lookup u with
  | none => exact .inr rfl
  | some v =>
    left
    have hmem : (u, v) ∈ versions.map fun e => (e.1, e.2 + 1) :=
      List.mem_reverse.1 (Dict.mem_of_lookup hlookup)
    obtain ⟨e, he, heq⟩ := List.mem_map.1 hmem
    obtain ⟨rfl, rfl⟩ := Prod.mk.inj heq
    exact congrArg (· + 1) (hfinds e he)

theorem get?_modifyUser (db : Database) (u u' : UserId) (f : User → User) :
    (db.modifyUser u f).get? u' =
      if u' = u then (db.users.get? u').map f else db.users.get? u' :=
  Dict.lookup_map_at db.users f u u'

/-- **A change leaves the name of a user**, and raises the version or leaves it: it leaves the
version only where it leaves the role. -/
theorem Change.apply_user {change : Change} {db : Database} {u : UserId} {user' : User}
    (hfinds : change.Finds db) (hbumps : change.Bumps)
    (h : (change.apply db).users.get? u = some user') :
    ∃ user, db.users.get? u = some user ∧ user'.username = user.username ∧
      ((change.apply db).versionOf u = db.versionOf u + 1 ∨
        (change.apply db).versionOf u = db.versionOf u ∧ user'.role = user.role) := by
  cases change with
  | updateUser u₀ columns =>
    change (db.modifyUser u₀ fun user => user.update columns).get? u = some user' at h
    rw [get?_modifyUser] at h
    by_cases hu : u = u₀
    · rw [if_pos hu] at h
      obtain ⟨user, huser, rfl⟩ := map_eq_some_iff.1 h
      refine ⟨user, huser, rfl, ?_⟩
      rw [Database.versionOf, Change.apply]
      cases hv : columns.readVersion with
      | some v =>
        left
        dsimp only
        rw [versionOf_set, if_pos hu, hu, hfinds v hv]
      | none =>
        have hrole : columns.role = none := by
          by_contra hrole
          exact hbumps hrole hv
        right
        exact ⟨rfl, by rw [User.update, hrole, getD_none]⟩
    · rw [if_neg hu] at h
      refine ⟨user', h, rfl, .inr ⟨?_, rfl⟩⟩
      rw [Database.versionOf, Change.apply]
      cases columns.readVersion with
      | some v =>
        dsimp only
        rw [versionOf_set, if_neg hu]
      | none => rfl
  | deleteUser u₀ =>
    change List.lookup u (db.users.filter fun e => e.1 ≠ u₀) = some user' at h
    rw [Dict.lookup_filter_ne] at h
    split at h
    · cases h
    · exact ⟨user', h, rfl, .inr ⟨rfl, rfl⟩⟩
  | assignTenant u₀ t =>
    rw [Change.apply] at h ⊢
    split at h <;> exact ⟨user', h, rfl, .inr ⟨by split <;> rfl, rfl⟩⟩
  | removeTenant u₀ t => exact ⟨user', h, rfl, .inr ⟨rfl, rfl⟩⟩
  | updateRole r permissions versions =>
    exact ⟨user', h, rfl, (versionOf_setAll hfinds u).imp_right fun hversion => ⟨hversion, rfl⟩⟩
  | deleteRole r =>
    change Dict.get? (db.users.map fun e => (e.1, _)) u = some user' at h
    rw [Dict.get?_map_values fun user : User =>
      if user.roleId = some r then { user with roleId := none } else user] at h
    obtain ⟨user, huser, rfl⟩ := map_eq_some_iff.1 h
    exact ⟨user, huser, by split <;> rfl, .inr ⟨rfl, by split <;> rfl⟩⟩
  | deleteKey hash => exact ⟨user', h, rfl, .inr ⟨rfl, rfl⟩⟩
  | revoke u₀ v =>
    refine ⟨user', h, rfl, ?_⟩
    rw [Database.versionOf, Change.apply]
    dsimp only
    rw [versionOf_set]
    split
    next hu => exact .inl (by rw [hu, hfinds])
    · exact .inr ⟨rfl, rfl⟩
  | rewrite u₀ v =>
    refine ⟨user', h, rfl, ?_⟩
    rw [Database.versionOf, Change.apply]
    dsimp only
    rw [versionOf_set]
    split
    next hu => exact .inr ⟨by rw [hu, hfinds], rfl⟩
    · exact .inr ⟨rfl, rfl⟩

end MonCTL.AuthCache
