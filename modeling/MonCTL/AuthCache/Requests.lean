import MonCTL.AuthCache.Database
import MonCTL.Lib.Runs

/-!
# Authorised Requests

The central processes as they authorise requests. A request with a cookie reads its user and the
tenants; the permissions it takes from Redis, if they are there. A request with an API key is
authorised with the copy that its process or Redis has, without another check; otherwise it reads
the rows one after another, and leaves a copy in both. An administrative endpoint reads, deletes
the copies it knows of, one after another, and commits.

A step is what runs between two points at which a coroutine waits. Redis may fail at any step.
-/

namespace MonCTL.AuthCache

open List Option

/-- A copy, and when it expires. -/
structure Copy (α : Type) where
  value : α
  expires : ℕ

/-- `_API_KEY_TTL`, which is also that of the permissions. -/
def apiKeyTtl : ℕ := 300

/-- `_LOCAL_CACHE_TTL`: the last second at which a local copy is used. -/
def localCacheTtl : ℕ := 60

/-- How far a request has come. -/
inductive Progress
  | started
  /-- The row of its API key has been read. -/
  | keyRead (u : UserId)
  /-- The row of its user has been read, and admits it. -/
  | userRead (u : UserId) (user : User)
  | tenantsRead (u : UserId) (user : User) (tenantIds : Option (List TenantId))
  /-- The permissions have been read, and are going to be copied. -/
  | complete (auth : Auth)

/-- A request in one of the processes. It has been overtaken when a row that is read for its
credential has changed since it started. -/
structure Request where
  process : ℕ
  credential : Credential
  progress : Progress := .started
  overtaken : Bool := false

/-- What `invalidate_user_auth_cache` and `delete_cached_api_key` have still to delete. -/
inductive Deletion
  | permissions (u : UserId)
  /-- The keys of a user, which are still to be read. -/
  | keysOf (u : UserId)
  | key (hash : String)

/-- `invalidate_user_auth_cache`. -/
def invalidateUserAuthCache (u : UserId) : List Deletion := [.permissions u, .keysOf u]

/-- An endpoint in one of the processes: what it has still to delete, what it is going to commit,
and what is committed after that. -/
structure Transaction where
  process : ℕ
  deletions : List Deletion
  change : Change
  next : Option Change := none

/-- How a request has been authorised, and what the database gave for its credential. -/
structure Answer where
  credential : Credential
  auth : Option Auth
  derived : Option Auth
  overtaken : Bool

/-- The database, the copies in Redis and in the processes, the access tokens issued so far, and
what is in progress. -/
structure Processes where
  db : Database
  redisKeys : Dict String (Copy Auth) := []
  redisPermissions : Dict UserId (Copy (List String)) := []
  localKeys : Dict (ℕ × String) (Copy Auth) := []
  tokens : List Token := []
  requests : List Request := []
  transactions : List Transaction := []
  answers : List Answer := []

/-- `UpdateUserRequest`, where it authorises; a role identifier may be cleared. -/
structure UpdateUserRequest where
  role : Option String := none
  roleId : Option (Option RoleId) := none
  allTenants : Option Bool := none
  isActive : Option Bool := none

/-- What can happen. -/
inductive Action
  | tick (seconds : ℕ)
  /-- A copy is dropped, because there are too many or Redis has been restarted. -/
  | evictLocal (process : ℕ) (hash : String)
  | evictKey (hash : String)
  | evictPermissions (u : UserId)
  /-- A login or a refresh issues an access token. -/
  | issue (u : UserId)
  /-- The endpoints, which read their rows. -/
  | updateUser (process : ℕ) (u : UserId) (request : UpdateUserRequest)
  | deleteUser (process : ℕ) (u : UserId)
  | assignTenant (process : ℕ) (u : UserId) (t : TenantId)
  | removeTenant (process : ℕ) (u : UserId) (t : TenantId)
  | updateRole (process : ℕ) (r : RoleId) (permissions : Option (List (String × String)))
  | deleteRole (process : ℕ) (r : RoleId)
  | deleteKey (process : ℕ) (hash : String)
  | resetPassword (process : ℕ) (u : UserId)
  | logout (process : ℕ) (u : UserId)
  | replay (process : ℕ) (u : UserId)
  /-- A transaction deletes its next copy. -/
  | delete (i : ℕ) (redis : Bool)
  | commit (i : ℕ)
  | fail (i : ℕ)
  /-- A request starts, goes on, and leaves its copies. -/
  | request (process : ℕ) (credential : Credential) (redis : Bool)
  | read (i : ℕ) (redis : Bool)
  | store (i : ℕ) (redis : Bool)

/-! ### Endpoints -/

/-- `update_user`. -/
def updateUser (db : Database) (process : ℕ) (u : UserId) (request : UpdateUserRequest) :
    Option Transaction := do
  let user ← db.users.get? u
  let role := request.role.filter (· ≠ user.role)
  let roleId := request.roleId.filter (· ≠ user.roleId)
  let allTenants := request.allTenants.filter (· ≠ user.allTenants)
  let isActive := request.isActive.filter (· ≠ user.isActive)
  let authChanged := role.isSome || roleId.isSome || allTenants.isSome ||
    (user.isActive && request.isActive == some false)
  let readVersion := if authChanged then some (db.versionOf u) else none
  some
    { process := process
      deletions := if authChanged then invalidateUserAuthCache u else []
      change := .updateUser u ⟨role, roleId, allTenants, isActive, readVersion⟩ }

/-- `delete_user`. -/
def deleteUser (db : Database) (process : ℕ) (u : UserId) : Option Transaction := do
  let _ ← db.users.get? u
  some { process := process, deletions := invalidateUserAuthCache u, change := .deleteUser u }

/-- `assign_tenant`. -/
def assignTenant (db : Database) (process : ℕ) (u : UserId) (t : TenantId) :
    Option Transaction := do
  let _ ← db.users.get? u
  if (u, t) ∈ db.userTenants then none
  else some { process := process, deletions := [], change := .assignTenant u t }

/-- `remove_tenant`. -/
def removeTenant (db : Database) (process : ℕ) (u : UserId) (t : TenantId) : Option Transaction :=
  if (u, t) ∈ db.userTenants then
    some { process := process, deletions := [], change := .removeTenant u t }
  else none

/-- `update_role`. -/
def updateRole (db : Database) (process : ℕ) (r : RoleId)
    (permissions : Option (List (String × String))) : Option Transaction := do
  let _ ← db.roles.get? r
  let users := (db.users.filter fun e => e.2.roleId = some r).map Prod.fst
  some
    { process := process
      deletions := users.flatMap invalidateUserAuthCache
      change := .updateRole r permissions (users.map fun u => (u, db.versionOf u)) }

/-- `delete_role`. -/
def deleteRole (db : Database) (process : ℕ) (r : RoleId) : Option Transaction := do
  let isSystem ← db.roles.get? r
  if isSystem then none
  else some { process := process, deletions := [], change := .deleteRole r }

/-- `delete_user_api_key`. -/
def deleteKey (db : Database) (process : ℕ) (hash : String) : Option Transaction := do
  let _ ← db.apiKeys.get? hash
  some { process := process, deletions := [.key hash], change := .deleteKey hash }

/-- `admin_reset_password`. -/
def resetPassword (db : Database) (process : ℕ) (u : UserId) : Option Transaction := do
  let _ ← db.users.get? u
  some
    { process := process
      deletions := invalidateUserAuthCache u
      change := .revoke u (db.versionOf u) }

/-- `logout`: the version is written in a session of its own, and then by the request. -/
def logout (db : Database) (process : ℕ) (u : UserId) : Option Transaction := do
  let _ ← db.users.get? u
  some
    { process := process
      deletions := []
      change := .revoke u (db.versionOf u)
      next := some (.rewrite u (db.versionOf u + 1)) }

/-- `refresh`, with a token that has been used. -/
def replayedRefresh (db : Database) (process : ℕ) (u : UserId) : Option Transaction := do
  let _ ← db.users.get? u
  some { process := process, deletions := [], change := .revoke u (db.versionOf u) }

namespace Processes

/-! ### Caches -/

/-- `get_cached_api_key`: the copy in Redis, which is also copied to the process; else the copy of
the process. -/
def getCachedApiKey (s : Processes) (process : ℕ) (hash : String) (redis : Bool) :
    Option (Auth × Processes) :=
  let live {α : Type} (copy : Option (Copy α)) := copy.filter fun c => s.db.now < c.expires
  match if redis then live (s.redisKeys.get? hash) else none with
  | some copy =>
    let written : Copy Auth := ⟨copy.value, s.db.now + localCacheTtl + 1⟩
    some (copy.value, { s with localKeys := s.localKeys.set (process, hash) written })
  | none => (live (s.localKeys.get? (process, hash))).map fun copy => (copy.value, s)

/-- `set_cached_api_key`. -/
def setCachedApiKey (s : Processes) (process : ℕ) (hash : String) (auth : Auth) (redis : Bool) :
    Processes :=
  { s with
    localKeys := s.localKeys.set (process, hash) ⟨auth, s.db.now + localCacheTtl + 1⟩
    redisKeys := if redis then s.redisKeys.set hash ⟨auth, s.db.now + apiKeyTtl⟩ else s.redisKeys }

def getCachedPermissions (s : Processes) (u : UserId) (redis : Bool) : Option (List String) :=
  if redis then
    ((s.redisPermissions.get? u).filter fun c => s.db.now < c.expires).map Copy.value
  else none

def setCachedPermissions (s : Processes) (u : UserId) (permissions : List String) (redis : Bool) :
    Processes :=
  if redis then
    { s with redisPermissions := s.redisPermissions.set u ⟨permissions, s.db.now + apiKeyTtl⟩ }
  else s

def deleteCopy (s : Processes) (process : ℕ) (redis : Bool) : Deletion → Processes × List Deletion
  | .permissions u =>
    (if redis then { s with redisPermissions := s.redisPermissions.filter fun e => e.1 ≠ u }
      else s, [])
  | .keysOf u => (s, (s.db.apiKeys.filter fun e => e.2.userId = u).map fun e => .key e.1)
  | .key hash =>
    ({ s with
      localKeys := s.localKeys.filter fun e => e.1 ≠ (process, hash)
      redisKeys := if redis then s.redisKeys.filter fun e => e.1 ≠ hash else s.redisKeys }, [])

/-! ### Requests -/

/-- A request is answered. -/
def answer (s : Processes) (credential : Credential) (overtaken : Bool) (auth : Option Auth) :
    Processes :=
  { s with answers := s.answers ++ [⟨credential, auth, s.db.authorise credential, overtaken⟩] }

/-- A request goes on. -/
def proceed (s : Processes) (i : ℕ) (r : Request) (progress : Progress) : Processes :=
  { s with
    requests := s.requests.eraseIdx i ++ [⟨r.process, r.credential, progress, r.overtaken⟩] }

/-- A request ends. -/
def finish (s : Processes) (i : ℕ) (r : Request) (auth : Option Auth) : Processes :=
  { s with requests := s.requests.eraseIdx i }.answer r.credential r.overtaken auth

def readUser (s : Processes) (i : ℕ) (r : Request) (u : UserId) (version : ℕ) : Processes :=
  match s.db.users.get? u with
  | some user =>
    if user.Admits version r.credential then s.proceed i r (.userRead u user)
    else s.finish i r none
  | none => s.finish i r none

/-- The name and the role of the user: those of the token, or of the row. -/
def identity (c : Credential) (user : User) : String × String :=
  match c with
  | .cookie t => (t.username, t.role)
  | .apiKey _ => (user.username, user.role)

/-- What a request is authorised with, once its user and the tenants have been read. -/
def auth (c : Credential) (u : UserId) (user : User) (tenantIds : Option (List TenantId))
    (permissions : List String) : Auth :=
  user.auth u c (identity c user).1 (identity c user).2 tenantIds permissions

/-- The permissions are read: for a cookie only if they are needed and Redis has no copy. -/
def readPermissions (s : Processes) (i : ℕ) (r : Request) (u : UserId) (user : User)
    (tenantIds : Option (List TenantId)) (redis : Bool) : Processes :=
  let found := s.db.permissionsOf user.roleId
  match r.credential with
  | .apiKey _ => s.proceed i r (.complete (auth r.credential u user tenantIds found))
  | .cookie t =>
    if t.role = "admin" then s.finish i r (some (auth r.credential u user tenantIds []))
    else
      match s.getCachedPermissions u redis with
      | some permissions => s.finish i r (some (auth r.credential u user tenantIds permissions))
      | none =>
        if user.roleId = none then s.finish i r (some (auth r.credential u user tenantIds []))
        else s.proceed i r (.complete (auth r.credential u user tenantIds found))

/-- A request reads what comes next. -/
def read (s : Processes) (i : ℕ) (r : Request) (redis : Bool) : Option Processes :=
  match r.progress, r.credential with
  | .started, .cookie t => some (s.readUser i r t.sub (s.db.versionOf t.sub))
  | .started, .apiKey hash =>
    match s.db.keyUser hash with
    | some u => some (s.proceed i r (.keyRead u))
    | none => some (s.finish i r none)
  | .keyRead u, _ => some (s.readUser i r u 0)
  | .userRead u user, c =>
    some (s.proceed i r
      (.tenantsRead u user (user.tenantIds (identity c user).2 (s.db.tenantsOf u))))
  | .tenantsRead u user tenantIds, _ => some (s.readPermissions i r u user tenantIds redis)
  | .complete _, _ => none

/-- A request leaves its copies, and is answered. -/
def store (s : Processes) (i : ℕ) (r : Request) (redis : Bool) : Option Processes :=
  match r.progress, r.credential with
  | .complete auth, .apiKey hash =>
    some ((s.setCachedApiKey r.process hash auth redis).finish i r (some auth))
  | .complete auth, .cookie t =>
    some ((s.setCachedPermissions t.sub (auth.permissions.getD []) redis).finish i r (some auth))
  | _, _ => none

/-- A request starts. -/
def request (s : Processes) (process : ℕ) (credential : Credential) (redis : Bool) : Processes :=
  let started := { s with requests := s.requests ++ [⟨process, credential, .started, false⟩] }
  match credential with
  | .cookie _ => started
  | .apiKey hash =>
    match s.getCachedApiKey process hash redis with
    | some (auth, s') => s'.answer credential false (some auth)
    | none => started

/-! ### Steps -/

/-- The database changes, and overtakes the requests that read what changes. -/
def withDb (s : Processes) (db : Database) : Processes :=
  { s with
    db := db
    requests := s.requests.map fun r =>
      if db.view r.credential = s.db.view r.credential then r else { r with overtaken := true } }

/-- An endpoint has read its rows. -/
def start (s : Processes) (t : Transaction) : Processes :=
  { s with transactions := s.transactions ++ [t] }

def afterCommit (s : Processes) (i : ℕ) (t : Transaction) : List Transaction :=
  s.transactions.eraseIdx i ++
    (t.next.map fun next => (⟨t.process, [], next, none⟩ : Transaction)).toList

/-- A step, unless it cannot be taken. -/
def step (s : Processes) : Action → Option Processes
  | .tick seconds => some (s.withDb { s.db with now := s.db.now + seconds })
  | .evictLocal process hash =>
    some { s with localKeys := s.localKeys.filter fun e => e.1 ≠ (process, hash) }
  | .evictKey hash => some { s with redisKeys := s.redisKeys.filter fun e => e.1 ≠ hash }
  | .evictPermissions u =>
    some { s with redisPermissions := s.redisPermissions.filter fun e => e.1 ≠ u }
  | .issue u =>
    (s.db.users.get? u).map fun user =>
      { s with tokens := s.tokens ++ [⟨u, user.username, user.role, s.db.versionOf u⟩] }
  | .updateUser process u request => (updateUser s.db process u request).map s.start
  | .deleteUser process u => (deleteUser s.db process u).map s.start
  | .assignTenant process u t => (assignTenant s.db process u t).map s.start
  | .removeTenant process u t => (removeTenant s.db process u t).map s.start
  | .updateRole process r permissions => (updateRole s.db process r permissions).map s.start
  | .deleteRole process r => (deleteRole s.db process r).map s.start
  | .deleteKey process hash => (deleteKey s.db process hash).map s.start
  | .resetPassword process u => (resetPassword s.db process u).map s.start
  | .logout process u => (logout s.db process u).map s.start
  | .replay process u => (replayedRefresh s.db process u).map s.start
  | .delete i redis =>
    match s.transactions[i]? with
    | some t =>
      match t.deletions with
      | d :: rest =>
        let (s', more) := s.deleteCopy t.process redis d
        let t' := { t with deletions := more ++ rest }
        some { s' with transactions := s.transactions.eraseIdx i ++ [t'] }
      | [] => none
    | none => none
  | .commit i =>
    match s.transactions[i]? with
    | some t =>
      if t.deletions = [] then
        some { s.withDb (t.change.apply s.db) with transactions := s.afterCommit i t }
      else none
    | none => none
  | .fail i =>
    if i < s.transactions.length then
      some { s with transactions := s.transactions.eraseIdx i }
    else none
  | .request process credential redis =>
    match credential with
    | .cookie t => if t ∈ s.tokens then some (s.request process credential redis) else none
    | .apiKey _ => some (s.request process credential redis)
  | .read i redis =>
    match s.requests[i]? with
    | some r => s.read i r redis
    | none => none
  | .store i redis =>
    match s.requests[i]? with
    | some r => s.store i r redis
    | none => none

/-- **Authorised exactly**: a request that no change has overtaken has been authorised with what
the database gave for its credential. -/
def Exact (s : Processes) : Prop := ∀ a ∈ s.answers, a.overtaken = false → a.auth = a.derived
  deriving Decidable

/-- No copy that has not expired says what another database would not: of an API key, what it is
authorised to, and of a user, the permissions. -/
def NoStaleCopy (s : Processes) (db : Database) : Prop :=
  (∀ e ∈ s.redisKeys, db.now < e.2.expires →
      db.authorise (.apiKey e.1) = s.db.authorise (.apiKey e.1)) ∧
    (∀ e ∈ s.localKeys, db.now < e.2.expires →
      db.authorise (.apiKey e.1.2) = s.db.authorise (.apiKey e.1.2)) ∧
    ∀ e ∈ s.redisPermissions, db.now < e.2.expires →
      db.userPermissions e.1 = s.db.userPermissions e.1
  deriving Decidable

/-- A transaction finds no copy that its change makes stale, and the versions it has read. -/
def CommitsClean (s : Processes) (t : Transaction) : Prop :=
  t.change.Finds s.db ∧ s.NoStaleCopy (t.change.apply s.db)
  deriving Decidable

end Processes

open Processes

/-- The step is clean: when a change commits or a key expires, there is no copy of what it changes,
nor a newer version than the change has read; and a request that has been overtaken by a change
leaves no copy. -/
def Action.Clean (s : Processes) : Action → Prop
  | tick seconds => s.NoStaleCopy { s.db with now := s.db.now + seconds }
  | commit i => ∀ t ∈ s.transactions[i]?, s.CommitsClean t
  | store i _ => ∀ r ∈ s.requests[i]?, r.overtaken = false
  | _ => True

instance (s : Processes) : ∀ a : Action, Decidable (a.Clean s)
  | .tick seconds =>
    inferInstanceAs (Decidable (s.NoStaleCopy { s.db with now := s.db.now + seconds }))
  | .commit i => inferInstanceAs (Decidable (∀ t ∈ s.transactions[i]?, s.CommitsClean t))
  | .store i _ => inferInstanceAs (Decidable (∀ r ∈ s.requests[i]?, r.overtaken = false))
  | .evictLocal .. | .evictKey _ | .evictPermissions _ | .issue _ | .updateUser .. | .deleteUser ..
  | .assignTenant .. | .removeTenant .. | .updateRole .. | .deleteRole .. | .deleteKey ..
  | .resetPassword .. | .logout .. | .replay .. | .delete .. | .fail _ | .request .. | .read .. =>
    inferInstanceAs (Decidable True)

/-! ### What a clean step preserves -/

/-- What a request has read is in the view of its credential. -/
def Request.Agrees (r : Request) (v : View) : Prop :=
  match r.progress with
  | .started => True
  | .keyRead u => v.userId = some u ∧ v.version = 0
  | .userRead u user => v.userId = some u ∧ v.user = some user ∧ user.Admits v.version r.credential
  | .tenantsRead u user tenantIds =>
    (v.userId = some u ∧ v.user = some user ∧ user.Admits v.version r.credential) ∧
      tenantIds = user.tenantIds user.role v.tenants
  | .complete auth => v.authorise r.credential = some auth ∧ auth.permissions = some v.permissions

/-- A token carries the name and the role of its user, as long as it has the version of the row. -/
def Token.Carries (t : Token) (db : Database) : Prop :=
  ∀ user, db.users.get? t.sub = some user → t.tv ≤ db.versionOf t.sub ∧
    (t.tv = db.versionOf t.sub → t.username = user.username ∧ t.role = user.role)

/-- A transaction changes a role only together with the version. -/
def Transaction.Bumps (t : Transaction) : Prop :=
  t.change.Bumps ∧ ∀ next ∈ t.next, next.Bumps

variable {s s' : Processes} {c : Credential} {i process : ℕ} {r : Request} {db : Database}
    {redis : Bool} {u : UserId} {user : User} {tenantIds : Option (List TenantId)} {t : Transaction}

namespace Processes

/-- What holds as long as the steps are clean: a copy that has not expired says what the database
does, and a request that no change has overtaken has read what is there. -/
structure Inv (s : Processes) : Prop where
  redisKeys : ∀ e ∈ s.redisKeys, s.db.now < e.2.expires →
    s.db.authorise (.apiKey e.1) = some e.2.value
  localKeys : ∀ e ∈ s.localKeys, s.db.now < e.2.expires →
    s.db.authorise (.apiKey e.1.2) = some e.2.value
  redisPermissions : ∀ e ∈ s.redisPermissions, s.db.now < e.2.expires →
    s.db.userPermissions e.1 = e.2.value
  tokens : ∀ t ∈ s.tokens, t.Carries s.db
  cookies : ∀ r ∈ s.requests, ∀ t, r.credential = .cookie t → t ∈ s.tokens
  requests : ∀ r ∈ s.requests, r.overtaken = false → r.Agrees (s.db.view r.credential)
  transactions : ∀ t ∈ s.transactions, t.Bumps
  exact : s.Exact

theorem Inv.initial (db : Database) : Inv { db := db } where
  redisKeys _ he := absurd he not_mem_nil
  localKeys _ he := absurd he not_mem_nil
  redisPermissions _ he := absurd he not_mem_nil
  tokens _ ht := absurd ht not_mem_nil
  cookies _ hr := absurd hr not_mem_nil
  requests _ hr := absurd hr not_mem_nil
  transactions _ ht := absurd ht not_mem_nil
  exact _ ha := absurd ha not_mem_nil

variable {auth : Option Auth}

theorem Inv.answer {overtaken : Bool}
    (h : s.Inv) (hauth : overtaken = false → auth = s.db.authorise c) :
    (s.answer c overtaken auth).Inv := by
  refine ⟨h.redisKeys, h.localKeys, h.redisPermissions, h.tokens, h.cookies, h.requests,
    h.transactions, fun a ha hovertaken => ?_⟩
  rcases List.mem_append.1 ha with ha | ha
  · exact h.exact a ha hovertaken
  · cases List.mem_singleton.1 ha
    exact hauth hovertaken

theorem Inv.finish (h : s.Inv)
    (hauth : r.overtaken = false → auth = s.db.authorise r.credential) : (s.finish i r auth).Inv :=
    by
  refine Inv.answer (s := { s with requests := s.requests.eraseIdx i }) ?_ hauth
  exact ⟨h.redisKeys, h.localKeys, h.redisPermissions, h.tokens,
    fun r hr => h.cookies r (mem_of_mem_eraseIdx hr),
    fun r hr => h.requests r (mem_of_mem_eraseIdx hr), h.transactions, h.exact⟩

theorem Inv.proceed {progress : Progress} (h : s.Inv) (hr : r ∈ s.requests)
    (hagrees : r.overtaken = false →
      Request.Agrees ⟨r.process, r.credential, progress, r.overtaken⟩
        (s.db.view r.credential)) : (s.proceed i r progress).Inv := by
  refine ⟨h.redisKeys, h.localKeys, h.redisPermissions, h.tokens, fun r' hr' => ?_,
    fun r' hr' => ?_, h.transactions, h.exact⟩
  · rcases List.mem_append.1 hr' with hr' | hr'
    · exact h.cookies r' (mem_of_mem_eraseIdx hr')
    · cases List.mem_singleton.1 hr'
      exact h.cookies r hr
  · rcases List.mem_append.1 hr' with hr' | hr'
    · exact h.requests r' (mem_of_mem_eraseIdx hr')
    · cases List.mem_singleton.1 hr'
      exact hagrees

theorem Inv.withDb (h : s.Inv) (hnow : s.db.now ≤ db.now)
    (hclean : s.NoStaleCopy db) (htokens : ∀ t ∈ s.tokens, t.Carries db) : (s.withDb db).Inv := by
  obtain ⟨hredis, hlocal, hpermissions⟩ := hclean
  refine ⟨fun e he hlive => ?_, fun e he hlive => ?_, fun e he hlive => ?_, htokens,
    fun r' hr' => ?_, fun r' hr' hovertaken => ?_, h.transactions, h.exact⟩
  · exact (hredis e he hlive).trans (h.redisKeys e he (Nat.lt_of_le_of_lt hnow hlive))
  · exact (hlocal e he hlive).trans (h.localKeys e he (Nat.lt_of_le_of_lt hnow hlive))
  · exact (hpermissions e he hlive).trans
      (h.redisPermissions e he (Nat.lt_of_le_of_lt hnow hlive))
  · obtain ⟨r, hr, rfl⟩ := List.mem_map.1 hr'
    intro t ht
    split at ht <;> exact h.cookies r hr t ht
  · obtain ⟨r, hr, rfl⟩ := List.mem_map.1 hr'
    split at hovertaken
    next hview =>
      rw [if_pos hview]
      change r.Agrees (db.view r.credential)
      rw [hview]
      exact h.requests r hr hovertaken
    · cases hovertaken

/-! ### Copies -/

variable {hash : String}

theorem Inv.setCachedApiKey {auth : Auth} (h : s.Inv)
    (hauth : s.db.authorise (.apiKey hash) = some auth) :
    (s.setCachedApiKey process hash auth redis).Inv := by
  refine ⟨fun e he hlive => ?_, fun e he hlive => ?_, h.redisPermissions, h.tokens, h.cookies,
    h.requests, h.transactions, h.exact⟩
  · cases redis with
    | false => exact h.redisKeys e he hlive
    | true =>
      rcases Dict.mem_set he with he | rfl
      · exact h.redisKeys e he hlive
      · exact hauth
  · rcases Dict.mem_set he with he | rfl
    · exact h.localKeys e he hlive
    · exact hauth

variable {permissions : List String}

theorem Inv.setCachedPermissions (h : s.Inv) (hpermissions : s.db.userPermissions u = permissions) :
    (s.setCachedPermissions u permissions redis).Inv := by
  cases redis with
  | false => exact h
  | true =>
    refine ⟨h.redisKeys, h.localKeys, fun e he hlive => ?_, h.tokens, h.cookies, h.requests,
      h.transactions, h.exact⟩
    rcases Dict.mem_set he with he | rfl
    · exact h.redisPermissions e he hlive
    · exact hpermissions

theorem Inv.getCachedApiKey {auth : Auth} (h : s.Inv)
    (hget : s.getCachedApiKey process hash redis = some (auth, s')) :
    s'.Inv ∧ s'.db = s.db ∧ s.db.authorise (.apiKey hash) = some auth := by
  rw [Processes.getCachedApiKey] at hget
  dsimp only at hget
  split at hget
  next copy hcopy =>
    cases hget
    split at hcopy
    · obtain ⟨hcopy, hlive⟩ := Option.filter_eq_some_iff.1 hcopy
      have hauth := h.redisKeys _ (Dict.mem_of_get? hcopy) (of_decide_eq_true hlive)
      refine ⟨⟨h.redisKeys, fun e he hlive => ?_, h.redisPermissions, h.tokens, h.cookies,
        h.requests, h.transactions, h.exact⟩, rfl, hauth⟩
      rcases Dict.mem_set he with he | rfl
      · exact h.localKeys e he hlive
      · exact hauth
    · cases hcopy
  · obtain ⟨copy, hcopy, heq⟩ := map_eq_some_iff.1 hget
    cases heq
    obtain ⟨hcopy, hlive⟩ := Option.filter_eq_some_iff.1 hcopy
    exact ⟨h, rfl, h.localKeys _ (Dict.mem_of_get? hcopy) (of_decide_eq_true hlive)⟩

theorem Inv.getCachedPermissions (h : s.Inv) (hget : s.getCachedPermissions u redis =
    some permissions) :
    s.db.userPermissions u = permissions := by
  rw [Processes.getCachedPermissions] at hget
  split at hget
  · obtain ⟨copy, hcopy, rfl⟩ := map_eq_some_iff.1 hget
    obtain ⟨hcopy, hlive⟩ := Option.filter_eq_some_iff.1 hcopy
    exact h.redisPermissions _ (Dict.mem_of_get? hcopy) (of_decide_eq_true hlive)
  · cases hget

theorem Inv.deleteCopy (h : s.Inv) (process : ℕ) (redis : Bool) (d : Deletion) :
    (s.deleteCopy process redis d).1.Inv ∧
      (s.deleteCopy process redis d).1.transactions = s.transactions := by
  cases d with
  | permissions u =>
    cases redis with
    | false => exact ⟨h, rfl⟩
    | true =>
      exact ⟨⟨h.redisKeys, h.localKeys,
        fun e he => h.redisPermissions e (mem_of_mem_filter he), h.tokens, h.cookies,
        h.requests, h.transactions, h.exact⟩, rfl⟩
  | keysOf u => exact ⟨h, rfl⟩
  | key hash =>
    refine ⟨⟨fun e he => ?_, fun e he => h.localKeys e (mem_of_mem_filter he),
      h.redisPermissions, h.tokens, h.cookies, h.requests, h.transactions, h.exact⟩, rfl⟩
    cases redis with
    | false => exact h.redisKeys e he
    | true => exact h.redisKeys e (mem_of_mem_filter he)

/-! ### Reads -/

theorem view_user (hu : (db.view c).userId = some u) (huser : (db.view c).user = some user) :
    db.users.get? u = some user ∧ (db.view c).tenants = db.tenantsOf u ∧
      (db.view c).permissions = db.permissionsOf user.roleId := by
  have key {o : Option UserId} {version : ℕ} (ho : (db.userView o version).userId = some u)
      (huser : (db.userView o version).user = some user) :
      db.users.get? u = some user ∧ (db.userView o version).tenants = db.tenantsOf u ∧
        (db.userView o version).permissions = db.permissionsOf user.roleId := by
    cases o with
    | none => cases ho
    | some u' =>
      cases ho
      change db.users.get? u = some user at huser
      refine ⟨huser, rfl, ?_⟩
      change db.permissionsOf ((db.users.get? u).bind User.roleId) = _
      rw [huser, bind_some]
  cases c with
  | cookie t => exact key hu huser
  | apiKey hash => exact key hu huser

theorem authorise_of_user {v : View}
    (hu : v.userId = some u) (huser : v.user = some user) (hadmits : user.Admits v.version c) :
    v.authorise c = some (user.auth u c user.username user.role
      (user.tenantIds user.role v.tenants) v.permissions) := by
  rw [View.authorise, hu, huser]
  exact if_pos hadmits

theorem Inv.identity (h : s.Inv)
    (hr : r ∈ s.requests) (hu : (s.db.view r.credential).userId = some u)
    (huser : (s.db.view r.credential).user = some user)
    (hadmits : user.Admits (s.db.view r.credential).version r.credential) :
    Processes.identity r.credential user = (user.username, user.role) := by
  cases hc : r.credential with
  | apiKey hash => rfl
  | cookie t =>
    rw [hc] at hu huser hadmits
    cases hu
    obtain ⟨hname, hrole⟩ :=
      (h.tokens t (h.cookies r hr t hc) user (view_user rfl huser).1).2 hadmits.2
    exact Prod.ext hname hrole

theorem Inv.readUser {version : ℕ} (h : s.Inv) (hr : r ∈ s.requests)
    (hview : r.overtaken = false → (s.db.view r.credential).userId = some u ∧
      (s.db.view r.credential).user = s.db.users.get? u ∧
      (s.db.view r.credential).version = version) : (s.readUser i r u version).Inv := by
  rw [Processes.readUser]
  split
  next user huser =>
    split
    next hadmits =>
      refine h.proceed hr fun hovertaken => ?_
      obtain ⟨hu, hrow, hversion⟩ := hview hovertaken
      exact ⟨hu, hrow.trans huser, hversion ▸ hadmits⟩
    next hadmits =>
      refine h.finish fun hovertaken => ?_
      obtain ⟨hu, hrow, hversion⟩ := hview hovertaken
      rw [Database.authorise, View.authorise, hu, hrow, huser, hversion]
      exact (if_neg hadmits).symm
  next huser =>
    refine h.finish fun hovertaken => ?_
    obtain ⟨hu, hrow, -⟩ := hview hovertaken
    rw [Database.authorise, View.authorise, hu, hrow, huser]

theorem Inv.auth_eq (h : s.Inv) (hr : r ∈ s.requests)
    (hu : (s.db.view r.credential).userId = some u)
    (huser : (s.db.view r.credential).user = some user)
    (hadmits : user.Admits (s.db.view r.credential).version r.credential)
    (htenants : tenantIds = user.tenantIds user.role (s.db.view r.credential).tenants) :
    s.db.authorise r.credential =
      some (Processes.auth r.credential u user tenantIds (s.db.permissionsOf user.roleId)) := by
  rw [Database.authorise, authorise_of_user hu huser hadmits, (view_user hu huser).2.2,
    Processes.auth, h.identity hr hu huser hadmits, htenants]

theorem auth_admin {t : Token} (hrole : t.role = "admin") (ps qs : List String) :
    Processes.auth (.cookie t) u user tenantIds ps =
      Processes.auth (.cookie t) u user tenantIds qs := by
  simp [Processes.auth, User.auth, Processes.identity, hrole]

theorem Inv.readPermissions (h : s.Inv) (hr : r ∈ s.requests)
    (hagrees : r.overtaken = false → ((s.db.view r.credential).userId = some u ∧
      (s.db.view r.credential).user = some user ∧
      user.Admits (s.db.view r.credential).version r.credential) ∧
        tenantIds = user.tenantIds user.role (s.db.view r.credential).tenants) :
    (s.readPermissions i r u user tenantIds redis).Inv := by
  have hauth (hovertaken : r.overtaken = false) : s.db.authorise r.credential =
      some (Processes.auth r.credential u user tenantIds (s.db.permissionsOf user.roleId)) := by
    obtain ⟨⟨hu, huser, hadmits⟩, htenants⟩ := hagrees hovertaken
    exact h.auth_eq hr hu huser hadmits htenants
  have hfound (hovertaken : r.overtaken = false) :
      (s.db.view r.credential).permissions = s.db.permissionsOf user.roleId := by
    obtain ⟨⟨hu, huser, -⟩, -⟩ := hagrees hovertaken
    exact (view_user hu huser).2.2
  rw [Processes.readPermissions]
  cases hc : r.credential with
  | apiKey hash =>
    refine h.proceed hr fun hovertaken => ?_
    have hpermissions := hfound hovertaken
    rw [hc] at hauth hpermissions ⊢
    exact ⟨hauth hovertaken, congrArg some hpermissions.symm⟩
  | cookie t =>
    dsimp only
    split
    next hrole =>
      refine h.finish fun hovertaken => ?_
      rw [hauth hovertaken, hc]
      exact congrArg some (auth_admin hrole _ _)
    next hrole =>
      split
      next permissions hget =>
        refine h.finish fun hovertaken => ?_
        -- the copy in Redis is of the user of the cookie
        obtain ⟨⟨hu, huser, -⟩, -⟩ := hagrees hovertaken
        rw [hauth hovertaken, hc, ← h.getCachedPermissions hget, Database.userPermissions,
          (view_user hu huser).1, bind_some]
      · split
        next hnone =>
          refine h.finish fun hovertaken => ?_
          rw [hauth hovertaken, hc, hnone]
          rfl
        · refine h.proceed hr fun hovertaken => ?_
          have hpermissions := hfound hovertaken
          rw [hc] at hauth hpermissions ⊢
          refine ⟨hauth hovertaken, ?_⟩
          rw [hpermissions]
          exact if_neg hrole

theorem Inv.read (h : s.Inv) (hr : r ∈ s.requests) (hread : s.read i r redis = some s') : s'.Inv :=
    by
  have hagrees := h.requests r hr
  rw [Request.Agrees] at hagrees
  rw [Processes.read] at hread
  split at hread
  next t hprogress hc =>
    cases hread
    refine h.readUser hr fun _ => ?_
    rw [hc]
    exact ⟨rfl, rfl, rfl⟩
  next hash hprogress hc =>
    split at hread
    next u hu =>
      cases hread
      refine h.proceed hr fun _ => ?_
      rw [hc]
      exact ⟨hu, rfl⟩
    next hnone =>
      cases hread
      refine h.finish fun _ => ?_
      rw [hc, Database.authorise, View.authorise, Database.view, Database.userView, hnone]
  next u hprogress =>
    cases hread
    refine h.readUser hr fun hovertaken => ?_
    have hread := hagrees hovertaken
    rw [hprogress] at hread
    obtain ⟨hu, hversion⟩ := hread
    refine ⟨hu, ?_, hversion⟩
    cases hc : r.credential <;> rw [hc] at hu <;>
      exact congrArg (fun o : Option UserId => o.bind s.db.users.get?) hu
  next u user hprogress =>
    cases hread
    refine h.proceed hr fun hovertaken => ?_
    have hread := hagrees hovertaken
    rw [hprogress] at hread
    obtain ⟨hu, huser, hadmits⟩ := hread
    refine ⟨⟨hu, huser, hadmits⟩, ?_⟩
    rw [h.identity hr hu huser hadmits, (view_user hu huser).2.1]
  next u user tenantIds hprogress =>
    cases hread
    rw [hprogress] at hagrees
    exact h.readPermissions hr hagrees
  · cases hread

theorem Inv.store (h : s.Inv)
    (hr : r ∈ s.requests) (hclean : r.overtaken = false) (hstore : s.store i r redis = some s') :
    s'.Inv := by
  have hagrees := h.requests r hr hclean
  rw [Request.Agrees] at hagrees
  rw [Processes.store] at hstore
  split at hstore
  next auth hash hprogress hc =>
    cases hstore
    rw [hprogress, hc] at hagrees
    refine (h.setCachedApiKey hagrees.1).finish fun _ => ?_
    rw [hc]
    exact hagrees.1.symm
  next auth t hprogress hc =>
    cases hstore
    rw [hprogress, hc] at hagrees
    have hpermissions : s.db.userPermissions t.sub = auth.permissions.getD [] := by
      rw [hagrees.2]
      rfl
    have hdb : (s.setCachedPermissions t.sub (auth.permissions.getD []) redis).db = s.db := by
      cases redis <;> rfl
    refine (h.setCachedPermissions hpermissions).finish fun _ => ?_
    rw [hc, hdb]
    exact hagrees.1.symm
  · cases hstore

theorem Inv.request (h : s.Inv)
    (hcookie : ∀ t, c = .cookie t → t ∈ s.tokens) : (s.request process c redis).Inv := by
  have hstarted : Inv { s with requests := s.requests ++ [⟨process, c, .started, false⟩] } := by
    refine ⟨h.redisKeys, h.localKeys, h.redisPermissions, h.tokens, fun r hr => ?_,
      fun r hr => ?_, h.transactions, h.exact⟩
    · rcases List.mem_append.1 hr with hr | hr
      · exact h.cookies r hr
      · cases List.mem_singleton.1 hr
        exact hcookie
    · rcases List.mem_append.1 hr with hr | hr
      · exact h.requests r hr
      · cases List.mem_singleton.1 hr
        exact fun _ => trivial
  cases c with
  | cookie t => exact hstarted
  | apiKey hash =>
    rw [Processes.request]
    split
    next auth s' hget =>
      obtain ⟨hinv, hdb, hauth⟩ := h.getCachedApiKey hget
      refine hinv.answer fun _ => ?_
      rw [hdb, hauth]
    · exact hstarted

/-! ### Transactions -/

theorem bumps_updateUser {request : UpdateUserRequest}
    (h : updateUser db process u request = some t) : t.Bumps := by
  obtain ⟨user, -, ht⟩ := bind_eq_some_iff.1 h
  cases ht
  refine ⟨fun hrole => ?_, nofun⟩
  change Option.filter (· ≠ user.role) request.role ≠ none at hrole
  have hsome : (Option.filter (· ≠ user.role) request.role).isSome = true :=
    isSome_iff_ne_none.2 hrole
  rw [hsome]
  exact nofun

theorem bumps_of_bind {α : Type} {o : Option α} {f : α → Option Transaction}
    (h : o.bind f = some t) (hf : ∀ x t, f x = some t → t.Bumps) : t.Bumps := by
  obtain ⟨x, -, ht⟩ := bind_eq_some_iff.1 h
  exact hf x t ht

theorem Inv.start {o : Option Transaction} (h : s.Inv)
    (hs : o.map s.start = some s') (hbumps : ∀ t, o = some t → t.Bumps) : s'.Inv := by
  obtain ⟨t, ht, rfl⟩ := map_eq_some_iff.1 hs
  refine ⟨h.redisKeys, h.localKeys, h.redisPermissions, h.tokens, h.cookies, h.requests,
    fun t' ht' => ?_, h.exact⟩
  rcases List.mem_append.1 ht' with ht' | ht'
  · exact h.transactions t' ht'
  · exact List.mem_singleton.1 ht' ▸ hbumps t ht

theorem Inv.withTransactions (h : s.Inv) {transactions : List Transaction}
    (hbumps : ∀ t ∈ transactions, t.Bumps) : Inv { s with transactions := transactions } :=
  ⟨h.redisKeys, h.localKeys, h.redisPermissions, h.tokens, h.cookies, h.requests, hbumps, h.exact⟩

theorem apply_now (change : Change) (db : Database) : (change.apply db).now = db.now := by
  cases change with
  | assignTenant u t =>
    rw [Change.apply]
    split <;> rfl
  | _ => rfl

theorem carries_apply {t : Token} {change : Change} (h : t.Carries db)
    (hfinds : change.Finds db) (hbumps : change.Bumps) : t.Carries (change.apply db) := by
  intro user' huser'
  obtain ⟨user, huser, hname, hversion⟩ := Change.apply_user hfinds hbumps huser'
  obtain ⟨hle, hcarries⟩ := h user huser
  rcases hversion with hversion | ⟨hversion, hrole⟩
  · rw [hversion]
    exact ⟨Nat.le_succ_of_le hle, fun heq => absurd heq (by omega)⟩
  · rw [hversion, hname, hrole]
    exact ⟨hle, hcarries⟩

theorem Inv.commit (h : s.Inv) (ht : t ∈ s.transactions) (hclean : s.CommitsClean t) :
    Inv { s.withDb (t.change.apply s.db) with transactions := s.afterCommit i t } := by
  obtain ⟨hbumps, hnext⟩ := h.transactions t ht
  have hinv := h.withDb (Nat.le_of_eq (apply_now t.change s.db).symm) hclean.2
    fun token htoken => carries_apply (h.tokens token htoken) hclean.1 hbumps
  refine hinv.withTransactions fun t' ht' => ?_
  rcases List.mem_append.1 ht' with ht' | ht'
  · exact h.transactions t' (mem_of_mem_eraseIdx ht')
  · obtain ⟨next, hmem, rfl⟩ := map_eq_some_iff.1 (Option.mem_toList.1 ht')
    exact ⟨hnext next hmem, nofun⟩

/-- **A clean step keeps the invariant.** -/
theorem Inv.step {a : Action} (h : s.Inv) (hclean : a.Clean s) (hstep : s.step a = some s') :
    s'.Inv := by
  cases a with
  | tick seconds =>
    cases hstep
    exact h.withDb (Nat.le_add_right ..) hclean h.tokens
  | evictLocal process hash =>
    cases hstep
    exact ⟨h.redisKeys, fun e he => h.localKeys e (mem_of_mem_filter he),
      h.redisPermissions, h.tokens, h.cookies, h.requests, h.transactions, h.exact⟩
  | evictKey hash =>
    cases hstep
    exact ⟨fun e he => h.redisKeys e (mem_of_mem_filter he), h.localKeys,
      h.redisPermissions, h.tokens, h.cookies, h.requests, h.transactions, h.exact⟩
  | evictPermissions u =>
    cases hstep
    exact ⟨h.redisKeys, h.localKeys,
      fun e he => h.redisPermissions e (mem_of_mem_filter he), h.tokens, h.cookies,
      h.requests, h.transactions, h.exact⟩
  | issue u =>
    obtain ⟨user, huser, rfl⟩ := map_eq_some_iff.1 hstep
    refine ⟨h.redisKeys, h.localKeys, h.redisPermissions, fun t ht => ?_,
      fun r hr t ht => mem_append_left _ (h.cookies r hr t ht), h.requests,
      h.transactions, h.exact⟩
    rcases List.mem_append.1 ht with ht | ht
    · exact h.tokens t ht
    · cases List.mem_singleton.1 ht
      intro user' huser'
      cases huser.symm.trans huser'
      exact ⟨Nat.le_refl _, fun _ => ⟨rfl, rfl⟩⟩
  | updateUser process u request => exact h.start hstep fun t ht => bumps_updateUser ht
  | deleteUser process u =>
    exact h.start hstep fun t ht => bumps_of_bind ht fun _ t ht => by
      cases ht
      exact ⟨trivial, nofun⟩
  | assignTenant process u t =>
    exact h.start hstep fun t ht => bumps_of_bind ht fun _ t ht => by
      split at ht
      · cases ht
      · cases ht
        exact ⟨trivial, nofun⟩
  | removeTenant process u t =>
    refine h.start hstep fun t ht => ?_
    rw [removeTenant] at ht
    split at ht
    · cases ht
      exact ⟨trivial, nofun⟩
    · cases ht
  | updateRole process r permissions =>
    exact h.start hstep fun t ht => bumps_of_bind ht fun _ t ht => by
      cases ht
      exact ⟨trivial, nofun⟩
  | deleteRole process r =>
    exact h.start hstep fun t ht => bumps_of_bind ht fun _ t ht => by
      split at ht
      · cases ht
      · cases ht
        exact ⟨trivial, nofun⟩
  | deleteKey process hash =>
    exact h.start hstep fun t ht => bumps_of_bind ht fun _ t ht => by
      cases ht
      exact ⟨trivial, nofun⟩
  | resetPassword process u =>
    exact h.start hstep fun t ht => bumps_of_bind ht fun _ t ht => by
      cases ht
      exact ⟨trivial, nofun⟩
  | logout process u =>
    exact h.start hstep fun t ht => bumps_of_bind ht fun _ t ht => by
      cases ht
      exact ⟨trivial, fun next hnext => by cases hnext; trivial⟩
  | replay process u =>
    exact h.start hstep fun t ht => bumps_of_bind ht fun _ t ht => by
      cases ht
      exact ⟨trivial, nofun⟩
  | delete i redis =>
    rw [Processes.step] at hstep
    split at hstep
    next t ht =>
      split at hstep
      next d rest hd =>
        cases hstep
        refine (h.deleteCopy t.process redis d).1.withTransactions fun t' ht' => ?_
        rcases List.mem_append.1 ht' with ht' | ht'
        · exact h.transactions t' (mem_of_mem_eraseIdx ht')
        · cases List.mem_singleton.1 ht'
          exact h.transactions t (mem_of_getElem? ht)
      · cases hstep
    · cases hstep
  | commit i =>
    rw [Processes.step] at hstep
    split at hstep
    next t ht =>
      split at hstep
      · cases hstep
        exact h.commit (mem_of_getElem? ht) (hclean t ht)
      · cases hstep
    · cases hstep
  | fail i =>
    rw [Processes.step] at hstep
    split at hstep
    · cases hstep
      exact h.withTransactions fun t ht => h.transactions t (mem_of_mem_eraseIdx ht)
    · cases hstep
  | request process c redis =>
    cases c with
    | cookie t =>
      rw [Processes.step] at hstep
      split at hstep
      next hmem =>
        cases hstep
        exact h.request fun t' ht' => by cases ht'; exact hmem
      · cases hstep
    | apiKey hash =>
      cases hstep
      exact h.request nofun
  | read i redis =>
    rw [Processes.step] at hstep
    split at hstep
    next r hr => exact h.read (mem_of_getElem? hr) hstep
    · cases hstep
  | store i redis =>
    rw [Processes.step] at hstep
    split at hstep
    next r hr => exact h.store (mem_of_getElem? hr) (hclean r hr) hstep
    · cases hstep

end Processes

open Processes

end MonCTL.AuthCache
