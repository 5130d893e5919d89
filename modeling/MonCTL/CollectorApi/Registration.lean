import MonCTL.AuthCache.Requests

/-!
# Registering Collectors

The central processes as they register collectors and authenticate their API keys.
`register_collector` runs in one transaction: it reads the token, looks for the collector of the
hostname, updates its row or inserts one, deletes the cached copies of the old keys one after
another, and commits the rows, the new key and the use of the token together. `_validate_api_key`
asks Redis, then its process, then the database, and leaves a copy in both.

A step is what runs between two points at which a coroutine waits. A row that a transaction has
updated or inserted is locked until the transaction ends; a transaction sees what has committed.
Redis may fail at any step, and a transaction or an authentication may end at any step.
-/

namespace MonCTL.CollectorApi.Registering

open Option

open AuthCache (Copy)

/-! ### Rows -/

/-- `RegistrationToken`. -/
structure RegistrationToken where
  id : ℕ
  tokenHash : String
  shortCode : String
  oneTime : Bool
  used : Bool := false
  clusterId : Option String := none
  expiresAt : Option ℕ := none

/-- `reg_token.one_time and reg_token.used`. -/
def RegistrationToken.spent (t : RegistrationToken) : Bool := t.oneTime && t.used

/-- `reg_token.expires_at and reg_token.expires_at < utc_now()`. -/
def RegistrationToken.expired (t : RegistrationToken) (now : ℕ) : Bool :=
  match t.expiresAt with
  | some expiresAt => expiresAt < now
  | none => false

/-- The columns of a collector that a registration writes. -/
structure Details where
  ipAddresses : Option (List String)
  osInfo : Option String
  labels : List (String × String)
  status : String
  fingerprint : Option String
  approvedAt : Option ℕ := none
  approvedBy : Option String := none
  rejectedReason : Option String := none
  lastSeenAt : ℕ
  updatedAt : ℕ

/-- What a flush leaves in a column: a value that differs from the one that has been read. -/
def flushed {α : Type} [DecidableEq α] (read new current : α) : α :=
  if new = read then current else new

/-- The row after a flush. -/
def Details.flush (read new current : Details) : Details where
  ipAddresses := flushed read.ipAddresses new.ipAddresses current.ipAddresses
  osInfo := flushed read.osInfo new.osInfo current.osInfo
  labels := flushed read.labels new.labels current.labels
  status := flushed read.status new.status current.status
  fingerprint := flushed read.fingerprint new.fingerprint current.fingerprint
  approvedAt := flushed read.approvedAt new.approvedAt current.approvedAt
  approvedBy := flushed read.approvedBy new.approvedBy current.approvedBy
  rejectedReason := flushed read.rejectedReason new.rejectedReason current.rejectedReason
  lastSeenAt := flushed read.lastSeenAt new.lastSeenAt current.lastSeenAt
  updatedAt := flushed read.updatedAt new.updatedAt current.updatedAt

/-- `Collector`; the name is unique. -/
structure Collector where
  id : ℕ
  name : String
  hostname : String
  clusterId : Option String
  details : Details

/-- `ApiKey`, with the hash in place of the key. -/
structure ApiKey where
  keyHash : ℕ
  keyType : String := "collector"
  collectorId : ℕ
  scopes : List String := ["collector:*"]
  expiresAt : Option ℕ := none

/-- `RegisterRequest`; the legacy token by its hash, if there is one and it is not empty. -/
structure RegisterRequest where
  hostname : String
  registrationToken : Option String := none
  registrationCode : Option String := none
  osInfo : Option String := none
  ipAddresses : Option (List String) := none
  labels : List (String × String) := []
  clusterId : Option String := none
  fingerprint : Option String := none

/-- A key that has been issued: with which token, to which hostname, and when. -/
structure Issued where
  token : ℕ
  hostname : String
  collectorId : ℕ
  key : ℕ
  issuedAt : ℕ

/-- The tables, and the keys issued so far, the latest first. What is drawn at random, of ids and
keys, is numbered in the order in which it is drawn. -/
structure Database where
  tokens : List RegistrationToken := []
  collectors : List Collector := []
  apiKeys : List ApiKey := []
  issued : List Issued := []
  drawn : ℕ := 0

/-- A later registration of its hostname has committed since a key was issued. -/
def superseded : List Issued → ℕ → Bool
  | [], _ => false
  | e :: issued, key =>
    issued.any (fun a => a.key = key && a.hostname = e.hostname) || superseded issued key

/-! ### Registrations -/

/-- What a registration writes to `collectors`: a row of its own, or an update of the row that it
has read. -/
inductive Write
  | insert (clusterId : Option String) (details : Details)
  | update (id : ℕ) (read new : Details)

/-- What `delete_cached_api_key` has still to delete. -/
inductive Deletion
  | fromProcess (key : ℕ)
  | fromRedis (key : ℕ)

/-- `delete_cached_api_key`. -/
def deleteCachedApiKey (key : ℕ) : List Deletion := [.fromProcess key, .fromRedis key]

/-- How far a registration has come. -/
inductive Progress
  | started
  /-- The token has been read, and admits the request. -/
  | admitted (token : RegistrationToken)
  | found (token : RegistrationToken) (collector : Collector)
  | absent (token : RegistrationToken)
  /-- The row of the collector has been updated. -/
  | updated (token : RegistrationToken) (id : ℕ) (read new : Details)
  /-- The row has been written and the old keys have been read. -/
  | written (token : RegistrationToken) (write : Write) (oldKeys : List ℕ)
      (deletions : List Deletion)

/-- The token, as it has been read. -/
def Progress.token? : Progress → Option RegistrationToken
  | started => none
  | admitted token | found token _ | absent token | updated token .. | written token .. =>
    some token

/-- A request to register, in one of the processes. -/
structure Registration where
  process : ℕ
  request : RegisterRequest
  progress : Progress := .started

/-- What a transaction keeps others from: the update of a row, or the insertion of a name. -/
inductive Lock
  | row (id : ℕ)
  | name (name : String)
  deriving DecidableEq

def Registration.lock (r : Registration) : Option Lock :=
  match r.progress with
  | .updated _ id _ _ | .written _ (.update id _ _) _ _ => some (.row id)
  | .written _ (.insert _ _) _ _ => some (.name r.request.hostname)
  | _ => none

namespace Database

/-- The token of a request: by its code, else by its hash. -/
def tokenOf (db : Database) (normalise : String → String) (request : RegisterRequest) :
    Option RegistrationToken :=
  match request.registrationCode with
  | some code => db.tokens.find? fun t => t.shortCode = normalise code
  | none => request.registrationToken.bind fun hash => db.tokens.find? fun t => t.tokenHash = hash

/-- `create_registration_token`, unless the code or the hash is in use. -/
def createToken (db : Database) (tokenHash shortCode : String) (oneTime : Bool)
    (clusterId : Option String) (expiresAt : Option ℕ) : Option Database :=
  if db.tokens.any (fun t => t.tokenHash = tokenHash || t.shortCode = shortCode) then none
  else
    some { db with
      tokens := db.tokens ++
        [⟨db.drawn, tokenHash, shortCode, oneTime, false, clusterId, expiresAt⟩]
      drawn := db.drawn + 1 }

/-- `reg_token.used = True`. -/
def useToken (token t : RegistrationToken) : RegistrationToken :=
  if t.id = token.id ∧ token.oneTime = true then { t with used := true } else t

/-- The rows that a registration leaves, and the id of its row. -/
def writeCollector (db : Database) (hostname : String) : Write → List Collector × ℕ
  | .insert clusterId details =>
    (db.collectors ++ [⟨db.drawn, hostname, hostname, clusterId, details⟩], db.drawn)
  | .update id read new =>
    (db.collectors.map fun c =>
      if c.id = id then { c with details := read.flush new c.details } else c, id)

/-- A registration commits: its row, the deletion of the old keys, the new key, and the use of
the token. -/
def register (db : Database) (now : ℕ) (hostname : String) (token : RegistrationToken)
    (write : Write) (oldKeys : List ℕ) : Database where
  tokens := db.tokens.map (useToken token)
  collectors := (db.writeCollector hostname write).1
  apiKeys :=
    (db.apiKeys.filter fun k => k.keyHash ∉ oldKeys) ++
      [{ keyHash := db.drawn + 1, collectorId := (db.writeCollector hostname write).2 }]
  issued :=
    ⟨token.id, hostname, (db.writeCollector hostname write).2, db.drawn + 1, now⟩ :: db.issued
  drawn := db.drawn + 2

end Database

/-! ### Authentication -/

/-- What `_validate_api_key` returns for the key of a collector. -/
structure KeyAuth where
  keyType : String
  collectorId : ℕ
  scopes : List String

/-- `result_dict`. -/
def ApiKey.auth (k : ApiKey) : KeyAuth := ⟨k.keyType, k.collectorId, k.scopes⟩

/-- How far an authentication has come. -/
inductive Lookup
  | started
  /-- Redis has a copy, which is going to be copied to the process. -/
  | cached (auth : KeyAuth)
  | missed
  | reading
  /-- The row has been read. -/
  | found (auth : KeyAuth)
  /-- The process has a copy of the row, and Redis is going to have one. -/
  | copied (auth : KeyAuth)

/-- The authentication has what it is going to return. -/
def Lookup.holds : Lookup → Bool
  | cached _ | found _ | copied _ => true
  | started | missed | reading => false

/-- An authentication, in one of the processes. -/
structure Validation where
  process : ℕ
  key : ℕ
  progress : Lookup := .started

/-- What an authentication has returned, and whether the key was superseded then. -/
structure Answer where
  key : ℕ
  auth : Option KeyAuth
  superseded : Bool

/-! ### The Processes -/

/-- The tables, the copies in Redis and in the processes, and what is in progress. -/
structure State where
  now : ℕ := 0
  db : Database := {}
  redisKeys : Dict ℕ (Copy KeyAuth) := []
  localKeys : Dict (ℕ × ℕ) (Copy KeyAuth) := []
  registrations : List Registration := []
  validations : List Validation := []
  answers : List Answer := []

/-- What can happen. -/
inductive Action
  | tick (seconds : ℕ)
  /-- A copy is dropped, because there are too many or what keeps it has been restarted. -/
  | evictLocal (process key : ℕ)
  | evictRedis (key : ℕ)
  | createToken (tokenHash shortCode : String) (oneTime : Bool) (clusterId : Option String)
      (expiresAt : Option ℕ)
  /-- A request to register starts, goes on, commits, and ends without a commit. -/
  | register (process : ℕ) (request : RegisterRequest)
  | proceed (i : ℕ) (redis : Bool)
  | commit (i : ℕ)
  | fail (i : ℕ)
  /-- An authentication starts, goes on, and ends without an answer. -/
  | validate (process key : ℕ)
  | look (i : ℕ) (redis : Bool)
  | abandon (i : ℕ)

namespace State

/-- A copy that has not expired. -/
def live (s : State) (copy : Option (Copy KeyAuth)) : Option KeyAuth :=
  (copy.filter fun c => s.now < c.expires).map Copy.value

/-- `_set_local_api_key`. -/
def setLocalApiKey (s : State) (process key : ℕ) (auth : KeyAuth) : State :=
  { s with
    localKeys := s.localKeys.set (process, key) ⟨auth, s.now + AuthCache.localCacheTtl + 1⟩ }

def setRedisApiKey (s : State) (key : ℕ) (auth : KeyAuth) (redis : Bool) : State :=
  if redis then
    { s with redisKeys := s.redisKeys.set key ⟨auth, s.now + AuthCache.apiKeyTtl⟩ }
  else s

def deleteCopy (s : State) (process : ℕ) (redis : Bool) : Deletion → State
  | .fromProcess key => { s with localKeys := s.localKeys.filter fun e => e.1 ≠ (process, key) }
  | .fromRedis key =>
    if redis then { s with redisKeys := s.redisKeys.filter fun e => e.1 ≠ key } else s

/-- A registration goes on. -/
def goOn (s : State) (i : ℕ) (r : Registration) (progress : Progress) : State :=
  { s with registrations := s.registrations.eraseIdx i ++ [⟨r.process, r.request, progress⟩] }

/-- A registration ends. -/
def drop (s : State) (i : ℕ) : State := { s with registrations := s.registrations.eraseIdx i }

/-- What a registration puts into the row of its collector. -/
def details (s : State) (request : RegisterRequest) : Details where
  ipAddresses := request.ipAddresses
  osInfo := request.osInfo
  labels := request.labels
  status := "PENDING"
  fingerprint := request.fingerprint
  lastSeenAt := s.now
  updatedAt := s.now

/-- Another transaction holds a lock. -/
def locked (s : State) (lock : Lock) : Bool := s.registrations.any fun r => r.lock = some lock

/-- `register_collector` goes on; where it waits for a lock, it does not. -/
def proceed (normalise : String → String) (s : State) (i : ℕ) (r : Registration) (redis : Bool) :
    Option State :=
  match r.progress with
  | .started =>
    match s.db.tokenOf normalise r.request with
    | some token =>
      if token.spent || token.expired s.now then some (s.drop i)
      else some (s.goOn i r (.admitted token))
    | none => some (s.drop i)
  | .admitted token =>
    match s.db.collectors.filter fun c => c.hostname = r.request.hostname with
    | [] => some (s.goOn i r (.absent token))
    | [collector] => some (s.goOn i r (.found token collector))
    | _ => some (s.drop i)
  | .found token collector =>
    -- the query for the old keys flushes the update of the row first
    if s.locked (.row collector.id) then none
    else
      some (s.goOn i r (.updated token collector.id collector.details (s.details r.request)))
  | .updated token id read new =>
    let oldKeys := (s.db.apiKeys.filter fun k => k.collectorId = id).map ApiKey.keyHash
    some (s.goOn i r
      (.written token (.update id read new) oldKeys (oldKeys.flatMap deleteCachedApiKey)))
  | .absent token =>
    if s.locked (.name r.request.hostname) then none
    else if s.db.collectors.any fun c => c.name = r.request.hostname then some (s.drop i)
    else
      let clusterId := r.request.clusterId.or token.clusterId
      some (s.goOn i r (.written token (.insert clusterId (s.details r.request)) [] []))
  | .written token write oldKeys (d :: deletions) =>
    some ((s.deleteCopy r.process redis d).goOn i r (.written token write oldKeys deletions))
  | .written _ _ _ [] => none

/-- A registration commits, when it has deleted the copies. -/
def commit (s : State) (i : ℕ) (r : Registration) : Option State :=
  match r.progress with
  | .written token write oldKeys [] =>
    some { s.drop i with db := s.db.register s.now r.request.hostname token write oldKeys }
  | _ => none

/-- An authentication goes on. -/
def goOnLooking (s : State) (i : ℕ) (v : Validation) (progress : Lookup) : State :=
  { s with validations := s.validations.eraseIdx i ++ [⟨v.process, v.key, progress⟩] }

def answer (s : State) (i : ℕ) (v : Validation) (auth : Option KeyAuth) : State :=
  { s with
    validations := s.validations.eraseIdx i
    answers := s.answers ++ [⟨v.key, auth, superseded s.db.issued v.key⟩] }

/-- The row of a key is read: it is rejected if there is none, or it has expired. -/
def readKey (s : State) (key : ℕ) : Option KeyAuth :=
  match s.db.apiKeys.find? fun k => k.keyHash = key with
  | some k => if k.expiresAt.any (· < s.now) then none else some k.auth
  | none => none

/-- `_validate_api_key` goes on. -/
def look (s : State) (i : ℕ) (v : Validation) (redis : Bool) : State :=
  match v.progress with
  | .started =>
    match if redis then s.live (s.redisKeys.get? v.key) else none with
    | some auth => s.goOnLooking i v (.cached auth)
    | none => s.goOnLooking i v .missed
  | .cached auth => (s.setLocalApiKey v.process v.key auth).answer i v (some auth)
  | .missed =>
    match s.live (s.localKeys.get? (v.process, v.key)) with
    | some auth => s.answer i v (some auth)
    | none => s.goOnLooking i v .reading
  | .reading =>
    match s.readKey v.key with
    | some auth => s.goOnLooking i v (.found auth)
    | none => s.answer i v none
  | .found auth => (s.setLocalApiKey v.process v.key auth).goOnLooking i v (.copied auth)
  | .copied auth => (s.setRedisApiKey v.key auth redis).answer i v (some auth)

/-- A step, unless it cannot be taken. -/
def step (normalise : String → String) (s : State) : Action → Option State
  | .tick seconds => some { s with now := s.now + seconds }
  | .evictLocal process key =>
    some { s with localKeys := s.localKeys.filter fun e => e.1 ≠ (process, key) }
  | .evictRedis key => some { s with redisKeys := s.redisKeys.filter fun e => e.1 ≠ key }
  | .createToken tokenHash shortCode oneTime clusterId expiresAt =>
    (s.db.createToken tokenHash shortCode oneTime clusterId expiresAt).map fun db =>
      { s with db := db }
  | .register process request =>
    some { s with registrations := s.registrations ++ [⟨process, request, .started⟩] }
  | .proceed i redis => s.registrations[i]?.bind fun r => s.proceed normalise i r redis
  | .commit i => s.registrations[i]?.bind fun r => s.commit i r
  | .fail i => s.registrations[i]?.map fun _ => s.drop i
  | .validate process key =>
    some { s with validations := s.validations ++ [⟨process, key, .started⟩] }
  | .look i redis => s.validations[i]?.map fun v => s.look i v redis
  | .abandon i => some { s with validations := s.validations.eraseIdx i }

end State

/-! ### Superseded keys -/

@[simp] theorem superseded_nil (key : ℕ) : superseded [] key = false := rfl

variable {issued : List Issued} {key : ℕ}

theorem superseded_cons {e : Issued} :
    superseded (e :: issued) key = false ↔
      (∀ a ∈ issued, a.key = key → a.hostname ≠ e.hostname) ∧ superseded issued key = false := by
  simp [superseded]

theorem superseded_of_forall_ne
    (h : ∀ a ∈ issued, a.key ≠ key) : superseded issued key = false := by
  induction issued with
  | nil => rfl
  | cons e issued ih =>
    obtain ⟨_, h⟩ := List.forall_mem_cons.1 h
    exact superseded_cons.2 ⟨fun a ha hkey => absurd hkey (h a ha), ih h⟩

/-! ### Steps of a registration -/

/-- How a registration goes on, and what it has read. -/
inductive Goes (normalise : String → String) (s : State) (request : RegisterRequest) :
    Progress → Progress → Prop
  | accept {token : RegistrationToken} : s.db.tokenOf normalise request = some token →
      token.spent = false → token.expired s.now = false →
      Goes normalise s request .started (.admitted token)
  | absent {token : RegistrationToken} : Goes normalise s request (.admitted token) (.absent token)
  | found {token : RegistrationToken} {collector : Collector} : collector ∈ s.db.collectors →
      collector.hostname = request.hostname →
      Goes normalise s request (.admitted token) (.found token collector)
  | update {token : RegistrationToken} {collector : Collector} {new : Details} :
      s.locked (.row collector.id) = false →
      Goes normalise s request (.found token collector)
        (.updated token collector.id collector.details new)
  | readKeys {token : RegistrationToken} {id : ℕ} {read new : Details} {oldKeys : List ℕ}
      {deletions : List Deletion} :
      (∀ k ∈ s.db.apiKeys, k.collectorId = id → k.keyHash ∈ oldKeys) →
      Goes normalise s request (.updated token id read new)
        (.written token (.update id read new) oldKeys deletions)
  | insert {token : RegistrationToken} {clusterId : Option String} {details : Details} :
      s.locked (.name request.hostname) = false →
      (∀ c ∈ s.db.collectors, c.name ≠ request.hostname) →
      Goes normalise s request (.absent token) (.written token (.insert clusterId details) [] [])
  | delete {token : RegistrationToken} {write : Write} {oldKeys : List ℕ} {d : Deletion}
      {deletions : List Deletion} :
      Goes normalise s request (.written token write oldKeys (d :: deletions))
        (.written token write oldKeys deletions)

variable {s s' : State} {i : ℕ} {r : Registration} {redis : Bool}

/-- A registration ends, or goes on with what it has read; it may delete a copy. -/
theorem State.proceed_cases {normalise : String → String}
    (h : s.proceed normalise i r redis = some s') :
    s' = s.drop i ∨ ∃ progress s₀, Goes normalise s r.request r.progress progress ∧
      s' = s₀.goOn i r progress ∧ (s₀ = s ∨ ∃ d, s₀ = s.deleteCopy r.process redis d) := by
  rw [State.proceed] at h
  split at h
  next hprogress =>
    split at h
    next token htoken =>
      split at h
      · exact .inl (some.inj h).symm
      next hadmits =>
        obtain ⟨hspent, hexpired⟩ := Bool.or_eq_false_iff.1 (Bool.not_eq_true _ ▸ hadmits)
        exact .inr ⟨_, s, hprogress ▸ .accept htoken hspent hexpired, (some.inj h).symm,
          .inl rfl⟩
    · exact .inl (some.inj h).symm
  next token hprogress =>
    split at h
    · exact .inr ⟨_, s, hprogress ▸ .absent, (some.inj h).symm, .inl rfl⟩
    next collector hfound =>
      have hmem := List.mem_filter.1 (hfound ▸ List.mem_singleton_self collector)
      exact .inr ⟨_, s, hprogress ▸ .found hmem.1 (of_decide_eq_true hmem.2),
        (some.inj h).symm, .inl rfl⟩
    · exact .inl (some.inj h).symm
  next token collector hprogress =>
    split at h
    · cases h
    next hlocked =>
      exact .inr ⟨_, s, hprogress ▸ .update (Bool.not_eq_true _ ▸ hlocked),
        (some.inj h).symm, .inl rfl⟩
  next token id read new hprogress =>
    refine .inr ⟨_, s, hprogress ▸ .readKeys fun k hk hid => ?_, (some.inj h).symm, .inl rfl⟩
    exact List.mem_map.2 ⟨k, List.mem_filter.2 ⟨hk, decide_eq_true hid⟩, rfl⟩
  next token hprogress =>
    split at h
    · cases h
    next hlocked =>
      split at h
      · exact .inl (some.inj h).symm
      next hnames =>
        refine .inr ⟨_, s, hprogress ▸ .insert (Bool.not_eq_true _ ▸ hlocked) fun c hc hname => ?_,
          (some.inj h).symm, .inl rfl⟩
        exact hnames (List.any_eq_true.2 ⟨c, hc, decide_eq_true hname⟩)
  next token write oldKeys d deletions hprogress =>
    exact .inr ⟨_, _, hprogress ▸ .delete, (some.inj h).symm, .inr ⟨d, rfl⟩⟩
  · cases h

theorem State.commit_eq_some
    (h : s.commit i r = some s') :
    ∃ token write oldKeys, r.progress = .written token write oldKeys [] ∧ s' = { s.drop i with
        db := s.db.register s.now r.request.hostname token write oldKeys } := by
  rw [State.commit] at h
  split at h
  next token write oldKeys hprogress => exact ⟨token, write, oldKeys, hprogress, (some.inj h).symm⟩
  · cases h

theorem State.look_rows (s : State) (i : ℕ) (v : Validation) (redis : Bool) :
    (s.look i v redis).db = s.db ∧ (s.look i v redis).now = s.now ∧
      (s.look i v redis).registrations = s.registrations := by
  rw [State.look]
  split
  · split <;> exact ⟨rfl, rfl, rfl⟩
  · exact ⟨rfl, rfl, rfl⟩
  · split <;> exact ⟨rfl, rfl, rfl⟩
  · split <;> exact ⟨rfl, rfl, rfl⟩
  · exact ⟨rfl, rfl, rfl⟩
  · cases redis <;> exact ⟨rfl, rfl, rfl⟩

theorem State.deleteCopy_rows (s : State) (process : ℕ) (redis : Bool) (d : Deletion) :
    (s.deleteCopy process redis d).db = s.db ∧ (s.deleteCopy process redis d).now = s.now ∧
      (s.deleteCopy process redis d).registrations = s.registrations := by
  cases d with
  | fromProcess => exact ⟨rfl, rfl, rfl⟩
  | fromRedis => cases redis <;> exact ⟨rfl, rfl, rfl⟩

theorem State.rows_of_deleteCopy {s₀ : State} {process : ℕ}
    (h : s₀ = s ∨ ∃ d, s₀ = s.deleteCopy process redis d) :
    s₀.db = s.db ∧ s₀.now = s.now ∧ s₀.registrations = s.registrations := by
  rcases h with rfl | ⟨d, rfl⟩
  · exact ⟨rfl, rfl, rfl⟩
  · exact s.deleteCopy_rows process redis d

end MonCTL.CollectorApi.Registering
