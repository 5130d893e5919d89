import MonCTL.CollectorApi.Registration
import Mathlib.Data.List.Nodup
import Mathlib.Data.List.Perm.Basic

/-!
# The Rows of Registered Collectors

What the database keeps of its own, whatever the processes do. A transaction that updates a row
waits for the one that has updated it before, and reads the old keys only then; a transaction that
inserts a name waits for the one that has inserted it, and fails if that one commits. So the rows
of a hostname are never two, and the table of keys holds none that has been superseded.
-/

namespace MonCTL.CollectorApi.Registering

open List

/-! ### What the locks keep -/

/-- The row of an id belongs to a hostname. -/
def Database.Hosts (db : Database) (id : ℕ) (hostname : String) : Prop :=
  ∃ c ∈ db.collectors, c.id = id ∧ c.hostname = hostname

/-- What a registration has read and locked is what the tables say. -/
def Registration.Agrees (r : Registration) (db : Database) : Prop :=
  match r.progress with
  | .found _ collector => db.Hosts collector.id r.request.hostname
  | .updated _ id _ _ => db.Hosts id r.request.hostname
  | .written _ (.update id _ _) oldKeys _ =>
    db.Hosts id r.request.hostname ∧ ∀ k ∈ db.apiKeys, k.collectorId = id → k.keyHash ∈ oldKeys
  | .written _ (.insert _ _) _ _ => ∀ c ∈ db.collectors, c.hostname ≠ r.request.hostname
  | _ => True

/-- Two registrations do not hold the same lock. -/
def Registration.Apart (r r' : Registration) : Prop := r.lock = none ∨ r.lock ≠ r'.lock

variable {r r' : Registration}

theorem Registration.Apart.symm (h : r.Apart r') : r'.Apart r := by
  rcases h with hnone | hne
  · by_cases hnone' : r'.lock = none
    · exact .inl hnone'
    · exact .inr fun heq => hnone' (heq.trans hnone)
  · exact .inr hne.symm

/-- What the locks and the unique names keep: no two rows of a hostname, keys of rows only, and
of each hostname none that has been superseded. -/
structure Stored (db : Database) (registrations : List Registration) : Prop where
  hostnames : (db.collectors.map Collector.hostname).Nodup
  names : ∀ c ∈ db.collectors, c.name = c.hostname
  ids : ∀ c ∈ db.collectors, c.id < db.drawn
  issued : ∀ e ∈ db.issued, e.key < db.drawn ∧ e.hostname ∈ db.collectors.map Collector.hostname
  keys : ∀ k ∈ db.apiKeys, k.keyHash < db.drawn ∧
    ∀ e ∈ db.issued, e.key = k.keyHash → db.Hosts k.collectorId e.hostname
  current : ∀ k ∈ db.apiKeys, superseded db.issued k.keyHash = false
  agrees : ∀ r ∈ registrations, r.Agrees db
  locks : registrations.Pairwise Registration.Apart

theorem Stored.initial : Stored {} [] where
  hostnames := .nil
  names _ hc := absurd hc not_mem_nil
  ids _ hc := absurd hc not_mem_nil
  issued _ he := absurd he not_mem_nil
  keys _ hk := absurd hk not_mem_nil
  current _ hk := absurd hk not_mem_nil
  agrees _ hr := absurd hr not_mem_nil
  locks := .nil

variable {db : Database} {registrations : List Registration}

theorem Stored.sublist {registrations' : List Registration}
    (h : Stored db registrations) (hsub : registrations'.Sublist registrations) :
    Stored db registrations' :=
  ⟨h.hostnames, h.names, h.ids, h.issued, h.keys, h.current,
    fun r hr => h.agrees r (hsub.subset hr), h.locks.sublist hsub⟩

theorem Stored.append (h : Stored db registrations) (hagrees : r.Agrees db)
    (hlock : ∀ r' ∈ registrations, r'.Apart r) : Stored db (registrations ++ [r]) := by
  refine ⟨h.hostnames, h.names, h.ids, h.issued, h.keys, h.current, fun r' hr' => ?_, ?_⟩
  · rcases List.mem_append.1 hr' with hr' | hr'
    · exact h.agrees r' hr'
    · cases List.mem_singleton.1 hr'
      exact hagrees
  · exact List.pairwise_append.2 ⟨h.locks, pairwise_singleton _ _, fun r' hr' r'' hr'' => by
      cases List.mem_singleton.1 hr''
      exact hlock r' hr'⟩

variable {i : ℕ}

theorem Stored.others (h : Stored db registrations) (hr : registrations[i]? = some r) :
    ∀ r' ∈ registrations.eraseIdx i, r'.Apart r := by
  obtain ⟨hi, rfl⟩ := List.getElem?_eq_some_iff.1 hr
  have hcons := h.locks.perm (getElem_cons_eraseIdx_perm hi).symm Registration.Apart.symm
  exact fun r' hr' => ((List.pairwise_cons.1 hcons).1 r' hr').symm

theorem Stored.goOn (h : Stored db registrations) (hr : registrations[i]? = some r)
    (hagrees : r'.Agrees db)
    (hlock : r'.lock = none ∨ r'.lock = r.lock ∨ ∀ x ∈ registrations, x.lock ≠ r'.lock) :
    Stored db (registrations.eraseIdx i ++ [r']) := by
  refine (h.sublist (eraseIdx_sublist _ _)).append hagrees fun x hx => ?_
  rcases hlock with hnone | hsame | hfree
  · exact Registration.Apart.symm (.inl hnone)
  · have hx := h.others hr x hx
    rwa [Registration.Apart, ← hsame] at hx
  · exact .inr (hfree x (mem_of_mem_eraseIdx hx))

/-! ### Steps of the tables -/

variable {normalise : String → String} {s : State} {progress : Progress}

theorem Goes.agrees (h : Goes normalise s r.request r.progress progress)
    (hstored : Stored s.db registrations) (hr : r.Agrees s.db) :
    Registration.Agrees ⟨r.process, r.request, progress⟩ s.db := by
  obtain ⟨process, request, progress₀⟩ := r
  cases h with
  | accept => trivial
  | absent => trivial
  | found hmem hhostname => exact ⟨_, hmem, rfl, hhostname⟩
  | update => exact hr
  | readKeys hkeys => exact ⟨hr, hkeys⟩
  | insert _ hnames =>
    exact fun c hc hhostname => hnames c hc ((hstored.names c hc).trans hhostname)
  | @delete _ write => cases write <;> exact hr

/-- The lock of a registration that goes on: none, the one it has, or one that is free. -/
theorem Goes.lock (h : Goes normalise s r.request r.progress progress) :
    Registration.lock ⟨r.process, r.request, progress⟩ = none ∨
      Registration.lock ⟨r.process, r.request, progress⟩ = r.lock ∨
      ∀ x ∈ s.registrations, x.lock ≠ Registration.lock ⟨r.process, r.request, progress⟩ := by
  obtain ⟨process, request, progress₀⟩ := r
  have hfree {lock : Lock} (hlocked : s.locked lock = false) :
      ∀ x ∈ s.registrations, x.lock ≠ some lock :=
    fun x hx hlock => List.any_eq_false.1 hlocked x hx (decide_eq_true hlock)
  cases h with
  | accept => exact .inl rfl
  | absent => exact .inl rfl
  | found => exact .inl rfl
  | update hlocked => exact .inr (.inr (hfree hlocked))
  | readKeys => exact .inr (.inl rfl)
  | insert hlocked => exact .inr (.inr (hfree hlocked))
  | @delete _ write => cases write <;> exact .inr (.inl rfl)

def Write.inserted (hostname : String) : Write → List String
  | insert _ _ => [hostname]
  | update _ _ _ => []

theorem Database.hostnames_write (db : Database) (hostname : String) (write : Write) :
    (db.writeCollector hostname write).1.map Collector.hostname =
      db.collectors.map Collector.hostname ++ write.inserted hostname := by
  cases write with
  | insert => exact map_append
  | update id read new =>
    rw [Write.inserted, append_nil, Database.writeCollector, map_map]
    refine map_congr_left fun c _ => ?_
    change Collector.hostname (if c.id = id then _ else c) = c.hostname
    split <;> rfl

variable {hostname : String}

theorem Database.mem_write {write : Write} {c : Collector}
    (h : c ∈ (db.writeCollector hostname write).1) :
    (∃ c' ∈ db.collectors, c'.id = c.id ∧ c'.name = c.name ∧ c'.hostname = c.hostname) ∨
      c.id = db.drawn ∧ c.name = c.hostname ∧ c.hostname ∈ write.inserted hostname := by
  cases write with
  | insert clusterId details =>
    rcases List.mem_append.1 h with h | h
    · exact .inl ⟨c, h, rfl, rfl, rfl⟩
    · cases List.mem_singleton.1 h
      exact .inr ⟨rfl, rfl, mem_singleton_self _⟩
  | update id read new =>
    obtain ⟨c', hc', rfl⟩ := List.mem_map.1 h
    refine .inl ⟨c', hc', ?_⟩
    split <;> exact ⟨rfl, rfl, rfl⟩

theorem Database.Hosts.write {id : ℕ}
    (h : db.Hosts id hostname) (now : ℕ) (hostname' : String) (token : RegistrationToken)
    (write : Write) (oldKeys : List ℕ) :
    (db.register now hostname' token write oldKeys).Hosts id hostname := by
  obtain ⟨c, hc, hid, hhostname⟩ := h
  cases write with
  | insert => exact ⟨c, mem_append_left _ hc, hid, hhostname⟩
  | update id' read new =>
    refine ⟨_, mem_map_of_mem hc, ?_⟩
    split <;> exact ⟨hid, hhostname⟩

/-- What a registration that is about to commit has written and deleted. -/
structure Writes (db : Database) (hostname : String) (write : Write) (oldKeys : List ℕ) : Prop where
  hosts : ∀ now token, (db.register now hostname token write oldKeys).Hosts
    (db.writeCollector hostname write).2 hostname
  fresh : (db.collectors.map Collector.hostname).Disjoint (write.inserted hostname)
  deleted : ∀ k ∈ db.apiKeys, k.keyHash ∉ oldKeys → ∀ e ∈ db.issued, e.key = k.keyHash →
    e.hostname ≠ hostname

variable {token : RegistrationToken} {oldKeys : List ℕ} {deletions : List Deletion}

theorem Stored.writes {write : Write} (h : Stored db registrations) (hr : r ∈ registrations)
    (hprogress : r.progress = .written token write oldKeys deletions) :
    Writes db r.request.hostname write oldKeys := by
  have hagrees := h.agrees r hr
  rw [Registration.Agrees, hprogress] at hagrees
  cases write with
  | insert clusterId details =>
    refine ⟨fun now token => ⟨_, mem_append_right _ (mem_singleton_self _), rfl, rfl⟩,
      fun x hmem hx => ?_, fun k hk _ e he hkey hhostname => ?_⟩
    · cases List.mem_singleton.1 hx
      obtain ⟨c, hc, hhostname⟩ := List.mem_map.1 hmem
      exact hagrees c hc hhostname
    · obtain ⟨c, hc, _, hc'⟩ := (h.keys k hk).2 e he hkey
      exact hagrees c hc (hc'.trans hhostname)
  | update id read new =>
    refine ⟨fun now token => hagrees.1.write now _ token _ oldKeys,
      fun x _ hx => absurd hx not_mem_nil, fun k hk hdeleted e he hkey hhostname => ?_⟩
    obtain ⟨c, hc, hid, hc'⟩ := (h.keys k hk).2 e he hkey
    obtain ⟨c₀, hc₀, hid₀, hc₀'⟩ := hagrees.1
    have hsame : c = c₀ :=
      inj_on_of_nodup_map h.hostnames hc hc₀ (hc'.trans (hhostname.trans hc₀'.symm))
    exact hdeleted (hagrees.2 k hk (hid.symm.trans (hsame ▸ hid₀)))

theorem Registration.Agrees.register {write : Write}
    (h : r'.Agrees db) (hprogress : r.progress = .written token write oldKeys deletions)
    (hids : ∀ c ∈ db.collectors, c.id < db.drawn) (hapart : r'.Apart r) (now : ℕ) :
    r'.Agrees (db.register now r.request.hostname token write oldKeys) := by
  obtain ⟨process', request', progress'⟩ := r'
  obtain ⟨process, request, progress⟩ := r
  cases hprogress
  cases progress' with
  | started => trivial
  | admitted => trivial
  | absent => trivial
  | found => exact h.write now _ token write oldKeys
  | updated => exact h.write now _ token write oldKeys
  | written token' write' oldKeys' deletions' =>
    have hlocks := hapart.resolve_left (by cases write' <;> exact Option.some_ne_none _)
    cases write' with
    | update id' read' new' =>
      refine ⟨h.1.write now _ token write oldKeys, fun k hk hid => ?_⟩
      rcases List.mem_append.1 hk with hk | hk
      · exact h.2 k (List.mem_filter.1 hk).1 hid
      · cases List.mem_singleton.1 hk
        cases write with
        | insert =>
          obtain ⟨c, hc, hid', _⟩ := h.1
          exact absurd (hid.trans hid'.symm) (Nat.ne_of_gt (hids c hc))
        | update => exact absurd (congrArg (some ∘ Lock.row) hid.symm) hlocks
    | insert clusterId' details' =>
      intro c hc
      rcases Database.mem_write hc with ⟨c', hc', _, _, hhostname⟩ | ⟨_, _, hnew⟩
      · exact hhostname ▸ h c' hc'
      · cases write with
        | insert =>
          have hhostname := List.mem_singleton.1 hnew
          exact fun hsame => hlocks (congrArg (some ∘ Lock.name) (hsame.symm.trans hhostname))
        | update => exact absurd hnew not_mem_nil

theorem Stored.ne_drawn (h : Stored db registrations) : ∀ e ∈ db.issued, e.key ≠ db.drawn + 1 := by
  intro e he hkey
  have := (h.issued e he).1
  omega

theorem Stored.keys_register {write : Write} (h : Stored db registrations)
    (hwrites : Writes db hostname write oldKeys) (now : ℕ) (token : RegistrationToken) :
    ∀ k ∈ (db.register now hostname token write oldKeys).apiKeys, k.keyHash < db.drawn + 2 ∧
      ∀ e ∈ (db.register now hostname token write oldKeys).issued, e.key = k.keyHash →
        (db.register now hostname token write oldKeys).Hosts k.collectorId e.hostname := by
  intro k hk
  rcases List.mem_append.1 hk with hk | hk
  · obtain ⟨hdrawn, hhosts⟩ := h.keys k (List.mem_filter.1 hk).1
    refine ⟨by omega, fun e he hkey => ?_⟩
    rcases List.mem_cons.1 he with rfl | he
    · have : db.drawn + 1 = k.keyHash := hkey
      omega
    · exact (hhosts e he hkey).write now _ token write oldKeys
  · cases List.mem_singleton.1 hk
    refine ⟨Nat.lt_succ_self _, fun e he hkey => ?_⟩
    rcases List.mem_cons.1 he with rfl | he
    · exact hwrites.hosts now token
    · exact absurd hkey (h.ne_drawn e he)

theorem Stored.current_register {write : Write} (h : Stored db registrations)
    (hwrites : Writes db hostname write oldKeys) (now : ℕ) (token : RegistrationToken) :
    ∀ k ∈ (db.register now hostname token write oldKeys).apiKeys,
      superseded (db.register now hostname token write oldKeys).issued k.keyHash = false := by
  intro k hk
  rcases List.mem_append.1 hk with hk | hk
  · obtain ⟨hk, hdeleted⟩ := List.mem_filter.1 hk
    exact superseded_cons.2 ⟨hwrites.deleted k hk (of_decide_eq_true hdeleted), h.current k hk⟩
  · cases List.mem_singleton.1 hk
    exact superseded_cons.2 ⟨fun e he hkey => absurd hkey (h.ne_drawn e he),
      superseded_of_forall_ne h.ne_drawn⟩

theorem Stored.hostnames_register {write : Write} (h : Stored db registrations)
    (hwrites : Writes db hostname write oldKeys) (now : ℕ) (token : RegistrationToken) :
    ((db.register now hostname token write oldKeys).collectors.map Collector.hostname).Nodup ∧
      ∀ e ∈ (db.register now hostname token write oldKeys).issued, e.hostname ∈
        (db.register now hostname token write oldKeys).collectors.map Collector.hostname := by
  have heq : (db.register now hostname token write oldKeys).collectors.map Collector.hostname =
      db.collectors.map Collector.hostname ++ write.inserted hostname :=
    db.hostnames_write hostname write
  refine ⟨?_, fun e he => ?_⟩
  · have hinserted : (write.inserted hostname).Nodup := by
      cases write with
      | insert => exact nodup_singleton _
      | update => exact .nil
    rw [heq]
    exact h.hostnames.append hinserted hwrites.fresh
  · rcases List.mem_cons.1 he with rfl | he
    · obtain ⟨c, hc, _, hhostname⟩ := hwrites.hosts now token
      exact List.mem_map.2 ⟨c, hc, hhostname⟩
    · rw [heq]
      exact mem_append_left _ (h.issued e he).2

/-- **A commit keeps the tables in order.** -/
theorem Stored.register {write : Write} (h : Stored db registrations)
    (hr : registrations[i]? = some r)
    (hprogress : r.progress = .written token write oldKeys deletions) (now : ℕ) :
    Stored (db.register now r.request.hostname token write oldKeys) (registrations.eraseIdx i) := by
  have hwrites := h.writes (mem_of_getElem? hr) hprogress
  obtain ⟨hhostnames, hissued⟩ := h.hostnames_register hwrites now token
  refine ⟨hhostnames, fun c hc => ?_, fun c hc => ?_, fun e he => ⟨?_, hissued e he⟩,
    h.keys_register hwrites now token, h.current_register hwrites now token, fun r' hr' => ?_,
    h.locks.sublist (eraseIdx_sublist _ _)⟩
  · rcases Database.mem_write hc with ⟨c', hc', _, hname, hhostname⟩ | ⟨_, hname, _⟩
    · exact hname.symm.trans ((h.names c' hc').trans hhostname)
    · exact hname
  · change c.id < db.drawn + 2
    rcases Database.mem_write hc with ⟨c', hc', hid, _⟩ | ⟨hid, _⟩
    · have := h.ids c' hc'
      omega
    · omega
  · change e.key < db.drawn + 2
    rcases List.mem_cons.1 he with rfl | he
    · exact Nat.lt_succ_self _
    · have := (h.issued e he).1
      omega
  · exact (h.agrees r' (mem_of_mem_eraseIdx hr')).register hprogress h.ids
      (h.others hr r' hr') now

theorem Stored.createToken {db' : Database}
    {tokenHash shortCode : String} {oneTime : Bool} {clusterId : Option String}
    {expiresAt : Option ℕ} (h : Stored db registrations)
    (hcreate : db.createToken tokenHash shortCode oneTime clusterId expiresAt = some db') :
    Stored db' registrations := by
  rw [Database.createToken] at hcreate
  split at hcreate
  · cases hcreate
  · cases hcreate
    exact ⟨h.hostnames, h.names, fun c hc => Nat.lt_succ_of_lt (h.ids c hc),
      fun e he => (h.issued e he).imp_left Nat.lt_succ_of_lt,
      fun k hk => (h.keys k hk).imp_left Nat.lt_succ_of_lt, h.current, h.agrees, h.locks⟩

/-- **Every step keeps the tables in order.** -/
theorem Stored.step {s' : State} {a : Action}
    (h : Stored s.db s.registrations) (hs : s.step normalise a = some s') :
    Stored s'.db s'.registrations := by
  cases a with
  | tick | evictLocal | evictRedis | validate | abandon =>
    cases hs
    exact h
  | createToken =>
    obtain ⟨db', hcreate, rfl⟩ := Option.map_eq_some_iff.1 hs
    exact h.createToken hcreate
  | register process request =>
    cases hs
    exact h.append (r := ⟨process, request, .started⟩) trivial fun _ _ => .symm (.inl rfl)
  | proceed i redis =>
    obtain ⟨r, hr, hs⟩ := Option.bind_eq_some_iff.1 hs
    rcases State.proceed_cases hs with rfl | ⟨progress, s₀, hgoes, rfl, hs₀⟩
    · exact h.sublist (eraseIdx_sublist _ _)
    · obtain ⟨hdb, _, hregistrations⟩ := State.rows_of_deleteCopy hs₀
      rw [State.goOn, hdb, hregistrations]
      exact h.goOn hr (hgoes.agrees h (h.agrees r (mem_of_getElem? hr))) hgoes.lock
  | commit i =>
    obtain ⟨r, hr, hs⟩ := Option.bind_eq_some_iff.1 hs
    obtain ⟨token, write, oldKeys, hprogress, rfl⟩ := State.commit_eq_some hs
    exact h.register hr hprogress s.now
  | fail i =>
    obtain ⟨r, _, rfl⟩ := Option.map_eq_some_iff.1 hs
    exact h.sublist (eraseIdx_sublist _ _)
  | look i redis =>
    obtain ⟨v, _, rfl⟩ := Option.map_eq_some_iff.1 hs
    obtain ⟨hdb, _, hregistrations⟩ := s.look_rows i v redis
    rw [hdb, hregistrations]
    exact h

/-- **In every run the tables are in order.** -/
theorem stored_of_run {allowed : State → Action → Prop}
    (h : Run (State.step normalise) allowed {} s) : Stored s.db s.registrations :=
  h.invariant (I := fun s => Stored s.db s.registrations) Stored.initial
    fun hinv _ hs => hinv.step hs

end MonCTL.CollectorApi.Registering
