import MonCTL.CollectorApi.RegistrationRows

/-!
# Tokens and Superseded Keys

A one-time token registers one collector, and a registration makes the earlier keys of its
hostname useless, as long as nothing comes between a check and the commit that relies on it: the
token is used by another registration, or expires; or an old key is copied again after its copies
have been deleted, or has a copy in another process.
-/

namespace MonCTL.CollectorApi.Registering

open List

open AuthCache (Copy)

/-! ### Promises -/

/-- The keys that have been issued for a token. -/
def Database.issuedFor (db : Database) (token : ℕ) : List Issued :=
  db.issued.filter fun e => e.token = token

namespace State

/-- For a one-time token, at most one key has been issued. -/
def OncePerToken (s : State) : Prop :=
  ∀ t ∈ s.db.tokens, t.oneTime = true → (s.db.issuedFor t.id).length ≤ 1
  deriving Decidable

/-- No key has been issued when its token had expired. -/
def Unexpired (s : State) : Prop :=
  ∀ e ∈ s.db.issued, ∀ t ∈ s.db.tokens, t.id = e.token → t.expired e.issuedAt = false
  deriving Decidable

/-- Each hostname has one row, when it has been registered, and never two. -/
def OneRow (s : State) : Prop :=
  (s.db.collectors.map Collector.hostname).Nodup ∧
    ∀ e ∈ s.db.issued, e.hostname ∈ s.db.collectors.map Collector.hostname

/-- No key has been accepted when a later registration of its hostname had committed. -/
def OldKeysRejected (s : State) : Prop := ∀ a ∈ s.answers, a.superseded = true → a.auth = none
  deriving Decidable

/-- Nothing has a copy of a key, or is going to make one. -/
def Forgotten (s : State) (key : ℕ) : Prop :=
  (∀ e ∈ s.redisKeys, e.1 = key → e.2.expires ≤ s.now) ∧
    (∀ e ∈ s.localKeys, e.1.2 = key → e.2.expires ≤ s.now) ∧
    ∀ v ∈ s.validations, v.key = key → v.progress.holds = false
  deriving Decidable

/-- When a registration commits, its token has not been spent since it was read, and the keys of
the earlier registrations of its hostname have been forgotten. -/
def CommitsUndisturbed (s : State) (r : Registration) : Prop :=
  (∀ t ∈ s.db.tokens, ∀ t₀ ∈ r.progress.token?, t.id = t₀.id → t.spent = false) ∧
    ∀ e ∈ s.db.issued, e.hostname = r.request.hostname → s.Forgotten e.key
  deriving Decidable

end State

/-- Nothing comes between a check and the commit that relies on it: no token expires that a
registration in progress has read, and a commit finds its token unspent and the old keys
forgotten. -/
def Action.Undisturbed (s : State) : Action → Prop
  | tick seconds =>
    ∀ r ∈ s.registrations, ∀ t ∈ r.progress.token?, t.expired (s.now + seconds) = false
  | commit i => ∀ r ∈ s.registrations[i]?, s.CommitsUndisturbed r
  | _ => True

instance (s : State) : ∀ a : Action, Decidable (a.Undisturbed s)
  | .tick seconds =>
    inferInstanceAs (Decidable (∀ r ∈ s.registrations, ∀ t ∈ r.progress.token?,
      t.expired (s.now + seconds) = false))
  | .commit i => inferInstanceAs (Decidable (∀ r ∈ s.registrations[i]?, s.CommitsUndisturbed r))
  | .evictLocal .. | .evictRedis _ | .createToken .. | .register .. | .proceed .. | .fail _
  | .validate .. | .look .. | .abandon _ => inferInstanceAs (Decidable True)

/-! ### Tokens -/

/-- A token that a registration has read is the one in the table, but for its use, and has not
expired. -/
def Database.Admits (db : Database) (now : ℕ) (t₀ : RegistrationToken) : Prop :=
  t₀.id < db.drawn ∧ t₀.expired now = false ∧
    ∀ t ∈ db.tokens, t.id = t₀.id → t.oneTime = t₀.oneTime ∧ t.expiresAt = t₀.expiresAt

/-- What is kept of the tokens: an unused one has issued nothing. -/
structure Redeemed (db : Database) (now : ℕ) (registrations : List Registration) : Prop where
  ids : (db.tokens.map RegistrationToken.id).Nodup
  tokens : ∀ t ∈ db.tokens, t.id < db.drawn
  issued : ∀ e ∈ db.issued, e.token < db.drawn
  unused : ∀ t ∈ db.tokens, t.oneTime = true → t.used = false → db.issuedFor t.id = []
  once : ∀ t ∈ db.tokens, t.oneTime = true → (db.issuedFor t.id).length ≤ 1
  unexpired : ∀ e ∈ db.issued, ∀ t ∈ db.tokens, t.id = e.token → t.expired e.issuedAt = false
  admits : ∀ r ∈ registrations, ∀ t ∈ r.progress.token?, db.Admits now t

theorem Redeemed.initial : Redeemed {} 0 [] where
  ids := .nil
  tokens _ ht := absurd ht not_mem_nil
  issued _ he := absurd he not_mem_nil
  unused _ ht := absurd ht not_mem_nil
  once _ ht := absurd ht not_mem_nil
  unexpired _ he := absurd he not_mem_nil
  admits _ hr := absurd hr not_mem_nil

variable {db : Database} {now : ℕ} {registrations : List Registration}

theorem Redeemed.withRegistrations {now' : ℕ}
    {registrations' : List Registration} (h : Redeemed db now registrations)
    (hadmits : ∀ r ∈ registrations', ∀ t ∈ r.progress.token?, db.Admits now' t) :
    Redeemed db now' registrations' :=
  ⟨h.ids, h.tokens, h.issued, h.unused, h.once, h.unexpired, hadmits⟩

theorem Redeemed.createToken {db' : Database}
    {tokenHash shortCode : String} {oneTime : Bool} {clusterId : Option String}
    {expiresAt : Option ℕ} (h : Redeemed db now registrations)
    (hcreate : db.createToken tokenHash shortCode oneTime clusterId expiresAt = some db') :
    Redeemed db' now registrations := by
  rw [Database.createToken] at hcreate
  split at hcreate
  · cases hcreate
  · cases hcreate
    have hnone : db.issuedFor db.drawn = [] :=
      List.filter_eq_nil_iff.2 fun e he htoken =>
        Nat.ne_of_lt (h.issued e he) (of_decide_eq_true htoken)
    refine ⟨?_, fun t ht => ?_, fun e he => Nat.lt_succ_of_lt (h.issued e he),
      fun t ht hone hused => ?_, fun t ht hone => ?_, fun e he t ht hid => ?_,
      fun r hr t₀ ht₀ => ?_⟩
    · rw [map_append]
      refine h.ids.append (nodup_singleton _) fun id hid hnew => ?_
      obtain ⟨t, ht, rfl⟩ := List.mem_map.1 hid
      exact Nat.ne_of_lt (h.tokens t ht) (List.mem_singleton.1 hnew)
    · rcases List.mem_append.1 ht with ht | ht
      · exact Nat.lt_succ_of_lt (h.tokens t ht)
      · cases List.mem_singleton.1 ht
        exact Nat.lt_succ_self _
    · rcases List.mem_append.1 ht with ht | ht
      · exact h.unused t ht hone hused
      · cases List.mem_singleton.1 ht
        exact hnone
    · rcases List.mem_append.1 ht with ht | ht
      · exact h.once t ht hone
      · cases List.mem_singleton.1 ht
        exact Nat.le_trans (Nat.le_of_eq (congrArg List.length hnone)) (Nat.zero_le 1)
    · rcases List.mem_append.1 ht with ht | ht
      · exact h.unexpired e he t ht hid
      · cases List.mem_singleton.1 ht
        exact absurd hid.symm (Nat.ne_of_lt (h.issued e he))
    · obtain ⟨hdrawn, hexpired, hsame⟩ := h.admits r hr t₀ ht₀
      refine ⟨Nat.lt_succ_of_lt hdrawn, hexpired, fun t ht hid => ?_⟩
      rcases List.mem_append.1 ht with ht | ht
      · exact hsame t ht hid
      · cases List.mem_singleton.1 ht
        exact absurd hid.symm (Nat.ne_of_lt hdrawn)

theorem Database.useToken_eq (token t : RegistrationToken) :
    (useToken token t).id = t.id ∧ (useToken token t).oneTime = t.oneTime ∧
      (useToken token t).expiresAt = t.expiresAt := by
  rw [useToken]
  split <;> exact ⟨rfl, rfl, rfl⟩

variable {t : RegistrationToken}

theorem Database.unused_of_useToken {token : RegistrationToken}
    (h : (useToken token t).used = false) :
    t.used = false ∧ ¬ (t.id = token.id ∧ token.oneTime = true) := by
  rw [useToken] at h
  split at h
  · cases h
  next hne => exact ⟨h, hne⟩

theorem RegistrationToken.expired_congr {t' : RegistrationToken}
    (h : t.expiresAt = t'.expiresAt) (now : ℕ) : t.expired now = t'.expired now := by
  rw [expired, expired, h]

theorem Database.issuedFor_register (db : Database) (now : ℕ) (hostname : String)
    (token : RegistrationToken) (write : Write) (oldKeys : List ℕ) (id : ℕ) : (token.id ≠ id →
      (db.register now hostname token write oldKeys).issuedFor id = db.issuedFor id) ∧
    ((db.register now hostname token write oldKeys).issuedFor id).length ≤
      (db.issuedFor id).length + 1 := by
  rw [issuedFor, Database.register, filter_cons]
  refine ⟨fun hne => ?_, ?_⟩
  · exact if_neg fun h => hne (of_decide_eq_true h)
  · split
    · exact Nat.le_refl _
    · exact Nat.le_succ _

/-- **A registration that finds its token unspent keeps the tokens in order.** -/
theorem Redeemed.register {registrations' : List Registration} {token : RegistrationToken}
    (h : Redeemed db now registrations) (hsub : registrations' ⊆ registrations)
    (htoken : db.Admits now token)
    (hspent : ∀ t ∈ db.tokens, t.id = token.id → t.spent = false) (hostname : String)
    (write : Write) (oldKeys : List ℕ) :
    Redeemed (db.register now hostname token write oldKeys) now registrations' := by
  obtain ⟨hdrawn, hexpired, hsame⟩ := htoken
  have hissued := db.issuedFor_register now hostname token write oldKeys
  refine ⟨?_, fun t' ht' => ?_, fun e he => ?_, fun t' ht' hone hused => ?_,
    fun t' ht' hone => ?_, fun e he t' ht' hid => ?_, fun r hr t₀ ht₀ => ?_⟩
  · have hids : (db.tokens.map (Database.useToken token)).map RegistrationToken.id =
        db.tokens.map RegistrationToken.id := by
      rw [map_map]
      exact map_congr_left fun t _ => (Database.useToken_eq token t).1
    exact hids.symm ▸ h.ids
  · obtain ⟨t, ht, rfl⟩ := List.mem_map.1 ht'
    rw [(Database.useToken_eq token t).1]
    exact Nat.lt_add_right 2 (h.tokens t ht)
  · rcases List.mem_cons.1 he with rfl | he
    · exact Nat.lt_add_right 2 hdrawn
    · exact Nat.lt_add_right 2 (h.issued e he)
  · obtain ⟨t, ht, rfl⟩ := List.mem_map.1 ht'
    obtain ⟨hid, hone', _⟩ := Database.useToken_eq token t
    obtain ⟨hused, hnot⟩ := Database.unused_of_useToken hused
    have hone := hone'.symm.trans hone
    have hne : token.id ≠ t.id := fun heq =>
      hnot ⟨heq.symm, (hsame t ht heq.symm).1.symm.trans hone⟩
    rw [hid, (hissued t.id).1 hne]
    exact h.unused t ht hone hused
  · obtain ⟨t, ht, rfl⟩ := List.mem_map.1 ht'
    obtain ⟨hid, hone', _⟩ := Database.useToken_eq token t
    have hone := hone'.symm.trans hone
    rw [hid]
    by_cases heq : token.id = t.id
    · have hunused : t.used = false := by
        have := hspent t ht heq.symm
        rwa [RegistrationToken.spent, hone, Bool.true_and] at this
      have hlength := (hissued t.id).2
      rwa [h.unused t ht hone hunused] at hlength
    · rw [(hissued t.id).1 heq]
      exact h.once t ht hone
  · obtain ⟨t, ht, rfl⟩ := List.mem_map.1 ht'
    obtain ⟨hid', _, hexpires⟩ := Database.useToken_eq token t
    have hid := hid'.symm.trans hid
    rw [RegistrationToken.expired_congr hexpires]
    rcases List.mem_cons.1 he with rfl | he
    · rw [RegistrationToken.expired_congr (hsame t ht hid).2]
      exact hexpired
    · exact h.unexpired e he t ht hid
  · obtain ⟨hdrawn, hexpired, hsame⟩ := h.admits r (hsub hr) t₀ ht₀
    refine ⟨Nat.lt_add_right 2 hdrawn, hexpired, fun t' ht' hid => ?_⟩
    obtain ⟨t, ht, rfl⟩ := List.mem_map.1 ht'
    obtain ⟨hid', hone, hexpires⟩ := Database.useToken_eq token t
    rw [hone, hexpires]
    exact hsame t ht (hid'.symm.trans hid)

variable {normalise : String → String} {s : State}

/-- The token of a registration that goes on: the one it has, or one that it has just read. -/
theorem Goes.token {request : RegisterRequest} {progress progress' : Progress}
    (h : Goes normalise s request progress progress') (ht : t ∈ progress'.token?) :
    t ∈ progress.token? ∨ t ∈ s.db.tokens ∧ t.expired s.now = false := by
  cases h with
  | accept htoken _ hexpired =>
    cases ht
    refine .inr ⟨?_, hexpired⟩
    rw [Database.tokenOf] at htoken
    split at htoken
    · exact mem_of_find?_eq_some htoken
    · obtain ⟨hash, _, hfound⟩ := Option.bind_eq_some_iff.1 htoken
      exact mem_of_find?_eq_some hfound
  | absent | found | update | readKeys | insert | delete => exact .inl ht

theorem Redeemed.admits_of_mem (h : Redeemed db now registrations) (ht : t ∈ db.tokens)
    (hexpired : t.expired now = false) : db.Admits now t := by
  refine ⟨h.tokens t ht, hexpired, fun t' ht' hid => ?_⟩
  cases inj_on_of_nodup_map h.ids ht' ht hid
  exact ⟨rfl, rfl⟩

/-- **An undisturbed step keeps the tokens in order.** -/
theorem Redeemed.step {s' : State} {a : Action}
    (h : Redeemed s.db s.now s.registrations) (hundisturbed : a.Undisturbed s)
    (hs : s.step normalise a = some s') : Redeemed s'.db s'.now s'.registrations := by
  cases a with
  | evictLocal | evictRedis | validate | abandon =>
    cases hs
    exact h
  | tick seconds =>
    cases hs
    refine h.withRegistrations fun r hr t ht => ?_
    obtain ⟨hdrawn, _, hsame⟩ := h.admits r hr t ht
    exact ⟨hdrawn, hundisturbed r hr t ht, hsame⟩
  | createToken =>
    obtain ⟨db', hcreate, rfl⟩ := Option.map_eq_some_iff.1 hs
    exact h.createToken hcreate
  | register process request =>
    cases hs
    refine h.withRegistrations fun r hr t ht => ?_
    rcases List.mem_append.1 hr with hr | hr
    · exact h.admits r hr t ht
    · cases List.mem_singleton.1 hr
      cases ht
  | proceed i redis =>
    obtain ⟨r, hr, hs⟩ := Option.bind_eq_some_iff.1 hs
    rcases State.proceed_cases hs with rfl | ⟨progress, s₀, hgoes, rfl, hs₀⟩
    · exact h.withRegistrations fun r hr => h.admits r (mem_of_mem_eraseIdx hr)
    · obtain ⟨hdb, hnow, hregistrations⟩ := State.rows_of_deleteCopy hs₀
      rw [State.goOn, hdb, hnow, hregistrations]
      refine h.withRegistrations fun r' hr' t ht => ?_
      rcases List.mem_append.1 hr' with hr' | hr'
      · exact h.admits r' (mem_of_mem_eraseIdx hr') t ht
      · cases List.mem_singleton.1 hr'
        rcases hgoes.token ht with ht | ⟨ht, hexpired⟩
        · exact h.admits r (mem_of_getElem? hr) t ht
        · exact h.admits_of_mem ht hexpired
  | commit i =>
    obtain ⟨r, hr, hs⟩ := Option.bind_eq_some_iff.1 hs
    obtain ⟨token, write, oldKeys, hprogress, rfl⟩ := State.commit_eq_some hs
    have htoken : token ∈ r.progress.token? := hprogress ▸ rfl
    exact h.register (eraseIdx_sublist _ _).subset
      (h.admits r (mem_of_getElem? hr) token htoken)
      (fun t ht hid => (hundisturbed r hr).1 t ht token htoken hid) _ _ _
  | fail i =>
    obtain ⟨r, _, rfl⟩ := Option.map_eq_some_iff.1 hs
    exact h.withRegistrations fun r hr => h.admits r (mem_of_mem_eraseIdx hr)
  | look i redis =>
    obtain ⟨v, _, rfl⟩ := Option.map_eq_some_iff.1 hs
    obtain ⟨hdb, hnow, hregistrations⟩ := s.look_rows i v redis
    rw [hdb, hnow, hregistrations]
    exact h

/-! ### Copies -/

/-- What is kept of the copies: those that have not expired, and what an authentication has found,
are of keys that have not been superseded; and so are the keys accepted so far. -/
structure CopiesCurrent (s : State) : Prop where
  redisKeys : ∀ e ∈ s.redisKeys, s.now < e.2.expires → superseded s.db.issued e.1 = false
  localKeys : ∀ e ∈ s.localKeys, s.now < e.2.expires → superseded s.db.issued e.1.2 = false
  validations : ∀ v ∈ s.validations, v.progress.holds = true → superseded s.db.issued v.key = false
  rejected : s.OldKeysRejected

theorem CopiesCurrent.initial : CopiesCurrent {} where
  redisKeys _ he := absurd he not_mem_nil
  localKeys _ he := absurd he not_mem_nil
  validations _ hv := absurd hv not_mem_nil
  rejected _ ha := absurd ha not_mem_nil

theorem CopiesCurrent.setLocalApiKey {key : ℕ} (h : CopiesCurrent s)
    (hcurrent : superseded s.db.issued key = false) (process : ℕ) (auth : KeyAuth) :
    CopiesCurrent (s.setLocalApiKey process key auth) := by
  refine ⟨h.redisKeys, fun e he hlive => ?_, h.validations, h.rejected⟩
  rcases Dict.mem_set he with he | rfl
  · exact h.localKeys e he hlive
  · exact hcurrent

theorem CopiesCurrent.setRedisApiKey {key : ℕ} (h : CopiesCurrent s)
    (hcurrent : superseded s.db.issued key = false) (auth : KeyAuth) (redis : Bool) :
    CopiesCurrent (s.setRedisApiKey key auth redis) := by
  cases redis with
  | false => exact h
  | true =>
    refine ⟨fun e he hlive => ?_, h.localKeys, h.validations, h.rejected⟩
    rcases Dict.mem_set he with he | rfl
    · exact h.redisKeys e he hlive
    · exact hcurrent

theorem CopiesCurrent.deleteCopy (h : CopiesCurrent s) (process : ℕ) (redis : Bool)
    (d : Deletion) : CopiesCurrent (s.deleteCopy process redis d) := by
  cases d with
  | fromProcess key =>
    exact ⟨h.redisKeys, fun e he => h.localKeys e (List.mem_filter.1 he).1, h.validations,
      h.rejected⟩
  | fromRedis key =>
    cases redis with
    | false => exact h
    | true =>
      exact ⟨fun e he => h.redisKeys e (List.mem_filter.1 he).1, h.localKeys, h.validations,
        h.rejected⟩

variable {v : Validation}

theorem CopiesCurrent.goOnLooking {progress : Lookup} (h : CopiesCurrent s)
    (hcurrent : progress.holds = true → superseded s.db.issued v.key = false) (i : ℕ) :
    CopiesCurrent (s.goOnLooking i v progress) := by
  refine ⟨h.redisKeys, h.localKeys, fun v' hv' => ?_, h.rejected⟩
  rcases List.mem_append.1 hv' with hv' | hv'
  · exact h.validations v' (mem_of_mem_eraseIdx hv')
  · cases List.mem_singleton.1 hv'
    exact hcurrent

theorem CopiesCurrent.answer {auth : Option KeyAuth}
    (h : CopiesCurrent s) (hcurrent : auth = none ∨ superseded s.db.issued v.key = false) (i : ℕ) :
    CopiesCurrent (s.answer i v auth) := by
  refine ⟨h.redisKeys, h.localKeys, fun v' hv' => h.validations v' (mem_of_mem_eraseIdx hv'),
    fun a ha hsuperseded => ?_⟩
  rcases List.mem_append.1 ha with ha | ha
  · exact h.rejected a ha hsuperseded
  · cases List.mem_singleton.1 ha
    exact hcurrent.resolve_right (Bool.eq_false_iff.not_left.2 hsuperseded)

theorem State.of_live {K : Type} [DecidableEq K] {s : State} {copies : Dict K (Copy KeyAuth)}
    {key : K} {auth : KeyAuth} (h : s.live (copies.get? key) = some auth) :
    ∃ copy, (key, copy) ∈ copies ∧ s.now < copy.expires := by
  obtain ⟨copy, hcopy, _⟩ := Option.map_eq_some_iff.1 h
  obtain ⟨hcopy, hlive⟩ := Option.filter_eq_some_iff.1 hcopy
  exact ⟨copy, Dict.mem_of_get? hcopy, of_decide_eq_true hlive⟩

/-- **An authentication finds current keys only**, in copies and in rows. -/
theorem CopiesCurrent.look {i : ℕ} (h : CopiesCurrent s)
    (hstored : Stored s.db s.registrations) (hv : v ∈ s.validations) (redis : Bool) :
    CopiesCurrent (s.look i v redis) := by
  have hholds {progress : Lookup} (hprogress : v.progress = progress)
      (hprogress' : progress.holds = true) : superseded s.db.issued v.key = false :=
    h.validations v hv (hprogress ▸ hprogress')
  rw [State.look]
  split
  · split
    next auth hcopy =>
      refine h.goOnLooking (fun _ => ?_) i
      split at hcopy
      · obtain ⟨copy, hmem, hlive⟩ := State.of_live hcopy
        exact h.redisKeys _ hmem hlive
      · cases hcopy
    · exact h.goOnLooking (fun hholds => by cases hholds) i
  next auth hprogress =>
    have hcurrent := hholds hprogress rfl
    exact (h.setLocalApiKey hcurrent v.process auth).answer (.inr hcurrent) i
  · split
    next auth hcopy =>
      obtain ⟨copy, hmem, hlive⟩ := State.of_live hcopy
      exact h.answer (.inr (h.localKeys _ hmem hlive)) i
    · exact h.goOnLooking (fun hholds => by cases hholds) i
  · split
    next auth hread =>
      refine h.goOnLooking (fun _ => ?_) i
      rw [State.readKey] at hread
      split at hread
      next k hk =>
        have hhash := find?_some hk
        exact of_decide_eq_true hhash ▸ hstored.current k (mem_of_find?_eq_some hk)
      · cases hread
    · exact h.answer (.inl rfl) i
  next auth hprogress =>
    have hcurrent := hholds hprogress rfl
    exact (h.setLocalApiKey hcurrent v.process auth).goOnLooking (fun _ => hcurrent) i
  next auth hprogress =>
    have hcurrent := hholds hprogress rfl
    refine (h.setRedisApiKey hcurrent auth redis).answer (.inr ?_) i
    cases redis <;> exact hcurrent

/-- **A registration that finds the old keys forgotten** supersedes no key that has a copy. -/
theorem CopiesCurrent.register {i : ℕ} {hostname : String} (h : CopiesCurrent s)
    (hforgotten : ∀ e ∈ s.db.issued, e.hostname = hostname → s.Forgotten e.key)
    (token : RegistrationToken) (write : Write) (oldKeys : List ℕ) : CopiesCurrent { s.drop i with
      db := s.db.register s.now hostname token write oldKeys } := by
  refine ⟨fun e he hlive => superseded_cons.2 ⟨fun a ha hkey hhostname => ?_, ?_⟩,
    fun e he hlive => superseded_cons.2 ⟨fun a ha hkey hhostname => ?_, ?_⟩,
    fun v hv hholds => superseded_cons.2 ⟨fun a ha hkey hhostname => ?_, ?_⟩, h.rejected⟩
  · have hexpires := (hforgotten a ha hhostname).1 e he hkey.symm
    exact Nat.not_lt_of_le hexpires hlive
  · exact h.redisKeys e he hlive
  · have hexpires := (hforgotten a ha hhostname).2.1 e he hkey.symm
    exact Nat.not_lt_of_le hexpires hlive
  · exact h.localKeys e he hlive
  · have hnot := (hforgotten a ha hhostname).2.2 v hv hkey.symm
    exact Bool.false_ne_true (hnot.symm.trans hholds)
  · exact h.validations v hv hholds

/-- **An undisturbed step keeps the copies current.** -/
theorem CopiesCurrent.step {s' : State} {a : Action}
    (h : CopiesCurrent s) (hstored : Stored s.db s.registrations)
    (hundisturbed : a.Undisturbed s) (hs : s.step normalise a = some s') : CopiesCurrent s' := by
  cases a with
  | tick seconds =>
    cases hs
    exact ⟨fun e he hlive => h.redisKeys e he (Nat.lt_of_le_of_lt (Nat.le_add_right _ _) hlive),
      fun e he hlive => h.localKeys e he (Nat.lt_of_le_of_lt (Nat.le_add_right _ _) hlive),
      h.validations, h.rejected⟩
  | evictLocal process key =>
    cases hs
    exact h.deleteCopy process true (.fromProcess key)
  | evictRedis key =>
    cases hs
    exact h.deleteCopy 0 true (.fromRedis key)
  | createToken =>
    obtain ⟨db', hcreate, rfl⟩ := Option.map_eq_some_iff.1 hs
    rw [Database.createToken] at hcreate
    split at hcreate
    · cases hcreate
    · cases hcreate
      exact ⟨h.redisKeys, h.localKeys, h.validations, h.rejected⟩
  | register process request =>
    cases hs
    exact ⟨h.redisKeys, h.localKeys, h.validations, h.rejected⟩
  | proceed i redis =>
    obtain ⟨r, hr, hs⟩ := Option.bind_eq_some_iff.1 hs
    rcases State.proceed_cases hs with rfl | ⟨progress, s₀, hgoes, rfl, hs₀⟩
    · exact ⟨h.redisKeys, h.localKeys, h.validations, h.rejected⟩
    · have h₀ : CopiesCurrent s₀ := by
        rcases hs₀ with rfl | ⟨d, rfl⟩
        · exact h
        · exact h.deleteCopy r.process redis d
      exact ⟨h₀.redisKeys, h₀.localKeys, h₀.validations, h₀.rejected⟩
  | commit i =>
    obtain ⟨r, hr, hs⟩ := Option.bind_eq_some_iff.1 hs
    obtain ⟨token, write, oldKeys, _, rfl⟩ := State.commit_eq_some hs
    exact h.register (hundisturbed r hr).2 token write oldKeys
  | fail i =>
    obtain ⟨r, _, rfl⟩ := Option.map_eq_some_iff.1 hs
    exact ⟨h.redisKeys, h.localKeys, h.validations, h.rejected⟩
  | validate process key =>
    cases hs
    refine ⟨h.redisKeys, h.localKeys, fun v hv hholds => ?_, h.rejected⟩
    rcases List.mem_append.1 hv with hv | hv
    · exact h.validations v hv hholds
    · cases List.mem_singleton.1 hv
      exact absurd hholds Bool.false_ne_true
  | look i redis =>
    obtain ⟨v, hv, rfl⟩ := Option.map_eq_some_iff.1 hs
    exact h.look hstored (mem_of_getElem? hv) redis
  | abandon i =>
    cases hs
    exact ⟨h.redisKeys, h.localKeys,
      fun v hv => h.validations v (mem_of_mem_eraseIdx hv), h.rejected⟩

/-! ### Runs -/

/-- **Registrations keep their promises**: in every run in which nothing comes between a check and
the commit that relies on it, a one-time token issues one key at most, an expired token none, each
hostname has one row, and no key is accepted that has been superseded. -/
theorem registered_of_run {normalise : String → String} {s : State}
    (h : Run (State.step normalise) (fun s a => a.Undisturbed s) {} s) :
    s.OncePerToken ∧ s.Unexpired ∧ s.OneRow ∧ s.OldKeysRejected := by
  have hstored := stored_of_run h
  obtain ⟨htokens, hcopies, _⟩ := h.invariant
    (I := fun s => Redeemed s.db s.now s.registrations ∧ CopiesCurrent s ∧
      Stored s.db s.registrations)
    ⟨.initial, .initial, .initial⟩ fun hinv hundisturbed hs =>
      ⟨hinv.1.step hundisturbed hs, hinv.2.1.step hinv.2.2 hundisturbed hs, hinv.2.2.step hs⟩
  exact ⟨htokens.once, htokens.unexpired,
    ⟨hstored.hostnames, fun e he => (hstored.issued e he).2⟩, hcopies.rejected⟩

/-- A token for one use, and one that expires. -/
def createsTokens : List Action :=
  [.createToken "a" "AAAAAA" true none none, .createToken "b" "BBBBBB" false none (some 100)]

def registers (process : ℕ) (hostname code : String) : Action :=
  .register process { hostname := hostname, registrationCode := some code }

/-- A collector registers and uses its key, registers again, and uses both keys. -/
def registersAgain : List Action :=
  createsTokens ++ [registers 0 "edge" "AAAAAA"] ++ List.replicate 3 (.proceed 0 true) ++
    [.commit 0, .validate 1 3] ++ List.replicate 5 (.look 0 true) ++
    [.evictLocal 1 3, registers 0 "edge" "BBBBBB"] ++ List.replicate 6 (.proceed 0 true) ++
    [.commit 0, .validate 1 3] ++ List.replicate 3 (.look 0 true) ++
    [.validate 1 5] ++ List.replicate 5 (.look 0 true)

/-- A collector that registers again, and whose old key is rejected. -/
theorem registered_again :
    ∃ s ∈ replay (State.step id) (fun s a => a.Undisturbed s) {} registersAgain,
      (s.OncePerToken ∧ s.Unexpired ∧ s.OneRow ∧ s.OldKeysRejected) ∧
        s.answers.map (fun a => (a.key, a.auth.isSome)) = [(3, true), (3, false), (5, true)] := by
  have hrun : ∃ s ∈ replay (State.step id) (fun s a => a.Undisturbed s) {} registersAgain,
      s.answers.map (fun a => (a.key, a.auth.isSome)) = [(3, true), (3, false), (5, true)] := by
    decide +kernel
  obtain ⟨s, hs, hanswers⟩ := hrun
  exact ⟨s, hs, registered_of_run (run_of_replay hs), hanswers⟩

/-- **Two collectors with a token for one use**, both of which have read it before either commits;
**a key issued for a token that has expired** since it was read; **and an old key that is accepted**
by a process with a copy of its own. -/
theorem not_registered : ∃ s, Run (State.step id) (fun _ _ => True) {} s ∧
    ¬s.OncePerToken ∧ ¬s.Unexpired ∧ ¬s.OldKeysRejected := by
  have hrun : ∃ s ∈ replay (State.step id) (fun _ _ => True) {}
      (createsTokens ++ [registers 0 "edge" "AAAAAA", registers 1 "core" "AAAAAA"] ++
        List.replicate 6 (.proceed 0 true) ++ [.commit 0, .commit 0, .tick 90, .validate 1 3] ++
        List.replicate 5 (.look 0 true) ++ [registers 0 "edge" "BBBBBB"] ++
        List.replicate 6 (.proceed 0 true) ++
        [.tick 11, .commit 0, .validate 1 3, .look 0 true, .look 0 true]),
      ¬s.OncePerToken ∧ ¬s.Unexpired ∧ ¬s.OldKeysRejected := by decide +kernel
  obtain ⟨s, hs, hbroken⟩ := hrun
  exact ⟨s, run_of_replay hs, hbroken⟩

theorem superseded_or {issued : List Issued} {e e' : Issued} (he : e ∈ issued) (he' : e' ∈ issued)
    (hhost : e.hostname = e'.hostname) (hne : e.key ≠ e'.key) :
    superseded issued e.key = true ∨ superseded issued e'.key = true := by
  induction issued with
  | nil => cases he
  | cons a issued ih =>
    have hfirst {b : Issued} (hb : b ∈ issued) (hhost : b.hostname = a.hostname) :
        superseded (a :: issued) b.key = true := by
      rw [superseded, Bool.or_eq_true, any_eq_true]
      exact .inl ⟨b, hb, by simp [hhost]⟩
    rcases List.mem_cons.1 he with rfl | hmem
    · rcases List.mem_cons.1 he' with rfl | hmem'
      · exact absurd rfl hne
      · exact .inr (hfirst hmem' hhost.symm)
    · rcases List.mem_cons.1 he' with rfl | hmem'
      · exact .inl (hfirst hmem hhost)
      · exact (ih hmem hmem').imp (fun h => by rw [superseded, h, Bool.or_true])
          fun h => by rw [superseded, h, Bool.or_true]

/-- **One key of a hostname**: in every run, whatever comes between a check and a commit, no two
collectors have the same hostname, and of all keys that have been issued for a hostname the table
has at most one. -/
theorem one_key_of_run {normalise : String → String} {s : State}
    (h : Run (State.step normalise) (fun _ _ => True) {} s) : s.OneRow ∧
      ∀ k ∈ s.db.apiKeys, ∀ k' ∈ s.db.apiKeys, ∀ e ∈ s.db.issued, ∀ e' ∈ s.db.issued,
        e.key = k.keyHash → e'.key = k'.keyHash → e.hostname = e'.hostname →
          k.keyHash = k'.keyHash := by
  have hstored := stored_of_run h
  refine ⟨⟨hstored.hostnames, fun e he => (hstored.issued e he).2⟩, ?_⟩
  intro k hk k' hk' e he e' he' hkey hkey' hhost
  by_contra hne
  rw [← hkey, ← hkey'] at hne
  rcases superseded_or he he' hhost hne with hold | hold
  · rw [hkey, hstored.current k hk] at hold
    cases hold
  · rw [hkey', hstored.current k' hk'] at hold
    cases hold

/-- A host registers again: two keys have been issued, and one is left. -/
theorem one_key_of_run_again : ∃ s : State, s.db.issued.length = 2 ∧ s.OneRow ∧
    ∀ k ∈ s.db.apiKeys, ∀ k' ∈ s.db.apiKeys, k.keyHash = k'.keyHash := by
  have hreplay : ∃ s ∈ replay (State.step id) (fun _ _ => True) {} registersAgain,
      s.db.issued.length = 2 ∧ (∀ k ∈ s.db.apiKeys, ∃ e ∈ s.db.issued, e.key = k.keyHash) ∧
        ∀ e ∈ s.db.issued, e.hostname = "edge" := by
    decide +kernel
  obtain ⟨s, hs, hissued, hkeys, hhost⟩ := hreplay
  obtain ⟨hrow, hone⟩ := one_key_of_run (run_of_replay hs)
  refine ⟨s, hissued, hrow, fun k hk k' hk' => ?_⟩
  obtain ⟨e, he, hkey⟩ := hkeys k hk
  obtain ⟨e', he', hkey'⟩ := hkeys k' hk'
  exact hone k hk k' hk' e he e' he' hkey hkey' ((hhost e he).trans (hhost e' he').symm)

end MonCTL.CollectorApi.Registering
