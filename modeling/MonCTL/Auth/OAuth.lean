import MonCTL.Auth.Sessions
import MonCTL.Lib.Http
import MonCTL.Lib.PyValue

/-!
# The OAuth Provider

The one client that is configured gets a code for a user who is logged in, and exchanges it for
tokens; its refresh token is one like those of a login. Whether the user may use the client is
checked when the code is asked for, and not again. The refresh grant does not rotate its token, and
does not look at the marker of a token that has been rotated elsewhere.

The requests of the provider are interleaved with each other and with those of the sessions of all
users. A step is what a request does between two points at which other requests can run. Redis is
available and has `GETDEL`; codes are drawn anew. What a response finds in the database is recorded
with it.
-/

namespace MonCTL.Auth.OAuth

open List Option

/-! ### Settings and checks -/

/-- The settings of the provider. -/
structure OAuthSettings where
  jwt : Settings := {}
  oauthClientId : String
  oauthClientSecret : String
  /-- `_allowed_redirect_uris`. -/
  allowedRedirectUris : List String

/-- `_client_configured`. -/
def OAuthSettings.clientConfigured (c : OAuthSettings) : Bool :=
  c.oauthClientId ≠ "" && c.oauthClientSecret ≠ "" && !c.allowedRedirectUris.isEmpty

/-- `_validate_client`. -/
def validateClient (c : OAuthSettings) (clientId : String) : Except HttpError Unit :=
  if !c.clientConfigured then .error ⟨503, "OAuth2 provider is not configured"⟩
  else if clientId ≠ c.oauthClientId then .error ⟨400, "invalid_client"⟩
  else .ok ()

/-- `_validate_redirect_uri`. -/
def validateRedirectUri (c : OAuthSettings) (redirectUri : String) : Except HttpError Unit :=
  if redirectUri ∉ c.allowedRedirectUris then .error ⟨400, "invalid redirect_uri"⟩ else .ok ()

/-- Python's `strip().lower()`, for texts whose letters are ASCII. -/
def normalized (text : String) : String :=
  String.ofList ((((text.toList.dropWhile isPySpace).reverse.dropWhile isPySpace).reverse).map
    Char.toLower)

/-- The columns of a user that the provider reads. -/
structure User where
  isActive : Bool
  tokenVersion : ℕ
  role : String
  supersetAccess : Option String

/-- `_effective_superset_access`. -/
def effectiveSupersetAccess (user : User) : String :=
  let val := normalized (user.supersetAccess.getD "")
  if val ∈ ["none", "viewer", "analyst", "admin"] then val
  else if user.role = "admin" then "admin" else "viewer"

/-! ### The state -/

/-- What is stored with a code. -/
structure CodePayload where
  userId : String
  clientId : String
  redirectUri : String
  scope : String
  nonce : Option String

/-- A code in Redis. -/
structure StoredCode where
  code : String
  payload : CodePayload
  expires : ℕ

/-- `_CODE_TTL_SECONDS`. -/
def codeTtlSeconds : ℕ := 60

/-- The query of `/oauth/authorize`, with the claims of the cookie if its signature is valid. -/
structure AuthorizeRequest where
  responseType : String
  clientId : String
  redirectUri : String
  scope : Option String
  nonce : Option String
  cookie : Option (String × Token)

/-- The form of `/oauth/token`, with the credentials of HTTP Basic if there are any, and the claims
of the refresh token if its signature is valid. -/
structure TokenRequest where
  basic : Option (String × String)
  grantType : String
  code : Option String
  redirectUri : Option String
  refreshToken : Option (Option (String × Token))
  clientId : Option String
  clientSecret : Option String

/-- A request that is not finished. -/
inductive Pending
  /-- The cookie has been accepted for a user, and the row of the user is going to be read. -/
  | authenticated (userId : String) (r : AuthorizeRequest)
  /-- The user may use the client, and a code is going to be stored. -/
  | granted (payload : CodePayload) (user : User)
  /-- A code has been taken out of Redis, and the row of its user is going to be read. -/
  | redeeming (code : String) (payload : CodePayload) (clientId redirectUri : String)

/-- A code that has been stored, and what the row of the user was when it was granted. -/
structure Issued where
  code : String
  payload : CodePayload
  user : User

/-- What a response is given for. -/
inductive Grant
  | code (code : String) (redirectUri : String)
  | refresh (token : Token)

/-- A response with tokens, what the row of the user was, and whether the marker of the refresh
token was there. -/
structure Response where
  grant : Grant
  clientId : String
  userId : String
  user : User
  used : Bool

/-- The row and the tokens of a user. -/
structure Account where
  /-- There is a row. -/
  present : Bool := false
  sessions : Sessions := {}
  role : String := "user"
  supersetAccess : Option String := none

/-- `db.get(User, id)`. -/
def Account.row (a : Account) : Option User :=
  if a.present then some ⟨a.sessions.isActive, a.sessions.tokenVersion, a.role, a.supersetAccess⟩
  else none

/-- The accounts, the codes in Redis, the requests in progress, and what is recorded. -/
structure State where
  now : ℕ := 0
  accounts : String → Account := fun _ => {}
  codes : List StoredCode := []
  pending : List Pending := []
  issued : List Issued := []
  responses : List Response := []

/-! ### Steps -/

namespace State

/-- A request goes on as another or ends. -/
def proceed (s : State) (i : ℕ) (next : Option Pending) : State :=
  { s with pending := s.pending.eraseIdx i ++ next.toList }

def addTokens (s : State) (userId : String) (tokens : List Token) : State :=
  let account := s.accounts userId
  { s with accounts := Function.update s.accounts userId { account with
      sessions := { account.sessions with tokens := account.sessions.tokens ++ tokens } } }

end State

/-- `_get_user_from_cookie`: the user of the cookie. -/
def userOfCookie (s : State) : Option (String × Token) → Option String
  | none => none
  | some (userId, token) =>
    let account := s.accounts userId
    if token.type = .access ∧ token ∈ account.sessions.tokens ∧ account.present = true ∧
      account.sessions.Accepts token then some userId else none

/-- How `/oauth/authorize` begins; without a user it redirects to the login. -/
def beginAuthorize (c : OAuthSettings) (s : State) (r : AuthorizeRequest) :
    Except HttpError (Option Pending) := do
  validateClient c r.clientId
  validateRedirectUri c r.redirectUri
  if r.responseType ≠ "code" then .error ⟨400, "unsupported_response_type"⟩
  else .ok ((userOfCookie s r.cookie).map fun userId => .authenticated userId r)

/-- How it goes on; a user who may not use the client is redirected with an error. -/
def grantCode (s : State) (userId : String) (r : AuthorizeRequest) :
    Except HttpError (Option Pending) :=
  match (s.accounts userId).row with
  | none => .error ⟨403, "user_inactive"⟩
  | some user =>
    if !user.isActive then .error ⟨403, "user_inactive"⟩
    else if effectiveSupersetAccess user = "none" then .ok none
    else .ok (some (.granted
      ⟨userId, r.clientId, r.redirectUri, r.scope.getD "", r.nonce⟩ user))

/-- `_store_code`. -/
def storeCode (s : State) (i : ℕ) (code : String) (payload : CodePayload) (user : User) : State :=
  { s.proceed i none with
    codes := s.codes ++ [⟨code, payload, s.now + codeTtlSeconds⟩]
    issued := s.issued ++ [⟨code, payload, user⟩] }

/-- `_consume_code`, by `GETDEL`. -/
def consumeCode (s : State) (code : String) : State × Option CodePayload :=
  match s.codes.find? (·.code = code) with
  | none => (s, none)
  | some stored =>
    ({ s with codes := s.codes.filter (·.code ≠ code) },
      if s.now < stored.expires then some stored.payload else none)

/-- How the client of `/oauth/token` authenticates; HTTP Basic takes precedence. -/
def authenticateClient (c : OAuthSettings) (r : TokenRequest) : Except HttpError String :=
  let clientId := (r.basic.map Prod.fst).or r.clientId
  let clientSecret := (r.basic.map Prod.snd).or r.clientSecret
  match clientId.filter (· ≠ ""), clientSecret.filter (· ≠ "") with
  | some clientId, some clientSecret => do
      validateClient c clientId
      if clientSecret ≠ c.oauthClientSecret then .error ⟨401, "invalid_client"⟩ else .ok clientId
  | _, _ => .error ⟨401, "invalid_client"⟩

/-- The grant for a code, until the row of the user is read. -/
def beginCodeGrant (s : State) (r : TokenRequest) (clientId : String) :
    State × Except HttpError Pending :=
  match r.code.filter (· ≠ ""), r.redirectUri.filter (· ≠ "") with
  | some code, some redirectUri =>
    match consumeCode s code with
    | (s, none) => (s, .error ⟨400, "invalid_grant"⟩)
    | (s, some payload) =>
      if payload.clientId ≠ clientId then (s, .error ⟨400, "invalid_grant"⟩)
      else if payload.redirectUri ≠ redirectUri then (s, .error ⟨400, "invalid_grant"⟩)
      else (s, .ok (.redeeming code payload clientId redirectUri))
  | _, _ => (s, .error ⟨400, "invalid_request"⟩)

/-- The rest of it: the response, and the tokens of the user. -/
def finishCodeGrant (c : OAuthSettings) (s : State) (code : String) (payload : CodePayload)
    (clientId redirectUri jti : String) : Except HttpError State :=
  match (s.accounts payload.userId).row with
  | none => .error ⟨403, "user_inactive"⟩
  | some user =>
    if !user.isActive then .error ⟨403, "user_inactive"⟩
    else .ok { s.addTokens payload.userId
        [⟨.access, user.tokenVersion, s.now + c.jwt.accessMaxAge⟩,
          ⟨.refresh jti, user.tokenVersion, s.now + c.jwt.refreshMaxAge⟩] with
      responses := s.responses ++
        [⟨.code code redirectUri, clientId, payload.userId, user, false⟩] }

/-- The marker that the token has been rotated is there. -/
def isMarked (account : Account) (token : Token) : Bool :=
  match token.type with
  | .access => false
  | .refresh jti => decide (account.sessions.IsMarked jti)

def refreshGrant (c : OAuthSettings) (s : State) (r : TokenRequest) (clientId : String) :
    Except HttpError State :=
  match r.refreshToken with
  | none => .error ⟨400, "invalid_request"⟩
  | some none => .error ⟨400, "invalid_grant"⟩
  | some (some (userId, token)) =>
    let account := s.accounts userId
    -- the signature and `exp`
    if ¬(token ∈ account.sessions.tokens ∧ s.now < token.exp) then .error ⟨400, "invalid_grant"⟩
    else if token.type = .access then .error ⟨400, "invalid_grant"⟩
    else match account.row with
      | none => .error ⟨403, "user_inactive"⟩
      | some user =>
        if !user.isActive then .error ⟨403, "user_inactive"⟩
        else if user.tokenVersion ≠ token.tv then .error ⟨400, "invalid_grant"⟩
        else .ok { s.addTokens userId
            [⟨.access, user.tokenVersion, s.now + c.jwt.accessMaxAge⟩] with
          responses := s.responses ++
            [⟨.refresh token, clientId, userId, user, isMarked account token⟩] }

/-- `/oauth/token`, until it waits or answers. -/
def token (c : OAuthSettings) (s : State) (r : TokenRequest) : State :=
  match authenticateClient c r with
  | .error _ => s
  | .ok clientId =>
    if r.grantType = "authorization_code" then
      match beginCodeGrant s r clientId with
      | (s, .error _) => s
      | (s, .ok request) => { s with pending := s.pending ++ [request] }
    else if r.grantType = "refresh_token" then
      match refreshGrant c s r clientId with
      | .error _ => s
      | .ok s => s
    else s

/-- What happens. -/
inductive Event
  /-- Time passes, for all users. -/
  | tick (seconds : ℕ)
  /-- A user is created, with a new id, or is changed or deleted. -/
  | create (userId role : String) (supersetAccess : Option String)
  | update (userId role : String) (supersetAccess : Option String)
  | delete (userId : String)
  /-- A request of the sessions of a user makes a step. -/
  | session (userId : String) (a : Action)
  /-- `/oauth/authorize` begins, reads the row of the user, and stores a code. -/
  | authorize (r : AuthorizeRequest)
  | check (i : ℕ)
  | store (i : ℕ) (code : String)
  /-- `/oauth/token` begins, and ends with the row of the user. -/
  | token (r : TokenRequest)
  | redeem (i : ℕ) (jti : String)
  /-- A request fails. -/
  | fail (i : ℕ)

/-- A step of the sessions other than that time passes, which it does for all users. -/
def isRequest : Action → Bool
  | .tick _ => false
  | _ => true

/-- The account changes. -/
def State.setAccount (s : State) (userId : String) (account : Account) : State :=
  { s with accounts := Function.update s.accounts userId account }

/-- The system. -/
def step (c : OAuthSettings) (s : State) : Event → Option State
  | .tick seconds => some { s with
      now := s.now + seconds
      accounts := fun userId =>
        let account := s.accounts userId
        { account with sessions := { account.sessions with now := s.now + seconds } } }
  | .create userId role supersetAccess =>
    let account := s.accounts userId
    if account.present ∨ account.sessions.tokens ≠ [] then none
    else some (s.setAccount userId { account with present := true, role, supersetAccess })
  | .update userId role supersetAccess =>
    let account := s.accounts userId
    if account.present then some (s.setAccount userId { account with role, supersetAccess })
    else none
  | .delete userId =>
    let account := s.accounts userId
    if account.present then some (s.setAccount userId { account with present := false }) else none
  | .session userId a =>
    let account := s.accounts userId
    if account.present && isRequest a then
      (Sessions.step c.jwt account.sessions a).map fun sessions =>
        s.setAccount userId { account with sessions }
    else none
  | .authorize r =>
    match beginAuthorize c s r with
    | .ok (some request) => some { s with pending := s.pending ++ [request] }
    | _ => some s
  | .check i =>
    match s.pending[i]? with
    | some (.authenticated userId r) =>
      match grantCode s userId r with
      | .ok next => some (s.proceed i next)
      | .error _ => some (s.proceed i none)
    | _ => none
  | .store i code =>
    match s.pending[i]? with
    | some (.granted payload user) =>
      if code ∈ s.issued.map Issued.code then none
      else some (storeCode s i code payload user)
    | _ => none
  | .token r => some (token c s r)
  | .redeem i jti =>
    match s.pending[i]? with
    | some (.redeeming code payload clientId redirectUri) =>
      match finishCodeGrant c s code payload clientId redirectUri jti with
      | .ok s => some (s.proceed i none)
      | .error _ => some (s.proceed i none)
    | _ => none
  | .fail i => if i < s.pending.length then some (s.proceed i none) else none

/-! ### What is to hold -/

/-- The code of a request that has taken it out of Redis. -/
def Pending.redeems : Pending → Option String
  | .redeeming code .. => some code
  | _ => none

/-- The code of a response. -/
def Response.redeems (r : Response) : Option String :=
  match r.grant with
  | .code code _ => some code
  | .refresh _ => none

/-- A user who may use the client. -/
def User.Entitled (user : User) : Prop :=
  user.isActive = true ∧ effectiveSupersetAccess user ≠ "none"

/-- **What holds of all responses.** -/
structure Provided (s : State) : Prop where
  /-- A code yields tokens once at most. -/
  once : (s.responses.filterMap Response.redeems).Nodup
  /-- It does so for the client, the URI and the user it was issued for, and the user was entitled
  when it was granted. -/
  bound : ∀ r ∈ s.responses, ∀ code redirectUri, r.grant = .code code redirectUri →
    ∃ i ∈ s.issued, i.code = code ∧ i.payload.clientId = r.clientId ∧
      i.payload.redirectUri = redirectUri ∧ i.payload.userId = r.userId ∧ i.user.Entitled
  /-- The user is active. -/
  active : ∀ r ∈ s.responses, r.user.isActive = true
  /-- The version of a refresh token is that of the user. -/
  version : ∀ r ∈ s.responses, ∀ token, r.grant = .refresh token → token.tv = r.user.tokenVersion

/-- Where codes are: in Redis, in a request, or in a response. -/
def State.places (s : State) : List String :=
  s.codes.map StoredCode.code ++
    (s.pending.filterMap Pending.redeems ++ s.responses.filterMap Response.redeems)

/-- The code was issued with this. -/
def State.Knows (s : State) (code : String) (payload : CodePayload) : Prop :=
  ∃ i ∈ s.issued, i.code = code ∧ i.payload = payload

/-- A request that goes on as it should. -/
def State.Sane (s : State) : Pending → Prop
  | .authenticated .. => True
  | .granted _ user => user.Entitled
  | .redeeming code payload clientId redirectUri =>
    s.Knows code payload ∧ payload.clientId = clientId ∧ payload.redirectUri = redirectUri

/-- What holds after every run. -/
structure Inv (s : State) : Prop extends Provided s where
  issued : ∀ i ∈ s.issued, i.user.Entitled
  codes : ∀ c ∈ s.codes, s.Knows c.code c.payload
  pending : ∀ p ∈ s.pending, s.Sane p
  /-- A code is in one place at most. -/
  places : s.places.Nodup

theorem nodup_of_count_le {xs ys : List String} (h : xs.Nodup)
    (hle : ∀ a, ys.count a ≤ xs.count a) : ys.Nodup :=
  List.nodup_iff_count_le_one.2 fun a => (hle a).trans (List.nodup_iff_count_le_one.1 h a)

theorem count_places (s : State) (a : String) :
    s.places.count a = (s.codes.map StoredCode.code).count a +
      ((s.pending.filterMap Pending.redeems).count a +
        (s.responses.filterMap Response.redeems).count a) := by
  rw [State.places, count_append, count_append]

variable {s t : State} {code : String} {payload : CodePayload}

theorem State.Knows.mono
    (h : s.Knows code payload) (hissued : ∀ i ∈ s.issued, i ∈ t.issued) : t.Knows code payload := by
  obtain ⟨i, hi, hrest⟩ := h
  exact ⟨i, hissued i hi, hrest⟩

variable {p : Pending}

theorem State.Sane.mono (h : s.Sane p) (hissued : ∀ i ∈ s.issued, i ∈ t.issued) : t.Sane p := by
  cases p with
  | authenticated => trivial
  | granted => exact h
  | redeeming => exact ⟨h.1.mono hissued, h.2⟩

theorem Inv.frame (h : Inv s) (hissued : t.issued = s.issued)
    (hresponses : t.responses = s.responses) (hcodes : t.codes.Sublist s.codes)
    (hpending : ∀ p ∈ t.pending, p ∈ s.pending ∨ s.Sane p)
    (hsub : (t.pending.filterMap Pending.redeems).Sublist
      (s.pending.filterMap Pending.redeems)) : Inv t := by
  have hmono : ∀ i ∈ s.issued, i ∈ t.issued := fun i hi => hissued ▸ hi
  exact
    { once := by
        rw [hresponses]
        exact h.once
      bound := by
        rw [hresponses, hissued]
        exact h.bound
      active := by
        rw [hresponses]
        exact h.active
      version := by
        rw [hresponses]
        exact h.version
      issued := by
        rw [hissued]
        exact h.issued
      codes := fun c hc => (h.codes c (hcodes.subset hc)).mono hmono
      pending := fun p hp => by
        rcases hpending p hp with hp | hsane
        · exact (h.pending p hp).mono hmono
        · exact hsane.mono hmono
      places := by
        refine nodup_of_count_le h.places fun a => ?_
        rw [count_places, count_places, hresponses]
        exact Nat.add_le_add ((hcodes.map _).count_le a)
          (Nat.add_le_add_right (hsub.count_le a) _) }

theorem Inv.proceed (h : Inv s) (i : ℕ) {next : Option Pending}
    (hnext : ∀ p ∈ next, s.Sane p ∧ p.redeems = none) : Inv (s.proceed i next) := by
  refine h.frame rfl rfl (List.Sublist.refl _) (fun p hp => ?_) ?_
  · rcases List.mem_append.1 hp with hp | hp
    · exact .inl (mem_of_mem_eraseIdx hp)
    · exact .inr (hnext p (Option.mem_toList.1 hp)).1
  · rw [State.proceed, filterMap_append]
    have hnil : next.toList.filterMap Pending.redeems = [] := by
      cases next with
      | none => rfl
      | some p => simp [(hnext p rfl).2]
    rw [hnil, append_nil]
    exact (eraseIdx_sublist _ i).filterMap _

theorem Inv.begin (h : Inv s) (hsane : s.Sane p)
    (hredeems : p.redeems = none) : Inv { s with pending := s.pending ++ [p] } := by
  refine h.frame rfl rfl (List.Sublist.refl _) (fun q hq => ?_) ?_
  · rcases List.mem_append.1 hq with hq | hq
    · exact .inl hq
    · exact .inr (List.mem_singleton.1 hq ▸ hsane)
  · simp [filterMap_append, hredeems]

theorem Inv.accounts (h : Inv s) (now : ℕ) (accounts : String → Account) : Inv
    { s with now := now, accounts := accounts } :=
  h.frame rfl rfl (List.Sublist.refl _) (fun _ hp => .inl hp) (List.Sublist.refl _)

variable {i : ℕ}

theorem count_eraseIdx {pending : List Pending} (hp : pending[i]? = some p)
    (a : String) : (pending.filterMap Pending.redeems).count a =
      p.redeems.toList.count a + ((pending.eraseIdx i).filterMap Pending.redeems).count a := by
  obtain ⟨hi, hpi⟩ := List.getElem?_eq_some_iff.1 hp
  have hperm := (getElem_cons_eraseIdx_perm hi).filterMap Pending.redeems
  rw [hpi] at hperm
  rw [← hperm.count_eq a, filterMap_cons]
  cases p.redeems with
  | none => simp
  | some code => rw [count_cons, Option.toList_some, count_singleton, Nat.add_comm]

theorem Inv.mem_issued (h : Inv s) {a : String} (ha : a ∈ s.places) :
    a ∈ s.issued.map Issued.code := by
  have hknown {payload : CodePayload} (hk : s.Knows a payload) : a ∈ s.issued.map Issued.code := by
    obtain ⟨i, hi, hcode, -⟩ := hk
    exact List.mem_map.2 ⟨i, hi, hcode⟩
  rcases List.mem_append.1 ha with ha | ha
  · obtain ⟨c, hc, rfl⟩ := List.mem_map.1 ha
    exact hknown (h.codes c hc)
  · rcases List.mem_append.1 ha with ha | ha
    · obtain ⟨p, hp, hredeems⟩ := List.mem_filterMap.1 ha
      have hsane := h.pending p hp
      cases p with
      | authenticated | granted => cases hredeems
      | redeeming code payload clientId redirectUri =>
        obtain rfl : code = a := some.inj hredeems
        exact hknown hsane.1
    · obtain ⟨r, hr, hredeems⟩ := List.mem_filterMap.1 ha
      rw [Response.redeems] at hredeems
      split at hredeems
      next code redirectUri hgrant =>
        obtain rfl : code = a := some.inj hredeems
        obtain ⟨i, hi, hcode, -⟩ := h.bound r hr code redirectUri hgrant
        exact List.mem_map.2 ⟨i, hi, hcode⟩
      · cases hredeems

/-- **A new code is stored** for a user who is entitled. -/
theorem Inv.store (h : Inv s) {user : User} (hp : s.pending[i]? = some (.granted payload user))
    (hnew : code ∉ s.issued.map Issued.code) : Inv (storeCode s i code payload user) := by
  have hmono : ∀ j ∈ s.issued, j ∈ (storeCode s i code payload user).issued := fun j hj =>
    mem_append_left _ hj
  have hfresh : s.places.count code = 0 := List.count_eq_zero.2 fun ha => hnew (h.mem_issued ha)
  exact
    { once := h.once
      bound := fun r hr code' redirectUri hgrant => by
        obtain ⟨j, hj, hrest⟩ := h.bound r hr code' redirectUri hgrant
        exact ⟨j, hmono j hj, hrest⟩
      active := h.active
      version := h.version
      issued := fun j hj => by
        rcases List.mem_append.1 hj with hj | hj
        · exact h.issued j hj
        · obtain rfl := List.mem_singleton.1 hj
          exact h.pending _ (mem_of_getElem? hp)
      codes := fun c hc => by
        rcases List.mem_append.1 hc with hc | hc
        · exact (h.codes c hc).mono hmono
        · obtain rfl := List.mem_singleton.1 hc
          exact ⟨_, mem_append_right _ (mem_singleton_self _), rfl, rfl⟩
      pending := fun p hpending => by
        rcases List.mem_append.1 hpending with hpending | hpending
        · exact (h.pending p (mem_of_mem_eraseIdx hpending)).mono hmono
        · cases hpending
      places := by
        refine List.nodup_iff_count_le_one.2 fun a => ?_
        have hold := List.nodup_iff_count_le_one.1 h.places a
        rw [count_places] at hold hfresh
        rw [count_eraseIdx hp] at hold hfresh
        rw [count_places]
        simp only [storeCode, State.proceed, map_append, map_cons, map_nil,
          count_append, count_singleton, Option.toList_none, append_nil]
        by_cases ha : code = a
        · subst ha
          simp only [beq_self_eq_true, if_true]
          omega
        · simp only [beq_iff_eq, ha, if_false]
          omega }

theorem Inv.take (h : Inv s) {c : StoredCode} (hc : c ∈ s.codes) : Inv { s with
      codes := s.codes.filter (·.code ≠ c.code)
      pending := s.pending ++
        [.redeeming c.code c.payload c.payload.clientId c.payload.redirectUri] } :=
  { once := h.once
    bound := h.bound
    active := h.active
    version := h.version
    issued := h.issued
    codes := fun c' hc' => h.codes c' (mem_of_mem_filter hc')
    pending := fun p hp => by
      rcases List.mem_append.1 hp with hp | hp
      · exact (h.pending p hp).mono fun _ hi => hi
      · obtain rfl := List.mem_singleton.1 hp
        exact ⟨h.codes c hc, rfl, rfl⟩
    places := by
      refine nodup_of_count_le h.places fun a => ?_
      rw [count_places, count_places]
      simp only [filterMap_append, count_append]
      by_cases ha : c.code = a
      · subst ha
        have hthere : 0 < (s.codes.map StoredCode.code).count c.code :=
          List.count_pos_iff.2 (mem_map_of_mem hc)
        have hgone : ((s.codes.filter (·.code ≠ c.code)).map StoredCode.code).count c.code = 0 := by
          refine List.count_eq_zero.2 fun hmem => ?_
          obtain ⟨c', hc', hcode⟩ := List.mem_map.1 hmem
          exact absurd hcode (by simpa using (List.mem_filter.1 hc').2)
        have hone : ([Pending.redeeming c.code c.payload c.payload.clientId
            c.payload.redirectUri].filterMap Pending.redeems).count c.code = 1 :=
          count_singleton_self
        omega
      · have hle : ((s.codes.filter (·.code ≠ c.code)).map StoredCode.code).count a ≤
            (s.codes.map StoredCode.code).count a := (List.filter_sublist.map _).count_le a
        have hzero : ([Pending.redeeming c.code c.payload c.payload.clientId
            c.payload.redirectUri].filterMap Pending.redeems).count a = 0 :=
          List.count_eq_zero.2 fun hmem => ha (List.mem_singleton.1 hmem).symm
        omega }

variable {clientId : String}

/-- What `/oauth/token` does with a code: the code is gone, and if the request goes on it redeems
what was stored. -/
theorem Inv.beginCodeGrant {r : TokenRequest} {result : Except HttpError Pending} (h : Inv s)
    (hs : beginCodeGrant s r clientId = (t, result)) : match result with
    | .error _ => Inv t
    | .ok request => Inv { t with pending := t.pending ++ [request] } := by
  rw [OAuth.beginCodeGrant] at hs
  split at hs
  next code redirectUri _ _ =>
    have hconsume : ∀ u data, consumeCode s code = (u, data) →
        (u = s ∨ u = { s with codes := s.codes.filter (·.code ≠ code) }) ∧
        ∀ payload ∈ data, u = { s with codes := s.codes.filter (·.code ≠ code) } ∧
          ∃ c ∈ s.codes, c.code = code ∧ c.payload = payload := by
      intro u data hu
      rw [consumeCode] at hu
      split at hu
      · cases hu
        exact ⟨.inl rfl, fun _ hp => by cases hp⟩
      next stored hstored =>
        cases hu
        refine ⟨.inr rfl, fun payload hp => ⟨rfl, stored, mem_of_find?_eq_some hstored, ?_⟩⟩
        split at hp
        · exact ⟨by simpa using find?_some hstored, some.inj hp⟩
        · cases hp
    have hlost {u : State} (hu : u = s ∨ u = { s with codes := s.codes.filter (·.code ≠ code) }) :
        Inv u := by
      rcases hu with rfl | rfl
      · exact h
      · exact h.frame rfl rfl filter_sublist (fun _ hp => .inl hp) (List.Sublist.refl _)
    split at hs
    next u hu =>
      cases hs
      exact hlost (hconsume _ _ hu).1
    next u payload hu =>
      obtain ⟨rfl, c, hc, rfl, rfl⟩ := (hconsume _ _ hu).2 payload rfl
      split at hs
      · cases hs
        exact hlost (.inr rfl)
      next hclient =>
        split at hs
        · cases hs
          exact hlost (.inr rfl)
        next hredirect =>
          cases hs
          obtain rfl := not_not.1 hclient
          obtain rfl := not_not.1 hredirect
          exact h.take hc
  · cases hs
    exact h

variable {c : OAuthSettings}

theorem beginAuthorize_eq {r : AuthorizeRequest}
    (h : beginAuthorize c s r = .ok (some p)) : ∃ userId, p = .authenticated userId r := by
  obtain ⟨-, -, h⟩ := StateExcept.bind_eq_ok.1 h
  obtain ⟨-, -, h⟩ := StateExcept.bind_eq_ok.1 h
  split at h
  · cases h
  · obtain ⟨userId, -, hp⟩ := map_eq_some_iff.1 (Except.ok.inj h)
    exact ⟨userId, hp.symm⟩

theorem grantCode_eq {userId : String} {r : AuthorizeRequest}
    (h : grantCode s userId r = .ok (some p)) :
    ∃ payload user, p = .granted payload user ∧ user.Entitled := by
  rw [grantCode] at h
  split at h
  · cases h
  next user _ =>
    split at h
    · cases h
    next hactive =>
      split at h
      · cases h
      next haccess => exact ⟨_, user, (some.inj (Except.ok.inj h)).symm, by
        simpa using hactive, haccess⟩

theorem Inv.respond (h : Inv s) {q : Response}
    (hresponses : t.responses = s.responses ++ [q]) (hissued : t.issued = s.issued)
    (hcodes : t.codes = s.codes) (hpending : ∀ p ∈ t.pending, p ∈ s.pending)
    (hcount : ∀ a, t.places.count a ≤ s.places.count a)
    (hbound : ∀ code redirectUri, q.grant = .code code redirectUri →
      ∃ i ∈ s.issued, i.code = code ∧ i.payload.clientId = q.clientId ∧
        i.payload.redirectUri = redirectUri ∧ i.payload.userId = q.userId ∧ i.user.Entitled)
    (hactive : q.user.isActive = true)
    (hversion : ∀ token, q.grant = .refresh token → token.tv = q.user.tokenVersion) : Inv t := by
  have hplaces := nodup_of_count_le h.places hcount
  have hmono : ∀ i ∈ s.issued, i ∈ t.issued := fun i hi => hissued ▸ hi
  have hnew {r : Response} (hr : r ∈ t.responses) : r ∈ s.responses ∨ r = q := by
    rw [hresponses] at hr
    exact (List.mem_append.1 hr).imp_right List.mem_singleton.1
  exact
    { once := (List.nodup_append.1 (List.nodup_append.1 hplaces).2.1).2.1
      bound := fun r hr code redirectUri hgrant => by
        rw [hissued]
        rcases hnew hr with hr | rfl
        · exact h.bound r hr code redirectUri hgrant
        · exact hbound code redirectUri hgrant
      active := fun r hr => by
        rcases hnew hr with hr | rfl
        · exact h.active r hr
        · exact hactive
      version := fun r hr token hgrant => by
        rcases hnew hr with hr | rfl
        · exact h.version r hr token hgrant
        · exact hversion token hgrant
      issued := by
        rw [hissued]
        exact h.issued
      codes := fun c hc => (h.codes c (hcodes ▸ hc)).mono hmono
      pending := fun p hp => (h.pending p (hpending p hp)).mono hmono
      places := hplaces }

/-- **A code yields tokens.** -/
theorem Inv.redeem {redirectUri jti : String} (h : Inv s)
    (hp : s.pending[i]? = some (.redeeming code payload clientId redirectUri))
    (ht : finishCodeGrant c s code payload clientId redirectUri jti = .ok t) :
    Inv (t.proceed i none) := by
  obtain ⟨⟨j, hj, hcode, hpayload⟩, hclient, hredirect⟩ := h.pending _ (mem_of_getElem? hp)
  rw [finishCodeGrant] at ht
  split at ht
  · cases ht
  next user hrow =>
    split at ht
    · cases ht
    next hactive =>
      cases ht
      refine h.respond rfl rfl rfl (fun p hpending => ?_) (fun a => ?_) ?_
        (by simpa using hactive) ?_
      · rcases List.mem_append.1 hpending with hpending | hpending
        · exact mem_of_mem_eraseIdx hpending
        · cases hpending
      · -- the code goes from the request to the response
        rw [count_places, count_places, count_eraseIdx hp]
        simp only [State.proceed, State.addTokens, Option.toList_none, append_nil,
          filterMap_append, count_append]
        have hsame : (Pending.redeeming code payload clientId redirectUri).redeems.toList =
            [(⟨.code code redirectUri, clientId, payload.userId, user, false⟩ :
              Response)].filterMap Response.redeems := rfl
        rw [hsame]
        omega
      · intro code' redirectUri' hgrant
        cases hgrant
        refine ⟨j, hj, hcode, ?_, ?_, ?_, h.issued j hj⟩
        · rw [hpayload, hclient]
        · rw [hpayload, hredirect]
        · rw [hpayload]
      · intro token hgrant
        cases hgrant

/-- **A refresh token yields tokens.** -/
theorem Inv.refresh {r : TokenRequest}
    (h : Inv s) (ht : refreshGrant c s r clientId = .ok t) : Inv t := by
  rw [refreshGrant] at ht
  split at ht
  · cases ht
  · cases ht
  next userId token _ =>
    dsimp only at ht
    split at ht
    · cases ht
    · split at ht
      · cases ht
      · split at ht
        · cases ht
        next user hrow =>
          split at ht
          · cases ht
          next hactive =>
            split at ht
            · cases ht
            next hversion =>
              cases ht
              refine h.respond rfl rfl rfl (fun _ hp => hp) (fun a => ?_) ?_
                (by simpa using hactive) ?_
              · rw [count_places, count_places]
                simp only [State.addTokens, filterMap_append]
                rw [show [(⟨.refresh token, clientId, userId, user,
                  isMarked (s.accounts userId) token⟩ : Response)].filterMap Response.redeems = []
                  from rfl, append_nil]
              · intro code redirectUri hgrant
                cases hgrant
              · intro token' hgrant
                cases hgrant
                exact (not_not.1 hversion).symm

/-- **A step keeps the invariant.** -/
theorem Inv.step {e : Event} (h : Inv s) (hs : step c s e = some t) : Inv t := by
  cases e with
  | tick seconds =>
    cases hs
    exact h.accounts _ _
  | create userId role supersetAccess =>
    rw [OAuth.step] at hs
    split at hs
    · cases hs
    · cases hs
      exact h.accounts _ _
  | update userId role supersetAccess =>
    rw [OAuth.step] at hs
    split at hs
    · cases hs
      exact h.accounts _ _
    · cases hs
  | delete userId =>
    rw [OAuth.step] at hs
    split at hs
    · cases hs
      exact h.accounts _ _
    · cases hs
  | session userId a =>
    rw [OAuth.step] at hs
    split at hs
    · obtain ⟨sessions, -, rfl⟩ := map_eq_some_iff.1 hs
      exact h.accounts _ _
    · cases hs
  | authorize r =>
    rw [OAuth.step] at hs
    split at hs
    next request hrequest =>
      cases hs
      obtain ⟨userId, rfl⟩ := beginAuthorize_eq hrequest
      exact h.begin trivial rfl
    · cases hs
      exact h
  | check i =>
    rw [OAuth.step] at hs
    split at hs
    next userId r hp =>
      split at hs
      next next hnext =>
        cases hs
        exact h.proceed i fun p hp' => by
          obtain ⟨payload, user, rfl, hentitled⟩ := grantCode_eq (hnext.trans (by rw [hp']))
          exact ⟨hentitled, rfl⟩
      · cases hs
        exact h.proceed i fun p hp => by cases hp
    · cases hs
  | store i code =>
    rw [OAuth.step] at hs
    split at hs
    next payload user hp =>
      split at hs
      · cases hs
      next hnew =>
        cases hs
        exact h.store hp hnew
    · cases hs
  | token r =>
    cases hs
    rw [token]
    split
    · exact h
    next clientId _ =>
      split
      · have hgrant {t : State} {result : Except HttpError Pending}
            (ht : OAuth.beginCodeGrant s r clientId = (t, result)) := h.beginCodeGrant ht
        split
        next t error ht => exact hgrant ht
        next t request ht => exact hgrant ht
      · split
        · split
          · exact h
          next t ht => exact h.refresh ht
        · exact h
  | redeem i jti =>
    rw [OAuth.step] at hs
    split at hs
    next code payload clientId redirectUri hp =>
      split at hs
      next t' ht =>
        cases hs
        exact h.redeem hp ht
      · cases hs
        exact h.proceed i fun p hp => by cases hp
    · cases hs
  | fail i =>
    rw [OAuth.step] at hs
    split at hs
    · cases hs
      exact h.proceed i fun p hp => by cases hp
    · cases hs

theorem Inv.start : Inv {} where
  once := nodup_nil
  bound _ h := absurd h not_mem_nil
  active _ h := absurd h not_mem_nil
  version _ h := absurd h not_mem_nil
  issued _ h := absurd h not_mem_nil
  codes _ h := absurd h not_mem_nil
  pending _ h := absurd h not_mem_nil
  places := nodup_nil

/-- One client with one URI. -/
def superset : OAuthSettings where
  oauthClientId := "superset"
  oauthClientSecret := "secret"
  allowedRedirectUris := ["https://bi/cb"]

end MonCTL.Auth.OAuth
