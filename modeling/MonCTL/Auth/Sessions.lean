import Mathlib.Data.List.Nodup
import Mathlib.Data.List.Perm.Basic
import MonCTL.Lib.Dict
import MonCTL.Lib.Runs

/-!
# Sessions of a User

The tokens of one user and the version that revokes them. A token carries the version that its
request has read from the user's row; it is accepted as long as the row has that version. What
revokes the tokens reads the version, adds one, and writes the sum when its transaction commits.
A logout writes it twice: in a session of its own, and again when the request itself commits.

A step is what a request does between two points at which other requests can run. Redis is
available; a transaction reads what has been committed, and a write waits for no read.
-/

namespace MonCTL.Auth

open List

/-- The lifetimes in the settings. -/
structure Settings where
  jwtAccessTokenExpireMinutes : ℕ := 30
  jwtRefreshTokenExpireDays : ℕ := 7

/-- `_ACCESS_MAX_AGE`, in seconds. -/
def Settings.accessMaxAge (c : Settings) : ℕ := c.jwtAccessTokenExpireMinutes * 60

/-- `_REFRESH_MAX_AGE`, in seconds. -/
def Settings.refreshMaxAge (c : Settings) : ℕ := c.jwtRefreshTokenExpireDays * 86400

/-- The type of a token; a refresh token has an identifier. -/
inductive TokenType
  | access
  | refresh (jti : String)
  deriving DecidableEq

/-- The claims of a token of the user. -/
structure Token where
  type : TokenType
  tv : ℕ
  exp : ℕ
  deriving DecidableEq

/-- A request that has read the row of the user, and is not finished. -/
inductive Request
  /-- It is going to issue a pair of tokens, perhaps for a refresh token. -/
  | issuing (tv : ℕ) (exchanges : Option String)
  /-- A refresh that has passed the gate, and is going to mark its token as used. -/
  | marking (jti : String) (tv : ℕ)
  /-- It is going to commit the next version, and what else it changes. -/
  | revoking (tv : ℕ) (isActive : Option Bool)
  /-- A logout: it is going to commit the next version in a session of its own. -/
  | loggingOut (tv : ℕ)
  /-- A logout that has done so, and is going to commit the same version once more. -/
  | rewriting (tv : ℕ)
  /-- It is going to commit a change that revokes nothing. -/
  | updating (isActive : Bool)

/-- The version that a request has read or written. -/
def Request.tv : Request → ℕ
  | issuing tv _ | marking _ tv | revoking tv _ | loggingOut tv | rewriting tv => tv
  | updating _ => 0

/-- The refresh token that a request is going to exchange. -/
def Request.exchanges : Request → Option String
  | issuing _ exchanges => exchanges
  | _ => none

/-- The request is going to commit a version that revokes all tokens of the user. -/
def Request.IsRevocation : Request → Prop
  | revoking .. | loggingOut .. => True
  | _ => False

instance : ∀ r : Request, Decidable r.IsRevocation
  | .revoking .. | .loggingOut .. => inferInstanceAs (Decidable True)
  | .issuing .. | .marking .. | .rewriting .. | .updating .. => inferInstanceAs (Decidable False)

/-- The row of the user, the tokens issued so far, the markers in Redis with the time at which they
expire, the refresh tokens exchanged so far, and the requests in progress. -/
structure Sessions where
  now : ℕ := 0
  tokenVersion : ℕ := 0
  isActive : Bool := true
  tokens : List Token := []
  refreshUsed : Dict String ℕ := []
  exchanged : List String := []
  requests : List Request := []

/-- What can happen. -/
inductive Action
  /-- Time passes. -/
  | tick (seconds : ℕ)
  /-- A login has verified the password. -/
  | login
  /-- A request issues its pair of tokens. -/
  | issue (i : ℕ) (jti : String)
  /-- A refresh reads the row. -/
  | refresh (token : Token)
  /-- A refresh marks its token as used. -/
  | mark (i : ℕ)
  /-- A logout reads the row. -/
  | logout (token : Token)
  /-- `admin_reset_password` reads the row. -/
  | resetPassword
  /-- `update_role` reads the row, for the role of the user. -/
  | updateRole
  /-- `update_user` reads the row; the role or the tenants change or not. -/
  | updateUser (changes : Bool) (isActive : Option Bool)
  /-- A transaction commits. -/
  | commit (i : ℕ)
  /-- A request fails. -/
  | fail (i : ℕ)

namespace Sessions

/-- The gate of every request with a token: it has not expired, the user is active, and the row has
the version of the token. -/
def Accepts (s : Sessions) (t : Token) : Prop :=
  s.now < t.exp ∧ s.isActive = true ∧ t.tv = s.tokenVersion
  deriving Decidable

/-- A request begins. -/
def start (s : Sessions) (r : Request) : Sessions :=
  { s with requests := s.requests ++ [r] }

/-- A request ends or goes on as another. -/
def proceed (s : Sessions) (i : ℕ) (next : Option Request) : Sessions :=
  { s with requests := s.requests.eraseIdx i ++ next.toList }

/-- `create_access_token` and `create_refresh_token`, and the answer that carries them. -/
def issue (c : Settings) (s : Sessions) (tv : ℕ) (exchanges : Option String) (jti : String) :
    Sessions :=
  { s with
    tokens := s.tokens ++
      [⟨.access, tv, s.now + c.accessMaxAge⟩, ⟨.refresh jti, tv, s.now + c.refreshMaxAge⟩]
    exchanged := s.exchanged ++ exchanges.toList }

/-- The marker of a refresh token is there, and has not expired. -/
def IsMarked (s : Sessions) (jti : String) : Prop :=
  ∃ expires ∈ s.refreshUsed.get? jti, s.now < expires
  deriving Decidable

/-- `_mark_refresh_jti_used`, and how the refresh goes on: its pair is issued, or all tokens of the
user are going to be revoked. -/
def mark (c : Settings) (s : Sessions) (i : ℕ) (jti : String) (tv : ℕ) : Sessions :=
  if s.IsMarked jti then s.proceed i (some (.revoking tv none))
  else { s.proceed i (some (.issuing tv (some jti))) with
    refreshUsed := s.refreshUsed.set jti (s.now + c.refreshMaxAge) }

/-- `update_user`, until its transaction commits. -/
def updateUser (s : Sessions) (changes : Bool) (isActive : Option Bool) : Sessions :=
  let written := isActive.filter (· ≠ s.isActive)
  if changes = true ∨ (s.isActive = true ∧ isActive = some false) then
    s.start (.revoking s.tokenVersion written)
  else
    match written with
    | some b => s.start (.updating b)
    | none => s

/-- A transaction commits what it has computed from what it had read. -/
def commit (s : Sessions) (i : ℕ) : Request → Option Sessions
  | .revoking tv isActive =>
    some { s.proceed i none with
      tokenVersion := tv + 1
      isActive := isActive.getD s.isActive }
  | .loggingOut tv => some { s.proceed i (some (.rewriting (tv + 1))) with tokenVersion := tv + 1 }
  | .rewriting tv => some { s.proceed i none with tokenVersion := tv }
  | .updating isActive => some { s.proceed i none with isActive := isActive }
  | .issuing .. | .marking .. => none

/-- A step, unless it cannot be taken. -/
def step (c : Settings) (s : Sessions) : Action → Option Sessions
  | .tick seconds => some { s with now := s.now + seconds }
  | .login => if s.isActive = true then some (s.start (.issuing s.tokenVersion none)) else none
  | .issue i jti =>
    match s.requests[i]? with
    | some (.issuing tv exchanges) => some ((s.proceed i none).issue c tv exchanges jti)
    | _ => none
  | .refresh t =>
    match t.type with
    | .refresh jti =>
      if t ∈ s.tokens ∧ s.Accepts t then some (s.start (.marking jti t.tv)) else none
    | .access => none
  | .mark i =>
    match s.requests[i]? with
    | some (.marking jti tv) => some (s.mark c i jti tv)
    | _ => none
  | .logout t =>
    if t ∈ s.tokens ∧ s.now < t.exp then some (s.start (.loggingOut s.tokenVersion)) else none
  | .resetPassword | .updateRole => some (s.start (.revoking s.tokenVersion none))
  | .updateUser changes isActive => some (s.updateUser changes isActive)
  | .commit i =>
    match s.requests[i]? with
    | some r => s.commit i r
    | none => none
  | .fail i => if i < s.requests.length then some (s.proceed i none) else none

/-- The step revokes the tokens of the user: a logout, a replayed refresh token, a password reset
or a change of the role commits its version. -/
def Revokes (s : Sessions) : Action → Prop
  | .commit i => ∃ r ∈ s.requests[i]?, r.IsRevocation
  | _ => False

instance (s : Sessions) : ∀ a : Action, Decidable (s.Revokes a)
  | .commit i => inferInstanceAs (Decidable (∃ r ∈ s.requests[i]?, r.IsRevocation))
  | .tick _ | .login | .issue .. | .refresh _ | .mark _ | .logout _ | .resetPassword | .updateRole
  | .updateUser .. | .fail _ => inferInstanceAs (Decidable False)

/-- A token is out of use: it has expired, or the row has gone past its version. -/
def Outdated (s : Sessions) (t : Token) : Prop := t.exp ≤ s.now ∨ t.tv < s.tokenVersion

/-- A commit loses no revocation: the row still has the version that was read, or already the one
that is written, and no token that is in use carries that one. The second write of a logout finds
what the first one wrote. -/
def Finds (s : Sessions) : Request → Prop
  | .revoking tv _ | .loggingOut tv =>
    tv = s.tokenVersion ∨
      (tv + 1 = s.tokenVersion ∧ ∀ t ∈ s.tokens, t.exp ≤ s.now ∨ t.tv ≠ s.tokenVersion)
  | .rewriting tv => tv = s.tokenVersion
  | _ => True

instance (s : Sessions) : ∀ r : Request, Decidable (s.Finds r)
  | .revoking .. | .loggingOut .. => inferInstanceAs (Decidable (_ ∨ _))
  | .rewriting tv => inferInstanceAs (Decidable (tv = s.tokenVersion))
  | .issuing .. | .marking .. | .updating .. => inferInstanceAs (Decidable True)

/-- The marker that a refresh looks for has not expired. -/
def FindsMarker (s : Sessions) : Request → Prop
  | .marking jti _ => ∀ expires ∈ s.refreshUsed.get? jti, s.now < expires
  | _ => True

instance (s : Sessions) : ∀ r : Request, Decidable (s.FindsMarker r)
  | .marking jti _ =>
    inferInstanceAs (Decidable (∀ expires ∈ s.refreshUsed.get? jti, s.now < expires))
  | .issuing .. | .revoking .. | .loggingOut .. | .rewriting .. | .updating .. =>
    inferInstanceAs (Decidable True)

end Sessions

open Sessions

/-- The step comes in time: a commit loses no revocation, and the marker of a refresh token that
has been used is still there when the token is looked for. -/
def Action.Timely (s : Sessions) : Action → Prop
  | commit i => ∀ r ∈ s.requests[i]?, s.Finds r
  | mark i => ∀ r ∈ s.requests[i]?, s.FindsMarker r
  | _ => True

instance (s : Sessions) : ∀ a : Action, Decidable (a.Timely s)
  | .commit i => inferInstanceAs (Decidable (∀ r ∈ s.requests[i]?, s.Finds r))
  | .mark i => inferInstanceAs (Decidable (∀ r ∈ s.requests[i]?, s.FindsMarker r))
  | .tick _ | .login | .issue .. | .refresh _ | .logout _ | .resetPassword | .updateRole
  | .updateUser .. | .fail _ => inferInstanceAs (Decidable True)

/-! ### What a timely step preserves -/

variable {s s' : Sessions} {i tv : ℕ} {c : Settings}

namespace Sessions

/-- The refresh tokens that have been exchanged or are going to be. -/
def exchanges (s : Sessions) : List String :=
  s.exchanged ++ s.requests.filterMap Request.exchanges

/-- What holds as long as the steps are timely: no token and no request is ahead of the row, and a
refresh token that is exchanged has a marker, and is exchanged once. -/
structure Inv (s : Sessions) : Prop where
  tokens : ∀ t ∈ s.tokens, t.tv ≤ s.tokenVersion
  requests : ∀ r ∈ s.requests, r.tv ≤ s.tokenVersion
  marked : ∀ jti ∈ s.exchanges, s.refreshUsed.get? jti ≠ none
  nodup : s.exchanges.Nodup

theorem exchanges_start (s : Sessions) (r : Request) :
    (s.start r).exchanges = s.exchanges ++ r.exchanges.toList := by
  rw [exchanges, exchanges, start, filterMap_append, append_assoc]
  cases hr : r.exchanges <;> simp [hr]

theorem exchanges_perm {r : Request} (hr : s.requests[i]? = some r) :
    s.exchanges.Perm (s.exchanged ++ r.exchanges.toList ++
      (s.requests.eraseIdx i).filterMap Request.exchanges) := by
  obtain ⟨hi, hri⟩ := List.getElem?_eq_some_iff.1 hr
  have hperm := (getElem_cons_eraseIdx_perm hi).filterMap Request.exchanges
  rw [hri] at hperm
  have hcons : (r :: s.requests.eraseIdx i).filterMap Request.exchanges =
      r.exchanges.toList ++ (s.requests.eraseIdx i).filterMap Request.exchanges := by
    cases hex : r.exchanges <;> simp [hex]
  rw [hcons] at hperm
  rw [exchanges, append_assoc]
  exact hperm.symm.append_left _

theorem Inv.proceed (h : s.Inv) (i : ℕ) (next : Option Request) (version : ℕ)
    (isActive : Bool) (hversion : s.tokenVersion ≤ version)
    (hnext : ∀ r ∈ next, r.tv ≤ version ∧ r.exchanges = none) :
    Inv { s.proceed i next with tokenVersion := version, isActive := isActive } := by
  have hsub : (s.exchanged ++ (s.requests.eraseIdx i ++ next.toList).filterMap
      Request.exchanges).Sublist s.exchanges := by
    have hnil : next.toList.filterMap Request.exchanges = [] := by
      cases next with
      | none => rfl
      | some r => simp [(hnext r rfl).2]
    rw [filterMap_append, hnil, append_nil]
    exact ((eraseIdx_sublist _ i).filterMap _).append_left _
  refine ⟨fun t ht => Nat.le_trans (h.tokens t ht) hversion, fun r hr => ?_,
    fun jti hjti => h.marked jti (hsub.subset hjti), hsub.nodup h.nodup⟩
  rcases List.mem_append.1 hr with hr | hr
  · exact Nat.le_trans (h.requests r (mem_of_mem_eraseIdx hr)) hversion
  · exact (hnext r (Option.mem_toList.1 hr)).1

theorem Inv.start (h : s.Inv) {r : Request} (hr : r.tv ≤ s.tokenVersion)
    (hexchanges : r.exchanges = none) : (s.start r).Inv := by
  have hsame : (s.start r).exchanges = s.exchanges := by
    rw [exchanges_start, hexchanges, Option.toList_none, append_nil]
  refine ⟨h.tokens, fun r' hr' => ?_, hsame ▸ h.marked, hsame ▸ h.nodup⟩
  rcases List.mem_append.1 hr' with hr' | hr'
  · exact h.requests r' hr'
  · exact List.mem_singleton.1 hr' ▸ hr

theorem Inv.issue {exchanges : Option String}
    {jti : String} (h : s.Inv) (hr : s.requests[i]? = some (.issuing tv exchanges)) :
    ((s.proceed i none).issue c tv exchanges jti).Inv := by
  have hperm := exchanges_perm hr
  have hsame : ((s.proceed i none).issue c tv exchanges jti).exchanges = s.exchanged ++
      exchanges.toList ++ (s.requests.eraseIdx i).filterMap Request.exchanges := by
    simp [Sessions.exchanges, Sessions.issue, Sessions.proceed]
  have htv : tv ≤ s.tokenVersion := h.requests _ (mem_of_getElem? hr)
  refine ⟨fun t ht => ?_, fun r hr => ?_, fun jti' hjti => ?_, ?_⟩
  · rcases List.mem_append.1 ht with ht | ht
    · exact h.tokens t ht
    · rcases List.mem_pair.1 ht with rfl | rfl <;> exact htv
  · rcases List.mem_append.1 hr with hr | hr
    · exact h.requests r (mem_of_mem_eraseIdx hr)
    · cases hr
  · rw [hsame] at hjti
    exact h.marked jti' (hperm.mem_iff.2 hjti)
  · rw [hsame]
    exact hperm.nodup_iff.1 h.nodup

theorem mark_frame (c : Settings) (s : Sessions) (i : ℕ) (jti : String) (tv : ℕ) :
    (s.mark c i jti tv).now = s.now ∧ (s.mark c i jti tv).tokenVersion = s.tokenVersion := by
  rw [mark]
  split <;> exact ⟨rfl, rfl⟩

theorem Inv.mark {jti : String} (h : s.Inv)
    (hr : s.requests[i]? = some (.marking jti tv)) (hfinds : s.FindsMarker (.marking jti tv)) :
    (s.mark c i jti tv).Inv := by
  have htv : tv ≤ s.tokenVersion := h.requests _ (mem_of_getElem? hr)
  rw [Sessions.mark]
  split
  · exact h.proceed i _ _ s.isActive (Nat.le_refl _) fun r hr => by cases hr; exact ⟨htv, rfl⟩
  next hfresh =>
    -- a marker that is not there has never been
    have hnone : s.refreshUsed.get? jti = none := by
      rw [Option.eq_none_iff_forall_ne_some]
      exact fun expires hexpires => hfresh ⟨expires, hexpires, hfinds expires hexpires⟩
    have hnotMem : jti ∉ s.exchanges := fun hjti => h.marked jti hjti hnone
    have hinv : (s.proceed i none).Inv :=
      h.proceed i none s.tokenVersion s.isActive (Nat.le_refl _) nofun
    have hsame : (s.proceed i (some (.issuing tv (some jti)))).exchanges =
        (s.proceed i none).exchanges ++ [jti] := by
      simp [exchanges, Sessions.proceed, Request.exchanges]
    have hnotMem' : jti ∉ (s.proceed i none).exchanges := by
      intro hjti
      refine hnotMem ?_
      rcases List.mem_append.1 hjti with hjti | hjti
      · exact mem_append_left _ hjti
      · rw [Sessions.proceed, Option.toList_none, append_nil] at hjti
        exact mem_append_right _ (((eraseIdx_sublist _ i).filterMap _).subset hjti)
    refine ⟨h.tokens, fun r hr => ?_, fun jti' hjti => ?_, ?_⟩
    · rcases List.mem_append.1 hr with hr | hr
      · exact h.requests r (mem_of_mem_eraseIdx hr)
      · cases List.mem_singleton.1 hr
        exact htv
    · change jti' ∈ (s.proceed i (some (.issuing tv (some jti)))).exchanges at hjti
      rw [hsame] at hjti
      rw [Dict.get?_set]
      split
      · nofun
      next hne =>
        rcases List.mem_append.1 hjti with hjti | hjti
        · exact hinv.marked jti' hjti
        · exact absurd (List.mem_singleton.1 hjti) hne
    · change (s.proceed i (some (.issuing tv (some jti)))).exchanges.Nodup
      rw [hsame]
      exact List.nodup_append.2 ⟨hinv.nodup, nodup_singleton _, by
        intro x hx y hy hxy
        rw [hxy, List.mem_singleton.1 hy] at hx
        exact hnotMem' hx⟩

theorem Inv.initial (now version : ℕ) (isActive : Bool) : Inv
    { now := now, tokenVersion := version, isActive := isActive } :=
  ⟨nofun, nofun, nofun, nodup_nil⟩

theorem Inv.outdated_iff (h : s.Inv) (htv : tv ≤ s.tokenVersion)
    (hnow : s'.now = s.now) (hversion : s'.tokenVersion = tv + 1) : (tv = s.tokenVersion ∨
        (tv + 1 = s.tokenVersion ∧ ∀ t ∈ s.tokens, t.exp ≤ s.now ∨ t.tv ≠ s.tokenVersion)) ↔
      s.tokenVersion ≤ s'.tokenVersion ∧ ∀ t ∈ s.tokens, s'.Outdated t := by
  constructor
  · rintro (heq | ⟨heq, hnone⟩)
    · refine ⟨by omega, fun t ht => .inr ?_⟩
      have := h.tokens t ht
      omega
    · refine ⟨by omega, fun t ht => ?_⟩
      have hle := h.tokens t ht
      rcases hnone t ht with hexp | hne
      · exact .inl (hnow ▸ hexp)
      · exact .inr (by omega)
  · rintro ⟨hle, hout⟩
    by_cases heq : tv = s.tokenVersion
    · exact .inl heq
    · refine .inr ⟨by omega, fun t ht => ?_⟩
      rcases hout t ht with hexp | hlt
      · exact .inl (hnow ▸ hexp)
      · exact .inr (by omega)

/-- **A commit is timely iff it loses no revocation**: the version does not decrease, and if the
commit revokes, no token issued before is in use. -/
theorem Inv.timely_commit_iff (h : s.Inv) (hstep : step c s (.commit i) = some s') :
    (Action.commit i).Timely s ↔ s.tokenVersion ≤ s'.tokenVersion ∧
      (s.Revokes (.commit i) → ∀ t ∈ s.tokens, s'.Outdated t) := by
  rw [step] at hstep
  split at hstep
  next r hr =>
    have htv := h.requests r (mem_of_getElem? hr)
    have htimely : (Action.commit i).Timely s ↔ s.Finds r := by simp [Action.Timely, hr]
    have hrevokes : s.Revokes (.commit i) ↔ r.IsRevocation := by simp [Revokes, hr]
    rw [htimely, hrevokes]
    cases r with
    | issuing | marking => cases hstep
    | revoking tv isActive =>
      have hs' := Option.some.inj hstep
      rw [Request.IsRevocation, true_imp_iff]
      exact h.outdated_iff htv (hs' ▸ rfl) (hs' ▸ rfl)
    | loggingOut tv =>
      have hs' := Option.some.inj hstep
      rw [Request.IsRevocation, true_imp_iff]
      exact h.outdated_iff htv (hs' ▸ rfl) (hs' ▸ rfl)
    | rewriting tv =>
      cases hstep
      exact ⟨fun heq => ⟨Nat.le_of_eq (Eq.symm heq), nofun⟩, fun hle => Nat.le_antisymm htv hle.1⟩
    | updating isActive =>
      cases hstep
      exact ⟨fun _ => ⟨Nat.le_refl _, nofun⟩, fun _ => trivial⟩
  · cases hstep

theorem Inv.commit (h : s.Inv)
    (htimely : (Action.commit i).Timely s) (hstep : step c s (.commit i) = some s') : s'.Inv := by
  have hversion := ((h.timely_commit_iff hstep).1 htimely).1
  rw [step] at hstep
  split at hstep
  next r hr =>
    cases r with
    | issuing | marking => cases hstep
    | revoking tv isActive =>
      cases hstep
      exact h.proceed i none _ _ hversion nofun
    | loggingOut tv =>
      cases hstep
      exact h.proceed i _ _ s.isActive hversion fun r hr => by
        cases hr
        exact ⟨Nat.le_refl _, rfl⟩
    | rewriting tv =>
      cases hstep
      exact h.proceed i none _ s.isActive hversion nofun
    | updating isActive =>
      cases hstep
      exact h.proceed i none s.tokenVersion _ hversion nofun
  · cases hstep

/-- **A timely step keeps the invariant**, and neither the clock nor the version goes back. -/
theorem Inv.step {a : Action} (h : s.Inv) (htimely : a.Timely s) (hstep : step c s a = some s') :
    s'.Inv ∧ s.now ≤ s'.now ∧ s.tokenVersion ≤ s'.tokenVersion := by
  have hsame {s' : Sessions} (hnow : s'.now = s.now) (hversion : s'.tokenVersion = s.tokenVersion)
      (hinv : s'.Inv) : s'.Inv ∧ s.now ≤ s'.now ∧ s.tokenVersion ≤ s'.tokenVersion :=
    ⟨hinv, Nat.le_of_eq hnow.symm, Nat.le_of_eq hversion.symm⟩
  cases a with
  | tick seconds =>
    cases hstep
    exact ⟨⟨h.tokens, h.requests, h.marked, h.nodup⟩, Nat.le_add_right .., Nat.le_refl _⟩
  | login =>
    rw [Sessions.step] at hstep
    split at hstep
    · cases hstep
      exact hsame rfl rfl (h.start (Nat.le_refl _) rfl)
    · cases hstep
  | issue i jti =>
    rw [Sessions.step] at hstep
    split at hstep
    next hr =>
      cases hstep
      exact hsame rfl rfl (h.issue hr)
    · cases hstep
  | refresh t =>
    rw [Sessions.step] at hstep
    split at hstep
    · split at hstep
      next haccepts =>
        cases hstep
        exact hsame rfl rfl (h.start (h.tokens t haccepts.1) rfl)
      · cases hstep
    · cases hstep
  | mark i =>
    rw [Sessions.step] at hstep
    split at hstep
    next hr =>
      cases hstep
      exact hsame (mark_frame ..).1 (mark_frame ..).2 (h.mark hr (htimely _ hr))
    · cases hstep
  | logout t =>
    rw [Sessions.step] at hstep
    split at hstep
    · cases hstep
      exact hsame rfl rfl (h.start (Nat.le_refl _) rfl)
    · cases hstep
  | resetPassword =>
    cases hstep
    exact hsame rfl rfl (h.start (Nat.le_refl _) rfl)
  | updateRole =>
    cases hstep
    exact hsame rfl rfl (h.start (Nat.le_refl _) rfl)
  | updateUser changes isActive =>
    cases hstep
    rw [updateUser]
    split
    · exact hsame rfl rfl (h.start (Nat.le_refl _) rfl)
    · split
      · exact hsame rfl rfl (h.start (Nat.zero_le _) rfl)
      · exact hsame rfl rfl h
  | commit i =>
    have hnow : s'.now = s.now := by
      rw [Sessions.step] at hstep
      split at hstep
      next r _ => cases r <;> cases hstep <;> rfl
      · cases hstep
    exact ⟨h.commit htimely hstep, Nat.le_of_eq hnow.symm, ((h.timely_commit_iff hstep).1 htimely).1⟩
  | fail i =>
    rw [Sessions.step] at hstep
    split at hstep
    · cases hstep
      exact hsame rfl rfl (h.proceed i none s.tokenVersion s.isActive (Nat.le_refl _) nofun)
    · cases hstep

/-! ### What a run preserves -/

/-- In all that follows, the version of the row is never less. -/
def NeverDecreases (c : Settings) (allowed : Sessions → Action → Prop) (s : Sessions) : Prop :=
  ∀ s', Run (step c) allowed s s' → s.tokenVersion ≤ s'.tokenVersion

/-- Once a revocation has been committed, no request accepts a token issued before. -/
def RejectsRevoked (c : Settings) (allowed : Sessions → Action → Prop) (s : Sessions) : Prop :=
  ∀ a s₁, s.Revokes a → allowed s a → step c s a = some s₁ →
    ∀ s', Run (step c) allowed s₁ s' → ∀ t ∈ s.tokens, ¬s'.Accepts t

/-- Along a run of timely steps the invariant stays, and neither the clock nor the version goes
back. -/
theorem Inv.run (h : s.Inv) (hrun : Run (Sessions.step c) (fun s a => a.Timely s) s s') :
    s'.Inv ∧ s.now ≤ s'.now ∧ s.tokenVersion ≤ s'.tokenVersion := by
  refine hrun.invariant (I := fun s' => s'.Inv ∧ s.now ≤ s'.now ∧ s.tokenVersion ≤ s'.tokenVersion)
    ⟨h, Nat.le_refl _, Nat.le_refl _⟩ ?_
  rintro s₁ a s₂ ⟨hinv, hnow, hversion⟩ htimely hstep
  obtain ⟨hinv', hnow', hversion'⟩ := hinv.step htimely hstep
  exact ⟨hinv', Nat.le_trans hnow hnow', Nat.le_trans hversion hversion'⟩

theorem Inv.not_accepts {t : Token} (h : s.Inv)
    (hout : s.Outdated t) (hrun : Run (Sessions.step c) (fun s a => a.Timely s) s s') :
    ¬s'.Accepts t := by
  rintro ⟨hexp, -, htv⟩
  obtain ⟨-, hnow, hversion⟩ := h.run hrun
  rcases hout with hout | hout <;> omega

/-- **A revoked session stays revoked**, in every run in which each revocation commits before the
version it has read changes, and no refresh outlives the marker it looks for: the version never
decreases, a token issued before a revocation is accepted by no later request, and no refresh token
is exchanged twice. -/
theorem staysRevoked_of_run {c : Settings} {now version : ℕ} {isActive : Bool} {s : Sessions}
    (h : Run (Sessions.step c) (fun s a => a.Timely s)
      { now := now, tokenVersion := version, isActive := isActive } s) :
    NeverDecreases c (fun s a => a.Timely s) s ∧ RejectsRevoked c (fun s a => a.Timely s) s ∧
      s.exchanged.Nodup := by
  have hinv : s.Inv := ((Inv.initial now version isActive).run h).1
  refine ⟨fun s' hrun => (hinv.run hrun).2.2, fun a s₁ hrevokes htimely hstep s' hrun t ht => ?_,
    (List.nodup_append.1 hinv.nodup).1⟩
  cases a with
  | commit i =>
    have hout := ((hinv.timely_commit_iff hstep).1 htimely).2 hrevokes t ht
    exact (hinv.commit htimely hstep).not_accepts hout hrun
  | _ => cases hrevokes

/-- A login, a refresh and a logout, whose second write finds the first; and a login after it. -/
def visit : List Action :=
  [.login, .issue 0 "a", .tick 60, .refresh ⟨.refresh "a", 0, 604800⟩, .mark 0, .issue 0 "b",
    .logout ⟨.access, 0, 1860⟩, .commit 0, .commit 0, .login, .issue 0 "c"]

theorem staysRevoked_visit : ∃ s, Run (step {}) (fun s a => a.Timely s) {} s ∧
    s.tokenVersion = 1 ∧ s.exchanged = ["a"] ∧ NeverDecreases {} (fun s a => a.Timely s) s ∧
      RejectsRevoked {} (fun s a => a.Timely s) s ∧ s.exchanged.Nodup := by
  have hreplay : ∃ s ∈ replay (step {}) (fun s a => a.Timely s) {} visit,
      s.tokenVersion = 1 ∧ s.exchanged = ["a"] := by
    decide +kernel
  obtain ⟨s, hs, hversion, hexchanged⟩ := hreplay
  have hrun := run_of_replay hs
  exact ⟨s, hrun, hversion, hexchanged, staysRevoked_of_run hrun⟩

/-- A password reset between the two writes of a logout: the second one takes the version back, and
a token that the reset has revoked is accepted again. -/
theorem not_staysRevoked_logout :
    (¬∀ s, Run (step {}) (fun _ _ => True) {} s → NeverDecreases {} (fun _ _ => True) s) ∧
      ¬∀ s, Run (step {}) (fun _ _ => True) {} s → RejectsRevoked {} (fun _ _ => True) s := by
  -- the first write of the logout has been committed, and a reset has read its version
  have hreplay : ∃ s ∈ replay (step {}) (fun _ _ => True) {}
      [.login, .issue 0 "a", .logout ⟨.access, 0, 1800⟩, .commit 0, .login, .issue 1 "b",
        .resetPassword],
      ∃ s₁ ∈ step {} s (.commit 1), ∃ s' ∈ step {} s₁ (.commit 0),
        s.Revokes (.commit 1) ∧ s'.tokenVersion < s₁.tokenVersion ∧
          ∃ t ∈ s.tokens, s'.Accepts t := by
    decide +kernel
  obtain ⟨s, hs, s₁, hs₁, s', hs', hrevokes, hless, t, ht, haccepts⟩ := hreplay
  have hrun := run_of_replay hs
  refine ⟨fun hall => ?_, fun hall => ?_⟩
  · exact absurd (hall s₁ (hrun.step trivial hs₁) s' (Run.start.step trivial hs')) (by omega)
  · exact hall s hrun _ s₁ hrevokes trivial hs₁ s' (Run.start.step trivial hs') t ht haccepts

end Sessions

end MonCTL.Auth
