import Mathlib.Data.List.Nodup
import Mathlib.Data.List.Perm.Basic
import MonCTL.Lib.Runs

/-!
# The Discovery Flag of a Device

A request for discovery sets a key in Redis, which expires if nobody claims it. The handlers of
`GET /jobs`, in any of the central processes, look for the key and, when it is there, delete it and
inject a discovery job into their response. Reading and deleting are two commands.

A setting is told from others by its number. Setting the key again renews it, and whoever claims
the key claims for all the settings since it was last deleted.
-/

namespace MonCTL.CollectorApi.DiscoveryFlag

open List

/-- The key, with the settings it stands for, and when it expires. -/
structure Flag where
  settings : List ℕ
  expires : ℕ

/-- How far a handler has come: it has found the key, or it has deleted it. -/
inductive Phase
  | found
  | cleared
  deriving DecidableEq

/-- A handler that has found the key, and the settings it claims for. -/
structure Handler where
  phase : Phase
  settings : List ℕ

/-- The key, the handlers that have found it, and the settings that each response with a discovery
job answers. -/
structure State where
  now : ℕ := 0
  flag : Option Flag := none
  /-- The number of settings so far. -/
  settings : ℕ := 0
  handlers : List Handler := []
  responses : List (List ℕ) := []

/-- What can happen. -/
inductive Action
  | tick (seconds : ℕ)
  /-- `set_discovery_flag`. -/
  | set (ttl : ℕ)
  /-- The first command of `get_and_clear_discovery_flag`, which returns `False` if the key is not
  there. -/
  | get
  /-- The second one, after which it returns `True`. -/
  | delete (i : ℕ)
  /-- The job is injected into the response. -/
  | respond (i : ℕ)
  /-- A handler fails, or finds no device to inject the job for. -/
  | fail (i : ℕ)

namespace State

/-- The key as Redis has it. -/
def live (s : State) : Option Flag := s.flag.filter fun f => s.now < f.expires

/-- The settings that the key stands for. -/
def pending (s : State) : List ℕ := (s.live.map Flag.settings).getD []

/-- The settings that handlers claim which have found the key and not yet deleted it. -/
def found (s : State) : List ℕ :=
  (s.handlers.filter (·.phase = .found)).flatMap Handler.settings

/-- The settings that are claimed for good. -/
def cleared (s : State) : List ℕ :=
  s.responses.flatten ++ (s.handlers.filter (·.phase = .cleared)).flatMap Handler.settings

def claims (s : State) : List ℕ := s.responses.flatten ++ s.handlers.flatMap Handler.settings

/-- A step, unless it cannot be taken. -/
def step (s : State) : Action → Option State
  | .tick seconds => some { s with now := s.now + seconds }
  | .set ttl =>
    -- Redis refuses an expiry of no time
    if 0 < ttl then
      some { s with
        flag := some ⟨s.pending ++ [s.settings], s.now + ttl⟩
        settings := s.settings + 1 }
    else none
  | .get =>
    match s.live with
    | some f => some { s with handlers := s.handlers ++ [⟨.found, f.settings⟩] }
    | none => some s
  | .delete i =>
    match s.handlers[i]? with
    | some h =>
      if h.phase = .found then
        some { s with
          flag := none
          handlers := s.handlers.eraseIdx i ++ [⟨.cleared, h.settings⟩] }
      else none
    | none => none
  | .respond i =>
    match s.handlers[i]? with
    | some h =>
      if h.phase = .cleared then
        some { s with
          handlers := s.handlers.eraseIdx i
          responses := s.responses ++ [h.settings] }
      else none
    | none => none
  | .fail i =>
    if i < s.handlers.length then some { s with handlers := s.handlers.eraseIdx i } else none

/-- No setting is claimed twice, and each of them is claimed or still waits to be. -/
structure ClaimedOnce (s : State) : Prop where
  once : s.claims.Nodup
  kept : ∀ n < s.settings, n ∈ s.claims ∨ n ∈ s.pending

/-- What happens to the key, or to a handler that has found it, concerns no setting that is being
claimed: nobody else finds the key, nothing is set between the two commands, and no setting is lost
by a failure or because it waited too long. -/
def Apart (s : State) : Action → Prop
  | .tick seconds => (∀ f ∈ s.live, s.now + seconds < f.expires) ∨ s.pending ⊆ s.found
  | .set _ => True
  | .get => ∀ n ∈ s.pending, n ∉ s.found
  | .delete _ => s.pending ⊆ s.found
  | .respond _ => True
  | .fail i => ∀ h ∈ s.handlers[i]?, h.settings ⊆ s.pending

instance (s : State) : ∀ a, Decidable (s.Apart a)
  | .tick _ => inferInstanceAs (Decidable (_ ∨ _))
  | .set _ => inferInstanceAs (Decidable True)
  | .get => inferInstanceAs (Decidable (∀ _ ∈ _, _))
  | .delete _ => inferInstanceAs (Decidable (s.pending ⊆ s.found))
  | .respond _ => inferInstanceAs (Decidable True)
  | .fail _ => inferInstanceAs (Decidable (∀ _ ∈ _, _))

/-- The settings of the key, whatever happens. -/
structure Inv (s : State) : Prop where
  claims_lt : ∀ n ∈ s.claims, n < s.settings
  pending_lt : ∀ n ∈ s.pending, n < s.settings
  pending_nodup : s.pending.Nodup
  /-- What is claimed for good is no longer set. -/
  pending_cleared : ∀ n ∈ s.pending, n ∉ s.cleared

/-! ### Claims -/

variable {s s' : State}

theorem mem_claims {n : ℕ} : n ∈ s.claims ↔ n ∈ s.cleared ∨ n ∈ s.found := by
  have hphase (h : Handler) : h.phase = .cleared ∨ h.phase = .found := by cases h.phase <;> simp
  simp only [claims, cleared, found, mem_append, mem_flatMap, mem_filter,
    decide_eq_true_eq]
  constructor
  · rintro (hn | ⟨h, hmem, hn⟩)
    · exact .inl (.inl hn)
    · rcases hphase h with hp | hp
      · exact .inl (.inr ⟨h, ⟨hmem, hp⟩, hn⟩)
      · exact .inr ⟨h, ⟨hmem, hp⟩, hn⟩
  · rintro ((hn | ⟨h, ⟨hmem, -⟩, hn⟩) | ⟨h, ⟨hmem, -⟩, hn⟩)
    · exact .inl hn
    · exact .inr ⟨h, hmem, hn⟩
    · exact .inr ⟨h, hmem, hn⟩

theorem Inv.mem_claims_iff (hinv : s.Inv) {n : ℕ} (hn : n ∈ s.pending) :
    n ∈ s.claims ↔ n ∈ s.found := by
  rw [mem_claims]
  exact or_iff_right (hinv.pending_cleared n hn)

variable {i : ℕ} {h : Handler}

theorem flatMap_eraseIdx_perm {handlers : List Handler} (hi : handlers[i]? = some h) :
    (h.settings ++ (handlers.eraseIdx i).flatMap Handler.settings).Perm
      (handlers.flatMap Handler.settings) := by
  obtain ⟨hlt, rfl⟩ := List.getElem?_eq_some_iff.1 hi
  exact (getElem_cons_eraseIdx_perm hlt).flatMap_right _

theorem claims_perm (hi : s.handlers[i]? = some h) :
    (h.settings ++ (s.responses.flatten ++ (s.handlers.eraseIdx i).flatMap Handler.settings)).Perm
      s.claims := by
  rw [claims]
  refine List.Perm.trans ?_ ((flatMap_eraseIdx_perm hi).append_left _)
  rw [← append_assoc, ← append_assoc]
  exact (perm_append_comm).append_right _

theorem claims_delete_perm (hi : s.handlers[i]? = some h) (hresponses : s'.responses = s.responses)
    (hhandlers : s'.handlers = s.handlers.eraseIdx i ++ [⟨.cleared, h.settings⟩]) :
    s'.claims.Perm s.claims := by
  refine List.Perm.trans ?_ (claims_perm hi)
  rw [claims, hresponses, hhandlers, flatMap_append, flatMap_singleton,
    ← append_assoc]
  exact perm_append_comm

theorem claims_respond_perm (hi : s.handlers[i]? = some h)
    (hresponses : s'.responses = s.responses ++ [h.settings])
    (hhandlers : s'.handlers = s.handlers.eraseIdx i) : s'.claims.Perm s.claims := by
  refine List.Perm.trans ?_ (claims_perm hi)
  rw [claims, hresponses, hhandlers, flatten_append, flatten_singleton,
    ← append_assoc]
  exact (perm_append_comm).append_right _

/-! ### Steps -/

theorem pending_of_live_none (h : s.live = none) : s.pending = [] := by
  rw [pending, h]
  rfl

theorem pending_of_live_some {f : Flag} (h : s.live = some f) : s.pending = f.settings := by
  rw [pending, h]
  rfl

theorem pending_tick (seconds : ℕ) : ({ s with now := s.now + seconds } : State).pending =
      if ∀ f ∈ s.live, s.now + seconds < f.expires then s.pending else [] := by
  rw [pending, pending, live, live]
  cases hflag : s.flag with
  | none => simp
  | some f =>
    by_cases hlater : s.now + seconds < f.expires
    · have hnow : s.now < f.expires := by omega
      simp [Option.filter, hlater, hnow]
    · by_cases hnow : s.now < f.expires <;> simp [Option.filter, hlater, hnow]

theorem pending_set {ttl : ℕ} (httl : 0 < ttl) :
    ({ s with flag := some ⟨s.pending ++ [s.settings], s.now + ttl⟩
              settings := s.settings + 1 } : State).pending = s.pending ++ [s.settings] := by
  refine pending_of_live_some (f := ⟨s.pending ++ [s.settings], s.now + ttl⟩) ?_
  have hlt : s.now < s.now + ttl := by omega
  simp [live, Option.filter, hlt]

variable {a : Action}

/-- **What a step does to the claims**, to the settings that wait and to those claimed for good. -/
theorem step_cases (hs : s.step a = some s') :
    (∃ seconds, a = .tick seconds ∧ s' = { s with now := s.now + seconds }) ∨
    (∃ ttl, a = .set ttl ∧ s'.pending = s.pending ++ [s.settings] ∧
      s'.settings = s.settings + 1 ∧ s'.claims = s.claims ∧ s'.cleared = s.cleared) ∨
    (a = .get ∧ s'.pending = s.pending ∧ s'.settings = s.settings ∧
      s'.claims = s.claims ++ s.pending ∧ s'.cleared = s.cleared) ∨
    (∃ i, a = .delete i ∧ s'.pending = [] ∧ s'.settings = s.settings ∧ s'.claims.Perm s.claims) ∨
    (∃ i, a = .respond i ∧ s'.pending = s.pending ∧ s'.settings = s.settings ∧
      s'.claims.Perm s.claims ∧ ∀ n ∈ s'.cleared, n ∈ s.cleared) ∨
    (∃ i h, a = .fail i ∧ s.handlers[i]? = some h ∧ s'.pending = s.pending ∧
      s'.settings = s.settings ∧ (h.settings ++ s'.claims).Perm s.claims ∧
      ∀ n ∈ s'.cleared, n ∈ s.cleared) := by
  cases a with
  | tick seconds => exact .inl ⟨seconds, rfl, (Option.some.inj hs).symm⟩
  | set ttl =>
    rw [step] at hs
    split at hs
    next httl =>
      cases hs
      exact .inr (.inl ⟨ttl, rfl, pending_set httl, rfl, rfl, rfl⟩)
    · cases hs
  | get =>
    refine .inr (.inr (.inl ?_))
    rw [step] at hs
    split at hs
    next f hlive =>
      cases hs
      refine ⟨rfl, rfl, rfl, ?_, ?_⟩
      · simp [claims, pending_of_live_some hlive]
      · simp [cleared]
    next hlive =>
      cases hs
      simp [pending_of_live_none hlive]
  | delete i =>
    refine .inr (.inr (.inr (.inl ⟨i, rfl, ?_⟩)))
    rw [step] at hs
    split at hs
    next h hi =>
      split at hs
      · cases hs
        exact ⟨rfl, rfl, claims_delete_perm hi rfl rfl⟩
      · cases hs
    · cases hs
  | respond i =>
    refine .inr (.inr (.inr (.inr (.inl ⟨i, rfl, ?_⟩))))
    rw [step] at hs
    split at hs
    next h hi =>
      split at hs
      next hphase =>
        cases hs
        refine ⟨rfl, rfl, claims_respond_perm hi rfl rfl, fun n hn => ?_⟩
        simp only [cleared, flatten_append, flatten_singleton, mem_append,
          mem_flatMap, mem_filter] at hn ⊢
        rcases hn with (hn | hn) | ⟨h', ⟨hmem, hcleared⟩, hn⟩
        · exact .inl hn
        · exact .inr ⟨h, ⟨mem_of_getElem? hi, by simpa using hphase⟩, hn⟩
        · exact .inr ⟨h', ⟨mem_of_mem_eraseIdx hmem, hcleared⟩, hn⟩
      · cases hs
    · cases hs
  | fail i =>
    refine .inr (.inr (.inr (.inr (.inr ?_))))
    rw [step] at hs
    split at hs
    next hlt =>
      cases hs
      refine ⟨i, s.handlers[i], rfl, getElem?_eq_getElem hlt, rfl, rfl,
        claims_perm (getElem?_eq_getElem hlt), fun n hn => ?_⟩
      simp only [cleared, mem_append, mem_flatMap, mem_filter] at hn ⊢
      rcases hn with hn | ⟨h', ⟨hmem, hcleared⟩, hn⟩
      · exact .inl hn
      · exact .inr ⟨h', ⟨mem_of_mem_eraseIdx hmem, hcleared⟩, hn⟩
    · cases hs

theorem Inv.step (hinv : s.Inv) (hs : s.step a = some s') : s'.Inv := by
  rcases step_cases hs with ⟨seconds, rfl, rfl⟩ | ⟨ttl, rfl, hp, hn, hc, hcl⟩ |
    ⟨rfl, hp, hn, hc, hcl⟩ | ⟨i, rfl, hp, hn, hc⟩ | ⟨i, rfl, hp, hn, hc, hcl⟩ |
    ⟨i, h, rfl, -, hp, hn, hc, hcl⟩
  · have hsub : ∀ n ∈ ({ s with now := s.now + seconds } : State).pending, n ∈ s.pending := by
      intro n hn
      rw [pending_tick] at hn
      split at hn
      · exact hn
      · cases hn
    refine ⟨hinv.claims_lt, fun n hn => hinv.pending_lt n (hsub n hn), ?_,
      fun n hn => hinv.pending_cleared n (hsub n hn)⟩
    rw [pending_tick]
    split
    · exact hinv.pending_nodup
    · exact nodup_nil
  · have hnew : s.settings ∉ s.pending := fun h => Nat.lt_irrefl _ (hinv.pending_lt _ h)
    refine ⟨fun n hmem => ?_, fun n hmem => ?_, ?_, fun n hmem => ?_⟩
    · rw [hn]
      exact Nat.lt_succ_of_lt (hinv.claims_lt n (hc ▸ hmem))
    · rw [hp, mem_append, mem_singleton] at hmem
      rw [hn]
      rcases hmem with hmem | rfl
      · exact Nat.lt_succ_of_lt (hinv.pending_lt n hmem)
      · exact Nat.lt_succ_self _
    · rw [hp]
      exact hinv.pending_nodup.append (nodup_singleton _) (by simpa using hnew)
    · rw [hp, mem_append, mem_singleton] at hmem
      rw [hcl]
      rcases hmem with hmem | rfl
      · exact hinv.pending_cleared n hmem
      · exact fun h => Nat.lt_irrefl _ (hinv.claims_lt _ (mem_claims.2 (.inl h)))
  · refine ⟨fun n hmem => ?_, hp ▸ hn ▸ hinv.pending_lt, hp ▸ hinv.pending_nodup,
      hp ▸ hcl ▸ hinv.pending_cleared⟩
    rw [hc, mem_append] at hmem
    exact hn ▸ hmem.elim (hinv.claims_lt n) (hinv.pending_lt n)
  · refine ⟨fun n hmem => hn ▸ hinv.claims_lt n (hc.mem_iff.1 hmem), ?_, ?_, ?_⟩ <;> simp [hp]
  · exact ⟨fun n hmem => hn ▸ hinv.claims_lt n (hc.mem_iff.1 hmem), hp ▸ hn ▸ hinv.pending_lt,
      hp ▸ hinv.pending_nodup, fun n hmem h => hinv.pending_cleared n (hp ▸ hmem) (hcl n h)⟩
  · refine ⟨fun n hmem => ?_, hp ▸ hn ▸ hinv.pending_lt, hp ▸ hinv.pending_nodup,
      fun n hmem h => hinv.pending_cleared n (hp ▸ hmem) (hcl n h)⟩
    exact hn ▸ hinv.claims_lt n (hc.mem_iff.1 (mem_append_right _ hmem))

/-! ### Claiming once -/

/-- **A step keeps the settings claimed once iff it is apart** from what is being claimed. -/
theorem claimedOnce_step_iff (hinv : s.Inv) (hclaimed : s.ClaimedOnce)
    (hs : s.step a = some s') : s'.ClaimedOnce ↔ s.Apart a := by
  obtain ⟨honce, hkept⟩ := hclaimed
  rcases step_cases hs with ⟨seconds, rfl, rfl⟩ | ⟨ttl, rfl, hp, hn, hc, -⟩ |
    ⟨rfl, hp, hn, hc, -⟩ | ⟨i, rfl, hp, hn, hc⟩ | ⟨i, rfl, hp, hn, hc, -⟩ |
    ⟨i, h, rfl, hi, hp, hn, hc, -⟩
  · by_cases hlater : ∀ f ∈ s.live, s.now + seconds < f.expires
    · refine iff_of_true ⟨honce, fun n hlt => ?_⟩ (.inl hlater)
      rw [pending_tick, if_pos hlater]
      exact hkept n hlt
    · constructor
      · rintro ⟨-, hkept'⟩
        refine .inr fun n hmem => (hinv.mem_claims_iff hmem).1 ?_
        have := hkept' n (hinv.pending_lt n hmem)
        rw [pending_tick, if_neg hlater] at this
        exact this.resolve_right not_mem_nil
      · rintro (hlive | hsub)
        · exact absurd hlive hlater
        · refine ⟨honce, fun n hlt => .inl ((hkept n hlt).elim id fun hmem => ?_)⟩
          exact (hinv.mem_claims_iff hmem).2 (hsub hmem)
  · refine iff_of_true ⟨hc ▸ honce, fun n hlt => ?_⟩ trivial
    rw [hc, hp, mem_append, mem_singleton]
    rw [hn] at hlt
    rcases Nat.lt_succ_iff_lt_or_eq.1 hlt with hlt | rfl
    · exact (hkept n hlt).imp_right .inl
    · exact .inr (.inr rfl)
  · constructor
    · rintro ⟨honce', -⟩ n hmem hfound
      rw [hc] at honce'
      exact (List.nodup_append.1 honce').2.2 n (mem_claims.2 (.inr hfound)) n hmem rfl
    · intro hapart
      refine ⟨hc ▸ honce.append hinv.pending_nodup fun n hclaim hmem => ?_, fun n hlt => ?_⟩
      · exact hapart n hmem ((hinv.mem_claims_iff hmem).1 hclaim)
      · rw [hc, hp, mem_append]
        exact (hkept n (hn ▸ hlt)).imp_left .inl
  · constructor
    · rintro ⟨-, hkept'⟩ n hmem
      have := hkept' n (hn ▸ hinv.pending_lt n hmem)
      rw [hp, hc.mem_iff] at this
      exact (hinv.mem_claims_iff hmem).1 (this.resolve_right not_mem_nil)
    · intro hsub
      refine ⟨hc.nodup_iff.2 honce, fun n hlt => .inl (hc.mem_iff.2 ?_)⟩
      exact (hkept n (hn ▸ hlt)).elim id fun hmem => (hinv.mem_claims_iff hmem).2 (hsub hmem)
  · refine iff_of_true ⟨hc.nodup_iff.2 honce, fun n hlt => ?_⟩ trivial
    rw [hc.mem_iff, hp]
    exact hkept n (hn ▸ hlt)
  · have hnodup := List.nodup_append.1 (hc.nodup_iff.2 honce)
    constructor
    · rintro ⟨-, hkept'⟩ h' hi' n hmem
      rw [Option.mem_def, hi] at hi'
      cases hi'
      have hclaim : n ∈ s.claims := hc.mem_iff.1 (mem_append_left _ hmem)
      have := hkept' n (hn ▸ hinv.claims_lt n hclaim)
      rw [hp] at this
      exact this.resolve_left fun hother => hnodup.2.2 n hmem n hother rfl
    · intro hapart
      refine ⟨hnodup.2.1, fun n hlt => ?_⟩
      rw [hp]
      rcases hkept n (hn ▸ hlt) with hclaim | hmem
      · rcases List.mem_append.1 (hc.mem_iff.2 hclaim) with hmem | hother
        · exact .inr (hapart h hi hmem)
        · exact .inl hother
      · exact .inr hmem

theorem Inv.initial : Inv {} :=
  ⟨fun _ h => absurd h not_mem_nil, fun _ h => absurd h not_mem_nil, nodup_nil,
    fun _ h => absurd h not_mem_nil⟩

theorem ClaimedOnce.initial : ClaimedOnce {} := ⟨nodup_nil, fun _ h => absurd h (by simp)⟩

/-- **Every setting is claimed once** in every run whose steps are apart from what is being
claimed. -/
theorem claimedOnce_of_run (h : Run step Apart {} s) : s.ClaimedOnce :=
  (h.invariant (I := fun s => s.Inv ∧ s.ClaimedOnce) ⟨.initial, .initial⟩ fun hinv hapart hs =>
      ⟨hinv.1.step hs, (claimedOnce_step_iff hinv.1 hinv.2 hs).2 hapart⟩).2

/-! ### Two handlers -/

/-- Two settings, one after the other, each answered by one response. -/
theorem claimedOnce_twice : ∃ s : State, s.ClaimedOnce ∧ s.responses = [[0], [1]] := by
  have hreplay : ∃ s ∈ replay step Apart {}
      [.set 600, .tick 30, .get, .delete 0, .respond 0, .set 600, .get, .delete 0, .get,
        .respond 0], s.responses = [[0], [1]] := by decide +kernel
  obtain ⟨s, hs, hresponses⟩ := hreplay
  exact ⟨s, claimedOnce_of_run (run_of_replay hs), hresponses⟩

/-- **Two handlers that find the key** before either of them deletes it both inject the job. -/
theorem not_claimedOnce : ¬∀ s, Run step (fun _ _ => True) {} s → s.ClaimedOnce := by
  intro hall
  have hreplay : ∃ s ∈ replay step (fun _ _ => True) {}
      [.set 600, .get, .get, .delete 0, .delete 0, .respond 0, .respond 0],
      s.responses = [[0], [0]] ∧ s.handlers = [] := by decide +kernel
  obtain ⟨s, hs, hresponses, hhandlers⟩ := hreplay
  have honce := (hall s (run_of_replay hs)).once
  rw [claims, hresponses, hhandlers] at honce
  exact absurd honce (by decide)

/-- A setting between the two commands is erased with the key. -/
example : ∃ s ∈ replay step (fun _ _ => True) {} [.set 600, .get, .set 600, .delete 0, .respond 0],
    s.responses = [[0]] ∧ s.pending = [] ∧ s.settings = 2 := by decide +kernel

end State

end MonCTL.CollectorApi.DiscoveryFlag
