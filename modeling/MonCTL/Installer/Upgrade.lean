import MonCTL.Installer.Endpoints
import MonCTL.Installer.Remote

/-!
# Rolling Upgrades

An upgrade visits one host after another: a canary, the other central hosts, and the collectors. On
each host it applies the projects whose rendering has changed. It waits for the health of the canary
and gives up if it does not come; it also waits for the health of the other central hosts, but goes
on whatever it finds.

What is visited depends only on the outcomes of the steps and of the waits, one after another; they
are the input of the rollout. `exists_outcomes` says that the rollout on real hosts is an instance.
-/

namespace MonCTL.Installer

open List

open Secrets (Text)

/-! ### One host -/

inductive StepStatus
  | upgraded
  | unchanged
  | failed
  deriving DecidableEq

/-- The loop of `_upgrade_host`: the state and whether something has changed, unless an application
fails. -/
def upgradeProjects (tools : Tools) (host : Host) (rendered : List RenderedFile)
    (secretValues : Dict Text Text) :
    List String → Dict String String → Bool → World → Option (Dict String String × Bool) × World
  | [], state, changedAny, w => (some (state, changedAny), w)
  | project :: projects, state, changedAny, w =>
    let files := filesOf project rendered
    let digest := hashProject tools files
    if files = [] ∨ state.get? project = some digest then
      upgradeProjects tools host rendered secretValues projects state changedAny w
    else
      let r := applyProject tools host project files secretValues w
      if r.1 then
        upgradeProjects tools host rendered secretValues projects (state.set project digest) true
          r.2
      else (none, r.2)

/-- `_upgrade_host`, of what has been rendered with the new tag. -/
def upgradeHost (tools : Tools) (now : String) (host : Host) (rendered : List RenderedFile)
    (secretValues : Dict Text Text) (w : World) : StepStatus × World :=
  let loaded := loadRemoteState w
  match upgradeProjects tools host rendered secretValues projectOrder loaded.1 false loaded.2 with
  | (none, w') => (.failed, w')
  | (some (_, false), w') => (.unchanged, w')
  | (some (state, true), w') => (.upgraded, (saveRemoteState tools now state w').2)

/-- What comes back from a request for the health of a host. -/
inductive PollAnswer
  | error
  | failed
  | notJson
  | status (text : String)

/-- `_wait_healthy`: whether one of the polls before the deadline finds the host healthy. -/
def waitHealthy (polls : List PollAnswer) : Bool :=
  polls.any fun
    | .status text => text = "healthy"
    | _ => false

/-! ### The rollout -/

inductive Phase
  | canary
  | centrals
  | collectors
  deriving DecidableEq

/-- What a rollout acts with. -/
structure Actions (W : Type) where
  upgradeHost : Host → Phase → W → StepStatus × W
  waitHealthy : Host → W → Bool × W

/-- A step of the rollout. -/
structure Visit where
  host : Host
  phase : Phase
  status : StepStatus
  /-- What the wait for its health has found, if there has been one. -/
  health : Option Bool

inductive UpgradeError
  | noCentral
  | unknownCanary (name : String)
  | aborted (canary : String)

/-- The steps of a rollout, and how it ends. -/
structure Rollout where
  visits : List Visit
  result : Except UpgradeError Unit

section

variable {W : Type} (act : Actions W)

/-- A host is upgraded; if it is not a collector and something has changed, its health is waited
for. -/
def visit (host : Host) (phase : Phase) (w : W) : Visit × W :=
  let r := act.upgradeHost host phase w
  if r.1 = .upgraded ∧ phase ≠ .collectors then
    let q := act.waitHealthy host r.2
    (⟨host, phase, r.1, some q.1⟩, q.2)
  else (⟨host, phase, r.1, none⟩, r.2)

/-- The remaining central hosts: their steps, and whether none has failed. -/
def upgradeCentrals : List Host → W → List Visit × Bool × W
  | [], w => ([], true, w)
  | h :: hs, w =>
    let v := visit act h .centrals w
    if v.1.status = .failed then ([v.1], false, v.2)
    else
      let r := upgradeCentrals hs v.2
      (v.1 :: r.1, r.2)

def upgradeCollectors : List Host → W → List Visit
  | [], _ => []
  | h :: hs, w =>
    let v := visit act h .collectors w
    v.1 :: upgradeCollectors hs v.2

/-- `_pick_canary`. -/
def pickCanary (plan : Plan) : Option String → Except UpgradeError Host
  | none =>
    match plan.centralHosts with
    | [] => .error .noCentral
    | h :: _ => .ok h
  | some name =>
    match plan.centralHosts.find? (·.name = name) with
    | none => .error (.unknownCanary name)
    | some h => .ok h

/-- `upgrade`. -/
def upgrade (plan : Plan) (canary : Option String) (w : W) : Rollout :=
  match pickCanary plan canary with
  | .error e => ⟨[], .error e⟩
  | .ok canaryHost =>
    let first := visit act canaryHost .canary w
    if first.1.status = .failed ∨ first.1.health = some false then
      ⟨[first.1], .error (.aborted canaryHost.name)⟩
    else
      let rest := upgradeCentrals act (plan.centralHosts.filter (·.name ≠ canaryHost.name)) first.2
      if rest.2.1 then
        ⟨first.1 :: rest.1 ++ upgradeCollectors act plan.collectorHosts rest.2.2, .ok ()⟩
      else ⟨first.1 :: rest.1, .ok ()⟩

end

/-- The outcomes of the steps, and of the waits after them, by position. -/
structure Outcomes where
  status : ℕ → StepStatus
  healthy : ℕ → Bool

/-- The rollout is at a position. -/
def Outcomes.actions (o : Outcomes) : Actions ℕ where
  upgradeHost _ _ n := (o.status n, n + 1)
  waitHealthy _ n := (o.healthy (n - 1), n)

/-- The hosts of a cluster, and the answers that each wait gets. -/
structure Fleet where
  hosts : String → World
  polls : ℕ → List PollAnswer

/-- The rollout over SSH, of what each host is to have. -/
def fleetActions (tools : Tools) (now : String) (rendered : Host → List RenderedFile)
    (secretValues : Dict Text Text) : Actions Fleet where
  upgradeHost host _ fleet :=
    let r := upgradeHost tools now host (rendered host) secretValues (fleet.hosts host.name)
    (r.1, { fleet with
      hosts := fun name => if name = host.name then r.2 else fleet.hosts name })
  waitHealthy _ fleet :=
    (waitHealthy (fleet.polls 0), { fleet with polls := fun n => fleet.polls (n + 1) })

/-! ### Safety -/

/-- A step that has changed something on its host, or has tried to. -/
def Visit.touched (v : Visit) : Prop := v.status ≠ .unchanged
  deriving Decidable

/-- A central host that is touched is unsettled until it is found healthy. -/
def settle (plan : Plan) (hosts : List Host) (v : Visit) : List Host :=
  if v.host ∈ plan.centralHosts ∧ v.touched then
    let others := hosts.filter (· ≠ v.host)
    if v.health = some true then others else v.host :: others
  else hosts

/-- The central hosts that have been touched, and not been found healthy since. -/
def unsettled (plan : Plan) (visits : List Visit) : List Host := visits.foldl (settle plan) []

/-- **A rollout is safe**: a central host is touched only after the others that have been touched
were found healthy, so that at most one is unsettled at any moment; and a collector is touched only
when none is. -/
structure CanarySafe (plan : Plan) (visits : List Visit) : Prop where
  next : ∀ before v after, visits = before ++ v :: after → v.touched → v.host ∈ plan.centralHosts →
    ∀ h ∈ unsettled plan before, h = v.host
  one : ∀ before, before <+: visits → (unsettled plan before).length ≤ 1
  last : ∀ before v after, visits = before ++ v :: after → v.touched → v.phase = .collectors →
    unsettled plan before = []

def order (plan : Plan) (canaryHost : Host) : List (Host × Phase) :=
  (canaryHost, .canary) ::
    (plan.centralHosts.filter (·.name ≠ canaryHost.name)).map (·, .centrals) ++
      plan.collectorHosts.map (·, .collectors)

/-- The outcomes at a position end the rollout. -/
def Outcomes.Stops (o : Outcomes) (hosts : List (Host × Phase)) (i : ℕ) : Prop :=
  (∃ h, hosts[i]? = some (h, .canary)) ∧
      (o.status i = .failed ∨ o.status i = .upgraded ∧ o.healthy i = false) ∨
    (∃ h, hosts[i]? = some (h, .centrals)) ∧ o.status i = .failed

/-- The outcomes at a position leave a central host unsettled: it is touched, and there is no wait
that finds it healthy. -/
def Outcomes.Unsettles (o : Outcomes) (plan : Plan) (hosts : List (Host × Phase)) (i : ℕ) : Prop :=
  ∃ h p, hosts[i]? = some (h, p) ∧ h ∈ plan.centralHosts ∧ o.status i ≠ .unchanged ∧
    ¬(p ≠ .collectors ∧ o.status i = .upgraded ∧ o.healthy i = true)

/-- **The outcomes are settling**: after a position that leaves a central host unsettled, nothing is
to be done on the hosts that are still reached. -/
def Settling (plan : Plan) (canary : Option String) (o : Outcomes) : Prop :=
  ∀ canaryHost, pickCanary plan canary = .ok canaryHost →
    ∀ i j, i < j → j < (order plan canaryHost).length →
      (∀ k < j, ¬o.Stops (order plan canaryHost) k) →
        o.Unsettles plan (order plan canaryHost) i → o.status j = .unchanged

/-! ### One host -/

variable {tools : Tools} {host : Host} {rendered : List RenderedFile}
  {secretValues : Dict Text Text}

theorem upgradeProjects_unchanged {projects : List String} {state state' : Dict String String}
    {changedAny : Bool} {w w' : World}
    (h : upgradeProjects tools host rendered secretValues projects state changedAny w =
      (some (state', false), w')) : w' = w ∧ changedAny = false := by
  induction projects generalizing state changedAny w with
  | nil =>
    cases h
    exact ⟨rfl, rfl⟩
  | cons project projects ih =>
    rw [upgradeProjects] at h
    split at h
    · exact ih h
    · dsimp only at h
      split at h
      · exact absurd (ih h).2 (by decide)
      · cases h

/-- **A step that finds nothing to do changes nothing** on its host. -/
theorem upgradeHost_unchanged {now : String} {w : World}
    (h : (upgradeHost tools now host rendered secretValues w).1 = .unchanged) :
    (upgradeHost tools now host rendered secretValues w).2.disk = w.disk := by
  rw [upgradeHost] at h ⊢
  split at h
  · cases h
  next w' heq =>
    show w'.disk = w.disk
    rw [(upgradeProjects_unchanged heq).1]
    rfl
  · cases h

/-- **A host that is not touched is left alone**, and so are all others. -/
theorem fleetActions_unchanged {now : String} {rendered : Host → List RenderedFile} {phase : Phase}
    {fleet : Fleet}
    (h : ((fleetActions tools now rendered secretValues).upgradeHost host phase fleet).1 =
      .unchanged) (name : String) :
    (((fleetActions tools now rendered secretValues).upgradeHost host phase fleet).2.hosts
      name).disk = (fleet.hosts name).disk := by
  rw [fleetActions]
  dsimp only
  split
  next hname => rw [upgradeHost_unchanged h, hname]
  · rfl

/-! ### The walk -/

section

variable {W : Type} (act : Actions W)

/-- A step that ends the rollout. -/
def Visit.stops (v : Visit) : Prop :=
  v.phase = .canary ∧ (v.status = .failed ∨ v.health = some false) ∨
    v.phase = .centrals ∧ v.status = .failed
  deriving Decidable

/-- Hosts are visited one after another, until a step ends the rollout. -/
def walk : List (Host × Phase) → W → List Visit
  | [], _ => []
  | (h, p) :: rest, w =>
    let v := visit act h p w
    if v.1.stops then [v.1] else v.1 :: walk rest v.2

@[simp] theorem visit_host (h : Host) (p : Phase) (w : W) : (visit act h p w).1.host = h := by
  rw [visit]
  split <;> rfl

@[simp] theorem visit_phase (h : Host) (p : Phase) (w : W) : (visit act h p w).1.phase = p := by
  rw [visit]
  split <;> rfl

theorem walk_collectors (hs : List Host) (w : W) :
    walk act (hs.map (·, .collectors)) w = upgradeCollectors act hs w := by
  induction hs generalizing w with
  | nil => rfl
  | cons h hs ih =>
    have hgoes : ¬(visit act h .collectors w).1.stops := by simp [Visit.stops]
    rw [map_cons, walk, if_neg hgoes, ih, upgradeCollectors]

theorem walk_centrals (hs : List Host) (tail : List (Host × Phase)) (w : W) :
    walk act (hs.map (·, .centrals) ++ tail) w = (upgradeCentrals act hs w).1 ++
        if (upgradeCentrals act hs w).2.1 then walk act tail (upgradeCentrals act hs w).2.2
        else [] := by
  induction hs generalizing w with
  | nil => rfl
  | cons h hs ih =>
    have hstops : (visit act h .centrals w).1.stops ↔
        (visit act h .centrals w).1.status = .failed := by simp [Visit.stops]
    rw [map_cons, cons_append, walk, upgradeCentrals]
    dsimp only
    by_cases hfailed : (visit act h .centrals w).1.status = .failed
    · rw [if_pos (hstops.2 hfailed), if_pos hfailed]
      rfl
    · rw [if_neg (mt hstops.1 hfailed), if_neg hfailed, ih]
      rfl

/-- **The rollout walks along the hosts in their order.** -/
theorem upgrade_visits {plan : Plan} {canary : Option String} {canaryHost : Host}
    (hcanary : pickCanary plan canary = .ok canaryHost) (w : W) :
    (upgrade act plan canary w).visits = walk act (order plan canaryHost) w := by
  have hstops : (visit act canaryHost .canary w).1.stops ↔
      (visit act canaryHost .canary w).1.status = .failed ∨
        (visit act canaryHost .canary w).1.health = some false := by simp [Visit.stops]
  rw [upgrade, hcanary, order, cons_append, walk]
  dsimp only
  by_cases hends : (visit act canaryHost .canary w).1.stops
  · rw [if_pos hends, if_pos (hstops.1 hends)]
  · rw [if_neg hends, if_neg (mt hstops.2 hends), walk_centrals, walk_collectors]
    split
    · rfl
    · rw [append_nil]

theorem upgrade_error {plan : Plan} {canary : Option String} {e : UpgradeError}
    (hcanary : pickCanary plan canary = .error e) (w : W) :
    (upgrade act plan canary w).visits = [] := by
  rw [upgrade, hcanary]

end

/-! ### Given outcomes -/

/-- The step at a position. -/
def Outcomes.visitAt (o : Outcomes) (host : Host) (phase : Phase) (n : ℕ) : Visit :=
  ⟨host, phase, o.status n,
    if o.status n = .upgraded ∧ phase ≠ .collectors then some (o.healthy n) else none⟩

theorem visit_actions (o : Outcomes) (h : Host) (p : Phase) (n : ℕ) :
    visit o.actions h p n = (o.visitAt h p n, n + 1) := by
  by_cases hwaits : o.status n = .upgraded ∧ p ≠ .collectors
  · have hvisit : (o.actions.upgradeHost h p n).1 = .upgraded ∧ p ≠ .collectors := hwaits
    rw [visit, Outcomes.visitAt, if_pos hwaits]
    exact if_pos hvisit
  · have hvisit : ¬((o.actions.upgradeHost h p n).1 = .upgraded ∧ p ≠ .collectors) := hwaits
    rw [visit, Outcomes.visitAt, if_neg hwaits]
    exact if_neg hvisit

theorem walk_getElem? (o : Outcomes) (hosts : List (Host × Phase)) (n i : ℕ) (v : Visit) :
    (walk o.actions hosts n)[i]? = some v ↔
      (∃ h p, hosts[i]? = some (h, p) ∧ v = o.visitAt h p (n + i)) ∧
        ∀ k < i, ∀ h p, hosts[k]? = some (h, p) → ¬(o.visitAt h p (n + k)).stops := by
  induction hosts generalizing n i with
  | nil => simp [walk]
  | cons hp rest ih =>
    obtain ⟨h, p⟩ := hp
    rw [walk, visit_actions]
    cases i with
    | zero =>
      have hhead : (if (o.visitAt h p n).stops then [o.visitAt h p n]
          else o.visitAt h p n :: walk o.actions rest (n + 1))[0]? = some (o.visitAt h p n) := by
        split <;> rfl
      rw [hhead]
      simp [eq_comm]
    | succ i =>
      by_cases hstops : (o.visitAt h p n).stops
      · rw [if_pos hstops]
        constructor
        · intro hnone
          cases hnone
        · rintro ⟨-, hgoes⟩
          exact absurd hstops (hgoes 0 (Nat.succ_pos i) h p rfl)
      · rw [if_neg hstops, getElem?_cons_succ, ih, getElem?_cons_succ,
          Nat.add_right_comm n 1 i]
        refine and_congr_right fun _ => ⟨fun hgoes k hk => ?_, fun hgoes k hk => ?_⟩
        · cases k with
          | zero =>
            rintro h' p' hhead
            cases hhead
            exact hstops
          | succ k =>
            have hgoes := hgoes k (Nat.lt_of_succ_lt_succ hk)
            rwa [Nat.add_right_comm n 1 k] at hgoes
        · rw [Nat.add_right_comm n 1 k]
          exact hgoes (k + 1) (Nat.succ_lt_succ hk)

/-- **Real hosts have outcomes**: a rollout over anything is the one with the outcomes it has. -/
theorem exists_outcomes {W : Type} (act : Actions W) (plan : Plan) (canary : Option String)
    (w : W) :
    ∃ o : Outcomes, (upgrade act plan canary w).visits = (upgrade o.actions plan canary 0).visits :=
    by
  have hwalk : ∀ (hosts : List (Host × Phase)) (w : W) (o : Outcomes) (n : ℕ),
      (∀ i v, (walk act hosts w)[i]? = some v → o.status (n + i) = v.status ∧
        ∀ b ∈ v.health, o.healthy (n + i) = b) → walk o.actions hosts n = walk act hosts w := by
    intro hosts
    induction hosts with
    | nil => exact fun _ _ _ _ => rfl
    | cons hp rest ih =>
      obtain ⟨h, p⟩ := hp
      intro w o n hsame
      have hhead : o.visitAt h p n = (visit act h p w).1 := by
        have hfirst : (walk act ((h, p) :: rest) w)[0]? = some (visit act h p w).1 := by
          rw [walk]
          split <;> rfl
        obtain ⟨hstatus, hhealth⟩ := hsame 0 _ hfirst
        rw [Nat.add_zero] at hstatus hhealth
        rw [Outcomes.visitAt, hstatus]
        rw [visit] at hhealth ⊢
        dsimp only at hhealth ⊢
        split at hhealth
        next hwaits => rw [if_pos hwaits, if_pos hwaits, hhealth _ rfl]
        next hwaits => rw [if_neg hwaits, if_neg hwaits]
      rw [walk, walk, visit_actions, hhead]
      split
      · rfl
      next hgoes =>
        refine congrArg _ (ih _ o (n + 1) fun i v hv => ?_)
        rw [Nat.add_right_comm n 1 i]
        refine hsame (i + 1) v ?_
        rw [walk, if_neg hgoes]
        exact hv
  cases hcanary : pickCanary plan canary with
  | error e =>
    refine ⟨⟨fun _ => .unchanged, fun _ => false⟩, ?_⟩
    rw [upgrade_error act hcanary, upgrade_error _ hcanary]
  | ok canaryHost =>
    refine ⟨⟨fun i => (((walk act (order plan canaryHost) w)[i]?).map Visit.status).getD .unchanged,
      fun i => (((walk act (order plan canaryHost) w)[i]?).bind Visit.health).getD false⟩, ?_⟩
    rw [upgrade_visits act hcanary, upgrade_visits _ hcanary]
    refine (hwalk _ w _ 0 fun i v hv => ?_).symm
    dsimp only
    rw [Nat.zero_add, hv]
    refine ⟨rfl, fun b hb => ?_⟩
    rw [Option.bind_some, hb]
    rfl

/-! ### Unsettled hosts -/

variable {plan : Plan} {canary : Option String} {canaryHost : Host} {visits : List Visit}

/-- A step that leaves a central host unsettled. -/
def Visit.Unsettles (plan : Plan) (v : Visit) : Prop :=
  v.host ∈ plan.centralHosts ∧ v.touched ∧ v.health ≠ some true

/-- How the steps of a rollout are ordered: before the collectors, each central host comes once, and
only then its health is waited for. -/
structure Ordered (plan : Plan) (visits : List Visit) : Prop where
  central : ∀ v ∈ visits, v.phase ≠ .collectors → v.host ∈ plan.centralHosts
  waited : ∀ v ∈ visits, v.health = some true → v.phase ≠ .collectors
  once : ∀ before v after, visits = before ++ v :: after → v.phase ≠ .collectors →
    ∀ u ∈ before, u.host ≠ v.host

theorem Ordered.of_prefix {before after : List Visit} (h : Ordered plan (before ++ after)) :
    Ordered plan before where
  central v hv := h.central v (mem_append_left after hv)
  waited v hv := h.waited v (mem_append_left after hv)
  once first v rest heq := h.once first v (rest ++ after) (by rw [heq, append_assoc]; rfl)

theorem unsettled_append (before : List Visit) (v : Visit) :
    unsettled plan (before ++ [v]) = settle plan (unsettled plan before) v := by
  rw [unsettled, unsettled, foldl_append]
  rfl

variable {h : Host}

theorem mem_settle {hosts : List Host} {v : Visit}
    (hfresh : v.health = some true → v.host ∉ hosts) :
    h ∈ settle plan hosts v ↔ h ∈ hosts ∨ v.Unsettles plan ∧ v.host = h := by
  rw [settle, Visit.Unsettles]
  split
  next htouched =>
    split
    next hhealthy =>
      rw [mem_filter, decide_eq_true_eq]
      constructor
      · exact fun hmem => .inl hmem.1
      · rintro (hmem | ⟨⟨-, -, hnot⟩, -⟩)
        · exact ⟨hmem, fun heq => hfresh hhealthy (heq ▸ hmem)⟩
        · exact absurd hhealthy hnot
    next hhealthy =>
      rw [mem_cons, mem_filter, decide_eq_true_eq]
      constructor
      · rintro (rfl | ⟨hmem, -⟩)
        · exact .inr ⟨⟨htouched.1, htouched.2, hhealthy⟩, rfl⟩
        · exact .inl hmem
      · rintro (hmem | ⟨-, rfl⟩)
        · by_cases heq : h = v.host
          · exact .inl heq
          · exact .inr ⟨hmem, heq⟩
        · exact .inl rfl
  next htouched =>
    constructor
    · exact .inl
    · rintro (hmem | ⟨⟨hcentral, ht, -⟩, -⟩)
      · exact hmem
      · exact absurd ⟨hcentral, ht⟩ htouched

theorem mem_unsettled (hordered : Ordered plan visits) :
    h ∈ unsettled plan visits ↔ ∃ v ∈ visits, v.Unsettles plan ∧ v.host = h := by
  induction visits using List.reverseRecOn generalizing h with
  | nil => simp [unsettled]
  | append_singleton before v ih =>
    have ih := fun {h : Host} => ih hordered.of_prefix (h := h)
    have hfresh : v.health = some true → v.host ∉ unsettled plan before := by
      intro hhealthy hmem
      obtain ⟨u, hu, -, heq⟩ := ih.1 hmem
      have hphase := hordered.waited v (mem_append_right before mem_cons_self) hhealthy
      exact hordered.once before v [] rfl hphase u hu heq
    rw [unsettled_append, mem_settle hfresh, ih]
    simp only [mem_append, mem_singleton]
    constructor
    · rintro (⟨u, hu, hunsettles⟩ | hunsettles)
      · exact ⟨u, .inl hu, hunsettles⟩
      · exact ⟨v, .inr rfl, hunsettles⟩
    · rintro ⟨u, hu | rfl, hunsettles⟩
      · exact .inl ⟨u, hu, hunsettles⟩
      · exact .inr hunsettles

/-- No host is touched after a step that leaves one unsettled. -/
def Quiet (plan : Plan) (visits : List Visit) : Prop :=
  ∀ before v after, visits = before ++ v :: after → v.touched → ∀ u ∈ before, ¬u.Unsettles plan

theorem unsettled_eq_nil {before : List Visit} (hordered : Ordered plan before)
    (hnone : ∀ u ∈ before, ¬u.Unsettles plan) : unsettled plan before = [] := by
  rw [eq_nil_iff_forall_not_mem]
  intro h hmem
  obtain ⟨u, hu, hunsettles, -⟩ := (mem_unsettled hordered).1 hmem
  exact hnone u hu hunsettles

theorem length_unsettled_le (hordered : Ordered plan visits) (hquiet : Quiet plan visits) :
    (unsettled plan visits).length ≤ 1 := by
  induction visits using List.reverseRecOn with
  | nil => exact Nat.zero_le 1
  | append_singleton before v ih =>
    rw [unsettled_append, settle]
    split
    next htouched =>
      rw [unsettled_eq_nil hordered.of_prefix (hquiet before v [] rfl htouched.2)]
      split <;> simp
    · refine ih hordered.of_prefix fun first u rest heq => hquiet first u (rest ++ [v]) ?_
      rw [heq, append_assoc]
      rfl

/-- **Safe is quiet**, for steps in order. -/
theorem canarySafe_iff_quiet (hordered : Ordered plan visits) :
    CanarySafe plan visits ↔ Quiet plan visits := by
  constructor
  · intro hsafe before v after heq htouched u hu hunsettles
    have hbefore : Ordered plan before := by
      rw [heq] at hordered
      exact hordered.of_prefix
    have hmem : u.host ∈ unsettled plan before := (mem_unsettled hbefore).2 ⟨u, hu, hunsettles, rfl⟩
    by_cases hphase : v.phase = .collectors
    · rw [hsafe.last before v after heq htouched hphase] at hmem
      exact not_mem_nil hmem
    · have hcentral : v.host ∈ plan.centralHosts := hordered.central v (by simp [heq]) hphase
      exact hordered.once before v after heq hphase u hu
        (hsafe.next before v after heq htouched hcentral u.host hmem)
  · intro hquiet
    have hnil : ∀ before v after, visits = before ++ v :: after → v.touched →
        unsettled plan before = [] := by
      intro before v after heq htouched
      rw [heq] at hordered
      exact unsettled_eq_nil hordered.of_prefix (hquiet before v after heq htouched)
    refine ⟨fun before v after heq htouched _ h hmem => ?_, fun before hprefix => ?_,
      fun before v after heq htouched _ => hnil before v after heq htouched⟩
    · rw [hnil before v after heq htouched] at hmem
      cases hmem
    · obtain ⟨after, rfl⟩ := hprefix
      refine length_unsettled_le hordered.of_prefix fun first v rest heq =>
        hquiet first v (rest ++ after) ?_
      rw [heq, append_assoc]
      rfl

/-! ### The order -/

theorem mem_of_pickCanary (hcanary : pickCanary plan canary = .ok canaryHost) :
    canaryHost ∈ plan.centralHosts := by
  cases canary with
  | none =>
    rw [pickCanary] at hcanary
    split at hcanary
    · cases hcanary
    next h hs heq =>
      cases hcanary
      rw [heq]
      exact mem_cons_self
  | some name =>
    rw [pickCanary] at hcanary
    split at hcanary
    · cases hcanary
    next h hfind =>
      cases hcanary
      exact mem_of_find?_eq_some hfind

variable {i : ℕ} {p : Phase}

theorem order_once (hnames : (plan.centralHosts.map Host.name).Nodup)
    (hcanary : pickCanary plan canary = .ok canaryHost)
    (hi : (order plan canaryHost)[i]? = some (h, p)) (hp : p ≠ .collectors) :
    h ∈ plan.centralHosts ∧
      ∀ k < i, ∀ h' p', (order plan canaryHost)[k]? = some (h', p') → h' ≠ h := by
  have hrest : (plan.centralHosts.filter (·.name ≠ canaryHost.name)).Nodup :=
    (List.Nodup.of_map _ hnames).filter _
  rw [order, cons_append] at hi ⊢
  cases i with
  | zero =>
    cases hi
    exact ⟨mem_of_pickCanary hcanary, fun k hk => absurd hk (Nat.not_lt_zero k)⟩
  | succ i =>
    rw [getElem?_cons_succ] at hi
    rcases Nat.lt_or_ge i (plan.centralHosts.filter (·.name ≠ canaryHost.name)).length with hlt | hge
    · rw [getElem?_append_left (by rwa [length_map]), getElem?_map,
        getElem?_eq_getElem hlt] at hi
      cases hi
      have hmem := List.mem_filter.1 (getElem_mem hlt)
      refine ⟨hmem.1, fun k hk h' p' hk' => ?_⟩
      cases k with
      | zero =>
        cases hk'
        exact fun heq => of_decide_eq_true hmem.2 (congrArg Host.name heq.symm)
      | succ k =>
        have hkl := (Nat.lt_of_succ_lt_succ hk).trans hlt
        rw [getElem?_cons_succ, getElem?_append_left (by rwa [length_map]),
          getElem?_map, getElem?_eq_getElem hkl] at hk'
        cases hk'
        intro heq
        have hsame : k = i := (List.Nodup.getElem_inj_iff hrest).1 heq
        omega
    · rw [getElem?_append_right (by rwa [length_map]), getElem?_map,
        Option.map_eq_some_iff] at hi
      obtain ⟨h', -, heq⟩ := hi
      exact absurd (Prod.mk.inj heq).2.symm hp

variable {hosts : List (Host × Phase)} {o : Outcomes}

theorem walk_position {v : Visit}
    (h : (walk o.actions hosts 0)[i]? = some v) :
    ∃ host p, hosts[i]? = some (host, p) ∧ v = o.visitAt host p i := by
  have hvisit := ((walk_getElem? o hosts 0 i v).1 h).1
  rwa [Nat.zero_add] at hvisit

theorem ordered_walk (hnames : (plan.centralHosts.map Host.name).Nodup)
    (hcanary : pickCanary plan canary = .ok canaryHost) (o : Outcomes) :
    Ordered plan (walk o.actions (order plan canaryHost) 0) := by
  refine ⟨fun v hv hphase => ?_, fun v hv hhealthy => ?_, fun before v after heq hphase u hu => ?_⟩
  · obtain ⟨i, hi⟩ := getElem?_of_mem hv
    obtain ⟨h, p, hposition, rfl⟩ := walk_position hi
    exact (order_once hnames hcanary hposition hphase).1
  · obtain ⟨i, hi⟩ := getElem?_of_mem hv
    obtain ⟨h, p, -, rfl⟩ := walk_position hi
    rw [Outcomes.visitAt] at hhealthy
    dsimp only at hhealthy
    split at hhealthy
    next hwaits => exact hwaits.2
    · cases hhealthy
  · have hv : (walk o.actions (order plan canaryHost) 0)[before.length]? = some v := by
      rw [heq, getElem?_append_right le_rfl, Nat.sub_self]
      rfl
    obtain ⟨k, hk⟩ := getElem?_of_mem hu
    have hlt : k < before.length := (List.getElem?_eq_some_iff.1 hk).1
    have hu : (walk o.actions (order plan canaryHost) 0)[k]? = some u := by
      rw [heq, getElem?_append_left hlt, hk]
    obtain ⟨h, p, hposition, rfl⟩ := walk_position hv
    obtain ⟨h', p', hposition', rfl⟩ := walk_position hu
    exact (order_once hnames hcanary hposition hphase).2 k hlt h' p' hposition'

theorem stops_visitAt
    (hi : hosts[i]? = some (h, p)) : (o.visitAt h p i).stops ↔ o.Stops hosts i := by
  have hphase : ∀ p', (∃ h', hosts[i]? = some (h', p')) ↔ p = p' := by
    intro p'
    rw [hi]
    constructor
    · rintro ⟨h', heq⟩
      exact (Prod.mk.inj (Option.some.inj heq)).2
    · exact fun heq => ⟨h, heq ▸ rfl⟩
  rw [Visit.stops, Outcomes.Stops, hphase, hphase, Outcomes.visitAt]
  dsimp only
  refine or_congr_left (and_congr_right fun hcanary => or_congr_right ?_)
  rw [hcanary]
  split
  next hwaits => simp [hwaits.1]
  next hwaits =>
    have hnot : o.status i ≠ .upgraded := fun hup => hwaits ⟨hup, by decide⟩
    simp [hnot]

theorem unsettles_visitAt
    (hi : hosts[i]? = some (h, p)) :
    (o.visitAt h p i).Unsettles plan ↔ o.Unsettles plan hosts i := by
  have hhealth : (o.visitAt h p i).health = some true ↔
      p ≠ .collectors ∧ o.status i = .upgraded ∧ o.healthy i = true := by
    rw [Outcomes.visitAt]
    dsimp only
    split
    next hwaits => simp [hwaits.1, hwaits.2]
    next hwaits =>
      constructor
      · intro hnone
        cases hnone
      · exact fun hall => absurd ⟨hall.2.1, hall.1⟩ hwaits
  rw [Visit.Unsettles, ne_eq, hhealth]
  constructor
  · exact fun hall => ⟨h, p, hi, hall⟩
  · rintro ⟨h', p', hi', hall⟩
    rw [hi] at hi'
    cases hi'
    exact hall

/-- **The steps are quiet if and only if the outcomes are settling.** -/
theorem quiet_iff (hcanary : pickCanary plan canary = .ok canaryHost) (o : Outcomes) :
    Quiet plan (walk o.actions (order plan canaryHost) 0) ↔ Settling plan canary o := by
  constructor
  · intro hquiet c hc i j hij hj hgoes hunsettles
    obtain rfl : canaryHost = c := Except.ok.inj (hcanary.symm.trans hc)
    have hvisited : ∀ k ≤ j, ∃ h p, (order plan canaryHost)[k]? = some (h, p) ∧
        (walk o.actions (order plan canaryHost) 0)[k]? = some (o.visitAt h p k) := by
      intro k hk
      obtain ⟨⟨h, p⟩, hhp⟩ : ∃ hp, (order plan canaryHost)[k]? = some hp :=
        ⟨_, getElem?_eq_getElem (hk.trans_lt hj)⟩
      refine ⟨h, p, hhp, (walk_getElem? o _ 0 k _).2 ⟨⟨h, p, hhp, by rw [Nat.zero_add]⟩, ?_⟩⟩
      intro l hl h' p' hhp'
      rw [Nat.zero_add, stops_visitAt hhp']
      exact hgoes l (hl.trans_le hk)
    obtain ⟨h, p, hposition, hv⟩ := hvisited j le_rfl
    obtain ⟨h', p', hposition', hu⟩ := hvisited i hij.le
    obtain ⟨hlt, hget⟩ := List.getElem?_eq_some_iff.1 hv
    have hsplit : walk o.actions (order plan canaryHost) 0 =
        (walk o.actions (order plan canaryHost) 0).take j ++ o.visitAt h p j ::
          (walk o.actions (order plan canaryHost) 0).drop (j + 1) := by
      rw [← hget, cons_getElem_drop_succ, take_append_drop]
    have hmem : o.visitAt h' p' i ∈ (walk o.actions (order plan canaryHost) 0).take j := by
      refine mem_of_getElem? (i := i) ?_
      rw [getElem?_take_of_lt hij]
      exact hu
    by_contra htouched
    exact hquiet _ _ _ hsplit htouched _ hmem ((unsettles_visitAt hposition').2 hunsettles)
  · intro hsettling before v after heq htouched u hu hunsettles
    have hv : (walk o.actions (order plan canaryHost) 0)[before.length]? = some v := by
      rw [heq, getElem?_append_right le_rfl, Nat.sub_self]
      rfl
    obtain ⟨k, hk⟩ := getElem?_of_mem hu
    have hlt : k < before.length := (List.getElem?_eq_some_iff.1 hk).1
    have hu : (walk o.actions (order plan canaryHost) 0)[k]? = some u := by
      rw [heq, getElem?_append_left hlt, hk]
    obtain ⟨h', p', hposition', rfl⟩ := walk_position hu
    obtain ⟨⟨h, p, hposition, rfl⟩, hgoes⟩ := (walk_getElem? o _ 0 _ v).1 hv
    rw [Nat.zero_add] at htouched
    refine htouched (hsettling canaryHost hcanary k before.length hlt
      (List.getElem?_eq_some_iff.1 hposition).1 (fun l hl hstops => ?_)
      ((unsettles_visitAt hposition').1 hunsettles))
    have hl' := hl.trans (List.getElem?_eq_some_iff.1 hposition).1
    obtain ⟨⟨h'', p''⟩, hhp⟩ : ∃ hp, (order plan canaryHost)[l]? = some hp :=
      ⟨_, getElem?_eq_getElem hl'⟩
    have hnot := hgoes l hl h'' p'' hhp
    rw [Nat.zero_add, stops_visitAt hhp] at hnot
    exact hnot hstops

/-- **Exactly the settling outcomes make a safe rollout.** -/
theorem canarySafe_iff {inv : Inventory} (hplan : planCluster inv = .ok plan)
    (canary : Option String) (o : Outcomes) :
    CanarySafe plan (upgrade o.actions plan canary 0).visits ↔ Settling plan canary o := by
  have hnames : (plan.centralHosts.map Host.name).Nodup := by
    rw [(placed_of_ok hplan).central]
    exact inv.names_nodup.sublist ((hostsWith_sublist inv .central).map _)
  cases hcanary : pickCanary plan canary with
  | error e =>
    have hnone : Ordered plan [] :=
      ⟨fun v hv => absurd hv not_mem_nil, fun v hv => absurd hv not_mem_nil,
        fun before v after heq => absurd heq.symm (by simp)⟩
    rw [upgrade_error _ hcanary, canarySafe_iff_quiet hnone]
    constructor
    · intro _ c hc
      rw [hcanary] at hc
      cases hc
    · intro _ before v after heq
      exact absurd heq.symm (by simp)
  | ok canaryHost =>
    rw [upgrade_visits _ hcanary, canarySafe_iff_quiet (ordered_walk hnames hcanary o),
      quiet_iff hcanary]

/-- Three central hosts and a collector. -/
def rollingInventory : Inventory where
  hosts := [⟨"a", "10.0.0.1", [.postgres, .central, .clickhouse]⟩, ⟨"b", "10.0.0.2", [.central]⟩,
    ⟨"c", "10.0.0.3", [.central]⟩, ⟨"d", "10.0.0.4", [.collector]⟩]
  sizing := .plain
  valid := by decide

/-- Every host is upgraded, and found healthy. -/
def smooth : Outcomes := ⟨fun _ => .upgraded, fun _ => true⟩

/-- Every host is upgraded, but only the canary is found healthy. -/
def limping : Outcomes := ⟨fun _ => .upgraded, fun n => n = 0⟩

theorem canarySafe_smooth : ∃ plan, planCluster rollingInventory = .ok plan ∧
    CanarySafe plan (upgrade smooth.actions plan none 0).visits := by
  have hplan : ∃ plan ∈ (planCluster rollingInventory).toOption,
      ∀ h ∈ plan.collectorHosts, h ∉ plan.centralHosts := by decide +kernel
  obtain ⟨plan, hmem, hapart⟩ := hplan
  have hok := planCluster_eq_ok hmem
  refine ⟨plan, hok, (canarySafe_iff hok none smooth).2 fun c _ i j _ _ _ hunsettles => ?_⟩
  obtain ⟨h, p, hi, hcentral, -, hnot⟩ := hunsettles
  have hp : p = .collectors := by
    by_contra hne
    exact hnot ⟨hne, rfl, rfl⟩
  have hin := mem_of_getElem? hi
  simp only [order, hp, cons_append, mem_cons, mem_append, mem_map,
    Prod.mk.injEq, reduceCtorEq, and_false, exists_false, false_or, and_true, exists_eq_right] at hin
  exact absurd hcentral (hapart h hin)

/-- **Two central hosts down**: the second one is upgraded and stays unhealthy, and the rollout goes
on to the third. -/
theorem not_canarySafe_limping : ∃ plan, planCluster rollingInventory = .ok plan ∧
    ¬CanarySafe plan (upgrade limping.actions plan none 0).visits := by
  have hplan : ∃ plan ∈ (planCluster rollingInventory).toOption,
      1 < (unsettled plan ((upgrade limping.actions plan none 0).visits.take 3)).length := by
    decide +kernel
  obtain ⟨plan, hmem, htwo⟩ := hplan
  refine ⟨plan, planCluster_eq_ok hmem, fun hsafe => ?_⟩
  have hone := hsafe.one _ ( take_prefix 3 _)
  omega

end MonCTL.Installer
