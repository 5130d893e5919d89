import Mathlib.Data.Fintype.Basic
import MonCTL.Basic
import MonCTL.Lib.Runs

/-!
# Leader Election

The instances of central elect a leader through a key in Redis that expires. An instance that
finds the key free takes it, and one that holds it renews it; in between it remembers that it is
the leader in a flag of its own, and runs the scheduler's cycles as long as the flag is set. The
flag is looked at when a cycle starts and changed when Redis answers, and Redis forgets the key
on its own: between the two lies whatever time an instance takes.

Each request is two steps, one at Redis and one when the answer is processed, and time passes
whenever it likes.
-/

namespace MonCTL.CentralScheduler

/-! ### Redis -/

/-- `_LEADER_TTL`. -/
def leaderTtl : ℕ := 30

/-- The clock of Redis, and the leader key with its holder and the time at which it expires. -/
structure Redis (I : Type) where
  now : ℕ := 0
  key : Option (I × ℕ) := none

section Redis

variable {I : Type} [DecidableEq I]

/-- `GET`: the holder, unless the key has expired. -/
def Redis.holder (r : Redis I) : Option I :=
  match r.key with
  | some (i, expires) => if r.now < expires then some i else none
  | none => none

/-- `SET … NX EX`, which takes a key that is free. -/
def Redis.setNx (r : Redis I) (i : I) : Redis I × Bool :=
  if r.holder = none then ({ r with key := some (i, r.now + leaderTtl) }, true) else (r, false)

/-- `_RENEW_LUA`, which renews the key of its holder. -/
def Redis.renew (r : Redis I) (i : I) : Redis I × Bool :=
  if r.holder = some i then ({ r with key := some (i, r.now + leaderTtl) }, true) else (r, false)

/-- The script of `stop`, which deletes the key of its holder. -/
def Redis.release (r : Redis I) (i : I) : Redis I :=
  if r.holder = some i then { r with key := none } else r

omit [DecidableEq I] in
theorem Redis.key_of_holder {r : Redis I} {i : I} (h : r.holder = some i) :
    ∃ expires, r.key = some (i, expires) := by
  rw [Redis.holder] at h
  split at h
  next j expires hkey =>
    split at h
    · cases h
      exact ⟨expires, hkey⟩
    · cases h
  · cases h

end Redis

/-! ### Instances -/

/-- Where the loop of an instance is: between two rounds, with an answer on its way, about to
renew, stopping with the key released, or not running. -/
inductive Phase
  | idle
  | setAnswered (acquired : Bool)
  | renewing
  | renewAnswered (renewed : Bool)
  | stopping
  | released
  | stopped
  deriving DecidableEq

/-- An instance: its loop, its flag, and whether a cycle of the scheduler is running. -/
structure Instance where
  phase : Phase := .idle
  isLeader : Bool := false
  inCycle : Bool := false

/-- The instances, and Redis. -/
structure Cluster (I : Type) where
  redis : Redis I := {}
  instances : I → Instance := fun _ => {}

/-- What happens. -/
inductive Action (I : Type)
  | pause (seconds : ℕ)
  | set (i : I)
  | setReturns (i : I)
  | setFails (i : I)
  | renew (i : I)
  | renewReturns (i : I)
  | renewFails (i : I)
  | startCycle (i : I)
  | endCycle (i : I)
  | stop (i : I)
  | release (i : I)
  | releaseReturns (i : I)
  | crash (i : I)
  | start (i : I)

section Cluster

variable {I : Type} [DecidableEq I]

/-- The instance has become another. -/
def Cluster.put (c : Cluster I) (i : I) (x : Instance) : Cluster I :=
  { c with instances := Function.update c.instances i x }

/-- One step of the cluster. A request that fails may have reached Redis. `_try_acquire` lowers
the flag when the first request fails, and not when the second one does. -/
def Cluster.step (c : Cluster I) : Action I → Option (Cluster I)
  | .pause seconds => some { c with redis := { c.redis with now := c.redis.now + seconds } }
  | .set i =>
    let x := c.instances i
    if x.phase = .idle then
      let (redis, acquired) := c.redis.setNx i
      some ({ c with redis }.put i { x with phase := .setAnswered acquired })
    else none
  | .setReturns i =>
    let x := c.instances i
    match x.phase with
    | .setAnswered true => some (c.put i { x with phase := .idle, isLeader := true })
    | .setAnswered false => some (c.put i { x with phase := .renewing })
    | _ => none
  | .setFails i =>
    let x := c.instances i
    match x.phase with
    | .idle => some (c.put i { x with phase := .idle, isLeader := false })
    | .setAnswered _ => some (c.put i { x with phase := .idle, isLeader := false })
    | _ => none
  | .renew i =>
    let x := c.instances i
    if x.phase = .renewing then
      let (redis, renewed) := c.redis.renew i
      some ({ c with redis }.put i { x with phase := .renewAnswered renewed })
    else none
  | .renewReturns i =>
    let x := c.instances i
    match x.phase with
    | .renewAnswered renewed => some (c.put i { x with phase := .idle, isLeader := renewed })
    | _ => none
  | .renewFails i =>
    let x := c.instances i
    match x.phase with
    | .renewing => some (c.put i { x with phase := .idle })
    | .renewAnswered _ => some (c.put i { x with phase := .idle })
    | _ => none
  | .startCycle i =>
    let x := c.instances i
    if x.isLeader ∧ x.phase ≠ .stopped then some (c.put i { x with inCycle := true }) else none
  | .endCycle i => some (c.put i { c.instances i with inCycle := false })
  | .stop i =>
    -- the scheduler is stopped first, and then the loop
    let x := c.instances i
    if x.isLeader then some (c.put i { x with phase := .stopping, inCycle := false })
    else some (c.put i { phase := .stopped })
  | .release i =>
    let x := c.instances i
    if x.phase = .stopping then
      some ({ c with redis := c.redis.release i }.put i { x with phase := .released })
    else none
  | .releaseReturns i =>
    let x := c.instances i
    match x.phase with
    | .stopping => some (c.put i { phase := .stopped })
    | .released => some (c.put i { phase := .stopped })
    | _ => none
  | .crash i => some (c.put i { phase := .stopped })
  | .start i => if (c.instances i).phase = .stopped then some (c.put i {}) else none

/-! ### Exclusion -/

/-- **Exclusion**: no two instances report that they are the leader, and no two execute a cycle
of the scheduler. -/
structure Exclusive (c : Cluster I) : Prop where
  leader : ∀ i j, (c.instances i).isLeader → (c.instances j).isLeader → i = j
  cycle : ∀ i j, (c.instances i).inCycle → (c.instances j).inCycle → i = j

/-- An instance that acts as the leader, or is about to: its flag is set, a cycle is running, or
an answer that sets the flag is on its way. -/
def Instance.Engaged (x : Instance) : Prop :=
  x.isLeader = true ∨ x.inCycle = true ∨ x.phase = .setAnswered true ∨ x.phase = .renewAnswered true
  deriving Decidable

/-- The key changes hands only after the old leader has noticed: an instance that finds it free
is the only one engaged. -/
def TakesAlone (c : Cluster I) : Action I → Prop
  | .set i => (c.instances i).phase = .idle → c.redis.holder = none →
      ∀ j, j ≠ i → ¬(c.instances j).Engaged
  | _ => True

instance [Fintype I] (c : Cluster I) : ∀ a, Decidable (TakesAlone c a)
  | .set i => inferInstanceAs (Decidable ((c.instances i).phase = .idle →
      c.redis.holder = none → ∀ j, j ≠ i → ¬(c.instances j).Engaged))
  | .pause _ => isTrue trivial
  | .setReturns _ => isTrue trivial
  | .setFails _ => isTrue trivial
  | .renew _ => isTrue trivial
  | .renewReturns _ => isTrue trivial
  | .renewFails _ => isTrue trivial
  | .startCycle _ => isTrue trivial
  | .endCycle _ => isTrue trivial
  | .stop _ => isTrue trivial
  | .release _ => isTrue trivial
  | .releaseReturns _ => isTrue trivial
  | .crash _ => isTrue trivial
  | .start _ => isTrue trivial

/-- One instance is engaged, and it is the one that took the key last. -/
structure Cluster.Inv (c : Cluster I) : Prop where
  unique : ∀ i j, (c.instances i).Engaged → (c.instances j).Engaged → i = j
  owner : ∀ i expires, c.redis.key = some (i, expires) → ∀ j, (c.instances j).Engaged → j = i

omit [DecidableEq I] in
theorem Cluster.Inv.exclusive {c : Cluster I} (h : c.Inv) : Exclusive c where
  leader := fun i j hi hj => h.unique i j (.inl hi) (.inl hj)
  cycle := fun i j hi hj => h.unique i j (.inr (.inl hi)) (.inr (.inl hj))

section Steps

variable {c : Cluster I} {i : I} {x : Instance}

@[simp] theorem Cluster.put_self (c : Cluster I) (i : I) (x : Instance) :
    (c.put i x).instances i = x :=
  Function.update_self ..

theorem Cluster.put_of_ne (c : Cluster I) {i j : I} (hij : j ≠ i) (x : Instance) :
    (c.put i x).instances j = c.instances j :=
  Function.update_of_ne hij ..

theorem engaged_of_put (hx : x.Engaged → (c.instances i).Engaged) {j : I}
    (hj : ((c.put i x).instances j).Engaged) : (c.instances j).Engaged := by
  by_cases hij : j = i
  · rw [hij] at hj ⊢
    rw [Cluster.put_self] at hj
    exact hx hj
  · rw [Cluster.put_of_ne c hij] at hj
    exact hj

theorem Cluster.Inv.put (h : c.Inv) (hx : x.Engaged → (c.instances i).Engaged) :
    (c.put i x).Inv where
  unique := fun j j' hj hj' => h.unique j j' (engaged_of_put hx hj) (engaged_of_put hx hj')
  owner := fun k expires hkey j hj => h.owner k expires hkey j (engaged_of_put hx hj)

theorem Cluster.Inv.take {redis : Redis I} {expires : ℕ} (hkey : redis.key = some (i, expires))
    (halone : ∀ j, j ≠ i → ¬(c.instances j).Engaged) : ({ c with redis := redis }.put i x).Inv := by
  have honly : ∀ j, (({ c with redis := redis }.put i x).instances j).Engaged → j = i := by
    intro j hj
    by_contra hij
    rw [Cluster.put_of_ne _ hij] at hj
    exact halone j hij hj
  refine ⟨fun j j' hj hj' => (honly j hj).trans (honly j' hj').symm, fun k expires' hk j hj => ?_⟩
  have hk : redis.key = some (k, expires') := hk
  rw [hkey] at hk
  cases hk
  exact honly j hj

theorem engaged_phase {phase : Phase} (hset : phase ≠ .setAnswered true)
    (hrenew : phase ≠ .renewAnswered true) (hx : Instance.Engaged { x with phase }) :
    x.Engaged := by
  rcases hx with hx | hx | hx | hx
  · exact .inl hx
  · exact .inr (.inl hx)
  · exact absurd hx hset
  · exact absurd hx hrenew

theorem not_engaged_of_calm (hleader : x.isLeader = false) (hcycle : x.inCycle = false)
    (hset : x.phase ≠ .setAnswered true) (hrenew : x.phase ≠ .renewAnswered true) : ¬x.Engaged := by
  rintro (hx | hx | hx | hx)
  · rw [hleader] at hx
    cases hx
  · rw [hcycle] at hx
    cases hx
  · exact hset hx
  · exact hrenew hx

end Steps

/-- **One step** keeps the invariant. -/
theorem Cluster.Inv.step {c c' : Cluster I} {a : Action I} (h : c.Inv) (halone : TakesAlone c a)
    (hs : c.step a = some c') : c'.Inv := by
  cases a with
  | pause seconds =>
    cases hs
    exact ⟨h.unique, h.owner⟩
  | set i =>
    simp only [Cluster.step, Redis.setNx] at hs
    split at hs
    next hidle =>
      cases hs
      split
      next hfree => exact .take rfl (halone hidle hfree)
      · exact h.put (engaged_phase (by simp) (by simp))
    · cases hs
  | setReturns i =>
    simp only [Cluster.step] at hs
    split at hs
    next hphase =>
      cases hs
      exact h.put fun _ => .inr (.inr (.inl hphase))
    · cases hs
      exact h.put (engaged_phase (by simp) (by simp))
    · cases hs
  | setFails i =>
    simp only [Cluster.step] at hs
    have hlower : Instance.Engaged { c.instances i with phase := .idle, isLeader := false } →
        (c.instances i).Engaged := by
      rintro (hx | hx | hx | hx)
      · cases hx
      · exact .inr (.inl hx)
      · cases hx
      · cases hx
    split at hs
    · cases hs
      exact h.put hlower
    · cases hs
      exact h.put hlower
    · cases hs
  | renew i =>
    simp only [Cluster.step, Redis.renew] at hs
    split at hs
    · cases hs
      split
      next hholder =>
        obtain ⟨expires, hkey⟩ := Redis.key_of_holder hholder
        exact .take rfl fun j hij hj => hij (h.owner i expires hkey j hj)
      · exact h.put (engaged_phase (by simp) (by simp))
    · cases hs
  | renewReturns i =>
    simp only [Cluster.step] at hs
    split at hs
    next renewed hphase =>
      cases hs
      refine h.put ?_
      rintro (hx | hx | hx | hx)
      · have hrenewed : renewed = true := hx
        exact .inr (.inr (.inr (hrenewed ▸ hphase)))
      · exact .inr (.inl hx)
      · cases hx
      · cases hx
    · cases hs
  | renewFails i =>
    simp only [Cluster.step] at hs
    split at hs
    · cases hs
      exact h.put (engaged_phase (by simp) (by simp))
    · cases hs
      exact h.put (engaged_phase (by simp) (by simp))
    · cases hs
  | startCycle i =>
    simp only [Cluster.step] at hs
    split at hs
    next hleader =>
      cases hs
      exact h.put fun _ => .inl hleader.1
    · cases hs
  | endCycle i =>
    cases hs
    refine h.put ?_
    rintro (hx | hx | hx | hx)
    · exact .inl hx
    · cases hx
    · exact .inr (.inr (.inl hx))
    · exact .inr (.inr (.inr hx))
  | stop i =>
    simp only [Cluster.step] at hs
    split at hs
    next hleader =>
      cases hs
      exact h.put fun _ => .inl hleader
    · cases hs
      exact h.put fun hx => absurd hx (not_engaged_of_calm rfl rfl (by simp) (by simp))
  | release i =>
    simp only [Cluster.step, Redis.release] at hs
    split at hs
    · cases hs
      have hput : (c.put i { c.instances i with phase := .released }).Inv :=
        h.put (engaged_phase (by simp) (by simp))
      split
      · exact ⟨hput.unique, by simp [Cluster.put]⟩
      · exact hput
    · cases hs
  | releaseReturns i =>
    simp only [Cluster.step] at hs
    have hcalm : Instance.Engaged { phase := .stopped } → (c.instances i).Engaged := fun hx =>
      absurd hx (not_engaged_of_calm rfl rfl (by simp) (by simp))
    split at hs
    · cases hs
      exact h.put hcalm
    · cases hs
      exact h.put hcalm
    · cases hs
  | crash i =>
    cases hs
    exact h.put fun hx => absurd hx (not_engaged_of_calm rfl rfl (by simp) (by simp))
  | start i =>
    simp only [Cluster.step] at hs
    split at hs
    · cases hs
      exact h.put fun hx => absurd hx (not_engaged_of_calm rfl rfl (by simp) (by simp))
    · cases hs

omit [DecidableEq I] in
theorem Cluster.inv_start : Cluster.Inv (I := I) {} where
  unique := fun _ _ hi _ => absurd hi (not_engaged_of_calm rfl rfl (by simp) (by simp))
  owner := fun _ _ hkey => by cases hkey

/-- **Exclusion** in every run in which the key changes hands only after the old leader has
noticed. -/
theorem exclusive_of_run {c : Cluster I} (h : Run Cluster.step TakesAlone {} c) : Exclusive c :=
  (h.invariant (I := Cluster.Inv) Cluster.inv_start fun hc ha hs => hc.step ha hs).exclusive

end Cluster

/-! ### Two leaders -/

/-- The first instance becomes the leader and runs a cycle, and stops; then the second. -/
def handover : List (Action (Fin 2)) :=
  [.set 0, .setReturns 0, .startCycle 0, .stop 0, .release 0, .releaseReturns 0, .set 1,
    .setReturns 1, .startCycle 1]

theorem exclusive_handover : ∃ c, Run Cluster.step TakesAlone ({} : Cluster (Fin 2)) c ∧
    (c.instances 1).isLeader = true ∧ Exclusive c := by
  have hreplay : ∃ c ∈ replay Cluster.step TakesAlone ({} : Cluster (Fin 2)) handover,
      (c.instances 1).isLeader = true := by
    decide +kernel
  obtain ⟨c, hc, hleader⟩ := hreplay
  have hrun : Run Cluster.step TakesAlone ({} : Cluster (Fin 2)) c := run_of_replay hc
  exact ⟨c, hrun, hleader, exclusive_of_run hrun⟩

/-- The first instance pauses until its key has expired, and the second takes it. -/
def expiry : List (Action (Fin 2)) :=
  [.set 0, .setReturns 0, .startCycle 0, .pause 30, .set 1, .setReturns 1, .startCycle 1]

/-- Two instances are leaders, and both execute a cycle. -/
theorem not_exclusive_of_expiry :
    ¬∀ c, Run Cluster.step (fun _ _ => True) ({} : Cluster (Fin 2)) c → Exclusive c := by
  intro h
  have hreplay : ∃ c ∈ replay Cluster.step (fun _ _ => True) ({} : Cluster (Fin 2)) expiry,
      (c.instances 0).isLeader = true ∧ (c.instances 1).isLeader = true := by
    decide +kernel
  obtain ⟨c, hc, hzero, hone⟩ := hreplay
  have heq := (h c (run_of_replay hc)).leader 0 1 hzero hone
  exact absurd heq (by decide)

end MonCTL.CentralScheduler
