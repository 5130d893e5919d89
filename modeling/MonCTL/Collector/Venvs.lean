import MonCTL.Lib.PyValue
import MonCTL.Lib.Runs

/-!
# Shared Virtualenvs

The worker processes of a collector share one directory of virtualenvs, each under the hash of its
requirements. A call of `_ensure_venv` that finds a virtualenv with its marker has its Python
`import pip`; if that fails, it removes the virtualenv and then the marker. Otherwise it creates the
virtualenv, which clears what is there, installs the requirements and writes the marker. The lock
around the creation is that of one process, and the removal is outside of it.

The calls of all processes are interleaved step by step; each step looks at one path, or begins or
ends one change. A process may crash at any time. How a health check ends is open, and so is whether
`venv.create` and `pip` succeed, and whether `rmtree` removes everything. What one hash has under it
is a store; stores have nothing in common but the processes.
-/

namespace MonCTL.Collector.Venvs

open List Option

/-! ### Virtualenvs and calls -/

/-- `_venv_hash`; `sha256` gives the hexadecimal digest. -/
def venvHash (sha256 : String → String) (pythonVersion : String) (requirements : List String) :
    String :=
  String.ofList ((sha256 ("py" ++ pythonVersion ++ "::" ++
    ":".intercalate (requirements.mergeSort fun a b => decide (a ≤ b)))).toList.take 12)

/-- The requirements that `pip` is given: those that are not blank. -/
def safeRequirements (requirements : List String) : List String :=
  requirements.filter fun requirement => !requirement.toList.all isPySpace

/-- A directory `venv`. -/
structure Venv where
  /-- Whether there is a `bin/python`. -/
  python : Bool := false
  /-- The requirements that have been installed, as a whole. -/
  installed : Option (List String) := none

/-- Where a call is. -/
inductive Phase
  /-- Before `venv_dir.exists()`, and after it, before `marker.exists()`. -/
  | start | seen
  /-- Before `python_exe.exists()`, and while the health check runs. -/
  | found | checking
  /-- Before `rmtree`, while it runs, and after it, before the marker is removed. -/
  | corrupt | removing | removed
  /-- Before the lock is taken. -/
  | waiting
  /-- The lock is held: before each of the two checks, and before `_create_venv`. -/
  | locked | lockedSeen | absent
  /-- While `venv.create` runs, while `pip` runs, and before the marker is written. -/
  | clearing | installing | installed
  /-- The virtualenv has been returned, and modules are loaded from it. -/
  | loading
  | done | failed | dead
  deriving DecidableEq

namespace Phase

/-- The virtualenv has been found with its marker, and is going to be returned, or has been. -/
def uses : Phase → Bool
  | found | checking | loading => true
  | _ => false

/-- The virtualenv is being removed. -/
def heals : Phase → Bool
  | removing | removed => true
  | _ => false

/-- The virtualenv is being created. -/
def creates : Phase → Bool
  | clearing | installing | installed => true
  | _ => false

/-- The lock is held. -/
def holdsLock : Phase → Bool
  | locked | lockedSeen | absent | clearing | installing | installed => true
  | _ => false

end Phase

/-- A call of `_ensure_venv`. -/
structure Call where
  process : ℕ
  requirements : List String
  phase : Phase := .start
  /-- Which creation of the virtualenv is the call's own. -/
  generation : ℕ := 0

/-- What is under a hash, and the calls for it. -/
structure Store where
  venv : Option Venv := none
  marker : Bool := false
  /-- How often the virtualenv has been cleared or begun to be removed. -/
  generation : ℕ := 0
  calls : List Call := []
  /-- Of each return, whether the virtualenv was complete then. -/
  returned : List Bool := []
  /-- Of each change that takes something out of the virtualenv, whether another call was loading
  modules from it. -/
  disturbed : List Bool := []

namespace Store

/-- The virtualenv has an installation of requirements with this hash. -/
def Complete (hashOf : List String → String) (hash : String) (s : Store) : Prop :=
  ∃ venv ∈ s.venv, ∃ requirements ∈ venv.installed, hashOf requirements = hash
  deriving Decidable

/-- No other call is at such a phase. -/
def Alone (s : Store) (i : ℕ) (p : Phase → Bool) : Prop :=
  ∀ j < s.calls.length, j ≠ i → ∀ c ∈ s.calls[j]?, p c.phase = false

instance (s : Store) (i : ℕ) (p : Phase → Bool) : Decidable (s.Alone i p) :=
  inferInstanceAs (Decidable (∀ j < s.calls.length, j ≠ i → ∀ c ∈ s.calls[j]?, _))

def Free (s : Store) (process : ℕ) : Prop :=
  ∀ c ∈ s.calls, c.process = process → c.phase.holdsLock = false
  deriving Decidable

def goto (s : Store) (i : ℕ) (c : Call) (phase : Phase) : Store :=
  { s with calls := s.calls.set i { c with phase := phase } }

/-- The call returns the virtualenv, and modules are loaded from it. -/
def giveBack (hashOf : List String → String) (hash : String) (s : Store) (i : ℕ) (c : Call) :
    Store :=
  { s.goto i c .loading with returned := s.returned ++ [decide (s.Complete hashOf hash)] }

/-- Something is taken out of the virtualenv. -/
def disturb (s : Store) (i : ℕ) : Store :=
  { s with disturbed := s.disturbed ++ [decide (¬s.Alone i (· = .loading))] }

/-- The virtualenv as a creation leaves it, unless it has been removed or cleared meanwhile. -/
def update (s : Store) (c : Call) (f : Venv → Venv) : Option Venv :=
  if c.generation = s.generation then s.venv.map f else s.venv

/-- **One step of a call.** The outcome says whether what can fail succeeds. -/
def advance (hashOf : List String → String) (hash : String) (s : Store) (i : ℕ) (c : Call)
    (outcome : Bool) : Option Store :=
  match c.phase with
  | .start => some (s.goto i c (if s.venv.isSome then .seen else .waiting))
  | .seen => some (s.goto i c (if s.marker then .found else .waiting))
  | .found => some (s.goto i c (if s.venv.any (·.python) then .checking else .corrupt))
  | .checking => some (if outcome then s.giveBack hashOf hash i c else s.goto i c .corrupt)
  | .corrupt => some { (s.disturb i).goto i c .removing with
      venv := s.venv.map fun venv => { venv with installed := none }
      generation := s.generation + 1 }
  -- errors of `rmtree` are ignored
  | .removing => some { (s.disturb i).goto i c .removed with
      venv := if outcome then none else s.venv.map fun venv => { venv with installed := none } }
  | .removed => some { s.goto i c .waiting with marker := false }
  | .waiting => if s.Free c.process then some (s.goto i c .locked) else none
  | .locked => some (s.goto i c (if s.venv.isSome then .lockedSeen else .absent))
  | .lockedSeen => some (if s.marker then s.giveBack hashOf hash i c else s.goto i c .absent)
  | .absent =>
    -- a requirement that is not accepted raises
    if outcome then some { s.disturb i with
      venv := some {}
      generation := s.generation + 1
      calls := s.calls.set i { c with phase := .clearing, generation := s.generation + 1 } }
    else some (s.goto i c .failed)
  | .clearing =>
    if outcome then
      if safeRequirements c.requirements = [] then some { s.goto i c .installed with
        venv := s.update c fun _ => { python := true, installed := some c.requirements } }
      else some { s.goto i c .installing with
        venv := s.update c fun venv => { venv with python := true } }
    else some (s.goto i c .failed)
  | .installing =>
    if outcome then some { s.goto i c .installed with
      venv := s.update c fun venv => { venv with installed := some c.requirements } }
    else some (s.goto i c .failed)
  | .installed => some ({ s with marker := true }.giveBack hashOf hash i c)
  | .loading => some (s.goto i c .done)
  | .done | .failed | .dead => none

def crash (s : Store) (process : ℕ) : Store :=
  { s with calls := s.calls.map fun c =>
      if c.process = process then { c with phase := .dead } else c }

end Store

/-! ### The system -/

/-- What happens. -/
inductive Event
  /-- A coroutine of a process calls `_ensure_venv`. -/
  | call (process : ℕ) (requirements : List String)
  /-- A call for a hash makes a step. -/
  | advance (hash : String) (i : ℕ) (outcome : Bool)
  | crash (process : ℕ)

/-- The stores of all hashes. -/
abbrev State : Type := String → Store

/-- The system. -/
def step (hashOf : List String → String) (s : State) : Event → Option State
  | .call process requirements =>
    let hash := hashOf requirements
    some (Function.update s hash
      { s hash with calls := (s hash).calls ++ [{ process, requirements }] })
  | .advance hash i outcome =>
    (s hash).calls[i]?.bind fun c =>
      ((s hash).advance hashOf hash i c outcome).map (Function.update s hash)
  | .crash process => some fun hash => (s hash).crash process

/-- **A returned virtualenv is complete**, and nothing is taken out of it by another call while
modules are loaded from it. -/
structure Sound (s : State) : Prop where
  complete : ∀ hash, ∀ complete ∈ (s hash).returned, complete = true
  undisturbed : ∀ hash, ∀ disturbed ∈ (s hash).disturbed, disturbed = false

/-! ### The condition -/

/-- The condition on a step of a call. -/
def Store.Keeps (s : Store) (i : ℕ) (c : Call) (outcome : Bool) : Prop :=
  match c.phase with
  /- The marker is not found while another call removes the virtualenv. -/
  | .seen | .lockedSeen => s.marker = true → s.Alone i Phase.heals
  /- Removing begins only if no other call uses or creates the virtualenv. -/
  | .corrupt => s.Alone i fun phase => phase.uses || phase.creates
  /- Creating begins only without a marker, and if no other call removes or creates. -/
  | .absent => outcome = true → s.marker = false ∧
      s.Alone i fun phase => phase.heals || phase.creates
  | _ => True

instance (s : Store) (i : ℕ) (c : Call) (outcome : Bool) : Decidable (s.Keeps i c outcome) := by
  unfold Store.Keeps
  split <;> infer_instance

/-- **The condition on steps.** -/
def Keeps (s : State) : Event → Prop
  | .call _ _ => True
  | .advance hash i outcome => ∀ c ∈ (s hash).calls[i]?, (s hash).Keeps i c outcome
  /- No call of the process removes a virtualenv. -/
  | .crash process => ∀ hash, ∀ c ∈ (s hash).calls, c.process = process → c.phase.heals = false

/-! ### The invariant -/

/-- What holds of a store after every run under the condition. -/
structure Store.Inv (hashOf : List String → String) (hash : String) (s : Store) : Prop where
  hashes : ∀ c ∈ s.calls, hashOf c.requirements = hash
  /-- With a marker that nobody is going to remove, the virtualenv is complete. -/
  marked : s.marker = true → (∀ c ∈ s.calls, c.phase.heals = false) → s.Complete hashOf hash
  uses : ∀ c ∈ s.calls, c.phase.uses = true →
    s.marker = true ∧ ∀ d ∈ s.calls, d.phase.heals = false
  creates : ∀ c ∈ s.calls, c.phase.creates = true →
    s.marker = false ∧ (∀ d ∈ s.calls, d.phase.heals = false) ∧
      c.generation = s.generation ∧ s.venv.isSome
  /-- One call at most creates the virtualenv. -/
  one : ∀ (i j : ℕ) (c d : Call), s.calls[i]? = some c → s.calls[j]? = some d →
    c.phase.creates = true → d.phase.creates = true → i = j
  installed : ∀ c ∈ s.calls, c.phase = .installed → s.Complete hashOf hash
  complete : ∀ complete ∈ s.returned, complete = true
  undisturbed : ∀ disturbed ∈ s.disturbed, disturbed = false

section

variable {hashOf : List String → String} {hash : String} {s : Store} {i : ℕ} {c : Call} {c' : Call}
  {d : Call}

theorem mem_set (hd : d ∈ s.calls.set i c') : d = c' ∨ ∃ j, j ≠ i ∧ s.calls[j]? = some d := by
  obtain ⟨j, hj⟩ := List.mem_iff_getElem?.1 hd
  rw [getElem?_set] at hj
  split at hj
  next hij =>
    split at hj
    · exact .inl (some.inj hj).symm
    · cases hj
  next hij => exact .inr ⟨j, Ne.symm hij, hj⟩

/-- What holds of all calls after a change of one of them, and of that one before, holds of all
before. -/
theorem forall_of_set {P : Call → Prop} (h : ∀ d ∈ s.calls.set i c', P d)
    (hi : s.calls[i]? = some c) (hc : P c) : ∀ d ∈ s.calls, P d := by
  intro d hd
  obtain ⟨j, hj⟩ := List.mem_iff_getElem?.1 hd
  by_cases hji : j = i
  · subst hji
    exact some.inj (hi.symm.trans hj) ▸ hc
  · refine h d (mem_of_getElem? (i := j) ?_)
    rw [getElem?_set_ne (Ne.symm hji), hj]

variable {p : Phase → Bool}

theorem Store.Alone.eq_false (h : s.Alone i p) {j : ℕ} (hji : j ≠ i)
    (hj : s.calls[j]? = some d) : p d.phase = false := by
  obtain ⟨hlt, -⟩ := List.getElem?_eq_some_iff.1 hj
  exact h j hlt hji d hj

theorem Store.Alone.forall (h : s.Alone i p) (hi : s.calls[i]? = some c)
    (hc : p c.phase = false) : ∀ d ∈ s.calls, p d.phase = false := by
  intro d hd
  obtain ⟨j, hj⟩ := List.mem_iff_getElem?.1 hd
  by_cases hji : j = i
  · subst hji
    exact some.inj (hi.symm.trans hj) ▸ hc
  · exact h.eq_false hji hj

namespace Store.Inv

variable {c' : Call}

theorem one_set (hinv : s.Inv hashOf hash) (hc' : c'.phase.creates = true →
      ∀ (j : ℕ) (d : Call), j ≠ i → s.calls[j]? = some d → d.phase.creates = false) :
    ∀ (j k : ℕ) (d e : Call), (s.calls.set i c')[j]? = some d → (s.calls.set i c')[k]? = some e →
      d.phase.creates = true → e.phase.creates = true → j = k := by
  intro j k d e hj hk hd he
  rw [getElem?_set] at hj hk
  by_cases hij : i = j <;> by_cases hik : i = k
  · exact hij.symm.trans hik
  · rw [if_pos hij] at hj
    rw [if_neg hik] at hk
    split at hj
    · obtain rfl := some.inj hj
      rw [hc' hd k e (Ne.symm hik) hk] at he
      cases he
    · cases hj
  · rw [if_neg hij] at hj
    rw [if_pos hik] at hk
    split at hk
    · obtain rfl := some.inj hk
      rw [hc' he j d (Ne.symm hij) hj] at hd
      cases hd
    · cases hk
  · rw [if_neg hij] at hj
    rw [if_neg hik] at hk
    exact hinv.one j k d e hj hk hd he

theorem hashes_set (hinv : s.Inv hashOf hash) (hi : s.calls[i]? = some c)
    (hc' : c'.requirements = c.requirements) :
    ∀ d ∈ s.calls.set i c', hashOf d.requirements = hash := by
  intro d hd
  rcases mem_or_eq_of_mem_set hd with hd | rfl
  · exact hinv.hashes d hd
  · rw [hc']
    exact hinv.hashes c (mem_of_getElem? hi)

theorem goto (hinv : s.Inv hashOf hash) (hi : s.calls[i]? = some c)
    (hheals : c.phase.heals = false) (phase : Phase) (h₁ : phase.heals = false)
    (h₂ : phase.creates = false)
    (h₃ : phase.uses = true → s.marker = true ∧ ∀ d ∈ s.calls, d.phase.heals = false) :
    (s.goto i c phase).Inv hashOf hash := by
  have hnone : (∀ d ∈ s.calls, d.phase.heals = false) →
      ∀ d ∈ s.calls.set i { c with phase := phase }, d.phase.heals = false := by
    intro h d hd
    rcases mem_or_eq_of_mem_set hd with hd | rfl
    · exact h d hd
    · exact h₁
  have hold : ∀ d ∈ s.calls.set i { c with phase := phase }, d.phase.creates = true →
      d ∈ s.calls := by
    intro d hd hcreates
    rcases mem_or_eq_of_mem_set hd with hd | rfl
    · exact hd
    · rw [h₂] at hcreates
      cases hcreates
  exact
    { hashes := hinv.hashes_set hi rfl
      marked := fun hmarker hheal => hinv.marked hmarker (forall_of_set hheal hi hheals)
      uses := fun d hd huses => by
        rcases mem_or_eq_of_mem_set hd with hd | rfl
        · exact ⟨(hinv.uses d hd huses).1, hnone (hinv.uses d hd huses).2⟩
        · exact ⟨(h₃ huses).1, hnone (h₃ huses).2⟩
      creates := fun d hd hcreates => by
        obtain ⟨hmarker, hheal, hrest⟩ := hinv.creates d (hold d hd hcreates) hcreates
        exact ⟨hmarker, hnone hheal, hrest⟩
      one := hinv.one_set fun hcreates => by
        rw [h₂] at hcreates
        cases hcreates
      installed := fun d hd hphase => hinv.installed d (hold d hd (by rw [hphase]; rfl)) hphase
      complete := hinv.complete
      undisturbed := hinv.undisturbed }

theorem giveBack (hinv : s.Inv hashOf hash) (hi : s.calls[i]? = some c)
    (hmarker : s.marker = true) (hnone : ∀ d ∈ s.calls, d.phase.heals = false) :
    (s.giveBack hashOf hash i c).Inv hashOf hash := by
  have hgoto := hinv.goto hi (hnone c (mem_of_getElem? hi)) .loading rfl rfl
    fun _ => ⟨hmarker, hnone⟩
  refine { hgoto with complete := ?_ }
  intro complete hcomplete
  rcases List.mem_append.1 hcomplete with hcomplete | hcomplete
  · exact hinv.complete complete hcomplete
  · obtain rfl := List.mem_singleton.1 hcomplete
    exact decide_eq_true (hinv.marked hmarker hnone)

theorem alone_of_heals (hinv : s.Inv hashOf hash) (hi : s.calls[i]? = some c)
    (hheals : c.phase.heals = true) : s.Alone i fun phase => phase.uses || phase.creates := by
  intro j _ _ d hj
  have hc := mem_of_getElem? hi
  have hd := mem_of_getElem? hj
  refine Bool.eq_false_iff.2 fun h => ?_
  rcases Bool.or_eq_true_iff.1 h with huses | hcreates
  · rw [(hinv.uses d hd huses).2 c hc] at hheals
    cases hheals
  · rw [(hinv.creates d hd hcreates).2.1 c hc] at hheals
    cases hheals

/-- Where nobody else uses or creates the virtualenv, a call may do with it what it wants, as long
as there is no marker or it goes on removing. -/
theorem alone (hinv : s.Inv hashOf hash) (hi : s.calls[i]? = some c)
    (halone : s.Alone i fun phase => phase.uses || phase.creates) (phase : Phase)
    (h₁ : phase.uses = false) (h₂ : phase.creates = false) {t : Store}
    (hcalls : t.calls = s.calls.set i { c with phase := phase })
    (hmarked : t.marker = true → phase.heals = true)
    (hreturned : t.returned = s.returned)
    (hdisturbed : ∀ disturbed ∈ t.disturbed, disturbed = false) : t.Inv hashOf hash := by
  have hother : ∀ d ∈ t.calls, d.phase.uses = false ∧ d.phase.creates = false := by
    intro d hd
    rw [hcalls] at hd
    rcases mem_set hd with rfl | ⟨j, hji, hj⟩
    · exact ⟨h₁, h₂⟩
    · exact Bool.or_eq_false_iff.1 (halone.eq_false hji hj)
  have hcreates {d : Call} (hd : d ∈ t.calls) (h : d.phase.creates = true) : False := by
    rw [(hother d hd).2] at h
    cases h
  exact
    { hashes := by
        rw [hcalls]
        exact hinv.hashes_set hi rfl
      marked := fun hmarker hnone => by
        have hself : { c with phase := phase } ∈ t.calls := by
          rw [hcalls]
          exact List.mem_set (List.getElem?_eq_some_iff.1 hi).1 _
        have hheals := hmarked hmarker
        rw [show phase.heals = false from hnone _ hself] at hheals
        cases hheals
      uses := fun d hd huses => by
        rw [(hother d hd).1] at huses
        cases huses
      creates := fun d hd h => (hcreates hd h).elim
      one := fun _ _ d _ hj _ h _ => (hcreates (mem_of_getElem? hj) h).elim
      installed := fun d hd hphase => (hcreates hd (by rw [hphase]; rfl)).elim
      complete := by
        rw [hreturned]
        exact hinv.complete
      undisturbed := hdisturbed }

theorem disturb (hinv : s.Inv hashOf hash)
    (halone : ∀ j d, j ≠ i → s.calls[j]? = some d → d.phase ≠ .loading) :
    ∀ disturbed ∈ (s.disturb i).disturbed, disturbed = false := by
  intro disturbed hd
  rcases List.mem_append.1 hd with hd | hd
  · exact hinv.undisturbed disturbed hd
  · obtain rfl := List.mem_singleton.1 hd
    refine decide_eq_false fun h => h fun j _ hji d hj => decide_eq_false (halone j d hji hj)

theorem ne_loading {phase : Phase} (h : (phase.uses || phase.creates) = false) :
    phase ≠ .loading := by
  rintro rfl
  cases h

theorem clear (hinv : s.Inv hashOf hash) (hi : s.calls[i]? = some c) (hmarker : s.marker = false)
    (halone : s.Alone i fun phase => phase.heals || phase.creates)
    (hc' : c' = { c with phase := .clearing, generation := s.generation + 1 }) :
    Store.Inv hashOf hash { s.disturb i with
      venv := some {}
      generation := s.generation + 1
      calls := s.calls.set i c' } := by
  have hother : ∀ d ∈ s.calls.set i c', d = c' ∨ d ∈ s.calls ∧ d.phase.creates = false := by
    intro d hd
    rcases mem_set hd with rfl | ⟨j, hji, hj⟩
    · exact .inl rfl
    · exact .inr ⟨mem_of_getElem? hj, (Bool.or_eq_false_iff.1 (halone.eq_false hji hj)).2⟩
  have hnone : ∀ d ∈ s.calls.set i c', d.phase.heals = false := by
    intro d hd
    rcases mem_set hd with rfl | ⟨j, hji, hj⟩
    · rw [hc']
      rfl
    · exact (Bool.or_eq_false_iff.1 (halone.eq_false hji hj)).1
  have huses {d : Call} (hd : d ∈ s.calls) (h : d.phase.uses = true) : False := by
    have hthere := (hinv.uses d hd h).1
    rw [hmarker] at hthere
    cases hthere
  exact
    { hashes := hinv.hashes_set hi (by rw [hc'])
      marked := fun h => by
        rw [show s.marker = true from h] at hmarker
        cases hmarker
      uses := fun d hd h => by
        rcases hother d hd with rfl | ⟨hd, -⟩
        · rw [hc'] at h
          cases h
        · exact (huses hd h).elim
      creates := fun d hd h => by
        rcases hother d hd with rfl | ⟨-, hcreates⟩
        · exact ⟨hmarker, hnone, by rw [hc'], rfl⟩
        · rw [hcreates] at h
          cases h
      one := hinv.one_set fun _ j d hji hj => (Bool.or_eq_false_iff.1 (halone.eq_false hji hj)).2
      installed := fun d hd h => by
        rcases hother d hd with rfl | ⟨-, hcreates⟩
        · rw [hc'] at h
          cases h
        · rw [h] at hcreates
          cases hcreates
      complete := hinv.complete
      undisturbed := hinv.disturb fun j d _ hj hloading =>
        huses (mem_of_getElem? hj) (by rw [hloading]; rfl) }

theorem create (hinv : s.Inv hashOf hash) (hi : s.calls[i]? = some c)
    (hcreates : c.phase.creates = true) (phase : Phase) (h₁ : phase.creates = true)
    {f : Venv → Venv} (hf : phase = .installed → ∀ venv, (f venv).installed = some c.requirements) :
    Store.Inv hashOf hash { s.goto i c phase with venv := s.update c f } := by
  have hc := mem_of_getElem? hi
  obtain ⟨hmarker, hnone, hgeneration, hsome⟩ := hinv.creates c hc hcreates
  have hvenv : s.update c f = s.venv.map f := if_pos hgeneration
  obtain ⟨hheals, huses⟩ : phase.heals = false ∧ phase.uses = false := by
    cases phase <;> first | exact ⟨rfl, rfl⟩ | cases h₁
  have hnone' : ∀ d ∈ s.calls.set i { c with phase := phase }, d.phase.heals = false := by
    intro d hd
    rcases mem_or_eq_of_mem_set hd with hd | rfl
    · exact hnone d hd
    · exact hheals
  have hother {j : ℕ} {d : Call} (hji : j ≠ i) (hj : s.calls[j]? = some d) :
      d.phase.creates = false :=
    Bool.eq_false_iff.2 fun h => hji (hinv.one j i d c hj hi h hcreates)
  exact
    { hashes := hinv.hashes_set hi rfl
      marked := fun h => by
        rw [show s.marker = true from h] at hmarker
        cases hmarker
      uses := fun d hd h => by
        rcases mem_or_eq_of_mem_set hd with hd | rfl
        · exact ⟨(hinv.uses d hd h).1, hnone'⟩
        · rw [show phase.uses = true from h] at huses
          cases huses
      creates := fun d hd h => by
        rcases mem_set hd with rfl | ⟨j, hji, hj⟩
        · refine ⟨hmarker, hnone', hgeneration, ?_⟩
          rw [hvenv, Option.isSome_map]
          exact hsome
        · rw [hother hji hj] at h
          cases h
      one := hinv.one_set fun _ j d hji hj => hother hji hj
      installed := fun d hd h => by
        rcases mem_set hd with rfl | ⟨j, hji, hj⟩
        · obtain ⟨venv, hthere⟩ := isSome_iff_exists.1 hsome
          refine ⟨f venv, ?_, c.requirements, hf h venv, hinv.hashes c hc⟩
          rw [hvenv, hthere]
          rfl
        · have hd := hother hji hj
          rw [h] at hd
          cases hd
      complete := hinv.complete
      undisturbed := hinv.undisturbed }

theorem finish (hinv : s.Inv hashOf hash) (hi : s.calls[i]? = some c)
    (hphase : c.phase = .installed) :
    (Store.giveBack hashOf hash { s with marker := true } i c).Inv hashOf hash := by
  have hc := mem_of_getElem? hi
  have hcreates : c.phase.creates = true := by
    rw [hphase]
    rfl
  obtain ⟨hmarker, hnone, -, -⟩ := hinv.creates c hc hcreates
  have hcomplete : s.Complete hashOf hash := hinv.installed c hc hphase
  have hnone' : ∀ d ∈ s.calls.set i { c with phase := .loading }, d.phase.heals = false := by
    intro d hd
    rcases mem_or_eq_of_mem_set hd with hd | rfl
    · exact hnone d hd
    · rfl
  have hother : ∀ d ∈ s.calls.set i { c with phase := .loading }, d.phase.creates = false := by
    intro d hd
    rcases mem_set hd with rfl | ⟨j, hji, hj⟩
    · rfl
    · exact Bool.eq_false_iff.2 fun h => hji (hinv.one j i d c hj hi h hcreates)
  exact
    { hashes := hinv.hashes_set hi rfl
      marked := fun _ _ => hcomplete
      uses := fun _ _ _ => ⟨rfl, hnone'⟩
      creates := fun d hd h => by
        rw [hother d hd] at h
        cases h
      one := fun _ _ d _ hj _ h _ => by
        rw [hother d (mem_of_getElem? hj)] at h
        cases h
      installed := fun _ _ _ => hcomplete
      complete := fun complete h => by
        rcases List.mem_append.1 h with h | h
        · exact hinv.complete complete h
        · obtain rfl := List.mem_singleton.1 h
          exact decide_eq_true hcomplete
      undisturbed := hinv.undisturbed }

end Store.Inv

/-- **A step of a call keeps the invariant.** -/
theorem Store.Inv.advance {s' : Store} {outcome : Bool} (hinv : s.Inv hashOf hash)
    (hi : s.calls[i]? = some c) (hk : s.Keeps i c outcome)
    (hs : s.advance hashOf hash i c outcome = some s') : s'.Inv hashOf hash := by
  have hc := mem_of_getElem? hi
  rw [Store.advance] at hs
  cases hphase : c.phase with
  | start =>
    rw [hphase] at hs
    cases hs
    cases s.venv.isSome
    · exact hinv.goto hi (by rw [hphase]; rfl) .waiting rfl rfl fun h => by cases h
    · exact hinv.goto hi (by rw [hphase]; rfl) .seen rfl rfl fun h => by cases h
  | seen =>
    rw [Store.Keeps, hphase] at hk
    rw [hphase] at hs
    cases hs
    cases hmarker : s.marker
    · exact hinv.goto hi (by rw [hphase]; rfl) .waiting rfl rfl fun h => by cases h
    · exact hinv.goto hi (by rw [hphase]; rfl) .found rfl rfl fun _ =>
        ⟨hmarker, (hk hmarker).forall hi (by rw [hphase]; rfl)⟩
  | found =>
    rw [hphase] at hs
    cases hs
    cases s.venv.any (·.python)
    · exact hinv.goto hi (by rw [hphase]; rfl) .corrupt rfl rfl fun h => by cases h
    · exact hinv.goto hi (by rw [hphase]; rfl) .checking rfl rfl fun _ =>
        hinv.uses c hc (by rw [hphase]; rfl)
  | checking =>
    obtain ⟨hmarker, hnone⟩ := hinv.uses c hc (by rw [hphase]; rfl)
    rw [hphase] at hs
    cases hs
    cases outcome
    · exact hinv.goto hi (by rw [hphase]; rfl) .corrupt rfl rfl fun h => by cases h
    · exact hinv.giveBack hi hmarker hnone
  | corrupt =>
    rw [Store.Keeps, hphase] at hk
    rw [hphase] at hs
    cases hs
    exact hinv.alone hi hk .removing rfl rfl rfl (fun _ => rfl) rfl
      (hinv.disturb fun j d hji hj => Store.Inv.ne_loading (hk.eq_false hji hj))
  | removing =>
    have halone := hinv.alone_of_heals hi (by rw [hphase]; rfl)
    rw [hphase] at hs
    cases hs
    exact hinv.alone hi halone .removed rfl rfl rfl (fun _ => rfl) rfl
      (hinv.disturb fun j d hji hj => Store.Inv.ne_loading (halone.eq_false hji hj))
  | removed =>
    have halone := hinv.alone_of_heals hi (by rw [hphase]; rfl)
    rw [hphase] at hs
    cases hs
    exact hinv.alone hi halone .waiting rfl rfl rfl (fun h => by cases h) rfl
      hinv.undisturbed
  | waiting =>
    rw [hphase] at hs
    dsimp only at hs
    split at hs
    · cases hs
      exact hinv.goto hi (by rw [hphase]; rfl) .locked rfl rfl fun h => by cases h
    · cases hs
  | locked =>
    rw [hphase] at hs
    cases hs
    cases s.venv.isSome
    · exact hinv.goto hi (by rw [hphase]; rfl) .absent rfl rfl fun h => by cases h
    · exact hinv.goto hi (by rw [hphase]; rfl) .lockedSeen rfl rfl fun h => by cases h
  | lockedSeen =>
    rw [Store.Keeps, hphase] at hk
    rw [hphase] at hs
    cases hs
    cases hmarker : s.marker
    · exact hinv.goto hi (by rw [hphase]; rfl) .absent rfl rfl fun h => by cases h
    · exact hinv.giveBack hi hmarker ((hk hmarker).forall hi (by rw [hphase]; rfl))
  | absent =>
    rw [Store.Keeps, hphase] at hk
    rw [hphase] at hs
    dsimp only at hs
    split at hs
    next houtcome =>
      cases hs
      obtain ⟨hmarker, halone⟩ := hk houtcome
      exact hinv.clear hi hmarker halone rfl
    · cases hs
      exact hinv.goto hi (by rw [hphase]; rfl) .failed rfl rfl fun h => by cases h
  | clearing =>
    have hcreates : c.phase.creates = true := by
      rw [hphase]
      rfl
    rw [hphase] at hs
    dsimp only at hs
    split at hs
    · split at hs
      · cases hs
        exact hinv.create hi hcreates .installed rfl fun _ _ => rfl
      · cases hs
        exact hinv.create hi hcreates .installing rfl fun h => by cases h
    · cases hs
      exact hinv.goto hi (by rw [hphase]; rfl) .failed rfl rfl fun h => by cases h
  | installing =>
    have hcreates : c.phase.creates = true := by
      rw [hphase]
      rfl
    rw [hphase] at hs
    dsimp only at hs
    split at hs
    · cases hs
      exact hinv.create hi hcreates .installed rfl fun _ _ => rfl
    · cases hs
      exact hinv.goto hi (by rw [hphase]; rfl) .failed rfl rfl fun h => by cases h
  | installed =>
    rw [hphase] at hs
    cases hs
    exact hinv.finish hi hphase
  | loading =>
    rw [hphase] at hs
    cases hs
    exact hinv.goto hi (by rw [hphase]; rfl) .done rfl rfl fun h => by cases h
  | done | failed | dead =>
    rw [hphase] at hs
    cases hs

theorem Store.Inv.crash (hinv : s.Inv hashOf hash) {process : ℕ}
    (hk : ∀ c ∈ s.calls, c.process = process → c.phase.heals = false) :
    (s.crash process).Inv hashOf hash := by
  -- a call that is somewhere after the crash was there before it
  have hold : ∀ c d : Call,
      (if c.process = process then { c with phase := Phase.dead } else c) = d →
      d = c ∧ c.process ≠ process ∨ d.phase = .dead ∧ d.requirements = c.requirements := by
    intro c d h
    split at h
    · exact h ▸ .inr ⟨rfl, rfl⟩
    next hne => exact h ▸ .inl ⟨rfl, hne⟩
  have hlive {d : Call} (hd : d ∈ (s.crash process).calls) (hdead : d.phase ≠ .dead) :
      d ∈ s.calls := by
    obtain ⟨c, hc, h⟩ := List.mem_map.1 hd
    rcases hold c d h with ⟨rfl, -⟩ | ⟨h, -⟩
    · exact hc
    · exact absurd h hdead
  have hnone (h : ∀ d ∈ s.calls, d.phase.heals = false) :
      ∀ d ∈ (s.crash process).calls, d.phase.heals = false := by
    intro d hd
    by_cases hdead : d.phase = .dead
    · rw [hdead]
      rfl
    · exact h d (hlive hd hdead)
  have hne {p : Phase → Bool} {d : Call} (hp : p .dead = false) (h : p d.phase = true) :
      d.phase ≠ .dead := by
    intro hdead
    rw [hdead, hp] at h
    cases h
  exact
    { hashes := fun d hd => by
        obtain ⟨c, hc, h⟩ := List.mem_map.1 hd
        rcases hold c d h with ⟨rfl, -⟩ | ⟨-, hrequirements⟩
        · exact hinv.hashes d hc
        · rw [hrequirements]
          exact hinv.hashes c hc
      marked := fun hmarker h => by
        refine hinv.marked hmarker fun c hc => ?_
        by_cases hprocess : c.process = process
        · exact hk c hc hprocess
        · exact h c (List.mem_map.2 ⟨c, hc, if_neg hprocess⟩)
      uses := fun d hd h => by
        obtain ⟨hmarker, hheals⟩ := hinv.uses d (hlive hd (hne rfl h)) h
        exact ⟨hmarker, hnone hheals⟩
      creates := fun d hd h => by
        obtain ⟨hmarker, hheals, hrest⟩ := hinv.creates d (hlive hd (hne rfl h)) h
        exact ⟨hmarker, hnone hheals, hrest⟩
      one := fun j k d e hj hk' hd he => by
        rw [Store.crash, getElem?_map, map_eq_some_iff] at hj hk'
        obtain ⟨c, hc, hcd⟩ := hj
        obtain ⟨c', hc', hce⟩ := hk'
        rcases hold c d hcd with ⟨rfl, -⟩ | ⟨hdead, -⟩
        · rcases hold c' e hce with ⟨rfl, -⟩ | ⟨hdead, -⟩
          · exact hinv.one j k d e hc hc' hd he
          · exact absurd hdead (hne rfl he)
        · exact absurd hdead (hne rfl hd)
      installed := fun d hd h => hinv.installed d (hlive hd (by rw [h]; exact Phase.noConfusion)) h
      complete := hinv.complete
      undisturbed := hinv.undisturbed }

theorem Store.Inv.call (hinv : s.Inv hashOf hash)
    (hhash : hashOf c'.requirements = hash) (hstart : c'.phase = .start) :
    Store.Inv hashOf hash { s with calls := s.calls ++ [c'] } := by
  have hold {d : Call} (hd : d ∈ s.calls ++ [c']) : d ∈ s.calls ∨ d = c' := by
    rcases List.mem_append.1 hd with hd | hd
    · exact .inl hd
    · exact .inr (List.mem_singleton.1 hd)
  have hne {p : Phase → Bool} (hp : p .start = false) (h : p c'.phase = true) : False := by
    rw [hstart, hp] at h
    cases h
  have hnone (h : ∀ d ∈ s.calls, d.phase.heals = false) :
      ∀ d ∈ s.calls ++ [c'], d.phase.heals = false := by
    intro d hd
    rcases hold hd with hd | rfl
    · exact h d hd
    · rw [hstart]
      rfl
  have hindex {j : ℕ} {d : Call} (hj : (s.calls ++ [c'])[j]? = some d)
      (hd : d.phase.creates = true) : s.calls[j]? = some d := by
    by_cases hlt : j < s.calls.length
    · rwa [getElem?_append_left hlt] at hj
    · rw [getElem?_append_right (Nat.not_lt.1 hlt)] at hj
      obtain rfl := List.mem_singleton.1 (mem_of_getElem? hj)
      exact (hne rfl hd).elim
  exact
    { hashes := fun d hd => by
        rcases hold hd with hd | rfl
        · exact hinv.hashes d hd
        · exact hhash
      marked := fun hmarker h => hinv.marked hmarker fun d hd => h d (mem_append_left _ hd)
      uses := fun d hd h => by
        rcases hold hd with hd | rfl
        · exact ⟨(hinv.uses d hd h).1, hnone (hinv.uses d hd h).2⟩
        · exact (hne rfl h).elim
      creates := fun d hd h => by
        rcases hold hd with hd | rfl
        · obtain ⟨hmarker, hheals, hrest⟩ := hinv.creates d hd h
          exact ⟨hmarker, hnone hheals, hrest⟩
        · exact (hne rfl h).elim
      one := fun j k d e hj hk hd he => hinv.one j k d e (hindex hj hd) (hindex hk he) hd he
      installed := fun d hd h => by
        rcases hold hd with hd | rfl
        · exact hinv.installed d hd h
        · rw [hstart] at h
          cases h
      complete := hinv.complete
      undisturbed := hinv.undisturbed }

end

theorem Store.Inv.start (hashOf : List String → String) (hash : String) :
    Store.Inv hashOf hash {} where
  hashes _ h := absurd h not_mem_nil
  marked h := by cases h
  uses _ h := absurd h not_mem_nil
  creates _ h := absurd h not_mem_nil
  one _ _ _ _ h := by cases h
  installed _ h := absurd h not_mem_nil
  complete _ h := absurd h not_mem_nil
  undisturbed _ h := absurd h not_mem_nil

/-- What holds after every run under the condition. -/
def Inv (hashOf : List String → String) (s : State) : Prop := ∀ hash, (s hash).Inv hashOf hash

variable {s : State} {hashOf : List String → String}

theorem Inv.update (hinv : Inv hashOf s) {hash : String}
    {store : Store} (h : store.Inv hashOf hash) : Inv hashOf (Function.update s hash store) := by
  intro other
  by_cases heq : other = hash
  · subst heq
    rw [Function.update_self]
    exact h
  · rw [Function.update_of_ne heq]
    exact hinv other

variable {e : Event}

theorem Inv.step {s' : State} (hinv : Inv hashOf s)
    (hk : Keeps s e) (hs : step hashOf s e = some s') : Inv hashOf s' := by
  cases e with
  | call process requirements =>
    cases hs
    exact hinv.update ((hinv _).call rfl rfl)
  | advance hash i outcome =>
    obtain ⟨c, hc, hs⟩ := bind_eq_some_iff.1 hs
    obtain ⟨store, hstore, rfl⟩ := map_eq_some_iff.1 hs
    exact hinv.update ((hinv hash).advance hc (hk c hc) hstore)
  | crash process =>
    cases hs
    exact fun hash => (hinv hash).crash (hk hash)

/-- The stores at the start: there is nothing. -/
def init : State := fun _ => {}

/-- **What was returned was complete, and nothing was taken out of it** while modules were loaded
from it, after runs under the condition. -/
theorem sound_of_run {hashOf : List String → String} {s : State}
    (h : Run (step hashOf) Keeps init s) : Sound s := by
  have hinv : Inv hashOf s := h.invariant (Store.Inv.start hashOf) fun hinv hk hs => hinv.step hk hs
  exact ⟨fun hash => (hinv hash).complete, fun hash => (hinv hash).undisturbed⟩

/-! ### Two processes -/

/-- The condition on a step that is no crash. -/
def KeepsAlive (s : State) : Event → Prop
  | .call _ _ => True
  | .advance hash i outcome => ∀ c ∈ (s hash).calls[i]?, (s hash).Keeps i c outcome
  | .crash _ => False

instance (s : State) : ∀ e, Decidable (KeepsAlive s e)
  | .call _ _ => isTrue trivial
  | .advance hash i outcome =>
    inferInstanceAs (Decidable (∀ c ∈ (s hash).calls[i]?, (s hash).Keeps i c outcome))
  | .crash _ => isFalse id

theorem keeps_of_keepsAlive (h : KeepsAlive s e) : Keeps s e := by
  cases e with
  | call => trivial
  | advance => exact h
  | crash => exact h.elim

/-- A call goes on for some steps in which all succeeds. -/
def advances (hash : String) (i n : ℕ) : List Event :=
  List.replicate n (.advance hash i true)

/-- The hash of one requirement. -/
def hashOne : List String → String := venvHash id "3.12"

/-- A call creates a virtualenv, and when its modules are loaded another process finds it corrupt,
and creates it again. -/
theorem sound_inTurn : ∃ s ∈ replay (step hashOne) KeepsAlive init
    (.call 1 ["requests"] :: advances "py3.12::requ" 0 8 ++
      .call 2 ["requests"] :: advances "py3.12::requ" 1 3 ++
      .advance "py3.12::requ" 1 false :: advances "py3.12::requ" 1 10),
    Sound s ∧ (s "py3.12::requ").returned = [true, true] := by
  have hrun : ∃ s ∈ replay (step hashOne) KeepsAlive init
      (.call 1 ["requests"] :: advances "py3.12::requ" 0 8 ++
        .call 2 ["requests"] :: advances "py3.12::requ" 1 3 ++
        .advance "py3.12::requ" 1 false :: advances "py3.12::requ" 1 10),
      (s "py3.12::requ").returned = [true, true] := by decide +kernel
  obtain ⟨s, hs, hreturned⟩ := hrun
  have hkeeps : Run (step hashOne) Keeps init s :=
    (run_of_replay hs).mono fun _ _ => keeps_of_keepsAlive
  exact ⟨s, hs, sound_of_run hkeeps, hreturned⟩

/-- **A returned virtualenv need not be complete, nor be left alone**: two processes both find none,
and the second clears what the first is installing into, which then returns it; and a health check
that fails has a virtualenv removed that another process is loading from. -/
theorem not_sound :
    (∃ s, Run (step hashOne) (fun _ _ => True) init s ∧ (s "py3.12::requ").returned = [false] ∧
      ¬Sound s) ∧
    ∃ s, Run (step hashOne) (fun _ _ => True) init s ∧ (s "py3.12::requ").returned = [true] ∧
      (s "py3.12::requ").disturbed = [false, true] ∧ ¬Sound s := by
  have hcleared : ∃ s ∈ replay (step hashOne) (fun _ _ => True) init
      ([.call 1 ["requests"], .call 2 ["requests"]] ++ advances "py3.12::requ" 1 3 ++
        advances "py3.12::requ" 0 5 ++ advances "py3.12::requ" 1 1 ++
        advances "py3.12::requ" 0 2),
      (s "py3.12::requ").returned = [false] := by decide +kernel
  have hremoved : ∃ s ∈ replay (step hashOne) (fun _ _ => True) init
      (.call 1 ["requests"] :: advances "py3.12::requ" 0 7 ++
        .call 2 ["requests"] :: advances "py3.12::requ" 1 3 ++
        .advance "py3.12::requ" 1 false :: advances "py3.12::requ" 1 1),
      (s "py3.12::requ").returned = [true] ∧
        (s "py3.12::requ").disturbed = [false, true] := by decide +kernel
  constructor
  · obtain ⟨s, hs, hreturned⟩ := hcleared
    have hmem : false ∈ (s "py3.12::requ").returned := by
      rw [hreturned]
      exact mem_singleton_self false
    exact ⟨s, run_of_replay hs, hreturned, fun h => Bool.false_ne_true (h.complete _ false hmem)⟩
  · obtain ⟨s, hs, hreturned, hdisturbed⟩ := hremoved
    have hmem : true ∈ (s "py3.12::requ").disturbed := by
      rw [hdisturbed]
      exact mem_cons_of_mem _ (mem_singleton_self true)
    exact ⟨s, run_of_replay hs, hreturned, hdisturbed, fun h =>
      Bool.false_ne_true (h.undisturbed _ true hmem).symm⟩

end MonCTL.Collector.Venvs
