import MonCTL.CentralScheduler.SystemHealth
import MonCTL.Lib.Runs

/-!
# System Health Alerts

The leader's cycles of system health, one after another, with whatever their probes find and whether
or not the alert log takes the records of a cycle. The states are kept in Redis, and moved before
the records are written.

A cycle could evaluate a key when it made a check of it. Whether Patroni is reachable shows also
when a node answers, though no check is made then.
-/

namespace MonCTL.CentralScheduler.SystemHealth

open List

/-- What a cycle meets. -/
structure CycleInput where
  /-- There are a ClickHouse client and a Redis client. -/
  clickhouse : Bool
  redis : Bool
  probes : Probes
  /-- The alert log takes what is inserted. -/
  accepted : Bool

/-- A cycle that was evaluated, and the records it has written. -/
structure Cycle where
  probes : Probes
  written : List AlertRecord

/-- The stored states, and the evaluated cycles, the last one first. -/
structure State where
  states : String → AlertState := fun _ => .ok
  cycles : List Cycle := []

/-- **A cycle**, `_evaluate_system_health`. -/
def evaluateSystemHealth (s : State) (i : CycleInput) : State :=
  if !i.clickhouse then s
  else if !i.redis then s
  else
    let processed := processChecks (checks i.probes) s.states
    { states := processed.1
      cycles := ⟨i.probes, if i.accepted then processed.2 else []⟩ :: s.cycles }

def step (s : State) (i : CycleInput) : Option State := some (evaluateSystemHealth s i)

/-! ### What is to hold -/

/-- Some check of the key is breached. -/
def Breached (key : String) (p : Probes) : Prop :=
  ∃ c ∈ checks p, c.entityKey = key ∧ c.breached = true
  deriving Decidable

def Evaluates (key : String) (p : Probes) : Prop :=
  (∃ c ∈ checks p, c.entityKey = key) ∨
    key = "patroni|unreachable" ∧ (fetchCluster p.patroni).isSome
  deriving Decidable

/-- Some check of the key was breached in the last cycle that could evaluate it. -/
def LastBreached (key : String) (cycles : List Cycle) : Prop :=
  ∃ cycle ∈ cycles.find? (fun cycle => Evaluates key cycle.probes), Breached key cycle.probes
  deriving Decidable

def Alternating : AlertAction → List AlertAction → Prop
  | _, [] => True
  | .fire, a :: actions => a = .fire ∧ Alternating .clear actions
  | .clear, a :: actions => a = .clear ∧ Alternating .fire actions

def State.actions (s : State) (key : String) : List AlertAction :=
  s.cycles.reverse.flatMap fun cycle => actionsOf key cycle.written

/-- **Alerts follow their conditions.** -/
structure AlertsFollow (s : State) : Prop where
  /-- The records of a key alternate: fire, clear, fire. -/
  alternate : ∀ key, Alternating .fire (s.actions key)
  /-- A cycle writes one record of a key at most. -/
  once : ∀ key, ∀ cycle ∈ s.cycles, (actionsOf key cycle.written).length ≤ 1
  /-- A key is firing just when some check of it was breached in the last cycle that could evaluate
  it. -/
  firing : ∀ key, s.states key = .firing ↔ LastBreached key s.cycles
  /-- What has ended is cleared in the first cycle whose probes show it. -/
  cleared : ∀ key cycle earlier, (cycle :: earlier) <:+ s.cycles → LastBreached key earlier →
    Evaluates key cycle.probes → ¬Breached key cycle.probes → .clear ∈ actionsOf key cycle.written

/-! ### The condition -/

/-- **The condition on a cycle** that is evaluated. -/
structure Keeps (s : State) (i : CycleInput) : Prop where
  /-- The replicas do not disagree about a lag, but that while its alert is not firing the last of
  them may be above the bound. -/
  replicas : ∀ key ∈ ["postgresql|replication_lag", "postgresql|replication_lag_warn"],
    Settles (s.states key) (replicaVerdicts key (lags i.probes))
  /-- The alert log takes the records, or every check agrees with the stored state. -/
  written : i.accepted ∨ ∀ c ∈ checks i.probes, s.states c.entityKey = stateOf c.breached
  /-- No Patroni node answers while the alert that none is reachable is firing. -/
  unreachable : s.states "patroni|unreachable" = .firing → fetchCluster i.probes.patroni = none

/-- The condition on a step. -/
def Allowed (s : State) (i : CycleInput) : Prop := i.clickhouse → i.redis → Keeps s i

instance (s : State) (i : CycleInput) : Decidable (Allowed s i) :=
  have : Decidable (Keeps s i) := decidable_of_iff
    ((∀ key ∈ ["postgresql|replication_lag", "postgresql|replication_lag_warn"],
        Settles (s.states key) (replicaVerdicts key (lags i.probes))) ∧
      (i.accepted ∨ ∀ c ∈ checks i.probes, s.states c.entityKey = stateOf c.breached) ∧
      (s.states "patroni|unreachable" = .firing → fetchCluster i.probes.patroni = none))
    ⟨fun h => ⟨h.1, h.2.1, h.2.2⟩, fun h => ⟨h.replicas, h.written, h.unreachable⟩⟩
  inferInstanceAs (Decidable (_ → _ → _))

/-! ### What a cycle does -/

def Leads : AlertState → List AlertAction → AlertState → Prop
  | a, [], b => a = b
  | .ok, x :: actions, b => x = .fire ∧ Leads .firing actions b
  | .firing, x :: actions, b => x = .clear ∧ Leads .ok actions b

theorem Leads.append {a b c : AlertState} {xs ys : List AlertAction} (h : Leads a xs b)
    (h' : Leads b ys c) : Leads a (xs ++ ys) c := by
  induction xs generalizing a with
  | nil => cases a <;> exact h ▸ h'
  | cons x xs ih =>
    cases a with
    | ok => exact ⟨h.1, ih h.2⟩
    | firing => exact ⟨h.1, ih h.2⟩

theorem Leads.alternating {b : AlertState} {xs : List AlertAction} :
    (Leads .ok xs b → Alternating .fire xs) ∧ (Leads .firing xs b → Alternating .clear xs) := by
  induction xs with
  | nil => exact ⟨fun _ => trivial, fun _ => trivial⟩
  | cons x xs ih => exact ⟨fun h => ⟨h.1, ih.2 h.2⟩, fun h => ⟨h.1, ih.1 h.2⟩⟩

theorem leads_transitions (state : AlertState) (vs : List Bool) :
    Leads state (transitions state vs) (stateAfter state vs) := by
  induction vs generalizing state with
  | nil => cases state <;> rfl
  | cons v vs ih =>
    rw [transitions, stateAfter]
    split
    next hsame => exact hsame ▸ ih (stateOf v)
    next hother =>
      cases state with
      | ok =>
        cases v with
        | true => exact ⟨rfl, ih .firing⟩
        | false => exact absurd rfl hother
      | firing =>
        cases v with
        | true => exact absurd rfl hother
        | false => exact ⟨rfl, ih .ok⟩

theorem transitions_of_agree {state : AlertState} {vs : List Bool}
    (h : ∀ v ∈ vs, state = stateOf v) : transitions state vs = [] := by
  induction vs with
  | nil => rfl
  | cons v vs ih =>
    have hv := h v mem_cons_self
    rw [transitions, if_pos hv, ← hv]
    exact ih fun w hw => h w (mem_cons_of_mem v hw)

variable {key : String}

theorem mem_verdicts {v : Bool} {cs : List Check} :
    v ∈ verdicts key cs ↔ ∃ c ∈ cs, c.entityKey = key ∧ c.breached = v := by
  simp only [verdicts, mem_map, mem_filter, decide_eq_true_eq, and_assoc]

variable {p : Probes}

theorem breached_iff : Breached key p ↔ (verdicts key (checks p)).any id = true := by
  rw [any_eq_true]
  constructor
  · intro h
    exact ⟨true, mem_verdicts.2 h, rfl⟩
  · rintro ⟨v, hv, htrue⟩
    obtain rfl : v = true := htrue
    exact mem_verdicts.1 hv

theorem evaluates_of_verdicts (h : verdicts key (checks p) ≠ []) : Evaluates key p := by
  obtain ⟨v, hv⟩ := exists_mem_of_ne_nil _ h
  obtain ⟨c, hc, hkey, -⟩ := mem_verdicts.1 hv
  exact .inl ⟨c, hc, hkey⟩

theorem not_breached_of_verdicts (h : verdicts key (checks p) = []) : ¬Breached key p := by
  rw [breached_iff, h]
  exact Bool.false_ne_true

theorem reachable_of_evaluates (h : verdicts key (checks p) = []) (heval : Evaluates key p) :
    key = "patroni|unreachable" ∧ (fetchCluster p.patroni).isSome := by
  rcases heval with ⟨c, hc, hkey⟩ | hreachable
  · have hmem : c.breached ∈ verdicts key (checks p) := mem_verdicts.2 ⟨c, hc, hkey, rfl⟩
    rw [h] at hmem
    exact absurd hmem not_mem_nil
  · exact hreachable

theorem lastBreached_cons {cycle : Cycle} {cycles : List Cycle} :
    LastBreached key (cycle :: cycles) ↔
      if Evaluates key cycle.probes then Breached key cycle.probes
      else LastBreached key cycles := by
  unfold LastBreached
  rw [find?_cons]
  by_cases h : Evaluates key cycle.probes
  · rw [if_pos h, decide_eq_true h]
    constructor
    · rintro ⟨c, hc, hbreached⟩
      exact Option.some.inj hc ▸ hbreached
    · intro hbreached
      exact ⟨cycle, rfl, hbreached⟩
  · rw [if_neg h, decide_eq_false h]

/-! ### The invariant -/

/-- What holds after every run under the condition. -/
structure Inv (s : State) : Prop where
  leads : ∀ key, Leads .ok (s.actions key) (s.states key)
  once : ∀ key, ∀ cycle ∈ s.cycles, (actionsOf key cycle.written).length ≤ 1
  firing : ∀ key, s.states key = .firing ↔ LastBreached key s.cycles
  cleared : ∀ key cycle earlier, (cycle :: earlier) <:+ s.cycles → LastBreached key earlier →
    Evaluates key cycle.probes → ¬Breached key cycle.probes → .clear ∈ actionsOf key cycle.written

theorem Inv.start : Inv {} where
  leads _ := rfl
  once _ _ h := absurd h not_mem_nil
  firing key := by
    constructor
    · intro h
      cases h
    · rintro ⟨_, hc, -⟩
      cases hc
  cleared _ _ _ h := absurd (eq_nil_of_suffix_nil h) (cons_ne_nil _ _)

variable {s : State} {i : CycleInput}

theorem Keeps.settles (h : Keeps s i) (key : String) :
    Settles (s.states key) (verdicts key (checks i.probes)) := by
  rw [settles_checks]
  by_cases hkey : key ∈ ["postgresql|replication_lag", "postgresql|replication_lag_warn"]
  · exact h.replicas key hkey
  · rw [mem_cons, mem_singleton, not_or] at hkey
    rw [replicaVerdicts, if_neg hkey.1, if_neg hkey.2]
    exact List.Pairwise.nil

theorem Keeps.written_eq (h : Keeps s i) (key : String) :
    actionsOf key (if i.accepted then (processChecks (checks i.probes) s.states).2 else []) =
      transitions (s.states key) (verdicts key (checks i.probes)) := by
  split
  · exact processChecks_records key _ _
  next hlost =>
    refine (transitions_of_agree fun v hv => ?_).symm
    obtain ⟨c, hc, rfl, rfl⟩ := mem_verdicts.1 hv
    exact (h.written.resolve_left hlost) c hc

/-- **A cycle keeps the invariant.** -/
theorem Inv.cycle (hinv : Inv s) (hk : Keeps s i) :
    Inv { states := (processChecks (checks i.probes) s.states).1
          cycles := ⟨i.probes, if i.accepted then (processChecks (checks i.probes) s.states).2
            else []⟩ :: s.cycles } := by
  -- without a check, a key that is evaluated is that Patroni is not reachable, and it was ok
  have hquiet : ∀ key, verdicts key (checks i.probes) = [] → Evaluates key i.probes →
      s.states key ≠ .firing := by
    intro key hnone heval hfiring
    obtain ⟨rfl, hsome⟩ := reachable_of_evaluates hnone heval
    rw [hk.unreachable hfiring] at hsome
    cases hsome
  constructor
  case leads =>
    intro key
    have hnew := leads_transitions (s.states key) (verdicts key (checks i.probes))
    rw [← hk.written_eq, ← processChecks_state] at hnew
    rw [State.actions, reverse_cons, flatMap_append, flatMap_singleton]
    exact (hinv.leads key).append hnew
  case once =>
    intro key cycle hcycle
    rcases List.mem_cons.1 hcycle with rfl | hcycle
    · rw [hk.written_eq]
      rcases (settles_iff _ _).1 (hk.settles key) with hnone | hsettled
      · rw [hnone]
        exact Nat.zero_le 1
      · exact hsettled.1
    · exact hinv.once key cycle hcycle
  case firing =>
    intro key
    rw [lastBreached_cons]
    change (processChecks (checks i.probes) s.states).1 key = .firing ↔ _
    rw [processChecks_state]
    by_cases hnone : verdicts key (checks i.probes) = []
    · rw [hnone, stateAfter]
      by_cases heval : Evaluates key i.probes
      · rw [if_pos heval]
        exact iff_of_false (hquiet key hnone heval) (not_breached_of_verdicts hnone)
      · rw [if_neg heval]
        exact hinv.firing key
    · rw [if_pos (evaluates_of_verdicts hnone), breached_iff, ((hk.settles key).spec hnone).1]
      cases (verdicts key (checks i.probes)).any id <;> decide
  case cleared =>
    intro key cycle earlier hsuffix hlast heval hbreached
    rcases List.suffix_cons_iff.1 hsuffix with heq | hsuffix
    · obtain ⟨rfl, rfl⟩ := List.cons.inj heq
      have hfiring := (hinv.firing key).2 hlast
      rw [hk.written_eq]
      by_cases hnone : verdicts key (checks i.probes) = []
      · exact absurd hfiring (hquiet key hnone heval)
      · have hany := Bool.eq_false_iff.2 fun h => hbreached (breached_iff.2 h)
        rw [((hk.settles key).spec hnone).2, hany, hfiring]
        exact List.mem_singleton.2 rfl
    · exact hinv.cleared key cycle earlier hsuffix hlast heval hbreached

theorem Inv.step {s' : State} (hinv : Inv s) (hk : Allowed s i)
    (hs : step s i = some s') : Inv s' := by
  cases hs
  rw [evaluateSystemHealth]
  split
  · exact hinv
  next hclickhouse =>
    split
    · exact hinv
    next hredis => exact hinv.cycle (hk (by simpa using hclickhouse) (by simpa using hredis))

/-- **Alerts follow what is checked**, after runs under the condition. -/
theorem alertsFollow_of_run {s : State} (h : Run step Allowed {} s) : AlertsFollow s := by
  have hinv : Inv s := h.invariant Inv.start fun hinv hk hs => hinv.step hk hs
  exact
    { alternate := fun key => (Leads.alternating.1 (hinv.leads key))
      once := hinv.once
      firing := hinv.firing
      cleared := hinv.cleared }

/-! ### Otherwise -/

/-- A cycle with the lags of some replicas, and a Patroni node that answers or none. -/
def cycleWith (lags : List ℚ) (reachable : Bool) : CycleInput where
  clickhouse := true
  redis := true
  accepted := true
  probes :=
    { database := some
        { replicationLag := some (lags.map some)
          cacheHit := some (some 99)
          xidAge := some (some 200000000)
          waitingLocks := some (some 0)
          connections := some (some 20, some 100) }
      patroni := if reachable then [.cluster [⟨some "leader", some "running"⟩]] else [.failed]
      etcd := [.answered 200 (some "true")]
      subsystems := none }

/-- A replica falls behind and catches up. -/
theorem alertsFollow_replica : ∃ s ∈ replay step Allowed {}
    [cycleWith [1, 40] true, cycleWith [2, 3] true], AlertsFollow s ∧
      s.actions "postgresql|replication_lag" = [.fire, .clear] := by
  have hrun : ∃ s ∈ replay step Allowed {} [cycleWith [1, 40] true, cycleWith [2, 3] true],
      s.actions "postgresql|replication_lag" = [.fire, .clear] := by decide +kernel
  obtain ⟨s, hs, hactions⟩ := hrun
  exact ⟨s, hs, alertsFollow_of_run (run_of_replay hs), hactions⟩

/-- **Alerts need not follow what is checked**: of two replicas one is behind, and its alert is
fired and cleared in one cycle; Patroni answers again, and that it did not is not cleared. -/
theorem not_alertsFollow :
    (∃ s, Run step (fun _ _ => True) {} s ∧ ¬AlertsFollow s ∧ s.cycles.length = 1) ∧
      ∃ s, Run step (fun _ _ => True) {} s ∧ ¬AlertsFollow s ∧ s.cycles.length = 2 := by
  have hreplicas : ∃ s ∈ replay step (fun _ _ => True) {} [cycleWith [40, 1] true],
      s.cycles.length = 1 ∧ ∃ cycle ∈ s.cycles,
        ¬(actionsOf "postgresql|replication_lag" cycle.written).length ≤ 1 := by decide +kernel
  have hpatroni : ∃ s ∈ replay step (fun _ _ => True) {} [cycleWith [] false, cycleWith [] true],
      s.cycles.length = 2 ∧ s.states "patroni|unreachable" = .firing ∧
        ¬LastBreached "patroni|unreachable" s.cycles := by decide +kernel
  constructor
  · obtain ⟨s, hs, hlen, cycle, hcycle, htwo⟩ := hreplicas
    exact ⟨s, run_of_replay hs, fun h => htwo (h.once _ cycle hcycle), hlen⟩
  · obtain ⟨s, hs, hlen, hfiring, hlast⟩ := hpatroni
    exact ⟨s, run_of_replay hs, fun h => hlast ((h.firing _).1 hfiring), hlen⟩

end MonCTL.CentralScheduler.SystemHealth
