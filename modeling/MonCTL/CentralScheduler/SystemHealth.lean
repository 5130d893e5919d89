import Mathlib.Algebra.Order.Field.Rat
import Mathlib.Data.List.Nodup
import Mathlib.Data.List.ReduceOption

/-!
# System Health Checks

Every minute the leader probes its databases, Patroni, etcd and the subsystems, turns what it finds
into checks, and works through them in order. The stored state of a check's key says whether the
alert of the key is firing; a check that differs from it moves it and makes a record for the alert
log.

A probe that raises makes no checks. One key may have several checks: each replica has its own
measurement of the replication lag. That Patroni is not reachable is a check that is made only when
it is so.

The values are rational numbers; the texts of the messages are left out.
-/

namespace MonCTL.CentralScheduler.SystemHealth

open List

/-! ### What the probes find -/

/-- What the database says; a query that raises gives nothing. -/
structure DatabaseProbes where
  /-- The replay lag of each replica, which may be null. -/
  replicationLag : Option (List (Option ℚ))
  cacheHit : Option (Option ℚ)
  xidAge : Option (Option ℕ)
  waitingLocks : Option (Option ℕ)
  /-- The connections there are, and `max_connections`. -/
  connections : Option (Option ℕ × Option ℕ)

/-- A member of the Patroni cluster. -/
structure Member where
  role : Option String
  state : Option String
  deriving DecidableEq

/-- How a Patroni node answers to `/cluster`. -/
inductive ClusterAnswer
  /-- No answer, no JSON, or not status 200. -/
  | failed
  /-- JSON that counts as false. -/
  | empty
  /-- JSON of some other shape, on which the probe raises. -/
  | malformed
  | cluster (members : List Member)
  deriving DecidableEq

/-- How an etcd node answers to `/health`. -/
inductive EtcdAnswer
  | failed
  | answered (status : ℕ) (health : Option String)
  deriving DecidableEq

/-- What the check of a subsystem returns. -/
inductive SubsystemResult
  /-- It raises, or returns something that is not a dict. -/
  | malformed
  | status (status : Option String)

/-- What the probes of a cycle find. -/
structure Probes where
  /-- Nothing without a session. -/
  database : Option DatabaseProbes
  patroni : List ClusterAnswer
  etcd : List EtcdAnswer
  subsystems : Option (String → SubsystemResult)

/-! ### Checks -/

inductive Severity
  | warning | critical

inductive Comparison
  | gt | lt

structure Check where
  name : String
  entityKey : String
  breached : Bool
  severity : Severity
  currentValue : ℚ
  thresholdValue : ℚ

/-- `_check_def`. -/
def checkDef (name entity : String) (currentVal : Option ℚ) (threshold : ℚ)
    (severity : Severity) (comparison : Comparison) : Option Check :=
  currentVal.map fun current =>
    { name := name
      entityKey := entity
      breached := match comparison with
        | .gt => decide (threshold < current)
        | .lt => decide (current < threshold)
      severity := severity
      currentValue := current
      thresholdValue := threshold }

/-- Two checks for each replica whose lag is known. -/
def replicationChecks (rows : List (Option ℚ)) : List (Option Check) :=
  rows.flatMap fun row => match row with
    | none => []
    | some lag =>
      [checkDef "PostgreSQL Replication Lag" "postgresql|replication_lag" (some lag) 30
        .critical .gt,
       checkDef "PostgreSQL Replication Lag Warning" "postgresql|replication_lag_warn"
        (some lag) 5 .warning .gt]

def cacheHitChecks : Option ℚ → List (Option Check)
  | none => []
  | some row =>
    [checkDef "PostgreSQL Cache Hit Ratio" "postgresql|cache_hit" (some row) 95 .critical .lt]

/-- XID wraparound. -/
def xidChecks : Option ℕ → List (Option Check)
  | none => []
  | some xid =>
    [checkDef "PostgreSQL XID Wraparound" "postgresql|xid_age" (some xid) 1000000000
      .critical .gt,
     checkDef "PostgreSQL XID Wraparound Warning" "postgresql|xid_age_warn" (some xid) 500000000
      .warning .gt]

/-- Waiting locks. -/
def lockChecks (locks : Option ℕ) : List (Option Check) :=
  [checkDef "PostgreSQL Waiting Locks" "postgresql|waiting_locks" (some (locks.getD 0 : ℕ)) 10
    .warning .gt]

/-- Python's `or` on a count. -/
def orElse (count : Option ℕ) (default : ℕ) : ℕ :=
  match count with
  | none | some 0 => default
  | some n => n

/-- Connection usage. -/
def connectionChecks (counts : Option ℕ × Option ℕ) : List (Option Check) :=
  let total := orElse counts.1 0
  let maxC := orElse counts.2 100
  let pct : ℚ := if 0 < maxC then (total : ℚ) / maxC * 100 else 0
  [checkDef "PostgreSQL Connection Usage" "postgresql|connection_pct" (some pct) 80 .warning .gt]

/-- The PostgreSQL checks. -/
def databaseChecks (d : DatabaseProbes) : List (Option Check) :=
  d.replicationLag.elim [] replicationChecks ++
    (d.cacheHit.elim [] cacheHitChecks ++ d.xidAge.elim [] xidChecks ++
      d.waitingLocks.elim [] lockChecks ++ d.connections.elim [] connectionChecks)

variable (nodes : List ClusterAnswer)

/-- The answer of the first node that gives one, unless it counts as false. -/
def fetchCluster : Option ClusterAnswer :=
  (nodes.find? (· ≠ .failed)).filter (· ≠ .empty)

def patroniChecks : List (Option Check) :=
  match fetchCluster nodes with
  | some (.cluster members) =>
    let leader := members.filter (·.role = some "leader")
    let running := members.filter (·.state = some "running")
    [checkDef "Patroni No Leader" "patroni|no_leader" (some (if leader.isEmpty then 1 else 0))
      (1 / 2) .critical .gt,
     checkDef "Patroni Members Down" "patroni|members_down"
      (some ((members.length : ℤ) - running.length : ℤ)) (1 / 2) .warning .gt]
  | some _ => []
  | none => [some
      { name := "Patroni Unreachable"
        entityKey := "patroni|unreachable"
        breached := true
        severity := .critical
        currentValue := 1
        thresholdValue := 0 }]

def etcdChecks (nodes : List EtcdAnswer) : List (Option Check) :=
  let healthy := nodes.countP (· = .answered 200 (some "true"))
  let total := if nodes.length = 0 then 1 else nodes.length
  [checkDef "etcd Unhealthy Nodes" "etcd|unhealthy" (some ((total : ℤ) - healthy : ℤ)) (1 / 2)
    (if healthy = 0 then .critical else .warning) .gt]

/-- The subsystems in the order of their checks. -/
def subsystemNames : List String :=
  ["central", "postgresql", "patroni", "etcd", "clickhouse", "redis", "collectors", "scheduler",
    "alerts", "audit", "connectors"]

/-- `_shape_subsystem_check`. -/
def shapeSubsystemCheck (name : String) : SubsystemResult → Option Check
  | .malformed => none
  | .status status =>
    let status := status.getD "unknown"
    if status = "unknown" then none else
    let breached := decide (status = "degraded" ∨ status = "critical")
    some
      { name := "Subsystem health: " ++ name
        entityKey := "subsystem|" ++ name
        breached := breached
        severity := if status = "critical" then .critical else .warning
        currentValue := if breached then 1 else 0
        thresholdValue := 1 / 2 }

/-- `_subsystem_health_checks`. -/
def subsystemHealthChecks (results : String → SubsystemResult) : List Check :=
  subsystemNames.filterMap fun name => shapeSubsystemCheck name (results name)

variable (p : Probes)

/-- **The checks of a cycle**, in their order. Those that are `None` are skipped. -/
def checks : List Check :=
  (p.database.elim [] databaseChecks ++ patroniChecks p.patroni ++
      etcdChecks p.etcd).reduceOption ++
    p.subsystems.elim [] subsystemHealthChecks

/-! ### Fire and clear -/

/-- The stored state of a key; a key that is not stored is ok. -/
inductive AlertState
  | ok | firing
  deriving DecidableEq

inductive AlertAction
  | fire | clear
  deriving DecidableEq

structure AlertRecord where
  definitionName : String
  entityKey : String
  action : AlertAction
  severity : Severity
  currentValue : ℚ
  thresholdValue : ℚ
  fireCount : ℕ

/-- The record of a transition. -/
def recordOf (c : Check) (action : AlertAction) : AlertRecord :=
  { definitionName := c.name
    entityKey := c.entityKey
    action := action
    severity := c.severity
    currentValue := c.currentValue
    thresholdValue := c.thresholdValue
    fireCount := match action with
      | .fire => 1
      | .clear => 0 }

/-- **The loop over the checks**: the states after it, and the records. -/
def processChecks : List Check → (String → AlertState) → (String → AlertState) × List AlertRecord
  | [], states => (states, [])
  | c :: cs, states =>
    match c.breached, states c.entityKey with
    | true, .ok =>
      let rest := processChecks cs (Function.update states c.entityKey .firing)
      (rest.1, recordOf c .fire :: rest.2)
    | false, .firing =>
      let rest := processChecks cs (Function.update states c.entityKey .ok)
      (rest.1, recordOf c .clear :: rest.2)
    | _, _ => processChecks cs states

/-- The state that a verdict asks for. -/
def stateOf : Bool → AlertState
  | true => .firing
  | false => .ok

/-- The action that leads to it. -/
def actionOf : Bool → AlertAction
  | true => .fire
  | false => .clear

variable (states : String → AlertState)

/-- The states with that of a check's key as the check asks for. -/
def move (c : Check) : String → AlertState :=
  Function.update states c.entityKey (stateOf c.breached)

theorem move_self (c : Check) :
    move states c c.entityKey = stateOf c.breached :=
  Function.update_self _ _ _

theorem move_of_ne {c : Check} {key : String}
    (h : c.entityKey ≠ key) : move states c key = states key :=
  Function.update_of_ne (Ne.symm h) _ _

theorem processChecks_cons (c : Check) (cs : List Check) (states : String → AlertState) :
    processChecks (c :: cs) states = ((processChecks cs (move states c)).1,
        if states c.entityKey = stateOf c.breached then (processChecks cs (move states c)).2
        else recordOf c (actionOf c.breached) :: (processChecks cs (move states c)).2) := by
  rw [processChecks]
  by_cases hsame : states c.entityKey = stateOf c.breached
  · rw [if_pos hsame, move, ← hsame, Function.update_eq_self, hsame]
    cases c.breached <;> rfl
  · rw [if_neg hsame, move]
    cases hb : c.breached with
    | false =>
      cases hs : states c.entityKey with
      | ok => exact absurd (by rw [hs, hb]; rfl) hsame
      | firing => rfl
    | true =>
      cases hs : states c.entityKey with
      | ok => rfl
      | firing => exact absurd (by rw [hs, hb]; rfl) hsame

/-! ### The loop seen from one key -/

variable (key : String)

def verdicts (cs : List Check) : List Bool :=
  (cs.filter (·.entityKey = key)).map (·.breached)

def actionsOf (records : List AlertRecord) : List AlertAction :=
  (records.filter (·.entityKey = key)).map (·.action)

/-- The state of a key after its verdicts. -/
def stateAfter : AlertState → List Bool → AlertState
  | state, [] => state
  | _, v :: vs => stateAfter (stateOf v) vs

/-- What the verdicts of a key make it do. -/
def transitions : AlertState → List Bool → List AlertAction
  | _, [] => []
  | state, v :: vs =>
    if state = stateOf v then transitions (stateOf v) vs
    else actionOf v :: transitions (stateOf v) vs

theorem verdicts_cons (c : Check) (cs : List Check) : verdicts key (c :: cs) =
      if c.entityKey = key then c.breached :: verdicts key cs else verdicts key cs := by
  unfold verdicts
  rw [filter_cons]
  split <;> simp_all

theorem verdicts_append (cs ds : List Check) :
    verdicts key (cs ++ ds) = verdicts key cs ++ verdicts key ds := by
  rw [verdicts, filter_append, map_append]
  rfl

theorem actionsOf_cons (r : AlertRecord) (records : List AlertRecord) :
    actionsOf key (r :: records) =
      if r.entityKey = key then r.action :: actionsOf key records else actionsOf key records := by
  unfold actionsOf
  rw [filter_cons]
  split <;> simp_all

/-- **The state of a key after the loop** depends on its own checks. -/
theorem processChecks_state (cs : List Check) (states : String → AlertState) :
    (processChecks cs states).1 key = stateAfter (states key) (verdicts key cs) := by
  induction cs generalizing states with
  | nil => rfl
  | cons c cs ih =>
    rw [processChecks_cons, verdicts_cons]
    by_cases hkey : c.entityKey = key
    · subst hkey
      rw [if_pos rfl, stateAfter, ih, move_self]
    · rw [if_neg hkey, ih, move_of_ne states hkey]

/-- **The records of a key** are the transitions of its own checks. -/
theorem processChecks_records (cs : List Check) (states : String → AlertState) :
    actionsOf key (processChecks cs states).2 = transitions (states key) (verdicts key cs) := by
  induction cs generalizing states with
  | nil => rfl
  | cons c cs ih =>
    rw [processChecks_cons, verdicts_cons]
    by_cases hkey : c.entityKey = key
    · subst hkey
      rw [if_pos rfl, transitions]
      split
      · exact (ih _).trans (by rw [move_self])
      · have hrest := ih (move states c)
        rw [move_self] at hrest
        rw [actionsOf_cons, if_pos (by rfl), hrest]
        rfl
    · rw [if_neg hkey, ← move_of_ne states hkey, ← ih]
      split
      · rfl
      · exact (actionsOf_cons key _ _).trans (if_neg hkey)

/-- **The verdicts settle** from a state: none differs from the one before it, but that while the
key is ok the first that are not breached may be followed by some that are. -/
def Settles (state : AlertState) (vs : List Bool) : Prop :=
  vs.Pairwise fun v w => v = w ∨ state = .ok ∧ w = true
  deriving Decidable

variable {v : Bool} {vs : List Bool}

theorem stateAfter_of_forall (h : ∀ w ∈ vs, w = v) : stateAfter (stateOf v) vs = stateOf v := by
  induction vs with
  | nil => rfl
  | cons w vs ih =>
    obtain rfl := h w mem_cons_self
    exact ih fun x hx => h x (mem_cons_of_mem _ hx)

theorem transitions_of_forall (h : ∀ w ∈ vs, w = v) : transitions (stateOf v) vs = [] := by
  induction vs with
  | nil => rfl
  | cons w vs ih =>
    obtain rfl := h w mem_cons_self
    rw [transitions, if_pos rfl]
    exact ih fun x hx => h x (mem_cons_of_mem _ hx)

theorem any_of_forall (h : ∀ w ∈ vs, w = v) : (v :: vs).any id = v := by
  cases v with
  | true => rfl
  | false =>
    refine List.any_eq_false.2 fun w hw htrue => ?_
    rcases List.mem_cons.1 hw with rfl | hw
    · exact Bool.false_ne_true htrue
    · rw [h w hw] at htrue
      exact Bool.false_ne_true htrue

variable {state : AlertState}

/-- What verdicts that settle do: the key ends up firing iff one of them is breached, and there is
one transition if that is new. -/
theorem Settles.spec (h : Settles state vs) (hne : vs ≠ []) :
    stateAfter state vs = stateOf (vs.any id) ∧
      transitions state vs =
        if state = stateOf (vs.any id) then [] else [actionOf (vs.any id)] := by
  induction vs with
  | nil => exact absurd rfl hne
  | cons v vs ih =>
    obtain ⟨hv, hrest⟩ := List.pairwise_cons.1 h
    by_cases hsame : ∀ w ∈ vs, w = v
    · rw [any_of_forall hsame, stateAfter, transitions, stateAfter_of_forall hsame,
        transitions_of_forall hsame]
      exact ⟨rfl, rfl⟩
    · -- only verdicts that are not breached may be followed by others, and only from ok
      push Not at hsame
      obtain ⟨w, hw, hwv⟩ := hsame
      obtain ⟨rfl, htrue⟩ := (hv w hw).resolve_left (Ne.symm hwv)
      obtain rfl : v = false := by
        cases v with
        | false => rfl
        | true => exact absurd htrue hwv
      exact ih hrest (List.ne_nil_of_mem hw)

theorem settles_of_forall (h : ∀ w ∈ vs, w = v) : Settles state (v :: vs) := by
  refine List.pairwise_cons.2 ⟨fun w hw => .inl (h w hw).symm, ?_⟩
  exact List.pairwise_iff_forall_sublist.2 fun {x y} hxy =>
    .inl ((h x (hxy.subset (by simp))).trans (h y (hxy.subset (by simp))).symm)

theorem forall_of_transitions (h : transitions (stateOf v) vs = []) : ∀ w ∈ vs, w = v := by
  induction vs with
  | nil => exact fun w hw => absurd hw not_mem_nil
  | cons x vs ih =>
    rw [transitions] at h
    split at h
    next hsame =>
      obtain rfl : x = v := by cases x <;> cases v <;> first | rfl | cases hsame
      exact List.forall_mem_cons.2 ⟨rfl, ih h⟩
    · cases h

theorem forall_of_firing (hlen : (transitions .firing vs).length ≤ 1)
    (hstate : stateAfter .firing vs = .firing) : ∀ w ∈ vs, w = true := by
  induction vs with
  | nil => exact fun w hw => absurd hw not_mem_nil
  | cons v vs ih =>
    cases v with
    | true => exact List.forall_mem_cons.2 ⟨rfl, ih hlen hstate⟩
    | false =>
      have hnil : transitions .ok vs = [] :=
        eq_nil_of_length_eq_zero (Nat.le_zero.1 (Nat.le_of_succ_le_succ hlen))
      have hok : stateAfter .ok vs = .ok :=
        stateAfter_of_forall (v := false) (forall_of_transitions (v := false) hnil)
      exact absurd (hok.symm.trans hstate) (by decide)

/-- **Verdicts settle just when** they make one transition at most, and leave the key firing iff
one of them is breached. -/
theorem settles_iff (state : AlertState) (vs : List Bool) : Settles state vs ↔ vs = [] ∨
      (transitions state vs).length ≤ 1 ∧ stateAfter state vs = stateOf (vs.any id) := by
  constructor
  · intro h
    by_cases hne : vs = []
    · exact .inl hne
    · obtain ⟨hstate, htrans⟩ := h.spec hne
      refine .inr ⟨?_, hstate⟩
      rw [htrans]
      split
      · exact Nat.zero_le 1
      · exact Nat.le_refl 1
  · intro h
    induction vs generalizing state with
    | nil => exact List.Pairwise.nil
    | cons v vs ih =>
      obtain ⟨hlen, hstate⟩ := h.resolve_left (cons_ne_nil v vs)
      rw [transitions] at hlen
      rw [stateAfter] at hstate
      split at hlen
      next hsame =>
        subst hsame
        cases v with
        | false =>
          have hvs : Settles .ok vs := by
            by_cases hne : vs = []
            · exact ih _ (.inl hne)
            · exact ih _ (.inr ⟨hlen, hstate⟩)
          refine List.pairwise_cons.2 ⟨fun w _ => ?_, hvs⟩
          cases w with
          | false => exact .inl rfl
          | true => exact .inr ⟨rfl, rfl⟩
        | true => exact settles_of_forall (forall_of_firing hlen hstate)
      · have hnil : transitions (stateOf v) vs = [] :=
          eq_nil_of_length_eq_zero (Nat.le_zero.1 (Nat.le_of_succ_le_succ hlen))
        exact settles_of_forall (forall_of_transitions hnil)

/-! ### Which checks share a key -/

/-- The replication lags that are known. -/
def lags : List ℚ :=
  ((p.database.bind (·.replicationLag)).getD []).reduceOption

/-- The keys of the checks that are made once. -/
def singleKeys : List String :=
  ["postgresql|cache_hit", "postgresql|xid_age", "postgresql|xid_age_warn",
    "postgresql|waiting_locks", "postgresql|connection_pct", "patroni|no_leader",
    "patroni|members_down", "patroni|unreachable", "etcd|unhealthy"] ++
  subsystemNames.map ("subsystem|" ++ ·)

/-- The database checks but those of the replication lag. -/
def otherDatabaseChecks (d : DatabaseProbes) : List (Option Check) :=
  d.cacheHit.elim [] cacheHitChecks ++ d.xidAge.elim [] xidChecks ++
    d.waitingLocks.elim [] lockChecks ++ d.connections.elim [] connectionChecks

/-- The checks but those of the replication lag. -/
def otherChecks : List Check :=
  (p.database.elim [] otherDatabaseChecks ++ patroniChecks p.patroni ++
      etcdChecks p.etcd).reduceOption ++
    p.subsystems.elim [] subsystemHealthChecks

theorem checks_eq :
    checks p = (replicationChecks ((p.database.bind (·.replicationLag)).getD [])).reduceOption ++
      otherChecks p := by
  cases hd : p.database with
  | none => simp [checks, otherChecks, hd, replicationChecks]
  | some d =>
    cases hr : d.replicationLag <;>
      simp [checks, otherChecks, hd, hr, databaseChecks, otherDatabaseChecks, replicationChecks,
        reduceOption_append]

/-- The keys of checks, those that are `None` skipped. -/
def keysOf (cs : List (Option Check)) : List String := cs.reduceOption.map (·.entityKey)

theorem keysOf_append (cs ds : List (Option Check)) : keysOf (cs ++ ds) = keysOf cs ++ keysOf ds :=
    by
  rw [keysOf, reduceOption_append, map_append]
  rfl

variable {keys : List String}

theorem keysOf_elim {α : Type} {f : α → List (Option Check)}
    (h : ∀ x, (keysOf (f x)).Sublist keys) (o : Option α) : (keysOf (o.elim [] f)).Sublist keys :=
    by
  cases o with
  | none => exact nil_sublist keys
  | some x => exact h x

theorem keysOf_otherDatabaseChecks (d : DatabaseProbes) : (keysOf (otherDatabaseChecks d)).Sublist
      ["postgresql|cache_hit", "postgresql|xid_age", "postgresql|xid_age_warn",
        "postgresql|waiting_locks", "postgresql|connection_pct"] := by
  have hcache : ∀ row, (keysOf (cacheHitChecks row)).Sublist ["postgresql|cache_hit"] := by
    rintro (_ | row)
    · exact nil_sublist _
    · exact List.Sublist.refl _
  have hxid : ∀ xid, (keysOf (xidChecks xid)).Sublist
      ["postgresql|xid_age", "postgresql|xid_age_warn"] := by
    rintro (_ | xid)
    · exact nil_sublist _
    · exact List.Sublist.refl _
  have hlocks : ∀ locks, (keysOf (lockChecks locks)).Sublist ["postgresql|waiting_locks"] :=
    fun _ => List.Sublist.refl _
  have hconnections : ∀ counts, (keysOf (connectionChecks counts)).Sublist
      ["postgresql|connection_pct"] := fun _ => List.Sublist.refl _
  rw [otherDatabaseChecks, keysOf_append, keysOf_append, keysOf_append]
  exact (((keysOf_elim hcache _).append (keysOf_elim hxid _)).append
    (keysOf_elim hlocks _)).append (keysOf_elim hconnections _)

theorem keysOf_patroniChecks : (keysOf (patroniChecks nodes)).Sublist
      ["patroni|no_leader", "patroni|members_down", "patroni|unreachable"] := by
  rw [patroniChecks]
  split
  · exact sublist_append_left ["patroni|no_leader", "patroni|members_down"] _
  · exact nil_sublist _
  · exact sublist_append_right ["patroni|no_leader", "patroni|members_down"] _

theorem keys_subsystemHealthChecks (results : String → SubsystemResult) :
    ((subsystemHealthChecks results).map (·.entityKey)).Sublist
      (subsystemNames.map ("subsystem|" ++ ·)) := by
  have hkey : ∀ name c, shapeSubsystemCheck name (results name) = some c →
      c.entityKey = "subsystem|" ++ name := by
    intro name c hc
    cases hr : results name with
    | malformed =>
      rw [hr] at hc
      cases hc
    | status status =>
      rw [hr, shapeSubsystemCheck] at hc
      dsimp only at hc
      split at hc
      · cases hc
      · exact Option.some.inj hc ▸ rfl
  rw [subsystemHealthChecks]
  generalize subsystemNames = names
  induction names with
  | nil => exact nil_sublist _
  | cons name names ih =>
    rw [filterMap_cons]
    split
    · exact ih.cons _
    next c hc =>
      rw [map_cons, map_cons, hkey name c hc]
      exact ih.cons_cons _

theorem keys_otherChecks : ((otherChecks p).map (·.entityKey)).Sublist singleKeys := by
  have hsubsystems : ((p.subsystems.elim [] subsystemHealthChecks).map (·.entityKey)).Sublist
      (subsystemNames.map ("subsystem|" ++ ·)) := by
    cases p.subsystems with
    | none => exact nil_sublist _
    | some results => exact keys_subsystemHealthChecks results
  rw [otherChecks, map_append]
  refine List.Sublist.append ?_ hsubsystems
  have hetcd : (keysOf (etcdChecks p.etcd)).Sublist ["etcd|unhealthy"] := List.Sublist.refl _
  have hall := ((keysOf_elim keysOf_otherDatabaseChecks p.database).append
    (keysOf_patroniChecks p.patroni)).append hetcd
  rw [← keysOf_append, ← keysOf_append] at hall
  exact hall

theorem length_verdicts (cs : List Check) :
    (verdicts key cs).length = (cs.map (·.entityKey)).count key := by
  rw [verdicts, length_map, ← countP_eq_length_filter, List.count, countP_map]
  exact countP_congr fun c _ => by simp

theorem length_verdicts_otherChecks (p : Probes) :
    (verdicts key (otherChecks p)).length ≤ if key ∈ singleKeys then 1 else 0 := by
  rw [length_verdicts]
  refine ((keys_otherChecks p).count_le key).trans ?_
  split
  · exact List.nodup_iff_count_le_one.1 (by decide) key
  next hnot => exact (List.count_eq_zero.2 hnot).le

def replicaVerdicts (lags : List ℚ) : List Bool :=
  if key = "postgresql|replication_lag" then lags.map fun lag => decide (30 < lag)
  else if key = "postgresql|replication_lag_warn" then lags.map fun lag => decide (5 < lag)
  else []

theorem replicaVerdicts_cons (lag : ℚ) (lags : List ℚ) :
    replicaVerdicts key (lag :: lags) = replicaVerdicts key [lag] ++ replicaVerdicts key lags := by
  unfold replicaVerdicts
  split
  · rfl
  · split <;> rfl

theorem verdicts_replicationChecks (rows : List (Option ℚ)) :
    verdicts key (replicationChecks rows).reduceOption = replicaVerdicts key rows.reduceOption := by
  induction rows with
  | nil => simp [replicationChecks, replicaVerdicts, verdicts]
  | cons row rows ih =>
    cases row with
    | none => exact ih
    | some lag =>
      have hone : verdicts key (replicationChecks [some lag]).reduceOption =
          replicaVerdicts key [lag] := by
        by_cases hlag : key = "postgresql|replication_lag"
        · subst hlag
          rfl
        · by_cases hwarn : key = "postgresql|replication_lag_warn"
          · subst hwarn
            rfl
          · rw [replicaVerdicts, if_neg hlag, if_neg hwarn]
            exact (verdicts_cons key _ _).trans ((if_neg (Ne.symm hlag)).trans
              ((verdicts_cons key _ _).trans (if_neg (Ne.symm hwarn))))
      rw [show replicationChecks (some lag :: rows) =
          replicationChecks [some lag] ++ replicationChecks rows from rfl,
        reduceOption_append, verdicts_append, hone, ih]
      exact (replicaVerdicts_cons key lag rows.reduceOption).symm

/-- **The verdicts of a key**: those of the replicas, or of its one check. -/
theorem verdicts_checks (p : Probes) :
    verdicts key (checks p) = replicaVerdicts key (lags p) ++ verdicts key (otherChecks p) := by
  rw [checks_eq, verdicts_append, verdicts_replicationChecks]
  rfl

/-- **Only replicas disagree**: the verdicts of each key settle if those of the replicas do. -/
theorem settles_checks (state : AlertState) (p : Probes) :
    Settles state (verdicts key (checks p)) ↔ Settles state (replicaVerdicts key (lags p)) := by
  rw [verdicts_checks]
  by_cases hsingle : key ∈ singleKeys
  · have hnone : replicaVerdicts key (lags p) = [] := by
      rw [replicaVerdicts, if_neg (by rintro rfl; exact absurd hsingle (by decide)),
        if_neg (by rintro rfl; exact absurd hsingle (by decide))]
    rw [hnone, nil_append]
    have hlen := length_verdicts_otherChecks key p
    rw [if_pos hsingle] at hlen
    refine iff_of_true ?_ List.Pairwise.nil
    cases hvs : verdicts key (otherChecks p) with
    | nil => exact List.Pairwise.nil
    | cons v vs =>
      rw [hvs] at hlen
      exact settles_of_forall (v := v) fun w hw =>
        absurd (length_pos_of_mem hw) (Nat.not_lt.2 (Nat.le_of_succ_le_succ hlen))
  · have hlen := length_verdicts_otherChecks key p
    rw [if_neg hsingle] at hlen
    rw [eq_nil_of_length_eq_zero (Nat.le_zero.1 hlen), append_nil]

end MonCTL.CentralScheduler.SystemHealth
