import MonCTL.Alerting.Engine

/-!
# The Lifecycle of an Entity

What an evaluation cycle may do to the coupled fields of an entity, and to its history in the
alert log, said once: an entity fires, moves between severities, keeps firing, is cleared, or
stays as it is. Two families of invariants follow from it. The fields of an entity belong
together (`Coupled`), and its log is a sequence of episodes (`Episodes`).
-/

namespace MonCTL.Alerting

open List

/-! ### Transitions -/

/-- The fields of an entity that an evaluation writes together. -/
structure Core where
  state : AlertState
  severity : Option String
  fireCount : ℕ
  currentStateSince : Option Timestamp
  fireHistory : List Bool

/-- The coupled fields of an entity. -/
def AlertEntity.core (e : AlertEntity) : Core where
  state := e.state
  severity := e.severity
  fireCount := e.fireCount
  currentStateSince := e.currentStateSince
  fireHistory := e.fireHistory

/-- What a record of the log says about a transition. -/
structure Entry where
  action : LogAction
  severity : String
  deriving DecidableEq

/-- What a record says. -/
def LogRecord.entry (r : LogRecord) : Entry := ⟨r.action, r.severity⟩

/-- The action an entity that already fires is logged with when its severity changes. -/
def moveAction (old new : Option String) : LogAction :=
  if severityRank old < severityRank new then .escalate else .downgrade

theorem moveAction_ne_clear (old new : Option String) : moveAction old new ≠ .clear := by
  rw [moveAction]
  split <;> simp

/-- **The lifecycle.** One cycle takes the coupled fields of an entity to others, logs, and
may decide whether the alert is raised. -/
inductive Transition (hasHealthy : Bool) (now : Timestamp) :
    Core → Core → List Entry → Option Bool → Prop
  | unchanged (k : Core) : Transition hasHealthy now k k [] none
  | idle (k : Core) : k.state ≠ .firing →
      Transition hasHealthy now k
        { k with fireHistory := pushHistory k.fireHistory false } [] (some false)
  | cleared (k : Core) : k.state = .firing →
      Transition hasHealthy now k
        { state := .resolved
          severity := none
          fireCount := 0
          currentStateSince := if hasHealthy then none else k.currentStateSince
          fireHistory := pushHistory k.fireHistory false }
        [⟨.clear, "healthy"⟩] (some false)
  | fired (k : Core) (severity : String) : k.state ≠ .firing →
      Transition hasHealthy now k
        { state := .firing
          severity := some severity
          fireCount := 1
          currentStateSince := some now
          fireHistory := pushHistory k.fireHistory true }
        [⟨.fire, severity⟩] (some true)
  | moved (k : Core) (severity : String) : k.state = .firing →
      severityRank k.severity ≠ severityRank (some severity) →
      Transition hasHealthy now k
        { state := .firing
          severity := some severity
          fireCount := 1
          currentStateSince := some now
          fireHistory := pushHistory k.fireHistory true }
        [⟨moveAction k.severity (some severity), severity⟩] (some true)
  | continued (k : Core) : k.state = .firing →
      Transition hasHealthy now k
        { k with
          fireCount := k.fireCount + 1
          fireHistory := pushHistory k.fireHistory true } [] (some true)

/-! ### The fields belong together -/

/-- The invariant of an entity, given the outcomes that the cycles have decided so far. -/
structure Coupled (k : Core) (decided : List Bool) : Prop where
  firing_iff : k.state = .firing ↔
    k.severity.isSome ∧ 1 ≤ k.fireCount ∧ k.currentStateSince.isSome
  notFiring : k.state ≠ .firing →
    k.severity = none ∧ k.currentStateSince = none ∧ k.fireCount = 0
  history_length : k.fireHistory.length ≤ 20
  history_last : k.fireHistory.getLast? = decided.getLast?

theorem length_pushHistory_le (history : List Bool) (fired : Bool) :
    (pushHistory history fired).length ≤ 20 := by
  rw [pushHistory, length_append, length_drop, length_singleton]
  omega

@[simp] theorem getLast?_pushHistory (history : List Bool) (fired : Bool) :
    (pushHistory history fired).getLast? = some fired := by
  rw [pushHistory, getLast?_concat]

variable {hasHealthy : Bool} {now : Timestamp} {k k' : Core} {entries : List Entry}
    {outcome : Option Bool}

/-- **Every transition keeps the fields together**, except that of a firing entity that is
cleared because no tier matched and no healthy tier is there to ask. -/
theorem Transition.coupled {decided : List Bool}
    (h : Transition hasHealthy now k k' entries outcome) (hk : Coupled k decided)
    (hclear : k.state = .firing → outcome = some false → hasHealthy = true) :
    Coupled k' (decided ++ outcome.toList) := by
  have hlast : ∀ b, (decided ++ (some b).toList).getLast? = some b := fun b => getLast?_concat
  cases h with
  | unchanged => rwa [Option.toList_none, append_nil]
  | idle hidle => exact ⟨hk.firing_iff, hk.notFiring, length_pushHistory_le .., by simp⟩
  | cleared hfiring =>
    have hhealthy := hclear hfiring rfl
    refine ⟨by simp, fun _ => ?_, length_pushHistory_le .., by simp⟩
    simp [hhealthy]
  | fired severity hidle =>
    exact ⟨by simp, fun hne => absurd rfl hne, length_pushHistory_le .., by simp⟩
  | moved severity hfiring hrank =>
    exact ⟨by simp, fun hne => absurd rfl hne, length_pushHistory_le .., by simp⟩
  | continued hfiring =>
    obtain ⟨hseverity, -, hsince⟩ := hk.firing_iff.1 hfiring
    refine ⟨iff_of_true hfiring ⟨hseverity, Nat.le_add_left .., hsince⟩,
      fun hne => absurd hfiring hne, length_pushHistory_le .., by simp⟩

/-! ### The log is a sequence of episodes -/

/-- A log that continues after the alert was raised with a severity, or while it is not
raised: episodes `fire, (escalate | downgrade)*, clear`, the last of which may be open, in
which an escalation raises the rank of the severity and a downgrade lowers it. -/
def Episodes : Option String → List Entry → Prop
  | _, [] => True
  | none, entry :: entries => entry.action = .fire ∧ Episodes (some entry.severity) entries
  | some severity, entry :: entries =>
    match entry.action with
    | .fire => False
    | .clear => Episodes none entries
    | .escalate => severityRank (some severity) < severityRank (some entry.severity) ∧
        Episodes (some entry.severity) entries
    | .downgrade => severityRank (some entry.severity) < severityRank (some severity) ∧
        Episodes (some entry.severity) entries

/-- The severity the alert is raised with after one more record. -/
def severityAfter (entry : Entry) : Option String :=
  if entry.action = .clear then none else some entry.severity

/-- The severity the alert is raised with at the end of a log. -/
def openSeverity (entries : List Entry) : Option String :=
  entries.foldl (fun _ entry => severityAfter entry) none

@[simp] theorem openSeverity_append_singleton (entries : List Entry) (entry : Entry) :
    openSeverity (entries ++ [entry]) = severityAfter entry := by
  rw [openSeverity, foldl_append]
  rfl

theorem Episodes.append_singleton {current : Option String}
    {entry : Entry} (h : Episodes current entries)
    (hentry : Episodes (entries.foldl (fun _ e => severityAfter e) current) [entry]) :
    Episodes current (entries ++ [entry]) := by
  induction entries generalizing current with
  | nil => exact hentry
  | cons first rest ih =>
    rw [foldl_cons] at hentry
    cases current with
    | none =>
      obtain ⟨hfire, hrest⟩ := h
      have hafter : severityAfter first = some first.severity := by simp [severityAfter, hfire]
      exact ⟨hfire, ih hrest (hafter ▸ hentry)⟩
    | some severity =>
      rw [cons_append]
      simp only [Episodes] at h ⊢
      cases haction : first.action with
      | fire => simp [haction] at h
      | clear =>
        have hafter : severityAfter first = none := by simp [severityAfter, haction]
        simp only [haction] at h ⊢
        exact ih h (hafter ▸ hentry)
      | escalate =>
        have hafter : severityAfter first = some first.severity := by simp [severityAfter, haction]
        simp only [haction] at h ⊢
        exact ⟨h.1, ih h.2 (hafter ▸ hentry)⟩
      | downgrade =>
        have hafter : severityAfter first = some first.severity := by simp [severityAfter, haction]
        simp only [haction] at h ⊢
        exact ⟨h.1, ih h.2 (hafter ▸ hentry)⟩

/-- The invariant that links the log of an entity to its state: the log is a sequence of
episodes, and the last one is open, with the severity of the entity, while it fires. -/
structure Logged (k : Core) (entries : List Entry) : Prop where
  episodes : Episodes none entries
  firing_iff : k.state = .firing ↔ (openSeverity entries).isSome
  severity : k.severity = openSeverity entries

/-- **Every transition continues the log.** -/
theorem Transition.episodes {new : List Entry}
    (h : Transition hasHealthy now k k' new outcome) (hk : Logged k entries) :
    Logged k' (entries ++ new) := by
  have hfollow : ∀ {entry : Entry}, Episodes (openSeverity entries) [entry] →
      Episodes none (entries ++ [entry]) := fun he => hk.episodes.append_singleton he
  cases h with
  | unchanged => rwa [append_nil]
  | idle hidle => exact ⟨by simpa using hk.episodes, by simpa using hk.firing_iff,
      by simpa using hk.severity⟩
  | cleared hfiring =>
    obtain ⟨severity, hopen⟩ := Option.isSome_iff_exists.1 (hk.firing_iff.1 hfiring)
    refine ⟨hfollow ?_, by simp [severityAfter], by simp [severityAfter]⟩
    simp [hopen, Episodes]
  | fired severity hidle =>
    have hopen : openSeverity entries = none := by
      have hnot := fun hsome => hidle (hk.firing_iff.2 hsome)
      simpa using hnot
    refine ⟨hfollow ?_, by simp [severityAfter], by simp [severityAfter]⟩
    simp [hopen, Episodes]
  | moved severity hfiring hrank =>
    obtain ⟨current, hopen⟩ := Option.isSome_iff_exists.1 (hk.firing_iff.1 hfiring)
    have hcurrent : k.severity = some current := hk.severity.trans hopen
    rw [hcurrent] at hrank ⊢
    rcases lt_or_gt_of_ne hrank with hlt | hgt
    · have haction : moveAction (some current) (some severity) = .escalate := if_pos hlt
      rw [haction]
      refine ⟨hfollow ?_, by simp [severityAfter], by simp [severityAfter]⟩
      simp [hopen, Episodes, hlt]
    · have haction : moveAction (some current) (some severity) = .downgrade :=
        if_neg (not_lt_of_gt hgt)
      rw [haction]
      refine ⟨hfollow ?_, by simp [severityAfter], by simp [severityAfter]⟩
      simp [hopen, Episodes, hgt]
  | continued hfiring => exact ⟨by simpa using hk.episodes, by simpa using hk.firing_iff,
      by simpa using hk.severity⟩

/-- What the records of one cycle say about the transition they are written for: without a
record the state and the severity stay, and a record that does not clear the entity carries
the severity it has afterwards. -/
theorem Transition.records {new : List Entry} (h : Transition hasHealthy now k k' new outcome) :
    (new = [] → k'.state = k.state ∧ k'.severity = k.severity) ∧
      ∀ entry ∈ new, if entry.action = .clear then entry.severity = "healthy" ∧
        k.state = .firing ∧ k'.severity = none else k'.severity = some entry.severity := by
  cases h with
  | unchanged => simp
  | idle => simp
  | cleared hfiring => simp [hfiring]
  | fired => simp
  | moved severity => simp [moveAction_ne_clear]
  | continued => simp

end MonCTL.Alerting
