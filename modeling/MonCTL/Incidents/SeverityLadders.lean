import Mathlib.Data.List.Chain
import MonCTL.Incidents.OneOpen

/-!
# Severity Ladders

The ladder of a rule is a JSON value that nothing but `_validate_ladder` has looked at. A ladder as
it is documented is accepted, step by step, and any other value is `None`; only when the loop gets
to a severity that is a list or an object does the lookup of its priority raise. An accepted ladder
gives the severity of the last step reached, and whatever happens to rules, ladders and alerts, no
cycle takes the severity of an incident down.
-/

namespace MonCTL.Incidents

open List

open Alerting (AlertState AlertEntity Entities)

/-! ### The documented ladders -/

/-- The priority of a severity; one that is not known comes below all others. -/
def rank (severity : String) : ℤ := (severityPriority.get? severity).getD (-1)

/-- An entry of a ladder and its step, as documented: an `int` from zero on, and a severity that has
a priority. -/
structure IsStep (entry : PyValue) (step : LadderStep) : Prop where
  after : ∃ d, entry = .dict d ∧ asInt (PyDict.getD d "after_seconds" .none) =
    some step.afterSeconds ∧ PyDict.getD d "severity" .none = .str step.severity
  nonneg : 0 ≤ step.afterSeconds
  known : (severityPriority.get? step.severity).isSome

/-- A step may come after another one. -/
def Climbs (a b : LadderStep) : Prop :=
  a.afterSeconds < b.afterSeconds ∧ rank a.severity ≤ rank b.severity

/-- **The documented ladders**: a list of steps that climb, and the first is at zero. -/
def IsLadder (raw : PyValue) (steps : List LadderStep) : Prop :=
  ∃ entries, raw = .list entries ∧ List.Forall₂ IsStep entries steps ∧ steps.IsChain Climbs ∧
    steps.head?.map LadderStep.afterSeconds = some 0

/-- **The validator answers as documented**: it does not raise, and gives the steps of a ladder. -/
def Validates (raw : PyValue) : Prop :=
  ∃ answer, validateLadder raw = .ok answer ∧ ∀ steps, answer = some steps ↔ IsLadder raw steps

/-- The severity of an entry that is not turned away before it is looked up is a list or an
object. -/
def Unhashable (entry : PyValue) : Prop :=
  ∃ d after, entry = .dict d ∧ asInt (PyDict.getD d "after_seconds" .none) = some after ∧
    0 ≤ after ∧ ((∃ xs, PyDict.getD d "severity" .none = .list xs) ∨
      ∃ xs, PyDict.getD d "severity" .none = .dict xs)

/-- **No severity that the loop gets to is a list or an object**: none that comes after steps that
climb. -/
def Hashable (raw : PyValue) : Prop :=
  ∀ before entry later steps, raw = .list (before ++ entry :: later) →
    List.Forall₂ IsStep before steps → steps.IsChain Climbs → ¬Unhashable entry

/-! ### The loop over the entries -/

/-- A step may come at this point of the loop. -/
def Fits (lastSeconds lastPriority : ℤ) (step : LadderStep) : Prop :=
  lastSeconds < step.afterSeconds ∧ lastPriority ≤ rank step.severity

theorem validateSteps_step {lastSeconds lastPriority : ℤ} {entry : PyValue} {step : LadderStep}
    (h : IsStep entry step) (hfits : Fits lastSeconds lastPriority step) (rest : List PyValue) :
    validateSteps lastSeconds lastPriority (entry :: rest) =
      (validateSteps step.afterSeconds (rank step.severity) rest).map
        (Option.map (step :: ·)) := by
  obtain ⟨⟨d, rfl, hafter, hsev⟩, hnonneg, hknown⟩ := h
  obtain ⟨priority, hpriority⟩ := Option.isSome_iff_exists.1 hknown
  have hrank : rank step.severity = priority := by
    rw [rank, hpriority, Option.getD_some]
  rw [validateSteps, hafter, hsev, lookupPriority, hpriority, Option.map_some, hrank]
  dsimp only
  rw [if_neg hnonneg.not_gt, if_neg hfits.1.not_ge, if_neg (hrank ▸ hfits.2).not_gt]

theorem validateSteps_unhashable {entry : PyValue} (h : Unhashable entry)
    (lastSeconds lastPriority : ℤ) (rest : List PyValue) :
    validateSteps lastSeconds lastPriority (entry :: rest) = .error .typeError := by
  obtain ⟨d, after, rfl, hafter, hnonneg, ⟨xs, hsev⟩ | ⟨xs, hsev⟩⟩ := h
  · rw [validateSteps, hafter, hsev, lookupPriority]
    dsimp only
    rw [if_neg hnonneg.not_gt]
  · rw [validateSteps, hafter, hsev, lookupPriority]
    dsimp only
    rw [if_neg hnonneg.not_gt]

/-- **What the loop does at an entry**: it is a step that fits, or cannot be looked up, or ends the
loop. -/
theorem validateSteps_cases (lastSeconds lastPriority : ℤ) (entry : PyValue)
    (rest : List PyValue) :
    (∃ step, IsStep entry step ∧ Fits lastSeconds lastPriority step) ∨ Unhashable entry ∨
      validateSteps lastSeconds lastPriority (entry :: rest) = .ok none := by
  cases entry with
  | dict d =>
    rw [validateSteps]
    cases hafter : asInt (PyDict.getD d "after_seconds" .none) with
    | none => exact .inr (.inr rfl)
    | some after =>
      dsimp only
      split
      · exact .inr (.inr rfl)
      next hnonneg =>
        have hnonneg : 0 ≤ after := not_lt.1 hnonneg
        cases hsev : PyDict.getD d "severity" .none with
        | list xs => exact .inr (.inl ⟨d, after, rfl, hafter, hnonneg, .inl ⟨xs, hsev⟩⟩)
        | dict xs => exact .inr (.inl ⟨d, after, rfl, hafter, hnonneg, .inr ⟨xs, hsev⟩⟩)
        | str sev =>
          rw [lookupPriority]
          cases hpriority : severityPriority.get? sev with
          | none => exact .inr (.inr rfl)
          | some priority =>
            have hrank : rank sev = priority := by rw [rank, hpriority, Option.getD_some]
            dsimp only [Option.map_some]
            split
            · exact .inr (.inr rfl)
            next hlast =>
              split
              · exact .inr (.inr rfl)
              next hprio =>
                exact .inl ⟨⟨after, sev⟩, ⟨⟨d, rfl, hafter, hsev⟩, hnonneg,
                  by rw [hpriority]; rfl⟩, not_le.1 hlast, hrank ▸ not_lt.1 hprio⟩
        | _ => exact .inr (.inr rfl)
  | _ => exact .inr (.inr rfl)

/-- Steps that climb, from this point of the loop on. -/
def ClimbFrom (lastSeconds lastPriority : ℤ) (steps : List LadderStep) : Prop :=
  (∀ step ∈ steps.head?, Fits lastSeconds lastPriority step) ∧ steps.IsChain Climbs

theorem climbFrom_cons {lastSeconds lastPriority : ℤ} {step : LadderStep}
    {steps : List LadderStep} : ClimbFrom lastSeconds lastPriority (step :: steps) ↔
      Fits lastSeconds lastPriority step ∧
        ClimbFrom step.afterSeconds (rank step.severity) steps := by
  rw [ClimbFrom, ClimbFrom, isChain_cons, head?_cons]
  simp only [Option.mem_some_iff, forall_eq']
  rfl

/-- **The loop raises** exactly if it gets to an entry whose severity cannot be looked up. -/
theorem validateSteps_error_iff (lastSeconds lastPriority : ℤ) (entries : List PyValue) :
    (∃ e, validateSteps lastSeconds lastPriority entries = .error e) ↔
      ∃ before entry later steps, entries = before ++ entry :: later ∧
        List.Forall₂ IsStep before steps ∧ ClimbFrom lastSeconds lastPriority steps ∧
          Unhashable entry := by
  induction entries generalizing lastSeconds lastPriority with
  | nil => simp [validateSteps]
  | cons entry rest ih =>
    constructor
    · rintro ⟨e, herror⟩
      rcases validateSteps_cases lastSeconds lastPriority entry rest with
        ⟨step, hstep, hfits⟩ | hunhashable | hnone
      · rw [validateSteps_step hstep hfits] at herror
        have hrest : ∃ e,
            validateSteps step.afterSeconds (rank step.severity) rest = .error e := by
          cases hresult : validateSteps step.afterSeconds (rank step.severity) rest with
          | error e => exact ⟨e, rfl⟩
          | ok answer =>
            rw [hresult] at herror
            cases herror
        obtain ⟨before, entry', later, steps, rfl, hsteps, hclimb, hunhashable⟩ :=
          (ih _ _).1 hrest
        exact ⟨entry :: before, entry', later, step :: steps, rfl, .cons hstep hsteps,
          climbFrom_cons.2 ⟨hfits, hclimb⟩, hunhashable⟩
      · exact ⟨[], entry, rest, [], rfl, .nil, ⟨by simp, isChain_nil⟩, hunhashable⟩
      · rw [hnone] at herror
        cases herror
    · rintro ⟨before, entry', later, steps, heq, hsteps, hclimb, hunhashable⟩
      cases hsteps with
      | nil =>
        cases heq
        exact ⟨_, validateSteps_unhashable hunhashable _ _ _⟩
      | cons hstep hsteps =>
        cases heq
        obtain ⟨hfits, hclimb⟩ := climbFrom_cons.1 hclimb
        obtain ⟨e, he⟩ := (ih _ _).2 ⟨_, _, _, _, rfl, hsteps, hclimb, hunhashable⟩
        rw [validateSteps_step hstep hfits, he]
        exact ⟨e, rfl⟩

/-- **The loop gives the steps** of entries that are steps and climb, and no others. -/
theorem validateSteps_some_iff (lastSeconds lastPriority : ℤ) (entries : List PyValue)
    (steps : List LadderStep) :
    validateSteps lastSeconds lastPriority entries = .ok (some steps) ↔
      List.Forall₂ IsStep entries steps ∧ ClimbFrom lastSeconds lastPriority steps := by
  induction entries generalizing lastSeconds lastPriority steps with
  | nil =>
    constructor
    · intro h
      cases h
      exact ⟨.nil, by simp, isChain_nil⟩
    · rintro ⟨hsteps, -⟩
      cases hsteps
      rfl
  | cons entry rest ih =>
    constructor
    · intro h
      rcases validateSteps_cases lastSeconds lastPriority entry rest with
        ⟨step, hstep, hfits⟩ | hunhashable | hnone
      · rw [validateSteps_step hstep hfits] at h
        cases hresult : validateSteps step.afterSeconds (rank step.severity) rest with
        | error e =>
          rw [hresult] at h
          cases h
        | ok answer =>
          rw [hresult] at h
          obtain ⟨steps', rfl, rfl⟩ := Option.map_eq_some_iff.1 (Except.ok.inj h)
          obtain ⟨hsteps, hclimb⟩ := (ih _ _ _).1 hresult
          exact ⟨.cons hstep hsteps, climbFrom_cons.2 ⟨hfits, hclimb⟩⟩
      · rw [validateSteps_unhashable hunhashable] at h
        cases h
      · rw [hnone] at h
        cases h
    · rintro ⟨hsteps, hclimb⟩
      cases hsteps with
      | cons hstep hsteps =>
        obtain ⟨hfits, hclimb⟩ := climbFrom_cons.1 hclimb
        rw [validateSteps_step hstep hfits, (ih _ _ _).2 ⟨hsteps, hclimb⟩]
        rfl

/-! ### The validator -/

theorem rank_nonneg {severity : String} (h : (severityPriority.get? severity).isSome) :
    0 ≤ rank severity := by
  obtain ⟨priority, hpriority⟩ := Option.isSome_iff_exists.1 h
  have hmem := Dict.mem_of_get? hpriority
  rw [rank, hpriority, Option.getD_some]
  have hall : ∀ pair ∈ severityPriority, 0 ≤ pair.2 := by decide
  exact hall _ hmem

theorem climbFrom_start {entries : List PyValue} {steps : List LadderStep}
    (h : List.Forall₂ IsStep entries steps) : ClimbFrom (-1) (-1) steps ↔ steps.IsChain Climbs := by
  refine ⟨And.right, fun hchain => ⟨?_, hchain⟩⟩
  intro step hhead
  cases h with
  | nil => cases hhead
  | cons hstep _ =>
    cases Option.some.inj hhead
    exact ⟨by have := hstep.nonneg; omega, by have := rank_nonneg hstep.known; omega⟩

theorem validateLadder_list (entries : List PyValue) :
    validateLadder (.list entries) = (validateSteps (-1) (-1) entries).map fun normalized =>
      normalized.filter fun steps => steps.head?.map LadderStep.afterSeconds = some 0 := by
  cases entries with
  | nil => rfl
  | cons entry rest =>
    rw [validateLadder]
    cases validateSteps (-1) (-1) (entry :: rest) <;> rfl

/-- **The validator answers as documented** exactly if no severity that the loop gets to is a list
or an object. -/
theorem validates_iff (raw : PyValue) : Validates raw ↔ Hashable raw := by
  constructor
  · rintro ⟨answer, hanswer, -⟩ before entry later steps rfl hsteps hchain hunhashable
    obtain ⟨e, he⟩ := (validateSteps_error_iff (-1) (-1) _).2
      ⟨before, entry, later, steps, rfl, hsteps, (climbFrom_start hsteps).2 hchain, hunhashable⟩
    rw [validateLadder_list, he] at hanswer
    cases hanswer
  · intro h
    cases raw with
    | list entries =>
      cases hresult : validateSteps (-1) (-1) entries with
      | error e =>
        obtain ⟨before, entry, later, steps, rfl, hsteps, hclimb, hunhashable⟩ :=
          (validateSteps_error_iff (-1) (-1) entries).1 ⟨e, hresult⟩
        exact absurd hunhashable (h before entry later steps rfl hsteps hclimb.2)
      | ok normalized =>
        refine ⟨_, by rw [validateLadder_list, hresult]; rfl, fun steps => ?_⟩
        rw [Option.filter_eq_some_iff, decide_eq_true_eq]
        constructor
        · rintro ⟨rfl, hfirst⟩
          obtain ⟨hsteps, hclimb⟩ := (validateSteps_some_iff _ _ _ _).1 hresult
          exact ⟨entries, rfl, hsteps, hclimb.2, hfirst⟩
        · rintro ⟨entries', heq, hsteps, hchain, hfirst⟩
          cases heq
          have hsome := (validateSteps_some_iff (-1) (-1) entries steps).2
            ⟨hsteps, (climbFrom_start hsteps).2 hchain⟩
          exact ⟨Except.ok.inj (hresult.symm.trans hsome), hfirst⟩
    | _ =>
      refine ⟨none, rfl, fun steps => ⟨fun hnone => absurd hnone (by simp), ?_⟩⟩
      rintro ⟨entries, heq, -⟩
      cases heq

/-! ### The severity at a time -/

/-- The last step of a ladder that is reached after some time. -/
def LastReached (ladder : List LadderStep) (elapsed : ℤ) (step : LadderStep) : Prop :=
  ∃ before later, ladder = before ++ step :: later ∧ seconds step.afterSeconds ≤ elapsed ∧
    ∀ next ∈ later, elapsed < seconds next.afterSeconds

/-- **A ladder is followed**: the severity at any time is that of the last step reached, and there
is one from the start on. -/
def Follows (ladder : List LadderStep) : Prop :=
  ∀ elapsed, (∀ step, LastReached ladder elapsed step →
    ladderSeverityAt ladder elapsed = some step.severity) ∧
      (0 ≤ elapsed → ∃ step, LastReached ladder elapsed step)

theorem ladderSeverityAt_of_lastReached {ladder : List LadderStep} {elapsed : ℤ}
    {step : LadderStep} (h : LastReached ladder elapsed step) :
    ladderSeverityAt ladder elapsed = some step.severity := by
  obtain ⟨before, later, rfl, hreached, hlater⟩ := h
  have hskip : later.reverse.find? (fun step => seconds step.afterSeconds ≤ elapsed) = none := by
    refine List.find?_eq_none.2 fun next hnext => ?_
    have hlt := hlater next (List.mem_reverse.1 hnext)
    simpa using hlt
  rw [ladderSeverityAt, reverse_append, reverse_cons, append_assoc,
    find?_append, hskip, Option.none_or, singleton_append, find?_cons]
  simp [hreached]

theorem exists_lastReached {ladder : List LadderStep}
    (hfirst : ladder.head?.map LadderStep.afterSeconds = some 0) {elapsed : ℤ}
    (helapsed : 0 ≤ elapsed) : ∃ step, LastReached ladder elapsed step := by
  cases hfind : ladder.reverse.find? fun step => seconds step.afterSeconds ≤ elapsed with
  | none =>
    obtain ⟨first, hhead, hzero⟩ := Option.map_eq_some_iff.1 hfirst
    have hnot := List.find?_eq_none.1 hfind first
      (List.mem_reverse.2 (mem_of_mem_head? hhead))
    rw [hzero] at hnot
    exact absurd helapsed (by simpa [seconds] using hnot)
  | some step =>
    obtain ⟨hreached, later, before, heq, hlater⟩ := List.find?_eq_some_iff_append.1 hfind
    refine ⟨step, before.reverse, later.reverse, ?_, by simpa using hreached, ?_⟩
    · have := congrArg List.reverse heq
      simpa using this
    · intro next hnext
      have hnot := hlater next (List.mem_reverse.1 hnext)
      simpa using hnot

/-- **An accepted ladder is followed.** -/
theorem follows_of_validateLadder {raw : PyValue} {ladder : List LadderStep}
    (h : validateLadder raw = .ok (some ladder)) : Follows ladder := by
  refine fun elapsed => ⟨fun step => ladderSeverityAt_of_lastReached, exists_lastReached ?_⟩
  cases raw with
  | list entries =>
    rw [validateLadder_list] at h
    cases hresult : validateSteps (-1) (-1) entries with
    | error e =>
      rw [hresult] at h
      cases h
    | ok normalized =>
      rw [hresult] at h
      exact of_decide_eq_true (Option.filter_eq_some_iff.1 (Except.ok.inj h)).2
  | _ => cases h

/-! ### The severity over a run -/

/-- **No incident has become less severe.** -/
def NeverLower (rows rows' : List IncidentRow) : Prop :=
  ∀ row ∈ rows, ∀ row' ∈ rows', row'.id = row.id → rank row.severity ≤ rank row'.severity

theorem WellFormed.neverLower_map {ids : UuidSource} {n : ℕ} {rows : List IncidentRow}
    (h : WellFormed ids n rows) {f : IncidentRow → IncidentRow}
    (hf : ∀ row ∈ rows, (f row).id = row.id ∧ rank row.severity ≤ rank (f row).severity) :
    NeverLower rows (rows.map f) := by
  intro row hrow row' hrow' hid
  obtain ⟨r, hr, rfl⟩ := List.mem_map.1 hrow'
  obtain ⟨hkept, hle⟩ := hf r hr
  rwa [h.eq_of_id hr hrow (hkept.symm.trans hid)] at hle ⊢

theorem WellFormed.neverLower_refl {ids : UuidSource} {n : ℕ} {rows : List IncidentRow}
    (h : WellFormed ids n rows) : NeverLower rows rows := by
  have hid := h.neverLower_map (f := id) fun row _ => ⟨rfl, le_refl _⟩
  rwa [map_id] at hid

/-- One change after another: a row that is there in the end and had its id at the start was there
in between. -/
theorem NeverLower.trans {ids : UuidSource} {n n' n'' : ℕ} {rows rows' rows'' : List IncidentRow}
    (h : NeverLower rows rows') (h' : NeverLower rows' rows'') (hwf : WellFormed ids n rows)
    (hle : n ≤ n') (hevolves : Evolves ids rows' n' rows'' n'') : NeverLower rows rows'' := by
  intro row hrow row'' hrow'' hid
  rcases hevolves.origin row'' hrow'' with ⟨row', hrow', hadv⟩ | ⟨k, hk, -, hkid⟩
  · exact (h row hrow row' hrow' (hadv.id.symm.trans hid)).trans
      (h' row' hrow' row'' hrow'' hadv.id)
  · obtain ⟨j, hj, hjid⟩ := hwf.ids_issued row hrow
    have hkj : k = j := ids.injective (hkid.symm.trans (hid.trans hjid))
    omega

theorem rank_applyLadder (row : IncidentRow) (ladder : List LadderStep) (now : Timestamp) :
    rank row.severity ≤ rank (applyLadder row ladder now).1.severity := by
  rw [applyLadder]
  split
  · exact le_refl _
  next target _ =>
    split_ifs with hsame hle
    · exact le_refl _
    · exact le_refl _
    · exact (not_le.1 hle).le

theorem updateIncident_incidents (c : RuleContext) (message : String) (inst : AlertEntity)
    (row : IncidentRow) (s : EngineState) :
    ∃ row', (updateIncident c message inst row s).incidents = putRow s.incidents row' ∧
      row'.id = row.id ∧ rank row.severity ≤ rank row'.severity := by
  rw [updateIncident]
  cases c.ladder with
  | none => exact ⟨_, rfl, rfl, le_refl _⟩
  | some ladder =>
    refine ⟨_, rfl, ?_, rank_applyLadder (refreshIncident c message inst row) ladder c.now⟩
    rcases applyLadder_cases (refreshIncident c message inst row) ladder c.now with
      h | ⟨severity, -, h⟩
    · rw [h]
      rfl
    · rw [h]
      rfl

/-- **A round of the loop** opens an incident, or writes a row that is at least as severe. -/
theorem evaluateEntity_incidents (ids : UuidSource) (c : RuleContext) (inst : AlertEntity)
    (s : EngineState) :
    (evaluateEntity ids c inst s).1.incidents = s.incidents ∨
      (∃ message, (evaluateEntity ids c inst s).1.incidents =
        s.incidents ++ [newIncident c (ids.uuid4 s.issued) message inst]) ∨
      ∃ row ∈ s.incidents, ∃ row', row'.id = row.id ∧ rank row.severity ≤ rank row'.severity ∧
        (evaluateEntity ids c inst s).1.incidents = putRow s.incidents row' := by
  rw [evaluateEntity]
  cases hincident : c.incident s.incidents inst with
  | none =>
    dsimp only
    split_ifs
    · exact .inl rfl
    · exact .inl rfl
    · exact .inl rfl
    · cases c.renderMessage inst with
      | none => exact .inl rfl
      | some message => exact .inr (.inl ⟨message, rfl⟩)
  | some row =>
    have hrow := (RuleContext.mem_of_incident hincident).1
    dsimp only
    split
    · exact .inr (.inr ⟨row, hrow, row.clear c.now _, rfl, le_refl _, rfl⟩)
    · split
      · split
        · exact .inr (.inr ⟨row, hrow, row.touch c.now, rfl, le_refl _, rfl⟩)
        next message _ =>
          obtain ⟨row', hwritten, hid, hle⟩ := updateIncident_incidents c message inst row s
          exact .inr (.inr ⟨row, hrow, row', hid, hle, hwritten⟩)
      · split_ifs
        · exact .inl rfl
        · exact .inl rfl
        · exact .inr (.inr ⟨row, hrow, row.clear c.now _, rfl, le_refl _, rfl⟩)
      · exact .inl rfl

theorem LoopInv.neverLower_round {ids : UuidSource} {c : RuleContext} {inst : AlertEntity}
    {rest : List AlertEntity} {s : EngineState} (h : LoopInv ids c (inst :: rest) s) :
    NeverLower s.incidents (evaluateEntity ids c inst s).1.incidents := by
  rcases evaluateEntity_incidents ids c inst s with hskip | ⟨message, hopened⟩ |
    ⟨row, hrow, row', hid, hle, hwritten⟩
  · rw [hskip]
    exact h.wf.neverLower_refl
  · rw [hopened]
    intro r hr r' hr' hrid
    rcases List.mem_append.1 hr' with hr' | hr'
    · exact h.wf.neverLower_refl r hr r' hr' hrid
    · obtain ⟨k, hk, hkid⟩ := h.wf.ids_issued r hr
      rw [List.mem_singleton.1 hr'] at hrid
      have hne : s.issued = k := ids.injective (hrid.trans hkid)
      omega
  · rw [hwritten]
    refine h.wf.neverLower_map fun r hr => ?_
    split
    next hr' =>
      rw [h.wf.eq_of_id hr hrow (hr'.trans hid)]
      exact ⟨hid, hle⟩
    · exact ⟨rfl, le_refl _⟩

theorem LoopInv.neverLower {ids : UuidSource} {c : RuleContext} {rest : List AlertEntity}
    {s : EngineState} (h : LoopInv ids c rest s) :
    NeverLower s.incidents (evaluateEntities ids c rest s).1.incidents := by
  induction rest generalizing s with
  | nil => exact h.wf.neverLower_refl
  | cons inst rest ih =>
    obtain ⟨hinv, hevolves⟩ := h.round
    have hround := h.neverLower_round
    rw [evaluateEntities]
    split
    next s' heq =>
      rw [heq] at hinv hevolves hround
      exact hround.trans (ih hinv) h.wf hevolves.le hinv.rounds.2
    next s' heq =>
      rw [heq] at hround
      exact hround

theorem neverLower_companionPass {ids : UuidSource} (config : Config) (rule : EngineRule)
    (now : Timestamp) (loaded : List Uuid) {s : EngineState}
    (h : WellFormed ids s.issued s.incidents) :
    NeverLower s.incidents (companionPass config rule now loaded s).incidents := by
  rw [companionPass]
  cases validateCompanionIds rule.clearOnCompanionIds with
  | none => exact h.neverLower_refl
  | some companionIds =>
    refine h.neverLower_map fun row _ => ?_
    split
    · rcases companionClear_cases rule companionIds config.companionEntities now row with
        ⟨heq, -⟩ | ⟨-, reason, heq, -⟩
      · rw [heq]
        exact ⟨rfl, le_refl _⟩
      · rw [heq]
        exact ⟨rfl, le_refl _⟩
    · exact ⟨rfl, le_refl _⟩

/-- **A rule takes no severity down**, also when it is abandoned. -/
theorem neverLower_evaluateRule {ids : UuidSource} (config : Config) (env : CycleEnv)
    (rule : EngineRule) {s : EngineState} (h : WellFormed ids s.issued s.incidents) :
    NeverLower s.incidents (evaluateRule ids config env rule s).incidents := by
  rw [evaluateRule]
  split
  · exact h.neverLower_refl
  next defn _ =>
    split
    · exact h.neverLower_refl
    · split
      · exact h.neverLower_refl
      next ladder _ =>
        have hinv := loopInv_start h env rule ladder defn
        have hloop := hinv.neverLower
        obtain ⟨hwf, hevolves⟩ := hinv.rounds
        dsimp only
        split
        next s' heq =>
          rw [heq] at hloop
          exact hloop
        next s' heq =>
          rw [heq] at hloop hwf hevolves
          exact hloop.trans (neverLower_companionPass config rule _ _ hwf) h hevolves.le
            (companionPass_wellFormed config rule _ _ hwf).2

theorem neverLower_foldl {ids : UuidSource} (config : Config) (env : CycleEnv)
    (rules : List EngineRule) {s : EngineState} (h : WellFormed ids s.issued s.incidents) :
    NeverLower s.incidents
      (rules.foldl (fun s rule => evaluateRule ids config env rule s) s).incidents := by
  induction rules generalizing s with
  | nil => exact h.neverLower_refl
  | cons rule rules ih =>
    obtain ⟨hwf, hevolves⟩ := evaluateRule_wellFormed config env rule h
    exact (neverLower_evaluateRule config env rule h).trans (ih hwf) h hevolves.le
      (foldl_evaluateRule_wellFormed config env rules hwf).2

theorem neverLower_step {ids : UuidSource} {s s' : System} {a : Action}
    (h : WellFormed ids s.issued s.incidents) (hstep : step ids s a = some s') :
    NeverLower s.incidents s'.incidents := by
  cases a with
  | configure config =>
    cases hstep
    intro row hrow row' hrow' hid
    obtain ⟨r, hr, rfl⟩ := List.mem_map.1 hrow'
    have hsame : r = row := h.eq_of_id (mem_of_mem_filter hr) hrow hid
    exact hsame ▸ le_refl _
  | clearManually chosen now =>
    cases hstep
    refine h.neverLower_map fun row _ => ?_
    split
    · exact ⟨rfl, le_refl _⟩
    · exact ⟨rfl, le_refl _⟩
  | cycle env commits =>
    cases commits with
    | true =>
      cases hstep
      exact neverLower_foldl s.config env _ (s := ⟨s.incidents, s.issued, []⟩) h
    | false =>
      cases hstep
      exact h.neverLower_refl

/-- **Severities never go down**, in any run from a state that was reached. -/
theorem neverLower_of_run {ids : UuidSource} {allowed : System → Action → Prop} {s t : System}
    (hs : WellFormed ids s.issued s.incidents) (h : Run (step ids) allowed s t) :
    NeverLower s.incidents t.incidents := by
  refine (h.invariant (I := fun t => (WellFormed ids t.issued t.incidents ∧
    Evolves ids s.incidents s.issued t.incidents t.issued) ∧
      NeverLower s.incidents t.incidents) ⟨⟨hs, .refl ..⟩, hs.neverLower_refl⟩ ?_).2
  rintro t a t' ⟨⟨hwf, hevolves⟩, hlower⟩ - hstep
  obtain ⟨hwf', hevolves'⟩ := step_wellFormed hwf hstep
  exact ⟨⟨hwf', hevolves.trans hevolves'⟩,
    hlower.trans (neverLower_step hwf hstep) hs hevolves.le hevolves'⟩

/-- **Severity ladders**: the validator answers as documented for exactly the values in which no
severity that its loop gets to is a list or an object; the ladders it accepts are followed; and no
run of cycles, in which rules, ladders and alerts change, takes the severity of an incident
down. -/
theorem ladders_iff (raw : PyValue) :
    (Validates raw ↔ Hashable raw) ∧
    (∀ ladder, validateLadder raw = .ok (some ladder) → Follows ladder) ∧
    ∀ ids s t, Run (step ids) (fun _ _ => True) {} s → Run (step ids) (fun _ _ => True) s t →
      NeverLower s.incidents t.incidents :=
  ⟨validates_iff raw, fun _ => follows_of_validateLadder,
    fun _ _ _ hs ht => neverLower_of_run (run_wellFormed hs) ht⟩

/-- A ladder whose first severity is a list. -/
def nestedLadder : PyValue :=
  .list [.dict [("after_seconds", .int 0), ("severity", .list [.str "critical"])]]

/-- **A nested severity raises.** -/
theorem not_validates : ¬Validates nestedLadder := by
  rintro ⟨answer, hanswer, -⟩
  cases hanswer

end MonCTL.Incidents
