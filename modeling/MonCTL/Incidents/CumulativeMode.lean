import MonCTL.Alerting.EntityHistory
import MonCTL.Incidents.Engine

/-!
# Cumulative Mode

A rule in cumulative mode opens an incident when enough of the last cycles of an entity were
firing. It counts in the history that the alert engine keeps for the entity, the last twenty
outcomes that were decided. A cycle without new data decides nothing, nor does one that leaves the
entity alone: when no tier that raises the alert matches, and the entity is not firing or the
healthy tier does not match either.
-/

namespace MonCTL.Incidents

open List Alerting

/-! ### The end of a history -/

/-- The last entries of a history. -/
def recent (n : ℕ) (history : List Bool) : List Bool := history.drop (history.length - n)

theorem pushHistory_recent (history : List Bool) (fired : Bool) :
    pushHistory (recent 20 history) fired = recent 20 (history ++ [fired]) := by
  have hlength : (recent 20 history).length = history.length - (history.length - 20) := length_drop
  have hdrop : ∀ k, (recent 20 history).drop k = history.drop (history.length - 20 + k) :=
    fun _ => drop_drop
  have hkept : history.length - 20 + ((recent 20 history).length - 19) = history.length - 19 := by
    omega
  have happend : (history ++ [fired]).length - 20 = history.length - 19 := by
    rw [length_append, length_singleton]
    omega
  rw [pushHistory, hdrop, hkept, recent, happend, drop_append_of_le_length (Nat.sub_le _ _)]

theorem recent_recent {m n : ℕ} (h : m ≤ n) (history : List Bool) :
    recent m (recent n history) = recent m history := by
  have hlength : (recent n history).length = history.length - (history.length - n) := length_drop
  rw [recent, hlength, recent, drop_drop, recent]
  congr 1
  omega

/-! ### The history over a run -/

theorem history_of_transition {hasHealthy : Bool} {now : Timestamp} {k k' : Core}
    {entries : List Entry} {outcome : Option Bool}
    (h : Alerting.Transition hasHealthy now k k' entries outcome) :
    k'.fireHistory = outcome.elim k.fireHistory (pushHistory k.fireHistory) := by
  cases h <;> rfl

theorem fireHistory_evaluate {s : History} {a : Evaluation}
    (hs : ∀ e ∈ s.entities.rows, e.fireHistory = recent 20 (s.decided e.assignmentId)) :
    ∀ e ∈ (s.evaluate a).entities.rows,
      e.fireHistory = recent 20 ((s.evaluate a).decided e.assignmentId) := by
  obtain ⟨g, hrows, hstep⟩ := s.evaluate_rows a
  intro e' he'
  rw [hrows] at he'
  obtain ⟨e, he, rfl⟩ := List.mem_map.1 he'
  obtain ⟨hid, records, hasHealthy, -, -, htransition⟩ := hstep e he
  have hhistory : (g e).fireHistory =
      (s.outcome a e.assignmentId).elim e.fireHistory (pushHistory e.fireHistory) :=
    history_of_transition htransition
  have hdecided : (s.evaluate a).decided (g e).assignmentId =
      s.decided e.assignmentId ++ (s.outcome a e.assignmentId).toList := by
    rw [hid]
    rfl
  rw [hhistory, hdecided, hs e he]
  cases s.outcome a e.assignmentId with
  | none => rw [Option.elim_none, Option.toList_none, append_nil]
  | some fired => exact pushHistory_recent _ fired

/-- **The history of an entity** is that of the last twenty outcomes, after every run. -/
theorem fireHistory_of_run {start s : History} (hfresh : start.Fresh)
    (h : Run History.step (fun _ _ => True) start s) :
    ∀ e ∈ s.entities.rows, e.fireHistory = recent 20 (s.decided e.assignmentId) := by
  refine h.invariant (I := fun s => ∀ e ∈ s.entities.rows,
    e.fireHistory = recent 20 (s.decided e.assignmentId)) ?_ ?_
  · intro e he
    obtain ⟨enabled, assignment, rfl⟩ := hfresh.synced e he
    rw [hfresh.decided]
    rfl
  · intro s a s' hs _ hstep
    cases Option.some.inj hstep
    exact fireHistory_evaluate hs

/-! ### The open condition -/

theorem meetsThreshold_cumulative {rule : EngineRule} (hmode : rule.mode = "cumulative")
    (hwindow : 1 ≤ rule.windowSize) (inst : AlertEntity) : meetsThreshold rule inst = true ↔
      rule.fireCountThreshold ≤ (recent rule.windowSize inst.fireHistory).count true := by
  have hconsecutive : ¬rule.mode = "consecutive" := by
    rw [hmode]
    decide
  have hzero : ¬rule.windowSize = 0 := by omega
  rw [meetsThreshold, if_neg hconsecutive, if_pos hmode]
  simp only [if_neg hzero, decide_eq_true_eq]
  rfl

/-- **Cumulative mode counts the outcomes**: with a window of at most twenty, the open condition
holds exactly if enough of the last outcomes that were decided are firing. -/
theorem meetsThreshold_of_run {start s : History} (hfresh : start.Fresh)
    (h : Run History.step (fun _ _ => True) start s) {rule : EngineRule}
    (hmode : rule.mode = "cumulative") (hwindow : 1 ≤ rule.windowSize)
    (hbound : rule.windowSize ≤ 20) {e : AlertEntity} (he : e ∈ s.entities.rows) :
    meetsThreshold rule e = true ↔ rule.fireCountThreshold ≤
      (recent rule.windowSize (s.decided e.assignmentId)).count true := by
  rw [meetsThreshold_cumulative hmode hwindow, fireHistory_of_run hfresh h e he,
    recent_recent hbound]

/-- A rule that opens when one of the last two cycles was firing. -/
def oneOfTwo : EngineRule where
  id := "r1"
  clearOnCompanionIds := .null
  clearCompanionMode := none
  definitionId := "d1"
  mode := "cumulative"
  fireCountThreshold := 1
  windowSize := 2

/-- The alert has fired once. -/
theorem meetsThreshold_latencyHigh : ∃ e ∈ (latencyStart.evaluate (latencyHigh true)).entities.rows,
      meetsThreshold oneOfTwo e = true ↔ oneOfTwo.fireCountThreshold ≤ (recent oneOfTwo.windowSize
        ((latencyStart.evaluate (latencyHigh true)).decided e.assignmentId)).count true := by
  have hrows : (latencyStart.evaluate (latencyHigh true)).entities.rows.map
      AlertEntity.assignmentId = ["a1"] := by decide +kernel
  obtain ⟨e, he, -⟩ := List.mem_map.1 (hrows ▸ mem_singleton_self _)
  exact ⟨e, he, meetsThreshold_of_run latencyStart_fresh (.step .start trivial rfl) rfl (by decide)
    (by decide) he⟩

/-! ### Cycles that decide nothing -/

/-- Whether a tier found the entity of an assignment, if there was new data for it. -/
def fired (s : History) (a : Evaluation) (aid : Uuid) : Option Bool :=
  (s.entities.enabled.find? (·.assignmentId = aid)).bind fun e =>
    (s.findings a).bind fun f =>
      if aid ∈ f.fresh then some (effectiveTier f.results e.key).isSome else none

/-- Whether a tier found the entity, for each cycle with new data for it. -/
def firings : History → List Evaluation → Uuid → List Bool
  | _, [], _ => []
  | s, a :: rest, aid => (fired s a aid).toList ++ firings (s.evaluate a) rest aid

/-- **The open condition counts all cycles** of an entity, after some evaluations. -/
def CountsCycles (rule : EngineRule) (start : History) (evaluations : List Evaluation) : Prop :=
  ∀ e ∈ (evaluations.foldl History.evaluate start).entities.rows,
    meetsThreshold rule e = true ↔ rule.fireCountThreshold ≤
      (recent rule.windowSize (firings start evaluations e.assignmentId)).count true

/-- An alert on the round trip time that is cleared by a healthy tier. -/
def roundTripDefinition : AlertDefinition where
  tiers := [⟨"warning", some "avg(rtt_ms) > 100"⟩, ⟨"healthy", some "avg(rtt_ms) < 50"⟩]
  window := "5m"

/-- A cycle with new data, in which these queries return the entity. -/
def cycleAt (now : Timestamp) (matched : List QueryName) : Evaluation where
  table := "availability_latency"
  defn := roundTripDefinition
  cycle := ⟨⟨fun _ => some [("a1", now)], fun name _ =>
    some (if name ∈ matched then [latencyAnswer.row] else [])⟩, [], now⟩
  logInserted := true

/-- **The alert fires, is cleared, and two cycles find nothing**: the open condition still counts
the cycle that fired. -/
theorem not_countsCycles : ¬CountsCycles oneOfTwo latencyStart
      [cycleAt 10 [.tier 0], cycleAt 20 [.healthy], cycleAt 30 [], cycleAt 40 []] := by
  intro h
  have hrows : ([cycleAt 10 [.tier 0], cycleAt 20 [.healthy], cycleAt 30 [],
      cycleAt 40 []].foldl History.evaluate latencyStart).entities.rows.map
        (fun e => (e.assignmentId, meetsThreshold oneOfTwo e)) = [("a1", true)] := by
    decide +kernel
  have hfirings : firings latencyStart [cycleAt 10 [.tier 0], cycleAt 20 [.healthy], cycleAt 30 [],
      cycleAt 40 []] "a1" = [true, false, false, false] := by decide +kernel
  obtain ⟨e, he, hpair⟩ := List.mem_map.1 (hrows ▸ mem_singleton_self _)
  obtain ⟨hid, hmeets⟩ := Prod.mk.inj hpair
  have hcount := (h e he).1 hmeets
  rw [hid, hfirings] at hcount
  exact absurd hcount (by decide)

end MonCTL.Incidents
