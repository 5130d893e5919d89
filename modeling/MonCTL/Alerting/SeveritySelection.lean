import MonCTL.Alerting.Cycles
import MonCTL.Alerting.FiringKeys

/-!
# Which Severity an Evaluation Selects

The router accepts tiers of four severities that raise an alert, and lists them from the lowest to
the highest. The engine ranks three of them: the fourth has the rank of no severity at all, so that
no tier of it is ever selected.
-/

namespace MonCTL.Alerting

open List Dsl

/-! ### What is to hold, and when it does -/

/-- The severities of the tiers that found an entity. -/
def Findings.matched (f : Findings) (e : AlertEntity) : List String :=
  (f.results.filter fun r => e.key ∈ r.2.keys).map Prod.fst

/-- The highest of some severities, as the router lists them. -/
def IsHighest (severity : String) (severities : List String) : Prop :=
  severity ∈ severities ∧
    ∀ s ∈ severities, allowedSeverities.idxOf s ≤ allowedSeverities.idxOf severity

/-- **An entity fires at the highest severity**: if an evaluation finds new data for it, and some
tier finds it. -/
def SelectsHighest (table : String) (defn : AlertDefinition) (entities : Entities) (c : Cycle)
    (e : AlertEntity) : Prop :=
  ∀ f, findings table defn entities.enabled c = some f → e.enabled = true →
    e.assignmentId ∈ f.fresh → f.matched e ≠ [] →
      ∀ e' ∈ (evaluateDefinitionIsolated table defn entities c).1,
        e'.assignmentId = e.assignmentId →
          e'.state = .firing ∧ ∃ severity ∈ e'.severity, IsHighest severity (f.matched e)

/-- **The condition**: the emergency tier has not found the entity; or no other tier has, and the
entity has been firing at this severity and is left alone by a healthy tier. -/
def Findings.RanksAll (f : Findings) (e : AlertEntity) : Prop :=
  "emergency" ∈ f.matched e → (∀ s ∈ f.matched e, s = "emergency") ∧ e.state = .firing ∧
    e.severity = some "emergency" ∧ f.hasHealthy = true ∧ e.key ∉ f.healthy.keys

/-! ### The fold over the tiers -/

/-- One round of the fold. -/
def betterTier (key : Uuid × String) (best : Option (String × FireData))
    (result : String × Firing) : Option (String × FireData) :=
  match result.2.lookup key with
  | some data =>
    if severityRank (best.map Prod.fst) < severityRank (some result.1) then
      some (result.1, data)
    else best
  | none => best

/-- The rank of what has been selected, with the rank of nothing if nothing has. -/
def bestRank (best : Option (String × FireData)) : ℤ := severityRank (best.map Prod.fst)

/-- One round keeps what was selected, or selects a tier of a higher rank that was found; and then
the tier of the round has no higher rank. -/
theorem betterTier_spec (key : Uuid × String) (best : Option (String × FireData))
    (result : String × Firing) :
    (betterTier key best result = best ∨ key ∈ result.2.keys ∧
        (∃ data, betterTier key best result = some (result.1, data)) ∧
          bestRank best < bestRank (betterTier key best result)) ∧
      (key ∈ result.2.keys →
        severityRank (some result.1) ≤ bestRank (betterTier key best result)) := by
  have hkeys : key ∈ result.2.keys ↔ (Dict.get? result.2 key).isSome := Dict.mem_keys_iff ..
  rw [betterTier, Dict.lookup_eq_get?, hkeys]
  cases Dict.get? result.2 key with
  | none => exact ⟨.inl rfl, fun h => absurd h Bool.false_ne_true⟩
  | some data =>
    dsimp only
    split
    next hlt => exact ⟨.inr ⟨rfl, ⟨data, rfl⟩, hlt⟩, fun _ => le_rfl⟩
    next hle => exact ⟨.inl rfl, fun _ => not_lt.1 hle⟩

theorem foldl_betterTier (key : Uuid × String) (results : List (String × Firing))
    (best : Option (String × FireData)) :
    (results.foldl (betterTier key) best = best ∨ (∃ r ∈ results, key ∈ r.2.keys ∧
          ∃ data, results.foldl (betterTier key) best = some (r.1, data)) ∧
            bestRank best < bestRank (results.foldl (betterTier key) best)) ∧
      ∀ r ∈ results, key ∈ r.2.keys →
        severityRank (some r.1) ≤ bestRank (results.foldl (betterTier key) best) := by
  induction results generalizing best with
  | nil => exact ⟨.inl rfl, forall_mem_nil _⟩
  | cons result results ih =>
    obtain ⟨hround, hbound⟩ := betterTier_spec key best result
    obtain ⟨hrest, hrestBound⟩ := ih (betterTier key best result)
    have hmono : bestRank (betterTier key best result) ≤
        bestRank (results.foldl (betterTier key) (betterTier key best result)) := by
      rcases hrest with heq | ⟨-, hlt⟩
      · exact (congrArg bestRank heq).ge
      · exact hlt.le
    refine ⟨?_, fun r hr hkey => ?_⟩
    · rw [foldl_cons]
      rcases hrest with heq | ⟨⟨r, hr, hkey, hdata⟩, hlt⟩
      · rcases hround with hkept | ⟨hkey, ⟨data, hdata⟩, hlt⟩
        · exact .inl (heq.trans hkept)
        · refine .inr ⟨⟨result, mem_cons_self, hkey, data, heq.trans hdata⟩, ?_⟩
          exact hlt.trans_le hmono
      · refine .inr ⟨⟨r, mem_cons_of_mem _ hr, hkey, hdata⟩, ?_⟩
        rcases hround with hkept | ⟨-, -, hfirst⟩
        · rwa [hkept] at hlt ⊢
        · exact hfirst.trans hlt
    · rcases List.mem_cons.1 hr with rfl | hr
      · exact (hbound hkey).trans hmono
      · exact hrestBound r hr hkey

variable {f : Findings} {e : AlertEntity} {s : String}

theorem Findings.mem_matched :
    s ∈ f.matched e ↔ ∃ r ∈ f.results, e.key ∈ r.2.keys ∧ r.1 = s := by
  simp only [matched, mem_map, mem_filter, decide_eq_true_eq, and_assoc]

/-- **What is selected**: a tier that was found and whose rank is above that of nothing, and no tier
that was found has a higher rank; or nothing, and none of them has a rank. -/
theorem effectiveTier_spec (f : Findings) (e : AlertEntity) :
    (∃ severity data, effectiveTier f.results e.key = some (severity, data) ∧
        severity ∈ f.matched e ∧ 0 ≤ severityRank (some severity) ∧
          ∀ s ∈ f.matched e, severityRank (some s) ≤ severityRank (some severity)) ∨
      effectiveTier f.results e.key = none ∧ ∀ s ∈ f.matched e, severityRank (some s) ≤ -1 := by
  have heq : effectiveTier f.results e.key = f.results.foldl (betterTier e.key) none := rfl
  obtain ⟨hselected, hbound⟩ := foldl_betterTier e.key f.results none
  rw [← heq] at hselected hbound
  have hmatched : ∀ s ∈ f.matched e,
      severityRank (some s) ≤ bestRank (effectiveTier f.results e.key) := by
    intro s hs
    obtain ⟨r, hr, hkey, rfl⟩ := Findings.mem_matched.1 hs
    exact hbound r hr hkey
  rcases hselected with hnone | ⟨⟨r, hr, hkey, data, hdata⟩, hlt⟩
  · rw [hnone] at hmatched
    exact .inr ⟨hnone, hmatched⟩
  · rw [hdata] at hlt hmatched
    exact .inl ⟨r.1, data, hdata, Findings.mem_matched.2 ⟨r, hr, hkey, rfl⟩, hlt, hmatched⟩

/-! ### The severities of a definition -/

variable {instances : List AlertEntity}

theorem evaluateTiers_severities {ch : ClickHouse} {isConfigChanged : Bool} {vars : Variables}
    {i : ℕ} {tiers : List (String × CompiledQuery)}
    {r : List (String × Firing) × List AlertEntity}
    (h : evaluateTiers ch isConfigChanged vars i tiers instances = .ok r) :
    r.1.map Prod.fst = tiers.map Prod.fst := by
  induction tiers generalizing i instances r with
  | nil =>
    rw [← Except.ok.inj h]
    rfl
  | cons tier tiers ih =>
    rw [evaluateTiers] at h
    obtain ⟨first, -, h⟩ := StateExcept.bind_eq_ok.1 h
    obtain ⟨rest, hrest, h⟩ := StateExcept.bind_eq_ok.1 h
    rw [← Except.ok.inj h, map_cons, map_cons, ih hrest]

variable {table : String} {compiled : CompiledDefinition}

theorem compileTier_severities {window : String} {compiled' : CompiledDefinition}
    {tier : SeverityTier} (h : compileTier table window compiled tier = some compiled')
    (hs : s ∈ compiled'.tiers.map Prod.fst) :
    s ∈ compiled.tiers.map Prod.fst ∨ tier.severity = s ∧ s ≠ "healthy" := by
  rw [compileTier] at h
  split at h
  · exact .inl (Option.some.inj h ▸ hs)
  next e he =>
    obtain ⟨q, -, rfl⟩ := Option.map_eq_some_iff.1 h
    split at hs
    · exact .inl hs
    next hraises =>
      rw [map_append, mem_append] at hs
      rcases hs with hs | hs
      · exact .inl hs
      · obtain rfl := List.mem_singleton.1 hs
        exact .inr ⟨rfl, hraises⟩

variable {defn : AlertDefinition}

theorem compileDefinition_severities
    (h : compileDefinition table defn = some compiled)
    (hs : s ∈ compiled.tiers.map Prod.fst) :
    s ∈ defn.tiers.map SeverityTier.severity ∧ s ≠ "healthy" := by
  have hfold : ∀ (tiers : List SeverityTier) (acc : CompiledDefinition),
      tiers.foldlM (compileTier table defn.window) acc = some compiled →
        s ∈ acc.tiers.map Prod.fst ∨ s ∈ tiers.map SeverityTier.severity ∧ s ≠ "healthy" := by
    intro tiers
    induction tiers with
    | nil =>
      intro acc h
      exact .inl (Option.some.inj h ▸ hs)
    | cons tier tiers ih =>
      intro acc h
      rw [foldlM_cons] at h
      obtain ⟨acc', hstep, hrest⟩ := Option.bind_eq_some_iff.1 h
      rcases ih acc' hrest with hacc | ⟨hmem, hraises⟩
      · rcases compileTier_severities hstep hacc with hmem | ⟨hmem, hraises⟩
        · exact .inl hmem
        · exact .inr ⟨List.mem_cons.2 (.inl hmem.symm), hraises⟩
      · exact .inr ⟨mem_cons_of_mem _ hmem, hraises⟩
  exact (hfold defn.tiers _ h).resolve_left not_mem_nil

/-- **The severities that are found** are among the four that raise an alert, for a definition the
router accepts. -/
theorem raises_of_matched
    (hvalid : acceptsTiers table defn.tiers = true) {c : Cycle}
    (hf : findings table defn instances c = some f)
    (hs : s ∈ f.matched e) : s ∈ ["info", "warning", "critical", "emergency"] := by
  obtain ⟨compiled, hcompiled, hf⟩ := Option.bind_eq_some_iff.1 hf
  split at hf
  · cases hf
  · rw [compiledFindings] at hf
    cases htiers : evaluateTiers c.clickHouse compiled.isConfigChanged c.thresholdVars 0
        compiled.tiers instances with
    | error failure =>
      rw [htiers] at hf
      cases hf
    | ok tiers =>
      rw [htiers] at hf
      obtain ⟨r, hr, -, rfl⟩ := Findings.mem_matched.1 hs
      rw [← Option.some.inj hf] at hr
      have hmem : r.1 ∈ compiled.tiers.map Prod.fst := by
        rw [← evaluateTiers_severities htiers]
        exact mem_map_of_mem hr
      obtain ⟨hdefn, hraises⟩ := compileDefinition_severities hcompiled hmem
      obtain ⟨tier, htier, hseverity⟩ := List.mem_map.1 hdefn
      simp only [acceptsTiers, validTierList, decide_eq_true_eq] at hvalid
      have hallowed := hvalid.1.2.1 tier htier
      rw [hseverity] at hallowed
      simp only [allowedSeverities, mem_cons, not_mem_nil, or_false] at hallowed ⊢
      tauto

/-! ### Ranks and positions -/

/-- **The ranks are the positions**, except that the last severity has none. -/
theorem severityRank_of_raises (h : s ∈ ["info", "warning", "critical", "emergency"]) :
    severityRank (some s) = (if s = "emergency" then -1 else (allowedSeverities.idxOf s : ℤ)) ∧
      allowedSeverities.idxOf s ≤ allowedSeverities.idxOf "emergency" := by
  simp only [mem_cons, not_mem_nil, or_false] at h
  rcases h with rfl | rfl | rfl | rfl <;> decide

theorem eq_of_severityRank {severity : Option String}
    (h : severityRank severity = severityRank (some s)) (hrank : 0 ≤ severityRank (some s)) :
    severity = some s := by
  revert h hrank
  unfold severityRank
  split <;> split <;> simp_all

/-! ### The entity after the evaluation -/

theorem fireEntity_severity (defn : AlertDefinition) (now : Timestamp) {severity : String}
    (data : FireData) (e : AlertEntity) (hrank : 0 ≤ severityRank (some severity)) :
    (fireEntity defn now severity data e).1.severity = some severity := by
  rw [fireEntity]
  dsimp only
  split
  · rfl
  · split
    · rfl
    next hsame =>
      have heq : severityRank e.severity = severityRank (some severity) := by omega
      exact eq_of_severityRank heq hrank

theorem clearEntity_firing_iff (defn : AlertDefinition) (now : Timestamp) (hasHealthy : Bool)
    (healthy : Firing) (e : AlertEntity) :
    (clearEntity defn now hasHealthy healthy e).1.state = .firing ↔
      e.state = .firing ∧ hasHealthy = true ∧ e.key ∉ healthy.keys := by
  by_cases hfiring : e.state = .firing
  · by_cases hleft : hasHealthy = true ∧ e.key ∉ healthy.keys
    · obtain ⟨rfl, hkey⟩ := hleft
      rw [clearEntity_of_notMem defn now hkey]
      exact iff_of_true hfiring ⟨hfiring, rfl, hkey⟩
    · have hkey : hasHealthy = true → e.key ∈ healthy.keys := fun h =>
        not_not.1 fun hnot => hleft ⟨h, hnot⟩
      rw [clearEntity_state defn now hfiring hkey]
      exact iff_of_false (by decide) fun h => hleft h.2
  · refine iff_of_false ?_ fun h => hfiring h.1
    rw [clearEntity]
    split
    · rwa [if_neg fun h => hfiring h.2]
    · dsimp only
      rwa [if_neg hfiring]

theorem update_fst_of_fresh (hfresh : e.assignmentId ∈ f.fresh)
    (defn : AlertDefinition) (now : Timestamp) (labels : Dict String String) :
    (f.update defn now (e.relabel labels)).1 =
      match effectiveTier f.results e.key with
      | none => (clearEntity defn now f.hasHealthy f.healthy
          ((e.relabel labels).evaluatedAt now)).1
      | some (severity, data) => (fireEntity defn now severity data
          ((e.relabel labels).evaluatedAt now)).1 := by
  have hfresh' : (e.relabel labels).assignmentId ∈ f.fresh := hfresh
  rw [Findings.update, updateEntity, if_neg (not_not_intro hfresh')]
  have hkey : (e.relabel labels).key = e.key := rfl
  rw [hkey]
  cases effectiveTier f.results e.key <;> rfl

/-- **One round of the loop selects the highest severity**, exactly under the condition. -/
theorem update_selects_iff (hfresh : e.assignmentId ∈ f.fresh)
    (hraises : ∀ s ∈ f.matched e, s ∈ ["info", "warning", "critical", "emergency"])
    (hmatched : f.matched e ≠ []) (defn : AlertDefinition) (now : Timestamp)
    (labels : Dict String String) :
    ((f.update defn now (e.relabel labels)).1.state = .firing ∧
        ∃ severity ∈ (f.update defn now (e.relabel labels)).1.severity,
          IsHighest severity (f.matched e)) ↔ f.RanksAll e := by
  rw [update_fst_of_fresh hfresh]
  rcases effectiveTier_spec f e with ⟨severity, data, htier, hmem, hrank, hbest⟩ | ⟨htier, hbest⟩
  · have hne : severity ≠ "emergency" := by
      rintro rfl
      exact absurd hrank (by decide)
    have hposition : ∀ s ∈ f.matched e, s ≠ "emergency" →
        severityRank (some s) = (allowedSeverities.idxOf s : ℤ) := fun s hs hs' =>
      (severityRank_of_raises (hraises s hs)).1.trans (if_neg hs')
    rw [htier]
    dsimp only
    rw [fireEntity_severity defn now data _ hrank]
    have hhighest : IsHighest severity (f.matched e) ↔ "emergency" ∉ f.matched e := by
      constructor
      · intro h hemergency
        have hle := h.2 _ hemergency
        have hlt : allowedSeverities.idxOf severity < allowedSeverities.idxOf "emergency" := by
          have hknown := hraises severity hmem
          simp only [mem_cons, not_mem_nil, or_false] at hknown
          rcases hknown with rfl | rfl | rfl | rfl
          · decide
          · decide
          · decide
          · exact absurd rfl hne
        exact absurd hle (not_le.2 hlt)
      · refine fun hnot => ⟨hmem, fun s hs => ?_⟩
        have hs' : s ≠ "emergency" := fun h => hnot (h ▸ hs)
        have hle := hbest s hs
        rw [hposition s hs hs', hposition severity hmem hne] at hle
        exact_mod_cast hle
    constructor
    · rintro ⟨-, severity', hseverity, h⟩ hemergency
      cases Option.some.inj hseverity
      exact absurd hemergency (hhighest.1 h)
    · intro h
      refine ⟨(fireEntity_state ..).1, severity, rfl, hhighest.2 fun hemergency => ?_⟩
      exact hne ((h hemergency).1 severity hmem)
  · have hall : ∀ s ∈ f.matched e, s = "emergency" := by
      intro s hs
      by_contra hs'
      have hle := hbest s hs
      rw [(severityRank_of_raises (hraises s hs)).1, if_neg hs'] at hle
      omega
    obtain ⟨first, hfirst⟩ := exists_mem_of_ne_nil _ hmatched
    have hemergency : "emergency" ∈ f.matched e := hall first hfirst ▸ hfirst
    rw [htier]
    dsimp only
    rw [clearEntity_firing_iff]
    constructor
    · rintro ⟨⟨hfiring, hhealthy, hkey⟩, severity, hseverity, hhighest⟩ -
      have hkey' : ((e.relabel labels).evaluatedAt now).key ∉ f.healthy.keys := hkey
      rw [hhealthy, clearEntity_of_notMem defn now hkey'] at hseverity
      cases hall severity hhighest.1
      exact ⟨hall, hfiring, hseverity, hhealthy, hkey⟩
    · intro h
      obtain ⟨-, hfiring, hseverity, hhealthy, hkey⟩ := h hemergency
      refine ⟨⟨hfiring, hhealthy, hkey⟩, "emergency", ?_, hemergency, fun s hs => ?_⟩
      · have hkey' : ((e.relabel labels).evaluatedAt now).key ∉ f.healthy.keys := hkey
        rw [hhealthy, clearEntity_of_notMem defn now hkey']
        exact hseverity
      · exact (severityRank_of_raises (hraises s hs)).2

/-- **The highest severity is selected** exactly if every tier that found the entity has a rank, or
it does not matter. -/
theorem selectsHighest_iff {table : String} {defn : AlertDefinition}
    (hvalid : acceptsTiers table defn.tiers = true) {entities : Entities} {e : AlertEntity}
    (he : e ∈ entities.rows) (c : Cycle) :
    SelectsHighest table defn entities c e ↔
      ∀ f, findings table defn entities.enabled c = some f → e.enabled = true →
        e.assignmentId ∈ f.fresh → f.RanksAll e := by
  obtain ⟨g, hrows, hcycle⟩ := evaluateDefinitionIsolated_entities table defn entities c
  have hafter : ∀ e' ∈ (evaluateDefinitionIsolated table defn entities c).1,
      e'.assignmentId = e.assignmentId → e' = g e := by
    intro e' he' hid
    rw [hrows] at he'
    obtain ⟨x, hx, rfl⟩ := List.mem_map.1 he'
    rw [Entities.eq_of_assignmentId hx he ((hcycle x hx).assignmentId.symm.trans hid)]
  have hge : g e ∈ (evaluateDefinitionIsolated table defn entities c).1 := by
    rw [hrows]
    exact mem_map_of_mem he
  refine forall_congr' fun f => forall_congr' fun hf => forall_congr' fun henabled =>
    forall_congr' fun hfresh => ?_
  have hround : ∃ labels, g e = (f.update defn c.now (e.relabel labels)).1 := by
    have h := hcycle e he
    rw [hf] at h
    generalize g e = e', (evaluateDefinitionIsolated table defn entities c).2.filter
      (·.assignmentId = e.assignmentId) = records at h
    cases h with
    | skipped h =>
      rcases h with h | h
      · cases h
      · exact absurd (henabled.symm.trans h) Bool.noConfusion
    | evaluated labels hsame _ =>
      cases Option.some.inj hsame
      exact ⟨labels, rfl⟩
  obtain ⟨labels, hlabels⟩ := hround
  have hraises : ∀ s ∈ f.matched e, s ∈ ["info", "warning", "critical", "emergency"] :=
    fun s hs => raises_of_matched hvalid hf hs
  constructor
  · intro h hemergency
    have hne : f.matched e ≠ [] := List.ne_nil_of_mem hemergency
    have hselected := h hne (g e) hge (hcycle e he).assignmentId
    rw [hlabels] at hselected
    exact (update_selects_iff hfresh hraises hne defn c.now labels).1 hselected hemergency
  · intro h hne e' he' hid
    rw [hafter e' he' hid, hlabels]
    exact (update_selects_iff hfresh hraises hne defn c.now labels).2 h

/-- The only tier finds the entity, and it fires. -/
theorem latencyDefinition_selectsHighest :
    SelectsHighest "availability_latency" latencyDefinition syncedEntities
      ⟨oneRow latencyAnswer, [], 10⟩ (newEntity true ⟨"a1", some "d1", true⟩) := by
  refine (selectsHighest_iff (by decide +kernel) (.head _) _).2 fun f hf _ _ hemergency => ?_
  have hmatched : (findings "availability_latency" latencyDefinition syncedEntities.enabled
      ⟨oneRow latencyAnswer, [], 10⟩).map (fun f => f.matched
        (newEntity true ⟨"a1", some "d1", true⟩)) = some ["warning"] := by decide +kernel
  rw [hf] at hmatched
  have hwarning : f.matched (newEntity true ⟨"a1", some "d1", true⟩) = ["warning"] :=
    Option.some.inj hmatched
  rw [hwarning] at hemergency
  exact absurd hemergency (by decide)

/-- An alert on the round trip time, with two severities. -/
def outageDefinition : AlertDefinition where
  tiers := [⟨"warning", some "avg(rtt_ms) > 100"⟩, ⟨"emergency", some "avg(rtt_ms) > 110"⟩]
  window := "5m"

/-- **Both tiers find the entity**, and it fires at the lower severity. -/
theorem outageDefinition_not_selectsHighest :
    acceptsTiers "availability_latency" outageDefinition.tiers = true ∧
      ¬SelectsHighest "availability_latency" outageDefinition syncedEntities
        ⟨oneRow latencyAnswer, [], 10⟩ (newEntity true ⟨"a1", some "d1", true⟩) := by
  have hfound : (findings "availability_latency" outageDefinition syncedEntities.enabled
      ⟨oneRow latencyAnswer, [], 10⟩).map (fun f => (decide ("a1" ∈ f.fresh), f.matched
        (newEntity true ⟨"a1", some "d1", true⟩))) =
      some (true, ["warning", "emergency"]) := by decide +kernel
  have hrows : (evaluateDefinitionIsolated "availability_latency" outageDefinition syncedEntities
      ⟨oneRow latencyAnswer, [], 10⟩).1.map (fun e => (e.assignmentId, e.severity)) =
      [("a1", some "warning")] := by decide +kernel
  refine ⟨by decide +kernel, fun h => ?_⟩
  obtain ⟨f, hf, hpair⟩ := Option.map_eq_some_iff.1 hfound
  obtain ⟨hfresh, hmatched⟩ := Prod.mk.inj hpair
  obtain ⟨e', he', hpair'⟩ := List.mem_map.1 (hrows ▸ mem_singleton_self _)
  obtain ⟨hid, hseverity⟩ := Prod.mk.inj hpair'
  have hne : f.matched (newEntity true ⟨"a1", some "d1", true⟩) ≠ [] := by
    rw [hmatched]
    exact cons_ne_nil _ _
  obtain ⟨-, severity, hsome, hhighest⟩ := h f hf rfl (of_decide_eq_true hfresh) hne e' he' hid
  rw [hseverity] at hsome
  cases hsome
  rw [hmatched] at hhighest
  exact absurd (hhighest.2 "emergency" (by decide)) (by decide)

end MonCTL.Alerting
