import MonCTL.Incidents.Engine
import MonCTL.Lib.Runs

/-!
# One Open Incident for a Rule and an Entity

The engine is the only part of the system that opens incidents. It looks an entity up among
the incidents that were open when it started on the rule, and opens one when there is none.
Since no two entities of a definition have the same key, it never opens a second one.

What happens to a row is said once, by `Advances`: it keeps its id, its rule and its key, and
it stays cleared when it is. What happens to the table, by `Evolves`: every row comes from one
that was there, or has an id that is new.
-/

namespace MonCTL.Incidents

open List

open Alerting (AlertState AlertEntity Entities)

/-! ### The system -/

/-- The configuration and the table of incidents. `quiet` remembers that the last step was a
cycle that opened and cleared nothing; no step reads it. -/
structure System where
  config : Config := .empty
  incidents : List IncidentRow := []
  issued : ℕ := 0
  quiet : Bool := false

/-- What can happen. -/
inductive Action
  /-- Rules, definitions and entities change. -/
  | configure (config : Config)
  /-- `clear_incidents`: an operator clears incidents. -/
  | clearManually (ids : List Uuid) (now : Timestamp)
  /-- A cycle, whose transaction is committed or fails. -/
  | cycle (env : CycleEnv) (commits : Bool)

variable (config : Config)

/-- The rows that are left when rules are deleted: the incidents of a rule go with it, and
links to them are set to null. -/
def cascade (rows : List IncidentRow) : List IncidentRow :=
  let kept := rows.filter fun row => row.ruleId ∈ config.rules.map fun rule => rule.id
  kept.map fun row =>
    { row with parentIncidentId := row.parentIncidentId.filter fun id => id ∈ kept.map (·.id) }

def Transition.opensOrClears (t : Transition) : Bool :=
  t.transition = "opened" || t.transition = "cleared"

def step (ids : UuidSource) (s : System) : Action → Option System
  | .configure config =>
    some { s with config, incidents := cascade config s.incidents, quiet := false }
  | .clearManually chosen now =>
    some { s with
      incidents := s.incidents.map fun row =>
        if row.id ∈ chosen ∧ row.IsOpen then row.clear now "manual" else row
      quiet := false }
  | .cycle env commits =>
    let r := evaluateAll ids s.config env s.incidents s.issued
    if commits then
      some { s with
        incidents := r.incidents
        issued := r.issued
        quiet := !r.transitions.any Transition.opensOrClears }
    else some { s with issued := r.issued, quiet := false }

/-! ### Rows and tables over time -/

/-- What can happen to a row. -/
structure Advances (row row' : IncidentRow) : Prop where
  id : row'.id = row.id
  ruleId : row'.ruleId = row.ruleId
  entityKey : row'.entityKey = row.entityKey
  cleared : row.state = .cleared → row'.state = .cleared
  clearedAt : (row.clearedAt.isSome ↔ row.state = .cleared) →
    (row'.clearedAt.isSome ↔ row'.state = .cleared)

theorem Advances.refl (row : IncidentRow) : Advances row row :=
  ⟨rfl, rfl, rfl, fun h => h, fun h => h⟩

variable {row row' : IncidentRow}

theorem Advances.trans {row'' : IncidentRow} (h : Advances row row')
    (h' : Advances row' row'') : Advances row row'' where
  id := h'.id.trans h.id
  ruleId := h'.ruleId.trans h.ruleId
  entityKey := h'.entityKey.trans h.entityKey
  cleared := h'.cleared ∘ h.cleared
  clearedAt := h'.clearedAt ∘ h.clearedAt

theorem Advances.isOpen (h : Advances row row') (hopen : row'.IsOpen) : row.IsOpen := by
  cases hstate : row.state with
  | isOpen => exact hstate
  | cleared =>
    rw [IncidentRow.IsOpen, h.cleared hstate] at hopen
    cases hopen

/-- Every row comes from one that was there, or has an id that was issued in between. -/
structure Evolves (ids : UuidSource) (rows : List IncidentRow) (issued : ℕ)
    (rows' : List IncidentRow) (issued' : ℕ) : Prop where
  le : issued ≤ issued'
  origin : ∀ row' ∈ rows', (∃ row ∈ rows, Advances row row') ∨
    ∃ k, issued ≤ k ∧ k < issued' ∧ row'.id = ids.uuid4 k

theorem Evolves.refl (ids : UuidSource) (rows : List IncidentRow) (issued : ℕ) :
    Evolves ids rows issued rows issued :=
  ⟨le_refl _, fun row hrow => .inl ⟨row, hrow, .refl row⟩⟩

variable {ids : UuidSource} {rows : List IncidentRow} {n n' : ℕ} {rows' : List IncidentRow}

theorem Evolves.trans {rows'' : List IncidentRow}
    {n'' : ℕ} (h : Evolves ids rows n rows' n') (h' : Evolves ids rows' n' rows'' n'') :
    Evolves ids rows n rows'' n'' := by
  refine ⟨h.le.trans h'.le, fun row'' hrow'' => ?_⟩
  rcases h'.origin row'' hrow'' with ⟨row', hrow', hadv'⟩ | ⟨k, hle, hlt, hid⟩
  · rcases h.origin row' hrow' with ⟨row, hrow, hadv⟩ | ⟨k, hle, hlt, hid⟩
    · exact .inl ⟨row, hrow, hadv.trans hadv'⟩
    · exact .inr ⟨k, hle, hlt.trans_le h'.le, hadv'.id.trans hid⟩
  · exact .inr ⟨k, h.le.trans hle, hlt, hid⟩

/-- **The invariant of the table**: ids have been issued, each once; no two open rows have the
same rule and key; and a row has a time of clearing exactly when it is cleared. -/
structure WellFormed (ids : UuidSource) (issued : ℕ) (rows : List IncidentRow) : Prop where
  ids_nodup : (rows.map fun row => row.id).Nodup
  ids_issued : ∀ row ∈ rows, ∃ k < issued, row.id = ids.uuid4 k
  one_open : ∀ row ∈ rows, ∀ row' ∈ rows, row.IsOpen → row'.IsOpen → row.ruleId = row'.ruleId →
    row.entityKey = row'.entityKey → row = row'
  cleared_at : ∀ row ∈ rows, row.clearedAt.isSome ↔ row.state = .cleared

theorem wellFormed_nil (ids : UuidSource) : WellFormed ids 0 [] where
  ids_nodup := .nil
  ids_issued := by simp
  one_open := by simp
  cleared_at := by simp

theorem WellFormed.mono (h : WellFormed ids n rows) (hle : n ≤ n') : WellFormed ids n' rows :=
  { h with
    ids_issued := fun row hrow => by
      obtain ⟨k, hk, hid⟩ := h.ids_issued row hrow
      exact ⟨k, hk.trans_le hle, hid⟩ }

theorem WellFormed.eq_of_id
    (h : WellFormed ids n rows) (hrow : row ∈ rows) (hrow' : row' ∈ rows)
    (hid : row.id = row'.id) : row = row' :=
  inj_on_of_nodup_map h.ids_nodup hrow hrow' hid

theorem WellFormed.find?_id (h : WellFormed ids n rows) (hrow : row ∈ rows) :
    rows.find? (fun r => r.id = row.id) = some row := by
  cases hfind : rows.find? fun r => r.id = row.id with
  | none => simpa using List.find?_eq_none.1 hfind row hrow
  | some row' =>
    have hid : row'.id = row.id := by simpa using find?_some hfind
    rw [h.eq_of_id (mem_of_find?_eq_some hfind) hrow hid]

theorem WellFormed.filter (h : WellFormed ids n rows) (p : IncidentRow → Bool) :
    WellFormed ids n (rows.filter p) where
  ids_nodup := h.ids_nodup.sublist (List.filter_sublist.map _)
  ids_issued := fun row hrow => h.ids_issued row (mem_of_mem_filter hrow)
  one_open := fun row hrow row' hrow' => h.one_open row (mem_of_mem_filter hrow) row'
    (mem_of_mem_filter hrow')
  cleared_at := fun row hrow => h.cleared_at row (mem_of_mem_filter hrow)

variable {f : IncidentRow → IncidentRow}

theorem WellFormed.map (h : WellFormed ids n rows)
    (hf : ∀ row ∈ rows, Advances row (f row)) : WellFormed ids n (rows.map f) where
  ids_nodup := by
    have hids : (rows.map f).map (fun row => row.id) = rows.map fun row => row.id := by
      rw [map_map]
      exact map_congr_left fun row hrow => (hf row hrow).id
    rw [hids]
    exact h.ids_nodup
  ids_issued := by
    intro row' hrow'
    obtain ⟨row, hrow, rfl⟩ := List.mem_map.1 hrow'
    obtain ⟨k, hk, hid⟩ := h.ids_issued row hrow
    exact ⟨k, hk, (hf row hrow).id.trans hid⟩
  one_open := by
    intro row₁ hrow₁ row₂ hrow₂ hopen₁ hopen₂ hrule hkey
    obtain ⟨row, hrow, rfl⟩ := List.mem_map.1 hrow₁
    obtain ⟨row', hrow', rfl⟩ := List.mem_map.1 hrow₂
    rw [h.one_open row hrow row' hrow' ((hf row hrow).isOpen hopen₁) ((hf row' hrow').isOpen hopen₂)
      ((hf row hrow).ruleId.symm.trans (hrule.trans (hf row' hrow').ruleId))
      ((hf row hrow).entityKey.symm.trans (hkey.trans (hf row' hrow').entityKey))]
  cleared_at := by
    intro row' hrow'
    obtain ⟨row, hrow, rfl⟩ := List.mem_map.1 hrow'
    exact (hf row hrow).clearedAt (h.cleared_at row hrow)

variable {new : IncidentRow}

/-- So does adding an open row whose id is new, when there is no open row with its rule and
key. -/
theorem WellFormed.append
    (h : WellFormed ids n rows) (hid : new.id = ids.uuid4 n)
    (hopen : new.IsOpen) (hclearedAt : new.clearedAt = none)
    (hfresh : ∀ row ∈ rows, row.IsOpen → row.ruleId = new.ruleId → row.entityKey ≠ new.entityKey) :
    WellFormed ids (n + 1) (rows ++ [new]) where
  ids_nodup := by
    rw [map_append, nodup_append]
    refine ⟨h.ids_nodup, by simp, ?_⟩
    rintro x hx y hy rfl
    obtain ⟨row, hrow, rfl⟩ := List.mem_map.1 hx
    obtain ⟨k, hk, hrowId⟩ := h.ids_issued row hrow
    have hnew : row.id = new.id := by simpa using hy
    have hkn : k = n := ids.injective (hrowId.symm.trans (hnew.trans hid))
    omega
  ids_issued := by
    intro row hrow
    rcases List.mem_append.1 hrow with hrow | hrow
    · obtain ⟨k, hk, hrowId⟩ := h.ids_issued row hrow
      exact ⟨k, by omega, hrowId⟩
    · rw [List.mem_singleton.1 hrow]
      exact ⟨n, by omega, hid⟩
  one_open := by
    intro row hrow row' hrow' hopen₁ hopen₂ hrule hkey
    rcases List.mem_append.1 hrow with hrow | hrow
    · rcases List.mem_append.1 hrow' with hrow' | hrow'
      · exact h.one_open row hrow row' hrow' hopen₁ hopen₂ hrule hkey
      · rw [List.mem_singleton.1 hrow'] at hrule hkey
        exact absurd hkey (hfresh row hrow hopen₁ hrule)
    · rcases List.mem_append.1 hrow' with hrow' | hrow'
      · rw [List.mem_singleton.1 hrow] at hrule hkey
        exact absurd hkey.symm (hfresh row' hrow' hopen₂ hrule.symm)
      · rw [List.mem_singleton.1 hrow, List.mem_singleton.1 hrow']
  cleared_at := by
    intro row hrow
    rcases List.mem_append.1 hrow with hrow | hrow
    · exact h.cleared_at row hrow
    · rw [List.mem_singleton.1 hrow, hclearedAt, show new.state = .isOpen from hopen]
      simp

theorem evolves_map (ids : UuidSource) (n : ℕ)
    (hf : ∀ row ∈ rows, Advances row (f row)) :
    Evolves ids rows n (rows.map f) n := by
  refine ⟨le_refl _, fun row' hrow' => .inl ?_⟩
  obtain ⟨row, hrow, rfl⟩ := List.mem_map.1 hrow'
  exact ⟨row, hrow, hf row hrow⟩

theorem evolves_append (ids : UuidSource) (n : ℕ) (rows : List IncidentRow)
    (hid : new.id = ids.uuid4 n) : Evolves ids rows n (rows ++ [new]) (n + 1) := by
  refine ⟨by omega, fun row hrow => ?_⟩
  rcases List.mem_append.1 hrow with hrow | hrow
  · exact .inl ⟨row, hrow, .refl row⟩
  · rw [List.mem_singleton.1 hrow]
    exact .inr ⟨n, le_refl _, by omega, hid⟩

theorem Evolves.stays_cleared
    (h : Evolves ids rows n rows' n') (hrows : WellFormed ids n rows)
    (hrow : row ∈ rows) (hcleared : row.state = .cleared) (hrow' : row' ∈ rows')
    (hid : row'.id = row.id) : row'.state = .cleared := by
  rcases h.origin row' hrow' with ⟨row₀, hrow₀, hadv⟩ | ⟨k, hle, -, hk⟩
  · have heq : row₀ = row := hrows.eq_of_id hrow₀ hrow (hadv.id.symm.trans hid)
    exact hadv.cleared (heq ▸ hcleared)
  · obtain ⟨j, hj, hrowId⟩ := hrows.ids_issued row hrow
    have hkj : k = j := ids.injective (hk.symm.trans (hid.trans hrowId))
    omega

/-! ### Writes to one row -/

theorem advances_clear (row : IncidentRow) (now : Timestamp) (reason : String) :
    Advances row (row.clear now reason) where
  id := rfl
  ruleId := rfl
  entityKey := rfl
  cleared := fun _ => rfl
  clearedAt := fun _ => by simp [IncidentRow.clear]

theorem Advances.of_eq (hid : row'.id = row.id)
    (hrule : row'.ruleId = row.ruleId) (hkey : row'.entityKey = row.entityKey)
    (hstate : row'.state = row.state) (hclearedAt : row'.clearedAt = row.clearedAt) :
    Advances row row' where
  id := hid
  ruleId := hrule
  entityKey := hkey
  cleared := hstate.trans
  clearedAt := fun h => by rw [hclearedAt, hstate, h]

theorem advances_touch (row : IncidentRow) (now : Timestamp) : Advances row (row.touch now) :=
  .of_eq rfl rfl rfl rfl rfl

theorem advances_refreshIncident (c : RuleContext) (message : String) (inst : AlertEntity)
    (row : IncidentRow) : Advances row (refreshIncident c message inst row) :=
  .of_eq rfl rfl rfl rfl rfl

theorem advances_escalate (row : IncidentRow) (severity : String) (now : Timestamp) :
    Advances row (row.escalate severity now) :=
  .of_eq rfl rfl rfl rfl rfl

theorem applyLadder_cases (row : IncidentRow) (ladder : List LadderStep) (now : Timestamp) :
    applyLadder row ladder now = (row, false) ∨ ∃ severity, severity ≠ row.severity ∧
        applyLadder row ladder now = (row.escalate severity now, true) := by
  rw [applyLadder]
  split
  · exact .inl rfl
  next target _ =>
    split
    · exact .inl rfl
    next hne =>
      split
      · exact .inl rfl
      · exact .inr ⟨target, hne, rfl⟩

theorem updateIncident_cases (c : RuleContext) (message : String) (inst : AlertEntity)
    (row : IncidentRow) (s : EngineState) : updateIncident c message inst row s =
        { s with incidents := putRow s.incidents (refreshIncident c message inst row) } ∨
      ∃ severity, severity ≠ row.severity ∧ updateIncident c message inst row s = { s with
          incidents := putRow s.incidents
            ((refreshIncident c message inst row).escalate severity c.now)
          transitions := s.transitions ++ [record c.rule.toIncidentRule
            ((refreshIncident c message inst row).escalate severity c.now).toIncident
            "escalated"] } := by
  rw [updateIncident]
  cases c.ladder with
  | none => exact .inl (by simp)
  | some ladder =>
    rcases applyLadder_cases (refreshIncident c message inst row) ladder c.now with
      h | ⟨severity, hne, h⟩
    · exact .inl (by simp [h])
    · exact .inr ⟨severity, hne, by simp [h]⟩

theorem advances_putRow (h : WellFormed ids n rows) (hrow : row ∈ rows)
    (hadv : Advances row row') :
    ∀ r ∈ rows, Advances r (if r.id = row'.id then row' else r) := by
  intro r hr
  split
  next hid =>
    rw [h.eq_of_id hr hrow (hid.trans hadv.id)]
    exact hadv
  · exact .refl r

/-! ### One round of the loop -/

/-- What a round writes to the incident of its entity, and what it records. -/
inductive Writes (c : RuleContext) (row : IncidentRow) : IncidentRow → List Transition → Prop
  | touched : Writes c row (row.touch c.now) []
  | refreshed (message : String) (inst : AlertEntity) :
      Writes c row (refreshIncident c message inst row) []
  | escalated (message : String) (inst : AlertEntity) (severity : String)
      (hne : severity ≠ row.severity) :
      Writes c row ((refreshIncident c message inst row).escalate severity c.now)
        [record c.rule.toIncidentRule
          ((refreshIncident c message inst row).escalate severity c.now).toIncident "escalated"]
  | cleared (reason : String) :
      Writes c row (row.clear c.now reason)
        [record c.rule.toIncidentRule (row.clear c.now reason).toIncident "cleared"]

variable {c : RuleContext}

theorem Writes.advances {ts : List Transition} (h : Writes c row row' ts) : Advances row row' := by
  cases h with
  | touched => exact advances_touch row c.now
  | refreshed message inst => exact advances_refreshIncident c message inst row
  | escalated message inst severity _ =>
    exact (advances_refreshIncident c message inst row).trans (advances_escalate _ severity c.now)
  | cleared reason => exact advances_clear row c.now reason

/-- **What a round of the loop can do**: nothing; open an incident when there was none, for an
entity that fires; or write the row there was. -/
theorem evaluateEntity_cases (ids : UuidSource) (c : RuleContext) (inst : AlertEntity)
    (s : EngineState) : (evaluateEntity ids c inst s).1 = s ∨
      (∃ message, c.incident s.incidents inst = none ∧ c.outOfScope inst = false ∧
        inst.state = .firing ∧ meetsThreshold c.rule inst = true ∧
        c.renderMessage inst = some message ∧
        (evaluateEntity ids c inst s).1 = openIncident ids c message inst s) ∨
      ∃ row row' ts, c.incident s.incidents inst = some row ∧ Writes c row row' ts ∧
        (evaluateEntity ids c inst s).1 = { s with
            incidents := putRow s.incidents row'
            transitions := s.transitions ++ ts } := by
  rw [evaluateEntity]
  cases hincident : c.incident s.incidents inst with
  | none =>
    dsimp only
    split_ifs with hscope hfiring hmeets
    · exact .inl rfl
    · exact .inl rfl
    · exact .inl rfl
    · cases c.renderMessage inst with
      | none => exact .inl rfl
      | some message =>
        exact .inr (.inl ⟨message, rfl, by simpa using hscope, by simpa using hfiring,
          by simpa using hmeets, rfl, rfl⟩)
  | some row =>
    dsimp only
    split
    · exact .inr (.inr ⟨row, _, _, rfl, .cleared _, rfl⟩)
    · split
      · split
        · exact .inr (.inr ⟨row, _, _, rfl, .touched, by rw [append_nil]⟩)
        next message _ =>
          rcases updateIncident_cases c message inst row s with h | ⟨severity, hne, h⟩
          · exact .inr (.inr ⟨row, _, _, rfl, .refreshed message inst, by rw [h, append_nil]⟩)
          · exact .inr (.inr ⟨row, _, _, rfl, .escalated message inst severity hne, h⟩)
      · split_ifs
        · exact .inl rfl
        · exact .inl rfl
        · exact .inr (.inr ⟨row, _, _, rfl, .cleared _, rfl⟩)
      · exact .inl rfl

/-! ### The loop over the entities -/

/-- **The invariant of the loop**: the table is well formed, the incidents known when the loop
started are still there, and an entity that is still to come and had no open incident has none
yet. -/
structure LoopInv (ids : UuidSource) (c : RuleContext) (rest : List AlertEntity)
    (s : EngineState) : Prop where
  wf : WellFormed ids s.issued s.incidents
  known : ∀ key id, c.openByKey.get? key = some id →
    ∃ row ∈ s.incidents, row.id = id ∧ row.entityKey = key
  fresh : ∀ inst ∈ rest, c.openByKey.get? (incidentKey inst) = none → ∀ row ∈ s.incidents,
    row.IsOpen → row.ruleId = c.rule.id → row.entityKey ≠ incidentKey inst
  keys : (rest.map incidentKey).Nodup

theorem mem_putRow {r : IncidentRow} (h : r ∈ putRow rows row') :
    ∃ r₀ ∈ rows, r = if r₀.id = row'.id then row' else r₀ := by
  obtain ⟨r₀, hr₀, rfl⟩ := List.mem_map.1 h
  exact ⟨r₀, hr₀, rfl⟩

variable {inst : AlertEntity}

theorem RuleContext.mem_of_incident (h : c.incident rows inst = some row) :
    row ∈ rows ∧ c.openByKey.get? (incidentKey inst) = some row.id := by
  obtain ⟨id, hget, hfind⟩ := Option.bind_eq_some_iff.1 h
  have hid : row.id = id := by simpa using find?_some hfind
  exact ⟨mem_of_find?_eq_some hfind, hid ▸ hget⟩

variable {rest : List AlertEntity} {s : EngineState}

theorem LoopInv.get?_eq_none (h : LoopInv ids c rest s)
    (hnone : c.incident s.incidents inst = none) : c.openByKey.get? (incidentKey inst) = none := by
  cases hget : c.openByKey.get? (incidentKey inst) with
  | none => rfl
  | some id =>
    obtain ⟨row, hrow, rfl, -⟩ := h.known _ _ hget
    rw [RuleContext.incident, hget, Option.bind_some, h.wf.find?_id hrow] at hnone
    cases hnone

theorem LoopInv.written {s' : EngineState} (h : LoopInv ids c (inst :: rest) s)
    (hrow : row ∈ s.incidents) (hadv : Advances row row')
    (hincidents : s'.incidents = putRow s.incidents row') (hissued : s'.issued = s.issued) :
    LoopInv ids c rest s' ∧ Evolves ids s.incidents s.issued s'.incidents s'.issued := by
  have hput := advances_putRow h.wf hrow hadv
  rw [hissued, hincidents]
  refine ⟨⟨?_, ?_, ?_, (List.nodup_cons.1 h.keys).2⟩, evolves_map ids _ hput⟩
  · rw [hissued, hincidents]
    exact h.wf.map hput
  · intro key id hget
    obtain ⟨r, hr, rfl, hkey⟩ := h.known key id hget
    rw [hincidents]
    exact ⟨_, mem_map_of_mem hr, (hput r hr).id, (hput r hr).entityKey.trans hkey⟩
  · intro inst' hinst' hget r hr hopen hrule
    rw [hincidents] at hr
    obtain ⟨r₀, hr₀, rfl⟩ := mem_putRow hr
    have hadv₀ := hput r₀ hr₀
    rw [hadv₀.entityKey]
    exact h.fresh inst' (mem_cons_of_mem _ hinst') hget r₀ hr₀ (hadv₀.isOpen hopen)
      (hadv₀.ruleId.symm.trans hrule)

theorem LoopInv.opened (h : LoopInv ids c (inst :: rest) s)
    (hnone : c.incident s.incidents inst = none) (message : String) :
    LoopInv ids c rest (openIncident ids c message inst s) ∧
      Evolves ids s.incidents s.issued (openIncident ids c message inst s).incidents
        (openIncident ids c message inst s).issued := by
  have hkeys := List.nodup_cons.1 h.keys
  refine ⟨⟨?_, ?_, ?_, hkeys.2⟩, evolves_append ids _ _ rfl⟩
  · refine h.wf.append rfl rfl rfl fun row hrow hopen hrule => ?_
    exact h.fresh inst (mem_cons_self ..) (h.get?_eq_none hnone) row hrow hopen hrule
  · intro key id hget
    obtain ⟨row, hrow, hid⟩ := h.known key id hget
    exact ⟨row, mem_append_left _ hrow, hid⟩
  · intro inst' hinst' hget row hrow hopen hrule
    rcases List.mem_append.1 hrow with hrow | hrow
    · exact h.fresh inst' (mem_cons_of_mem _ hinst') hget row hrow hopen hrule
    · rw [List.mem_singleton.1 hrow]
      intro hkey
      refine hkeys.1 ?_
      rw [show incidentKey inst = incidentKey inst' from hkey]
      exact mem_map_of_mem hinst'

theorem LoopInv.round (h : LoopInv ids c (inst :: rest) s) :
    LoopInv ids c rest (evaluateEntity ids c inst s).1 ∧
      Evolves ids s.incidents s.issued (evaluateEntity ids c inst s).1.incidents
        (evaluateEntity ids c inst s).1.issued := by
  rcases evaluateEntity_cases ids c inst s with hskip | ⟨message, hnone, -, -, -, -, hopened⟩ |
    ⟨row, row', ts, hsome, hwrites, hwritten⟩
  · rw [hskip]
    exact ⟨{ h with
      fresh := fun inst' hinst' => h.fresh inst' (mem_cons_of_mem _ hinst')
      keys := (List.nodup_cons.1 h.keys).2 }, .refl ..⟩
  · rw [hopened]
    exact h.opened hnone message
  · rw [hwritten]
    exact h.written (RuleContext.mem_of_incident hsome).1 hwrites.advances rfl rfl

theorem LoopInv.rounds (h : LoopInv ids c rest s) :
    WellFormed ids (evaluateEntities ids c rest s).1.issued
        (evaluateEntities ids c rest s).1.incidents ∧
      Evolves ids s.incidents s.issued (evaluateEntities ids c rest s).1.incidents
        (evaluateEntities ids c rest s).1.issued := by
  induction rest generalizing s with
  | nil => exact ⟨h.wf, .refl ..⟩
  | cons inst rest ih =>
    obtain ⟨hinv, hevolves⟩ := h.round
    rw [evaluateEntities]
    split
    next s' heq =>
      rw [heq] at hinv hevolves
      obtain ⟨hwf, hrest⟩ := ih hinv
      exact ⟨hwf, hevolves.trans hrest⟩
    next s' heq =>
      rw [heq] at hinv hevolves
      exact ⟨hinv.wf, hevolves⟩

/-! ### A rule -/

theorem append_cons_left_inj {α : Type} {x : α} {a a' b b' : List α} (ha : x ∉ a) (ha' : x ∉ a')
    (h : a ++ x :: b = a' ++ x :: b') : a = a' := by
  induction a generalizing a' with
  | nil =>
    cases a' with
    | nil => rfl
    | cons y a' =>
      rw [nil_append, cons_append, List.cons.injEq] at h
      exact absurd (h.1 ▸ mem_cons_self ..) ha'
  | cons y a ih =>
    cases a' with
    | nil =>
      rw [nil_append, cons_append, List.cons.injEq] at h
      exact absurd (h.1 ▸ mem_cons_self ..) ha
    | cons y' a' =>
      rw [cons_append, cons_append, List.cons.injEq] at h
      rw [h.1, ih (fun hx => ha (mem_cons_of_mem _ hx))
        (fun hx => ha' (mem_cons_of_mem _ hx)) h.2]

theorem DefinitionRow.keys_nodup (defn : DefinitionRow) :
    (defn.entities.enabled.map incidentKey).Nodup := by
  have hsub : defn.entities.enabled.Sublist defn.entities.rows := filter_sublist
  have hnodup : (defn.entities.enabled.map AlertEntity.assignmentId).Nodup :=
    defn.entities.assignments_nodup.sublist (hsub.map _)
  refine List.Nodup.map_on ?_ (List.Nodup.of_map _ hnodup)
  intro e he e' he' hkey
  refine inj_on_of_nodup_map hnodup he he' (String.toList_inj.1 ?_)
  have htext : e.assignmentId.toList ++ '|' :: e.entityKey.toList =
      e'.assignmentId.toList ++ '|' :: e'.entityKey.toList := by
    simpa [incidentKey] using congrArg String.toList hkey
  exact append_cons_left_inj (defn.assignments_plain e (hsub.subset he))
    (defn.assignments_plain e' (hsub.subset he')) htext

variable {key : String}

theorem get?_openByKey {id : Uuid}
    (h : (openByKey rows).get? key = some id) : ∃ row ∈ rows, row.entityKey = key ∧ row.id = id :=
    by
  rw [openByKey, Dict.get?_setAll_map] at h
  obtain ⟨row, hfind, hid⟩ := Option.map_eq_some_iff.1 h
  exact ⟨row, List.mem_reverse.1 (mem_of_find?_eq_some hfind),
    by simpa using find?_some hfind, hid⟩

theorem get?_openByKey_eq_none
    (h : (openByKey rows).get? key = none) : ∀ row ∈ rows, row.entityKey ≠ key := by
  rw [openByKey, Dict.get?_setAll_map, Option.map_eq_none_iff, find?_eq_none] at h
  intro row hrow
  simpa using h row (List.mem_reverse.2 hrow)

theorem mem_openIncidents {rule : EngineRule} :
    row ∈ openIncidents rule rows ↔ row ∈ rows ∧ row.ruleId = rule.id ∧ row.IsOpen := by
  rw [openIncidents, mem_filter, decide_eq_true_eq]

theorem loopInv_start (h : WellFormed ids s.issued s.incidents) (env : CycleEnv) (rule : EngineRule)
    (ladder : Option (List LadderStep)) (defn : DefinitionRow) :
    LoopInv ids (ruleContext env rule ladder s.incidents) defn.entities.enabled s where
  wf := h
  known := by
    intro key id hget
    obtain ⟨row, hrow, hkey, hid⟩ := get?_openByKey hget
    exact ⟨row, ((env.scan rule.id).perm _).mem_iff.1 (mem_openIncidents.1 hrow).1, hid, hkey⟩
  fresh := by
    intro inst _ hget row hrow hopen hrule
    refine get?_openByKey_eq_none hget row (mem_openIncidents.2 ⟨?_, hrule, hopen⟩)
    exact ((env.scan rule.id).perm _).mem_iff.2 hrow
  keys := defn.keys_nodup

theorem companionClear_cases (rule : EngineRule) (companionIds : List Uuid)
    (entities : List CompanionEntity) (now : Timestamp) (row : IncidentRow) :
    (companionClear rule companionIds entities now row = row ∧
      (clearByCompanions rule.toIncidentRule companionIds entities now row.toIncident).2 = []) ∨
      row.IsOpen ∧ ∃ reason,
        companionClear rule companionIds entities now row = row.clear now reason ∧
        (clearByCompanions rule.toIncidentRule companionIds entities now row.toIncident).2 =
          [record rule.toIncidentRule (row.clear now reason).toIncident "cleared"] := by
  rw [companionClear, clearByCompanions]
  split
  · exact .inl ⟨rfl, rfl⟩
  next hopen =>
    split
    · exact .inl ⟨rfl, rfl⟩
    next reason _ => exact .inr ⟨of_not_not hopen, reason, rfl, rfl⟩

theorem advances_companionClear (rule : EngineRule) (companionIds : List Uuid)
    (entities : List CompanionEntity) (now : Timestamp) (row : IncidentRow) :
    Advances row (companionClear rule companionIds entities now row) := by
  rcases companionClear_cases rule companionIds entities now row with
    ⟨h, -⟩ | ⟨-, reason, h, -⟩
  · rw [h]
    exact .refl row
  · rw [h]
    exact advances_clear row now reason

theorem companionPass_wellFormed (rule : EngineRule)
    (now : Timestamp) (loaded : List Uuid) {s : EngineState}
    (h : WellFormed ids s.issued s.incidents) :
    WellFormed ids (companionPass config rule now loaded s).issued
        (companionPass config rule now loaded s).incidents ∧
      Evolves ids s.incidents s.issued (companionPass config rule now loaded s).incidents
        (companionPass config rule now loaded s).issued := by
  rw [companionPass]
  cases validateCompanionIds rule.clearOnCompanionIds with
  | none => exact ⟨h, .refl ..⟩
  | some companionIds =>
    have hadv : ∀ row ∈ s.incidents, Advances row (if row.id ∈ loaded then
        companionClear rule companionIds config.companionEntities now row else row) := by
      intro row _
      split
      · exact advances_companionClear ..
      · exact .refl row
    exact ⟨h.map hadv, evolves_map ids _ hadv⟩

/-- **A rule keeps the invariant**, also when it is abandoned. -/
theorem evaluateRule_wellFormed (env : CycleEnv)
    (rule : EngineRule) {s : EngineState} (h : WellFormed ids s.issued s.incidents) :
    WellFormed ids (evaluateRule ids config env rule s).issued
        (evaluateRule ids config env rule s).incidents ∧
      Evolves ids s.incidents s.issued (evaluateRule ids config env rule s).incidents
        (evaluateRule ids config env rule s).issued := by
  rw [evaluateRule]
  split
  · exact ⟨h, .refl ..⟩
  next defn _ =>
    split
    · exact ⟨h, .refl ..⟩
    · split
      · exact ⟨h, .refl ..⟩
      next ladder _ =>
        obtain ⟨hwf, hevolves⟩ := (loopInv_start h env rule ladder defn).rounds
        dsimp only
        split
        next s' heq =>
          rw [heq] at hwf hevolves
          exact ⟨hwf, hevolves⟩
        next s' heq =>
          rw [heq] at hwf hevolves
          obtain ⟨hwf', hevolves'⟩ := companionPass_wellFormed config rule (env.now rule.id)
            ((openIncidents rule ((env.scan rule.id).rows s.incidents)).map (·.id)) hwf
          exact ⟨hwf', hevolves.trans hevolves'⟩

/-! ### Cycles and runs -/

theorem foldl_evaluateRule_wellFormed (config : Config) (env : CycleEnv)
    (rules : List EngineRule) {s : EngineState} (h : WellFormed ids s.issued s.incidents) :
    let s' := rules.foldl (fun s rule => evaluateRule ids config env rule s) s
    WellFormed ids s'.issued s'.incidents ∧
      Evolves ids s.incidents s.issued s'.incidents s'.issued := by
  induction rules generalizing s with
  | nil => exact ⟨h, .refl ..⟩
  | cons rule rules ih =>
    obtain ⟨hwf, hevolves⟩ := evaluateRule_wellFormed config env rule h
    obtain ⟨hwf', hevolves'⟩ := ih hwf
    exact ⟨hwf', hevolves.trans hevolves'⟩

/-- **A cycle keeps the invariant.** -/
theorem evaluateAll_wellFormed (env : CycleEnv)
    {issued : ℕ} (h : WellFormed ids issued rows) :
    WellFormed ids (evaluateAll ids config env rows issued).issued
        (evaluateAll ids config env rows issued).incidents ∧
      Evolves ids rows issued (evaluateAll ids config env rows issued).incidents
        (evaluateAll ids config env rows issued).issued :=
  foldl_evaluateRule_wellFormed config env _ (s := { incidents := rows, issued }) h

theorem cascade_wellFormed (h : WellFormed ids n rows) :
    WellFormed ids n (cascade config rows) ∧ Evolves ids rows n (cascade config rows) n := by
  refine ⟨(h.filter _).map fun row _ => .of_eq rfl rfl rfl rfl rfl, le_refl _, ?_⟩
  intro row' hrow'
  obtain ⟨row, hrow, rfl⟩ := List.mem_map.1 hrow'
  exact .inl ⟨row, mem_of_mem_filter hrow, .of_eq rfl rfl rfl rfl rfl⟩

theorem step_wellFormed {s s' : System} {a : Action}
    (h : WellFormed ids s.issued s.incidents) (hstep : step ids s a = some s') :
    WellFormed ids s'.issued s'.incidents ∧
      Evolves ids s.incidents s.issued s'.incidents s'.issued := by
  cases a with
  | configure config =>
    cases hstep
    exact cascade_wellFormed config h
  | clearManually chosen now =>
    cases hstep
    have hadv : ∀ row ∈ s.incidents, Advances row
        (if row.id ∈ chosen ∧ row.IsOpen then row.clear now "manual" else row) := by
      intro row _
      split
      · exact advances_clear row now "manual"
      · exact .refl row
    exact ⟨h.map hadv, evolves_map ids _ hadv⟩
  | cycle env commits =>
    obtain ⟨hwf, hevolves⟩ := evaluateAll_wellFormed s.config env h
    cases commits with
    | true =>
      cases hstep
      exact ⟨hwf, hevolves⟩
    | false =>
      cases hstep
      exact ⟨h.mono hevolves.le, hevolves.le, fun row hrow => .inl ⟨row, hrow, .refl row⟩⟩

variable {allowed : System → Action → Prop}

theorem run_wellFormed {s : System}
    (h : Run (step ids) allowed {} s) : WellFormed ids s.issued s.incidents :=
  h.invariant (I := fun s => WellFormed ids s.issued s.incidents) (wellFormed_nil ids)
    fun hwf _ hstep => (step_wellFormed hwf hstep).1

theorem run_evolves {s t : System}
    (hs : WellFormed ids s.issued s.incidents) (h : Run (step ids) allowed s t) :
    Evolves ids s.incidents s.issued t.incidents t.issued := by
  refine (h.invariant (I := fun t => WellFormed ids t.issued t.incidents ∧
    Evolves ids s.incidents s.issued t.incidents t.issued) ⟨hs, .refl ..⟩ ?_).2
  intro t a t' ht _ hstep
  obtain ⟨hwf, hevolves⟩ := step_wellFormed ht.1 hstep
  exact ⟨hwf, ht.2.trans hevolves⟩

theorem length_le_one_of_nodup {α : Type} {l : List α} (hnodup : l.Nodup)
    (h : ∀ x ∈ l, ∀ y ∈ l, x = y) : l.length ≤ 1 := by
  rcases l with _ | ⟨x, _ | ⟨y, rest⟩⟩
  · simp
  · simp
  · have hxy : x = y := h x (by simp) y (by simp)
    rw [hxy] at hnodup
    simp at hnodup

def openFor (rows : List IncidentRow) (ruleId : Uuid) (entityKey : String) : List IncidentRow :=
  rows.filter fun row => row.ruleId = ruleId ∧ row.entityKey = entityKey ∧ row.IsOpen

theorem WellFormed.length_openFor_le
    (h : WellFormed ids n rows) (ruleId : Uuid) (entityKey : String) :
    (openFor rows ruleId entityKey).length ≤ 1 := by
  refine length_le_one_of_nodup ((List.Nodup.of_map _ h.ids_nodup).filter _) ?_
  intro row hrow row' hrow'
  obtain ⟨hmem, hprop⟩ := List.mem_filter.1 hrow
  obtain ⟨hmem', hprop'⟩ := List.mem_filter.1 hrow'
  rw [decide_eq_true_eq] at hprop hprop'
  exact h.one_open row hmem row' hmem' hprop.2.2 hprop'.2.2 (hprop.1.trans hprop'.1.symm)
    (hprop.2.1.trans hprop'.2.1.symm)

/-- **At most one open incident for a rule and an entity**: in every state that cycles, manual
clears and changes of the configuration lead to, at most one open incident has a given rule and
key, an incident has a time of clearing exactly when it is cleared, and a cleared one is never
open again. -/
theorem one_open_incident {ids : UuidSource} {s : System}
    (h : Run (step ids) (fun _ _ => True) {} s) :
    (∀ ruleId entityKey, (openFor s.incidents ruleId entityKey).length ≤ 1) ∧
    (∀ row ∈ s.incidents, row.clearedAt.isSome ↔ row.state = .cleared) ∧
    ∀ t, Run (step ids) (fun _ _ => True) s t → ∀ row ∈ s.incidents, row.state = .cleared →
      ∀ row' ∈ t.incidents, row'.id = row.id → row'.state = .cleared := by
  have hwf := run_wellFormed h
  refine ⟨hwf.length_openFor_le, hwf.cleared_at, fun t ht row hrow hcleared row' hrow' hid => ?_⟩
  exact (run_evolves hwf ht).stays_cleared hwf hrow hcleared hrow' hid

/-! ### A flapping link -/

/-- Ids that count. -/
def UuidSource.counter : UuidSource where
  uuid4 := toString
  injective := fun _ _ h => Decimal.toList_toString_injective (congrArg String.toList h)

/-- A rule about one definition. -/
def linkRule : EngineRule where
  id := "r1"
  clearOnCompanionIds := .null
  clearCompanionMode := some "any"
  definitionId := "d1"

theorem linkRule_nodup : ([linkRule].map fun rule => rule.id).Nodup := nodup_singleton _

theorem linkRule_accepted : ∀ rule ∈ [linkRule], acceptsDependsOn rule.dependsOn = true := by
  simp [linkRule, acceptsDependsOn]

/-- The rule, and one entity of its definition. -/
def linkConfig (state : AlertState) : Config where
  rules := [linkRule]
  definitions := [{
    id := "d1"
    entities := ⟨[{ assignmentId := "a1", state, fireCount := 1 }], by simp⟩
    assignments_plain := by simp }]
  rules_nodup := linkRule_nodup
  dependsOn_accepted := linkRule_accepted

/-- A cycle in which every message can be rendered. -/
def plainCycle : Action :=
  .cycle ⟨fun _ => 0, fun _ _ => some "down", fun _ => .inOrder⟩ true

/-- The alert fires, is resolved, and fires again. -/
def linkFlaps : List Action :=
  [.configure (linkConfig .firing), plainCycle, .configure (linkConfig .resolved), plainCycle,
    .configure (linkConfig .firing), plainCycle]

theorem one_open_incident_linkFlaps :
    ∃ s, replay (step .counter) (fun _ _ => True) {} linkFlaps = some s ∧
      s.incidents.map (·.state) = [.cleared, .isOpen] ∧
      ∀ ruleId entityKey, (openFor s.incidents ruleId entityKey).length ≤ 1 := by
  refine ⟨_, rfl, by decide +kernel, ?_⟩
  have hreplay : replay (step .counter) (fun _ _ => True) {} linkFlaps = some _ := rfl
  exact (one_open_incident (run_of_replay hreplay)).1

end MonCTL.Incidents
