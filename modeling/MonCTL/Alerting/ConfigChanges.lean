import MonCTL.Alerting.FiringKeys
import MonCTL.Alerting.Cycles

/-!
# Changed Configuration

A definition whose expressions are `CHANGED` compares the hash that a query shows for a
device's configuration key with the one an entity remembers. A row belongs to a device, but
it is given to the first entity whose key is the row's or empty, and the entity is then looked
up under the row's key.
-/

namespace MonCTL.Alerting

open List Dsl

/-! ### Rows and entities -/

def Row.configKey (row : Row) : String := row.text "device_id" ++ "|" ++ row.text "config_key"

def Row.hash (row : Row) : String := row.text "config_hash"

/-- What a row about a changed key fires with. -/
def Row.changeData (row : Row) : FireData where
  value := none
  labels := [("device_name", row.text "device_name"), (configHashLabel, row.hash)]

/-- The hash an entity remembers. -/
def AlertEntity.recorded (e : AlertEntity) : Option String :=
  e.entityLabels.lookup configHashLabel

/-- The row is about the entity's own device, and about its key when it has one. -/
def AlertEntity.Owns (e : AlertEntity) (row : Row) : Prop :=
  e.deviceId = some (row.text "device_id") ∧ (e.entityKey = "" ∨ e.entityKey = row.configKey)

instance (e : AlertEntity) (row : Row) : Decidable (e.Owns row) := by
  rw [AlertEntity.Owns]
  infer_instance

/-- The key of the first entity with the key of a row, or without a key. -/
def candidate (keys : List (Uuid × String)) (row : Row) : Option (Uuid × String) :=
  keys.find? fun key => key.2 = row.configKey ∨ key.2 = ""

/-- A row is given to the entity of an assignment. -/
def Given (keys : List (Uuid × String)) (aid : Uuid) (row : Row) : Prop :=
  (candidate keys row).map Prod.fst = some aid

instance (keys : List (Uuid × String)) (aid : Uuid) (row : Row) :
    Decidable (Given keys aid row) := by
  rw [Given]
  infer_instance

/-! ### The rows of one query -/

/-- The hash the entity of an assignment remembers. -/
def recordedIn (instances : List AlertEntity) (aid : Uuid) : Option String :=
  (instances.find? (·.assignmentId = aid)).bind AlertEntity.recorded

theorem recordedIn_storeBaseline (aid aid' : Uuid) (hash : String) (instances : List AlertEntity) :
    recordedIn (storeBaseline aid' hash instances) aid =
      if aid = aid' ∧ aid ∈ instances.map AlertEntity.assignmentId then some hash
      else recordedIn instances aid := by
  have hsame : ((fun e : AlertEntity => decide (e.assignmentId = aid)) ∘ fun e =>
      if e.assignmentId = aid' then
        { e with entityLabels := e.entityLabels.set configHashLabel hash }
      else e) = fun e => decide (e.assignmentId = aid) := by
    funext e
    rw [Function.comp_apply]
    split <;> rfl
  rw [recordedIn, recordedIn, storeBaseline, find?_map, hsame]
  cases hfind : instances.find? (·.assignmentId = aid) with
  | none =>
    have hnotMem : aid ∉ instances.map AlertEntity.assignmentId := by
      rw [mem_map]
      rintro ⟨e, he, hid⟩
      simpa [hid] using List.find?_eq_none.1 hfind e he
    simp [hnotMem]
  | some e =>
    have hid : e.assignmentId = aid := by simpa using find?_some hfind
    have hmem : aid ∈ instances.map AlertEntity.assignmentId :=
      hid ▸ mem_map_of_mem (mem_of_find?_eq_some hfind)
    by_cases h : aid = aid'
    · simp [hid, h ▸ hmem, h, AlertEntity.recorded]
    · simp [hid, h]

theorem candidate_eq (instances : List AlertEntity) (row : Row) :
    candidate (instances.map AlertEntity.key) row =
      (instances.find? fun e => e.entityKey = row.configKey ∨ e.entityKey = "").map
        AlertEntity.key := by
  rw [candidate, find?_map]
  rfl

/-- The entities of a query, of which each assignment has one. -/
structure Keyed (keys : List (Uuid × String)) (instances : List AlertEntity) : Prop where
  keys_eq : instances.map AlertEntity.key = keys
  nodup : (keys.map Prod.fst).Nodup

variable {instances : List AlertEntity} {keys : List (Uuid × String)} {e : AlertEntity}

theorem Keyed.given
    (h : Keyed keys instances) {row : Row}
    (he : instances.find? (fun e => e.entityKey = row.configKey ∨ e.entityKey = "") = some e) :
    (∀ aid, Given keys aid row ↔ aid = e.assignmentId) ∧
      recordedIn instances e.assignmentId = e.recorded ∧
      e.assignmentId ∈ instances.map AlertEntity.assignmentId := by
  have hmem := mem_of_find?_eq_some he
  refine ⟨fun aid => ?_, ?_, mem_map_of_mem hmem⟩
  · rw [Given, ← h.keys_eq, candidate_eq, he]
    exact ⟨fun heq => (Option.some.inj heq).symm, fun heq => congrArg some heq.symm⟩
  · have hnodup : (instances.map AlertEntity.assignmentId).Nodup := by
      have := h.nodup
      rwa [← h.keys_eq, map_map] at this
    cases hfind : instances.find? (·.assignmentId = e.assignmentId) with
    | none => simpa using List.find?_eq_none.1 hfind e hmem
    | some x =>
      have hid : x.assignmentId = e.assignmentId := by simpa using find?_some hfind
      have hxe : x = e := inj_on_of_nodup_map hnodup (mem_of_find?_eq_some hfind) hmem hid
      rw [recordedIn, hfind, hxe]
      rfl

variable {acc : Firing × List AlertEntity}

/-- The baseline after a row: a row sets the one of the entity it is given to, unless there is
one. -/
theorem Keyed.recorded_row
    (h : Keyed keys acc.2) (row : Row) (aid : Uuid) :
    recordedIn (configChangedRow acc row).2 aid =
      if Given keys aid row then (recordedIn acc.2 aid).or (some row.hash)
      else recordedIn acc.2 aid := by
  rw [configChangedRow]
  split
  next hnone =>
    have hnot : ¬Given keys aid row := by
      rw [Given, ← h.keys_eq, candidate_eq]
      rw [Row.configKey, hnone]
      simp
    rw [if_neg hnot]
  next e he =>
    have hfirst : acc.2.find? (fun e => e.entityKey = row.configKey ∨ e.entityKey = "") = some e :=
      he
    obtain ⟨hgiven, hrecorded, hmem⟩ := h.given hfirst
    split
    next prev hprev =>
      have hsome : recordedIn acc.2 e.assignmentId = some prev := hrecorded.trans hprev
      have hkeep : recordedIn acc.2 aid = if Given keys aid row then
          (recordedIn acc.2 aid).or (some row.hash) else recordedIn acc.2 aid := by
        split
        next hg => rw [(hgiven aid).1 hg, hsome, Option.some_or]
        · rfl
      split <;> exact hkeep
    next hnone =>
      have hnone : recordedIn acc.2 e.assignmentId = none := hrecorded.trans hnone
      rw [recordedIn_storeBaseline]
      by_cases hid : aid = e.assignmentId
      · rw [if_pos ⟨hid, hid ▸ hmem⟩, if_pos ((hgiven aid).2 hid), hid, hnone]
        rfl
      · rw [if_neg fun hand => hid hand.1, if_neg fun hg => hid ((hgiven aid).1 hg)]

theorem Keyed.lookup_row
    (h : Keyed keys acc.2) (row : Row) (aid : Uuid) (k : String) :
    (configChangedRow acc row).1.lookup (aid, k) =
      if Given keys aid row ∧ k = row.configKey ∧ (recordedIn acc.2 aid).any (· ≠ row.hash) then
        some row.changeData
      else acc.1.lookup (aid, k) := by
  rw [configChangedRow]
  split
  next hnone =>
    have hnot : ¬Given keys aid row := by
      rw [Given, ← h.keys_eq, candidate_eq]
      rw [Row.configKey, hnone]
      simp
    rw [if_neg fun hand => hnot hand.1]
  next e he =>
    have hfirst : acc.2.find? (fun e => e.entityKey = row.configKey ∨ e.entityKey = "") = some e :=
      he
    obtain ⟨hgiven, hrecorded, -⟩ := h.given hfirst
    split
    next prev hprev =>
      have hsome : recordedIn acc.2 e.assignmentId = some prev := hrecorded.trans hprev
      split
      next hne =>
        rw [Dict.lookup_eq_get?, Dict.get?_set, Dict.lookup_eq_get?]
        by_cases hid : aid = e.assignmentId
        · subst hid
          by_cases hk : k = row.configKey
          · rw [if_pos (by rw [hk]; rfl), if_pos ⟨(hgiven _).2 rfl, hk, hsome ▸ decide_eq_true hne⟩]
            rfl
          · rw [if_neg fun heq => hk (congrArg Prod.snd heq), if_neg fun hand => hk hand.2.1]
        · rw [if_neg fun heq => hid (congrArg Prod.fst heq),
            if_neg fun hand => hid ((hgiven aid).1 hand.1)]
      next heq =>
        rw [if_neg]
        rintro ⟨hg, -, hany⟩
        rw [(hgiven aid).1 hg, hsome] at hany
        exact heq (of_decide_eq_true hany)
    next hnone =>
      have hnone : recordedIn acc.2 e.assignmentId = none := hrecorded.trans hnone
      rw [if_neg]
      rintro ⟨hg, -, hany⟩
      rw [(hgiven aid).1 hg, hnone] at hany
      simp at hany

theorem Keyed.row
    (h : Keyed keys acc.2) (row : Row) : Keyed keys (configChangedRow acc row).2 :=
  ⟨(configChangedRow_keys acc row).trans h.keys_eq, h.nodup⟩

/-- What a query's rows find for an assignment, when `base` is its baseline in the end: the
rows given to it that show another hash, under their own keys. -/
structure Finds (keys : List (Uuid × String)) (aid : Uuid) (base : Option String)
    (rows : List Row) (fk : Firing) : Prop where
  sound : ∀ {k data}, fk.lookup (aid, k) = some data →
    ∃ row ∈ rows, Given keys aid row ∧ row.configKey = k ∧ base ≠ some row.hash ∧
      data = row.changeData
  complete : ∀ row ∈ rows, Given keys aid row → base ≠ some row.hash →
    (fk.lookup (aid, row.configKey)).isSome

/-- The hash of the first row given to an assignment. -/
def firstHash (keys : List (Uuid × String)) (aid : Uuid) (rows : List Row) : Option String :=
  (rows.find? fun row => Given keys aid row).map Row.hash

theorem firstHash_append (keys : List (Uuid × String)) (aid : Uuid) (rows rows' : List Row) :
    firstHash keys aid (rows ++ rows') =
      (firstHash keys aid rows).or (firstHash keys aid rows') := by
  rw [firstHash, find?_append, Option.map_or]
  rfl

theorem Keyed.recorded_rows
    (h : Keyed keys acc.2) (rows : List Row) (aid : Uuid) :
    recordedIn (rows.foldl configChangedRow acc).2 aid =
      (recordedIn acc.2 aid).or (firstHash keys aid rows) := by
  induction rows generalizing acc with
  | nil => simp [firstHash]
  | cons row rows ih =>
    rw [foldl_cons, ih (h.row row), h.recorded_row, firstHash, firstHash, find?_cons]
    by_cases hg : Given keys aid row
    · cases recordedIn acc.2 aid <;> simp [hg]
    · simp [hg]

theorem Keyed.lookup_rows
    (h : Keyed keys acc.2) (rows : List Row) (aid : Uuid) (k : String) {base : Option String}
    (hbase : recordedIn (rows.foldl configChangedRow acc).2 aid = base) :
    (∀ data, (rows.foldl configChangedRow acc).1.lookup (aid, k) = some data →
      acc.1.lookup (aid, k) = some data ∨
      ∃ row ∈ rows, Given keys aid row ∧ row.configKey = k ∧ base ≠ some row.hash ∧
        data = row.changeData) ∧ ((acc.1.lookup (aid, k)).isSome ∨
      (∃ row ∈ rows, Given keys aid row ∧ row.configKey = k ∧ base ≠ some row.hash) →
      ((rows.foldl configChangedRow acc).1.lookup (aid, k)).isSome) := by
  induction rows generalizing acc with
  | nil => simp
  | cons row rows ih =>
    rw [foldl_cons] at hbase ⊢
    obtain ⟨hsound, hcomplete⟩ := ih (h.row row) hbase
    rw [(h.row row).recorded_rows, h.recorded_row] at hbase
    rw [h.lookup_row] at hsound hcomplete
    -- a row differs from what is remembered before it iff it differs from the baseline in the end
    have hdiffers : Given keys aid row →
        ((recordedIn acc.2 aid).any (· ≠ row.hash) = true ↔ base ≠ some row.hash) := by
      intro hg
      rw [if_pos hg] at hbase
      cases hrecorded : recordedIn acc.2 aid with
      | none =>
        rw [hrecorded, Option.none_or, Option.some_or] at hbase
        simp [← hbase]
      | some prev =>
        rw [hrecorded, Option.some_or, Option.some_or] at hbase
        simp [← hbase]
    refine ⟨fun data hdata => ?_, fun hfound => hcomplete ?_⟩
    · rcases hsound data hdata with hacc | ⟨row', hrow', hfinds⟩
      · split at hacc
        next hhere =>
          obtain ⟨hg, hk, hany⟩ := hhere
          exact .inr ⟨row, mem_cons_self .., hg, hk.symm, (hdiffers hg).1 hany,
            (Option.some.inj hacc).symm⟩
        · exact .inl hacc
      · exact .inr ⟨row', mem_cons_of_mem _ hrow', hfinds⟩
    · split
      · exact .inl rfl
      next hnot =>
        rcases hfound with hacc | ⟨row', hrow', hg, hk, hne⟩
        · exact .inl hacc
        · rcases List.mem_cons.1 hrow' with rfl | hrow'
          · exact absurd ⟨hg, hk.symm, (hdiffers hg).2 hne⟩ hnot
          · exact .inr ⟨row', hrow', hg, hk, hne⟩

/-! ### The queries of an evaluation -/

/-- The rows a query for changed configuration answers with; a failed query shows none. -/
def changedRows (ch : ClickHouse) (name : QueryName) (compiled : CompiledQuery)
    (instances : List AlertEntity) : List Row :=
  (ch.tier name (.configChanged (assignmentIds instances)
    (compiled.configChangedKey.getD ""))).getD []

theorem evaluateTier_configChanged (ch : ClickHouse) (vars : Variables) (name : QueryName)
    (compiled : CompiledQuery) (instances : List AlertEntity) :
    evaluateTier ch true vars name compiled instances =
      .ok ((changedRows ch name compiled instances).foldl configChangedRow ([], instances)) := by
  rw [evaluateTier, if_pos rfl, evaluateConfigChanged, changedRows]
  cases ch.tier name (.configChanged (assignmentIds instances)
    (compiled.configChangedKey.getD "")) <;> rfl

/-- The rows of the tiers that raise the alert, with their severities. -/
def fireRows (ch : ClickHouse) (instances : List AlertEntity) :
    ℕ → List (String × CompiledQuery) → List (String × List Row)
  | _, [] => []
  | i, (severity, compiled) :: tiers =>
    (severity, changedRows ch (.tier i) compiled instances) :: fireRows ch instances (i + 1) tiers

def healthyRows (ch : ClickHouse) (instances : List AlertEntity)
    (healthy : Option CompiledQuery) : List Row :=
  (healthy.map fun compiled => changedRows ch .healthy compiled instances).getD []

variable {instances' : List AlertEntity}

theorem changedRows_congr
    (h : instances'.map AlertEntity.key = instances.map AlertEntity.key) (ch : ClickHouse)
    (name : QueryName) (compiled : CompiledQuery) :
    changedRows ch name compiled instances' = changedRows ch name compiled instances := by
  have hids : instances'.map AlertEntity.assignmentId =
      instances.map AlertEntity.assignmentId := by
    have := congrArg (List.map Prod.fst) h
    rwa [map_map, map_map] at this
  rw [changedRows, changedRows, assignmentIds, assignmentIds, hids]

theorem fireRows_congr
    (h : instances'.map AlertEntity.key = instances.map AlertEntity.key) (ch : ClickHouse)
    (i : ℕ) (tiers : List (String × CompiledQuery)) :
    fireRows ch instances' i tiers = fireRows ch instances i tiers := by
  induction tiers generalizing i with
  | nil => rfl
  | cons tier tiers ih => rw [fireRows, fireRows, changedRows_congr h, ih]

theorem Keyed.finds
    (h : Keyed keys instances) (rows : List Row) (aid : Uuid) (later : Option String) :
    Finds keys aid ((recordedIn (rows.foldl configChangedRow ([], instances)).2 aid).or later)
      rows (rows.foldl configChangedRow ([], instances)).1 := by
  have hrecorded := @Keyed.recorded_rows keys ([], instances) h rows aid
  have hsome : ∀ row ∈ rows, Given keys aid row →
      (recordedIn (rows.foldl configChangedRow ([], instances)).2 aid).or later =
        recordedIn (rows.foldl configChangedRow ([], instances)).2 aid := by
    intro row hrow hg
    have hfirst : (firstHash keys aid rows).isSome := by
      rw [firstHash, Option.isSome_map, find?_isSome]
      exact ⟨row, hrow, by simpa using hg⟩
    rw [hrecorded]
    cases recordedIn instances aid <;> cases hf : firstHash keys aid rows <;> simp_all
  refine ⟨fun {k data} hdata => ?_, fun row hrow hg hne => ?_⟩
  · rcases (@Keyed.lookup_rows keys ([], instances) h rows aid k _ rfl).1 data hdata
      with hnil | hrow
    · cases hnil
    · obtain ⟨row, hrow, hg, hk, hne, hd⟩ := hrow
      exact ⟨row, hrow, hg, hk, by rwa [hsome row hrow hg], hd⟩
  · rw [hsome row hrow hg] at hne
    exact (@Keyed.lookup_rows keys ([], instances) h rows aid row.configKey _ rfl).2
      (.inr ⟨row, hrow, hg, rfl, hne⟩)

theorem Keyed.finds_tiers
    (h : Keyed keys instances) {ch : ClickHouse} {vars : Variables} {i : ℕ}
    {tiers : List (String × CompiledQuery)} {r : List (String × Firing) × List AlertEntity}
    (hr : evaluateTiers ch true vars i tiers instances = .ok r) (aid : Uuid)
    (later : Option String) : recordedIn r.2 aid = (recordedIn instances aid).or
        (firstHash keys aid ((fireRows ch instances i tiers).flatMap Prod.snd)) ∧
      List.Forall₂ (fun tier result => result.1 = tier.1 ∧
        Finds keys aid ((recordedIn r.2 aid).or later) tier.2 result.2)
        (fireRows ch instances i tiers) r.1 := by
  induction tiers generalizing i instances r with
  | nil =>
    rw [← Except.ok.inj hr]
    exact ⟨by simp [fireRows, firstHash], .nil⟩
  | cons tier tiers ih =>
    obtain ⟨severity, compiled⟩ := tier
    rw [evaluateTiers] at hr
    obtain ⟨first, hfirst, hr⟩ := StateExcept.bind_eq_ok.1 hr
    obtain ⟨rest, hrest, hr⟩ := StateExcept.bind_eq_ok.1 hr
    rw [evaluateTier_configChanged] at hfirst
    have hfold := Except.ok.inj hfirst
    have hfirstKeys : first.2.map AlertEntity.key = instances.map AlertEntity.key := by
      rw [← hfold, foldl_configChangedRow_keys]
    have hkeyed : Keyed keys first.2 := ⟨hfirstKeys.trans h.keys_eq, h.nodup⟩
    obtain ⟨hrecorded, hfinds⟩ := ih hkeyed hrest
    rw [fireRows_congr hfirstKeys] at hrecorded hfinds
    have hbase : recordedIn first.2 aid = (recordedIn instances aid).or
        (firstHash keys aid (changedRows ch (.tier i) compiled instances)) := by
      rw [← hfold]
      exact @Keyed.recorded_rows keys ([], instances) h _ aid
    rw [← Except.ok.inj hr, fireRows, flatMap_cons, firstHash_append]
    refine ⟨?_, .cons ⟨rfl, ?_⟩ hfinds⟩
    · rw [hrecorded, hbase, Option.or_assoc]
    · have := h.finds (changedRows ch (.tier i) compiled instances) aid
        ((firstHash keys aid ((fireRows ch instances (i + 1) tiers).flatMap Prod.snd)).or later)
      rw [hfold, ← Option.or_assoc, ← hrecorded] at this
      exact this

/-- The rows of an evaluation. -/
structure ConfigAnswers where
  fire : List (String × List Row)
  healthy : List Row

/-- The rows of the tiers that raise the alert. -/
def ConfigAnswers.fireRows (answers : ConfigAnswers) : List Row := answers.fire.flatMap Prod.snd

/-- All rows, in the order in which they are looked at. -/
def ConfigAnswers.rows (answers : ConfigAnswers) : List Row :=
  answers.fireRows ++ answers.healthy

def configAnswers (compiled : CompiledDefinition) (ch : ClickHouse)
    (instances : List AlertEntity) : ConfigAnswers where
  fire := MonCTL.Alerting.fireRows ch instances 0 compiled.tiers
  healthy := healthyRows ch instances compiled.healthy

variable {table : String} {defn : AlertDefinition} {compiled : CompiledDefinition}

/-- **What the queries of an evaluation find for an assignment.** -/
theorem tiers_find (hcompile : compileDefinition table defn = some compiled)
    (hchanged : compiled.isConfigChanged = true)
    (hnodup : (instances.map AlertEntity.assignmentId).Nodup) {c : Cycle} {f : Findings}
    (h : findings table defn instances c = some f) (aid : Uuid) :
    recordedIn f.instances aid = (recordedIn instances aid).or (firstHash
        (instances.map AlertEntity.key) aid (configAnswers compiled c.clickHouse instances).rows) ∧
      List.Forall₂ (fun tier result => result.1 = tier.1 ∧
        Finds (instances.map AlertEntity.key) aid (recordedIn f.instances aid) tier.2 result.2)
        (configAnswers compiled c.clickHouse instances).fire f.results ∧
      f.fresh = freshAssignments c.clickHouse table instances true := by
  rw [findings, hcompile, Option.bind_some] at h
  split at h
  · cases h
  · rw [compiledFindings, hchanged] at h
    cases htiers : evaluateTiers c.clickHouse true c.thresholdVars 0 compiled.tiers instances with
    | error => rw [htiers] at h; cases h
    | ok tiers =>
      rw [htiers] at h
      have hf := Option.some.inj h
      have hkeyed : Keyed (instances.map AlertEntity.key) instances :=
        ⟨rfl, by rw [map_map]; exact hnodup⟩
      have hkeyed' : Keyed (instances.map AlertEntity.key) tiers.2 :=
        ⟨evaluateTiers_keys htiers, hkeyed.nodup⟩
      have hinstances : recordedIn f.instances aid = (recordedIn tiers.2 aid).or
          (firstHash (instances.map AlertEntity.key) aid
            (healthyRows c.clickHouse instances compiled.healthy)) := by
        rw [← hf, healthyRows]
        dsimp only
        cases compiled.healthy with
        | none => simp [evaluateHealthy, firstHash]
        | some healthy =>
          rw [evaluateHealthy]
          rw [evaluateTier_configChanged, changedRows_congr (evaluateTiers_keys htiers)]
          exact @Keyed.recorded_rows _ ([], tiers.2) hkeyed' _ aid
      obtain ⟨hrecorded, hfinds⟩ := hkeyed.finds_tiers htiers aid (firstHash
        (instances.map AlertEntity.key) aid
        (healthyRows c.clickHouse instances compiled.healthy))
      refine ⟨?_, ?_, by rw [← hf]⟩
      · rw [hinstances, hrecorded, ConfigAnswers.rows, firstHash_append, Option.or_assoc]
        rfl
      · rw [hinstances]
        rw [← hf]
        exact hfinds

/-! ### One entity -/

theorem neg_one_le_severityRank (severity : Option String) : -1 ≤ severityRank severity := by
  unfold severityRank
  split <;> decide

theorem foldl_effectiveTier (key : Uuid × String) (results : List (String × Firing))
    (best : Option (String × FireData)) :
    let last := results.foldl (fun best result =>
      match result.2.lookup key with
      | some data =>
        if severityRank (best.map Prod.fst) < severityRank (some result.1) then
          some (result.1, data)
        else best
      | none => best) best
    (∀ tier, last = some tier → best = some tier ∨
      ∃ result ∈ results, 0 ≤ severityRank (some result.1) ∧ result.2.lookup key = some tier.2) ∧
    (best.isSome ∨ (∃ result ∈ results, 0 ≤ severityRank (some result.1) ∧
      (result.2.lookup key).isSome) → last.isSome) := by
  induction results generalizing best with
  | nil => simp
  | cons result results ih =>
    dsimp only at ih ⊢
    rw [foldl_cons]
    obtain ⟨hsound, hcomplete⟩ := ih (match result.2.lookup key with
      | some data =>
        if severityRank (best.map Prod.fst) < severityRank (some result.1) then
          some (result.1, data)
        else best
      | none => best)
    refine ⟨fun tier htier => ?_, fun hfound => hcomplete ?_⟩
    · rcases hsound tier htier with hstep | ⟨result', hmem, hrest⟩
      · split at hstep
        next data hdata =>
          split at hstep
          next hlt =>
            have hrank := neg_one_le_severityRank (best.map Prod.fst)
            refine .inr ⟨result, mem_cons_self .., by omega, ?_⟩
            rw [hdata, ← Option.some.inj hstep]
          · exact .inl hstep
        · exact .inl hstep
      · exact .inr ⟨result', mem_cons_of_mem _ hmem, hrest⟩
    · rcases hfound with hbest | ⟨result', hmem, hrank, hdata⟩
      · left
        split
        · split
          · rfl
          · exact hbest
        · exact hbest
      · rcases List.mem_cons.1 hmem with rfl | hmem
        · left
          obtain ⟨data, hdata⟩ := Option.isSome_iff_exists.1 hdata
          rw [hdata]
          dsimp only
          cases best with
          | none =>
            have hnone : severityRank (Option.map Prod.fst (none : Option (String × FireData)))
                = -1 := rfl
            rw [if_pos (by omega)]
            rfl
          | some best => split <;> rfl
        · exact .inr ⟨result', hmem, hrank, hdata⟩

/-- A row is given to an entity under the entity's own key, by a tier of a known severity. -/
def Matched (answers : ConfigAnswers) (keys : List (Uuid × String)) (e : AlertEntity)
    (row : Row) : Prop :=
  ∃ tier ∈ answers.fire, 0 ≤ severityRank (some tier.1) ∧ row ∈ tier.2 ∧
    Given keys e.assignmentId row ∧ row.configKey = e.entityKey

instance (answers : ConfigAnswers) (keys : List (Uuid × String)) (e : AlertEntity) (row : Row) :
    Decidable (Matched answers keys e row) := by
  rw [Matched]
  infer_instance

/-- What an entity remembers once the rows have been looked at. -/
def AlertEntity.baseline (e : AlertEntity) (keys : List (Uuid × String)) (rows : List Row) :
    Option String :=
  e.recorded.or (firstHash keys e.assignmentId rows)

theorem exists_of_forall₂_right {α β : Type} {R : α → β → Prop} {l : List α} {l' : List β}
    (h : List.Forall₂ R l l') {b : β} (hb : b ∈ l') : ∃ a ∈ l, R a b := by
  induction h with
  | nil => cases hb
  | cons hhead _ ih =>
    rcases List.mem_cons.1 hb with rfl | hb
    · exact ⟨_, mem_cons_self .., hhead⟩
    · obtain ⟨a, ha, hR⟩ := ih hb
      exact ⟨a, mem_cons_of_mem _ ha, hR⟩

variable {base : Option String} {results : List (String × Firing)} {answers : ConfigAnswers}

theorem matched_of_effectiveTier
    (h : List.Forall₂ (fun tier result => result.1 = tier.1 ∧
      Finds keys e.assignmentId base tier.2 result.2) answers.fire results)
    {tier : String × FireData} (htier : effectiveTier results e.key = some tier) :
    ∃ row, Matched answers keys e row ∧ base ≠ some row.hash ∧ tier.2 = row.changeData := by
  rcases (foldl_effectiveTier e.key results none).1 tier htier with hnone | hresult
  · cases hnone
  · obtain ⟨result, hmem, hrank, hdata⟩ := hresult
    obtain ⟨rows, hrows, hsev, hfinds⟩ := exists_of_forall₂_right h hmem
    obtain ⟨row, hrow, hg, hk, hne, hd⟩ := hfinds.sound hdata
    exact ⟨row, ⟨rows, hrows, hsev ▸ hrank, hrow, hg, hk⟩, hne, hd⟩

theorem effectiveTier_of_matched
    (h : List.Forall₂ (fun tier result => result.1 = tier.1 ∧
      Finds keys e.assignmentId base tier.2 result.2) answers.fire results)
    {row : Row} (hrow : Matched answers keys e row) (hne : base ≠ some row.hash) :
    (effectiveTier results e.key).isSome := by
  obtain ⟨tier, htier, hrank, hmem, hg, hk⟩ := hrow
  obtain ⟨result, hresult, hsev, hfinds⟩ := exists_of_forall₂_right h.flip htier
  refine (foldl_effectiveTier e.key results none).2 (.inr ⟨result, hresult, hsev ▸ hrank, ?_⟩)
  have := hfinds.complete row hmem hg hne
  rwa [hk] at this

variable {entities : Entities} {a : Evaluation} {f : Findings}

theorem evaluate_eq_update
    (h : findings a.table a.defn entities.enabled a.cycle = some f) {e' : AlertEntity}
    (he : e ∈ entities.enabled) (he' : e' ∈ (entities.evaluate a).rows)
    (hid : e'.assignmentId = e.assignmentId) :
    ∃ labels, e' = (f.update a.defn a.cycle.now (e.relabel labels)).1 ∧
      recordedIn f.instances e.assignmentId = (e.relabel labels).recorded := by
  have hnodup : (entities.enabled.map AlertEntity.assignmentId).Nodup :=
    entities.assignments_nodup.sublist (List.filter_sublist.map _)
  obtain ⟨labels, hfilter⟩ := (findings_relabelled h).filter_assignmentId hnodup he
  refine ⟨labels, ?_, ?_⟩
  · change e' ∈ (evaluateDefinitionIsolated a.table a.defn entities a.cycle).1 at he'
    rw [evaluateDefinitionIsolated_eq, h, Option.map_some, Option.getD_some, Entities.commit] at he'
    obtain ⟨row, hrow, rfl⟩ := List.mem_map.1 he'
    rw [find?_map_update] at hid ⊢
    have hrowid : row.assignmentId = e.assignmentId := by
      cases hhead : (f.instances.filter (·.assignmentId = row.assignmentId)).head? with
      | none => rwa [hhead] at hid
      | some x =>
        have hx := of_mem_filter (mem_of_head? hhead)
        rw [hhead] at hid
        exact (of_decide_eq_true hx).symm.trans ((updateEntity_frame ..).1.symm.trans hid)
    rw [hrowid, hfilter]
    rfl
  · rw [recordedIn, ← head?_filter, hfilter]
    rfl

theorem recorded_clearEntity (defn : AlertDefinition) (now : Timestamp) (hasHealthy : Bool)
    (healthy : Firing) (e : AlertEntity) :
    (clearEntity defn now hasHealthy healthy e).1.recorded = e.recorded := by
  unfold clearEntity AlertEntity.resolve AlertEntity.refreshFromHealthy
  dsimp only
  split
  · split
    · split <;> rfl
    · rfl
  · split
    · split <;> rfl
    · rfl

theorem recorded_fireEntity (defn : AlertDefinition) (now : Timestamp) (severity : String)
    (row : Row) (e : AlertEntity) :
    (fireEntity defn now severity row.changeData e).1.recorded = some row.hash := by
  unfold fireEntity
  dsimp only
  split
  · rfl
  · split <;> rfl

/-- **What an evaluation does to an entity**, when its queries find rows against a baseline: it
fires if a row matched to it differs, and remembers that row's hash, or else the baseline. -/
theorem evaluate_entity
    (h : findings a.table a.defn entities.enabled a.cycle = some f) {e' : AlertEntity}
    (he : e ∈ entities.enabled) (he' : e' ∈ (entities.evaluate a).rows)
    (hid : e'.assignmentId = e.assignmentId)
    (hfinds : List.Forall₂ (fun tier result => result.1 = tier.1 ∧
      Finds keys e.assignmentId (recordedIn f.instances e.assignmentId) tier.2 result.2)
      answers.fire f.results) :
    (f.outcome e = some true ↔ e.assignmentId ∈ f.fresh ∧ ∃ row, Matched answers keys e row ∧
      recordedIn f.instances e.assignmentId ≠ some row.hash) ∧
    (f.outcome e = some true → ∃ row, Matched answers keys e row ∧
      recordedIn f.instances e.assignmentId ≠ some row.hash ∧ e'.recorded = some row.hash) ∧
    (f.outcome e ≠ some true → e'.recorded = recordedIn f.instances e.assignmentId) := by
  obtain ⟨labels, hupdate, hbase⟩ := evaluate_eq_update h he he' hid
  have hkey : (e.relabel labels).key = e.key := rfl
  have haid : (e.relabel labels).assignmentId = e.assignmentId := rfl
  rw [Findings.outcome, hupdate, hbase, Findings.update, updateEntity, haid]
  rw [hbase] at hfinds
  by_cases hfresh : e.assignmentId ∈ f.fresh
  · rw [if_neg (not_not.2 hfresh), if_neg (not_not.2 hfresh), hkey]
    cases htier : effectiveTier f.results e.key with
    | none =>
      have hquiet : ¬∃ row, Matched answers keys e row ∧
          (e.relabel labels).recorded ≠ some row.hash := by
        rintro ⟨row, hrow, hne⟩
        have := effectiveTier_of_matched hfinds hrow hne
        rw [htier] at this
        cases this
      have houtcome : (if (none : Option (String × FireData)).isSome = true then some true
          else if f.hasHealthy then
            if e.key ∈ f.healthy.keys ∧ e.state = .firing then some false else none
          else some false) ≠ some true := by
        rw [if_neg (by simp)]
        split
        · split <;> simp
        · simp
      refine ⟨⟨fun hfires => absurd hfires houtcome, fun hrow => absurd hrow.2 hquiet⟩,
        fun hfires => absurd hfires houtcome, fun _ => ?_⟩
      exact recorded_clearEntity ..
    | some tier =>
      obtain ⟨row, hrow, hne, hdata⟩ := matched_of_effectiveTier hfinds htier
      refine ⟨⟨fun _ => ⟨hfresh, row, hrow, hne⟩, fun _ => rfl⟩,
        fun _ => ⟨row, hrow, hne, ?_⟩, fun hnot => absurd rfl hnot⟩
      dsimp only
      rw [hdata]
      exact recorded_fireEntity ..
  · rw [if_pos hfresh, if_pos hfresh]
    exact ⟨⟨(fun h => by cases h), fun hand => absurd hand.1 hfresh⟩, (fun h => by cases h),
      fun _ => rfl⟩

/-! ### Once per change -/

/-- One hash is observed for a device's key, and no device's id has the separator of keys in
it. -/
structure Observed (rows : List Row) : Prop where
  device : ∀ row ∈ rows, '|' ∉ (row.text "device_id").toList
  hash : ∀ row ∈ rows, ∀ row' ∈ rows, row.text "device_id" = row'.text "device_id" →
    row.text "config_key" = row'.text "config_key" → row.hash = row'.hash

variable {row : Row} {row' : Row}

theorem configKey_inj (hd : '|' ∉ (row.text "device_id").toList)
    (hd' : '|' ∉ (row'.text "device_id").toList) (h : row.configKey = row'.configKey) :
    row.text "device_id" = row'.text "device_id" ∧
      row.text "config_key" = row'.text "config_key" := by
  have hcut : ∀ x y : List Char, '|' ∉ x →
      (x ++ '|' :: y).takeWhile (· ≠ '|') = x ∧ (x ++ '|' :: y).dropWhile (· ≠ '|') = '|' :: y := by
    intro x y hx
    have hall : ∀ c ∈ x, decide (c ≠ '|') = true := fun c hc => by
      simpa using fun heq : c = '|' => hx (heq ▸ hc)
    rw [takeWhile_append_of_pos hall, dropWhile_append_of_pos hall]
    simp
  have hlists : (row.text "device_id").toList ++ '|' :: (row.text "config_key").toList =
      (row'.text "device_id").toList ++ '|' :: (row'.text "config_key").toList := by
    have := congrArg String.toList h
    simpa [Row.configKey] using this
  obtain ⟨hx, hy⟩ := hcut _ (row.text "config_key").toList hd
  obtain ⟨hx', hy'⟩ := hcut _ (row'.text "config_key").toList hd'
  rw [hlists] at hx hy
  refine ⟨String.toList_inj.1 (hx.symm.trans hx'), String.toList_inj.1 ?_⟩
  exact (List.cons.inj (hy.symm.trans hy')).2

/-- **What an evaluation should do with an entity**: it fires when a row about its own device
differs from what it remembers, it then remembers the hash of such rows, and no other row
changes what it remembers. -/
structure FiresOncePerChange (answers : ConfigAnswers) (fresh fires : Prop)
    (e e' : AlertEntity) : Prop where
  fires_iff : fires ↔ fresh ∧ ∃ prev ∈ e.recorded, ∃ row ∈ answers.fireRows, e.Owns row ∧
    prev ≠ row.hash
  records : fresh → ∀ row ∈ answers.fireRows, e.Owns row → e'.recorded = some row.hash
  keeps : e'.recorded = e.recorded ∨ ∃ row ∈ answers.rows, e.Owns row ∧ e'.recorded = some row.hash

/-- **The entity is given its own rows, as far as they matter**: the first row it is given
shows the hash of one of its own, if it remembers none; a row of its own that differs from
its baseline is matched to it by some tier; and the rows matched to it that differ are its
own. -/
structure Heeds (answers : ConfigAnswers) (keys : List (Uuid × String)) (fresh : Prop)
    (e : AlertEntity) : Prop where
  first : e.recorded = none → ∀ hash ∈ firstHash keys e.assignmentId answers.rows,
    ∃ row ∈ answers.rows, e.Owns row ∧ row.hash = hash
  own : fresh → ∀ row ∈ answers.fireRows, e.Owns row →
    e.baseline keys answers.rows ≠ some row.hash →
      ∃ row' ∈ answers.fireRows, Matched answers keys e row'
  other : fresh → ∀ row ∈ answers.fireRows, Matched answers keys e row →
    e.baseline keys answers.rows ≠ some row.hash → e.Owns row

instance (rows : List Row) : Decidable (Observed rows) :=
  decidable_of_iff (_ ∧ _) ⟨fun h => ⟨h.1, h.2⟩, fun h => ⟨h.device, h.hash⟩⟩

instance (answers : ConfigAnswers) (keys : List (Uuid × String)) (fresh : Prop)
    [Decidable fresh] (e : AlertEntity) : Decidable (Heeds answers keys fresh e) :=
  decidable_of_iff (_ ∧ _ ∧ _) ⟨fun h => ⟨h.1, h.2.1, h.2.2⟩, fun h => ⟨h.first, h.own, h.other⟩⟩

/-- A matched row is among those of the tiers that raise the alert. -/
theorem Matched.mem (h : Matched answers keys e row) :
    row ∈ answers.fireRows ∧ row ∈ answers.rows ∧ e.entityKey ≠ "" := by
  obtain ⟨tier, htier, -, hrow, -, hk⟩ := h
  have hmem : row ∈ answers.fireRows := List.mem_flatMap.2 ⟨tier, htier, hrow⟩
  refine ⟨hmem, mem_append_left _ hmem, fun hempty => ?_⟩
  have := congrArg String.toList (hk.trans hempty)
  simp [Row.configKey] at this

variable {rows : List Row}

theorem Observed.hash_eq (h : Observed rows)
    (hkey : e.entityKey ≠ "") (hrow : row ∈ rows) (hrow' : row' ∈ rows)
    (howns : e.Owns row) (howns' : e.Owns row') : row.hash = row'.hash := by
  have heq : row.configKey = row'.configKey :=
    (howns.2.resolve_left hkey).symm.trans (howns'.2.resolve_left hkey)
  obtain ⟨hdevice, hconfig⟩ := configKey_inj (h.device row hrow) (h.device row' hrow') heq
  exact h.hash row hrow row' hrow' hdevice hconfig

theorem Observed.owns (h : Observed rows)
    (hrow : row ∈ rows) (hrow' : row' ∈ rows) (hkey : e.entityKey ≠ "")
    (hk : row'.configKey = e.entityKey) (howns : e.Owns row) : e.Owns row' := by
  have heq : row.configKey = row'.configKey := (howns.2.resolve_left hkey).symm.trans hk.symm
  obtain ⟨hdevice, -⟩ := configKey_inj (h.device row hrow) (h.device row' hrow') heq
  exact ⟨howns.1.trans (congrArg some hdevice), .inr hk.symm⟩

section Entity

variable {answers : ConfigAnswers} {keys : List (Uuid × String)} {fresh fires : Prop}
  {e e' : AlertEntity}

theorem Heeds.baseline_eq (h : Heeds answers keys fresh e) :
    e.baseline keys answers.rows = e.recorded ∨ ∃ row ∈ answers.rows, e.Owns row ∧
      e.baseline keys answers.rows = some row.hash := by
  rw [AlertEntity.baseline]
  cases hrecorded : e.recorded with
  | some prev => exact .inl rfl
  | none =>
    rw [Option.none_or]
    cases hfirst : firstHash keys e.assignmentId answers.rows with
    | none => exact .inl rfl
    | some hash =>
      obtain ⟨row, hrow, howns, rfl⟩ := h.first hrecorded hash hfirst
      exact .inr ⟨row, hrow, howns, rfl⟩

theorem Heeds.firesOncePerChange (h : Heeds answers keys fresh e)
    (hobserved : Observed answers.rows)
    (hfires : fires ↔ fresh ∧ ∃ row, Matched answers keys e row ∧
      e.baseline keys answers.rows ≠ some row.hash)
    (hyes : fires → ∃ row, Matched answers keys e row ∧
      e.baseline keys answers.rows ≠ some row.hash ∧ e'.recorded = some row.hash)
    (hno : ¬fires → e'.recorded = e.baseline keys answers.rows) :
    FiresOncePerChange answers fresh fires e e' := by
  have hsame : ∀ {row row'}, Matched answers keys e row → e.Owns row → row' ∈ answers.rows →
      e.Owns row' → row.hash = row'.hash := fun hrow howns hrow' howns' =>
    hobserved.hash_eq hrow.mem.2.2 hrow.mem.2.1 hrow' howns howns'
  -- a row of its own that differs from its baseline makes the entity fire
  have hfire : fresh → ∀ row ∈ answers.fireRows, e.Owns row →
      e.baseline keys answers.rows ≠ some row.hash → fires := by
    intro hfresh row hrow howns hne
    obtain ⟨row', -, hrow'⟩ := h.own hfresh row hrow howns hne
    have hmem := mem_append_left answers.healthy hrow
    have howns' : e.Owns row' := hobserved.owns hmem hrow'.mem.2.1 hrow'.mem.2.2
      (by obtain ⟨_, _, _, _, _, hk⟩ := hrow'; exact hk) howns
    exact hfires.2 ⟨hfresh, row', hrow', hsame hrow' howns' hmem howns ▸ hne⟩
  refine ⟨⟨fun hf => ?_, ?_⟩, fun hfresh row hrow howns => ?_, ?_⟩
  · obtain ⟨hfresh, row, hrow, hne⟩ := hfires.1 hf
    have howns := h.other hfresh row hrow.mem.1 hrow hne
    refine ⟨hfresh, ?_⟩
    rcases h.baseline_eq with hbase | ⟨row', hrow', howns', hbase⟩
    · cases hrecorded : e.recorded with
      | some prev =>
        refine ⟨prev, rfl, row, hrow.mem.1, howns, fun heq => hne ?_⟩
        rw [hbase, hrecorded, heq]
      | none =>
        obtain ⟨tier, htier, hrank, hmem, hg, hk⟩ := hrow
        have hfirst : (firstHash keys e.assignmentId answers.rows).isSome := by
          rw [firstHash, Option.isSome_map, find?_isSome]
          exact ⟨row, (Matched.mem ⟨tier, htier, hrank, hmem, hg, hk⟩).2.1, by simpa using hg⟩
        rw [AlertEntity.baseline, hrecorded, Option.none_or] at hbase
        rw [hbase] at hfirst
        cases hfirst
    · exact absurd (hbase.trans (congrArg some (hsame hrow howns hrow' howns').symm)) hne
  · rintro ⟨hfresh, prev, hprev, row, hrow, howns, hne⟩
    refine hfire hfresh row hrow howns fun heq => hne ?_
    rw [AlertEntity.baseline, Option.mem_def.1 hprev, Option.some_or] at heq
    exact Option.some.inj heq
  · by_cases hf : fires
    · obtain ⟨row', hrow', hne, hrecorded⟩ := hyes hf
      rw [hrecorded, hsame hrow' (h.other hfresh row' hrow'.mem.1 hrow' hne)
        (mem_append_left _ hrow) howns]
    · rw [hno hf]
      exact not_not.1 fun hne => hf (hfire hfresh row hrow howns hne)
  · by_cases hf : fires
    · obtain ⟨row, hrow, hne, hrecorded⟩ := hyes hf
      exact .inr ⟨row, hrow.mem.2.1, h.other (hfires.1 hf).1 row hrow.mem.1 hrow hne, hrecorded⟩
    · rw [hno hf]
      exact h.baseline_eq

theorem FiresOncePerChange.heeds (h : FiresOncePerChange answers fresh fires e e')
    (hobserved : Observed answers.rows)
    (hfires : fires ↔ fresh ∧ ∃ row, Matched answers keys e row ∧
      e.baseline keys answers.rows ≠ some row.hash)
    (hno : ¬fires → e'.recorded = e.baseline keys answers.rows) : Heeds answers keys fresh e := by
  refine ⟨fun hnone hash hhash => ?_, fun hfresh row hrow howns hne => ?_,
    fun hfresh row _ hrow hne => ?_⟩
  · have hf : ¬fires := fun hf => by
      obtain ⟨-, prev, hprev, -⟩ := h.fires_iff.1 hf
      rw [hnone] at hprev
      cases hprev
    have hbase : e.baseline keys answers.rows = some hash := by
      rw [AlertEntity.baseline, hnone, Option.none_or]
      exact hhash
    rcases h.keeps with hkept | ⟨row, hrow, howns, hrecorded⟩
    · rw [hno hf, hbase, hnone] at hkept
      cases hkept
    · rw [hno hf, hbase] at hrecorded
      exact ⟨row, hrow, howns, (Option.some.inj hrecorded).symm⟩
  · have hf : fires := by
      by_contra hf
      exact hne ((hno hf).symm.trans (h.records hfresh row hrow howns))
    obtain ⟨-, row', hrow', -⟩ := hfires.1 hf
    exact ⟨row', hrow'.mem.1, hrow'⟩
  · obtain ⟨-, -, -, row', hrow', howns', -⟩ := h.fires_iff.1 (hfires.2 ⟨hfresh, row, hrow, hne⟩)
    exact hobserved.owns (mem_append_left _ hrow') hrow.mem.2.1 hrow.mem.2.2
      (by obtain ⟨_, _, _, _, _, hk⟩ := hrow; exact hk) howns'

end Entity

/-! ### Runs -/

def evaluateCycle (table : String) (defn : AlertDefinition) (entities : Entities) (c : Cycle) :
    Entities :=
  entities.evaluate ⟨table, defn, c, true⟩

/-- The assignments with new data. -/
def Entities.fresh (table : String) (entities : Entities) (c : Cycle) : List Uuid :=
  freshAssignments c.clickHouse table entities.enabled true

/-- The evaluation decides to raise the alert for an entity. -/
def Entities.Fires (table : String) (defn : AlertDefinition) (entities : Entities) (c : Cycle)
    (e : AlertEntity) : Prop :=
  (findings table defn entities.enabled c).bind (fun f => f.outcome e) = some true

/-- An evaluation fires once per change for every entity the engine loads. -/
def CorrectCycle (table : String) (defn : AlertDefinition) (compiled : CompiledDefinition)
    (entities : Entities) (c : Cycle) : Prop :=
  ∀ e ∈ entities.enabled, ∀ e' ∈ (evaluateCycle table defn entities c).rows,
    e'.assignmentId = e.assignmentId →
    FiresOncePerChange (configAnswers compiled c.clickHouse entities.enabled)
      (e.assignmentId ∈ entities.fresh table c) (entities.Fires table defn c e) e e'

/-- An evaluation gives every entity the engine loads its own rows, as far as they matter. -/
def HeedingCycle (table : String) (compiled : CompiledDefinition) (entities : Entities)
    (c : Cycle) : Prop :=
  ∀ e ∈ entities.enabled, Heeds (configAnswers compiled c.clickHouse entities.enabled)
      (entities.enabled.map AlertEntity.key) (e.assignmentId ∈ entities.fresh table c) e

/-- What an evaluation's queries show is one hash for each device and key. -/
def ObservedCycle (compiled : CompiledDefinition) (entities : Entities) (c : Cycle) : Prop :=
  Observed (configAnswers compiled c.clickHouse entities.enabled).rows

instance (table : String) (compiled : CompiledDefinition) (entities : Entities) (c : Cycle) :
    Decidable (HeedingCycle table compiled entities c) := by
  rw [HeedingCycle]
  infer_instance

instance (compiled : CompiledDefinition) (entities : Entities) (c : Cycle) :
    Decidable (ObservedCycle compiled entities c) := by
  rw [ObservedCycle]
  infer_instance

theorem findings_of_configChanged (hcompile : compileDefinition table defn = some compiled)
    (hchanged : compiled.isConfigChanged = true)
    (hne : instances ≠ []) (c : Cycle) : ∃ f, findings table defn instances c = some f := by
  have htiers : compiled.tiers ≠ [] := by
    rintro hnil
    rw [CompiledDefinition.isConfigChanged, hnil] at hchanged
    cases hchanged
  have hok : ∀ (tiers : List (String × CompiledQuery)) (i : ℕ) (instances : List AlertEntity),
      ∃ r, evaluateTiers c.clickHouse true c.thresholdVars i tiers instances = .ok r := by
    intro tiers
    induction tiers with
    | nil => exact fun i instances => ⟨_, rfl⟩
    | cons tier tiers ih =>
      intro i instances
      rw [evaluateTiers, evaluateTier_configChanged]
      obtain ⟨r, hr⟩ := ih (i + 1) ((changedRows c.clickHouse (.tier i) tier.2
        instances).foldl configChangedRow ([], instances)).2
      refine ⟨_, StateExcept.bind_eq_ok.2 ⟨_, rfl, StateExcept.bind_eq_ok.2 ⟨r, hr, rfl⟩⟩⟩
  obtain ⟨r, hr⟩ := hok compiled.tiers 0 instances
  rw [findings, hcompile, Option.bind_some, if_neg (not_or.2 ⟨htiers, hne⟩), compiledFindings,
    hchanged, hr]
  exact ⟨_, rfl⟩

/-- **One evaluation**: it fires once per change iff it gives the entities their own rows. -/
theorem correctCycle_iff (hcompile : compileDefinition table defn = some compiled)
    (hchanged : compiled.isConfigChanged = true) {c : Cycle}
    (hobserved : ObservedCycle compiled entities c) :
    CorrectCycle table defn compiled entities c ↔ HeedingCycle table compiled entities c := by
  have hnodup : (entities.enabled.map AlertEntity.assignmentId).Nodup :=
    entities.assignments_nodup.sublist (List.filter_sublist.map _)
  refine forall₂_congr fun e he => ?_
  obtain ⟨f, hf⟩ := findings_of_configChanged hcompile hchanged (List.ne_nil_of_mem he) c
  obtain ⟨hbase, hfinds, hfresh⟩ := tiers_find hcompile hchanged hnodup hf e.assignmentId
  have hrecorded : recordedIn entities.enabled e.assignmentId = e.recorded := by
    rw [recordedIn]
    cases hfind : entities.enabled.find? (·.assignmentId = e.assignmentId) with
    | none => simpa using List.find?_eq_none.1 hfind e he
    | some x =>
      have hid : x.assignmentId = e.assignmentId := by simpa using find?_some hfind
      rw [inj_on_of_nodup_map hnodup (mem_of_find?_eq_some hfind) he hid]
      rfl
  rw [hrecorded] at hbase
  have hcycle : ∀ e' ∈ (evaluateCycle table defn entities c).rows,
      e'.assignmentId = e.assignmentId → _ := fun e' he' hid =>
    evaluate_entity (a := ⟨table, defn, c, true⟩) hf he he' hid hfinds
  have hfires : entities.Fires table defn c e ↔ f.outcome e = some true := by
    rw [Entities.Fires, hf, Option.bind_some]
  rw [hbase, hfresh] at hcycle
  refine ⟨fun h => ?_, fun h e' he' hid => ?_⟩
  · obtain ⟨g, hrows, hg⟩ := evaluateDefinitionIsolated_entities table defn entities c
    have hrow := (List.mem_filter.1 he).1
    have he' : g e ∈ (evaluateCycle table defn entities c).rows := by
      change g e ∈ (evaluateDefinitionIsolated table defn entities c).1
      rw [hrows]
      exact mem_map_of_mem hrow
    obtain ⟨hiff, -, hno⟩ := hcycle (g e) he' (hg e hrow).assignmentId
    exact (h (g e) he' (hg e hrow).assignmentId).heeds hobserved (hfires.trans hiff)
      fun hnot => hno fun hf => hnot (hfires.2 hf)
  · obtain ⟨hiff, hyes, hno⟩ := hcycle e' he' hid
    exact h.firesOncePerChange hobserved (hfires.trans hiff) (fun hf => hyes (hfires.1 hf))
      fun hnot => hno fun hf => hnot (hfires.2 hf)

/-- **The evaluations of a run fire once per change** exactly when each of them gives the
entities their own rows. -/
theorem firesOncePerChange_throughout_iff {table : String} {defn : AlertDefinition}
    {compiled : CompiledDefinition} (hcompile : compileDefinition table defn = some compiled)
    (hchanged : compiled.isConfigChanged = true) {entities : Entities} {cycles : List Cycle}
    (hobserved : Throughout (evaluateCycle table defn) (ObservedCycle compiled) entities cycles) :
    Throughout (evaluateCycle table defn) (CorrectCycle table defn compiled) entities cycles ↔
      Throughout (evaluateCycle table defn) (HeedingCycle table compiled) entities cycles :=
  throughout_congr (fun _ _ hobserved => correctCycle_iff hcompile hchanged hobserved) hobserved

/-- A definition for changes of the software version. -/
def versionDefinition : AlertDefinition where
  tiers := [⟨"warning", some "version CHANGED"⟩]
  window := "5m"

/-- Its only query. -/
def versionQuery : CompiledQuery where
  sql := .empty
  params := []
  thresholdParams := []
  isConfigChanged := true
  configChangedKey := some "version"

/-- An evaluation in which each device shows the hash of its version. -/
def versionCycle (now : Timestamp) (hashes : List (Uuid × String)) : Cycle where
  clickHouse := {
    freshness := fun request => some (request.assignmentIds.map fun aid => (aid, now))
    tier := fun _ _ => some (hashes.map fun h =>
      { texts := [("device_id", h.1), ("config_key", "version"), ("config_hash", h.2)] }) }
  thresholdVars := []
  now

theorem compileDefinition_version : compileDefinition "config" versionDefinition =
    some ⟨[("warning", versionQuery)], none⟩ := by
  decide +kernel

/-- Entities of two devices, each with the key of its device. -/
def keyedEntities : Entities where
  rows := [{ assignmentId := "a1", deviceId := some "d1", entityKey := "d1|version" },
    { assignmentId := "a2", deviceId := some "d2", entityKey := "d2|version" }]

/-- One device changes its version. -/
def versionCycles : List Cycle :=
  [versionCycle 10 [("d1", "x"), ("d2", "y")], versionCycle 20 [("d1", "z"), ("d2", "y")]]

theorem firesOncePerChange_keyedEntities : Throughout (evaluateCycle "config" versionDefinition)
      (CorrectCycle "config" versionDefinition ⟨[("warning", versionQuery)], none⟩)
      keyedEntities versionCycles :=
  (firesOncePerChange_throughout_iff compileDefinition_version rfl (by decide +kernel)).2
    (by decide +kernel)

/-- The same devices, with entities as the sync loops create them: the row of the second device
sets the baseline of nothing, and the change of the first fires under a key that no entity
has. -/
theorem not_firesOncePerChange_newEntities :
    let entities : Entities :=
      ⟨[newEntity true ⟨"a1", some "d1", true⟩, newEntity true ⟨"a2", some "d2", true⟩],
        by decide⟩
    Throughout (evaluateCycle "config" versionDefinition)
        (ObservedCycle ⟨[("warning", versionQuery)], none⟩) entities versionCycles ∧
      ¬Throughout (evaluateCycle "config" versionDefinition)
        (CorrectCycle "config" versionDefinition ⟨[("warning", versionQuery)], none⟩)
        entities versionCycles := by
  refine ⟨by decide +kernel, ?_⟩
  rw [throughout_congr
    (fun _ _ hobserved => correctCycle_iff compileDefinition_version rfl hobserved)
    (by decide +kernel)]
  decide +kernel

end MonCTL.Alerting
