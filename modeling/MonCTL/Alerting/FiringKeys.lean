import MonCTL.Alerting.InstanceSync

/-!
# Firing Keys and Entity Keys

A row of an answer summarises stored rows: those of one group, restricted to the
assignments of the definition's entities. The engine makes a key from the columns of the
row and looks an entity up under its assignment and its own key.

Entities have no key of their own, so a row has to name an assignment and nothing else.
Only the rows of tables that are grouped by assignment do.
-/

namespace MonCTL.Alerting

open List Dsl Option

/-! ### Answers -/

/-- A row of a ClickHouse table: its columns, as text. -/
abbrev StoredRow := String → String

/-- A row of an answer, with the stored rows it summarises. -/
structure AnswerRow where
  row : Row
  source : List StoredRow

/-- The assignments a request is restricted to. -/
def TierRequest.scope : TierRequest → List Uuid
  | .compiled assignmentIds _ _ => assignmentIds
  | .configChanged assignmentIds _ => assignmentIds

def TierRequest.groupColumns : TierRequest → List String
  | .compiled _ .empty _ => []
  | .compiled _ (.aggregate groupBy _ _ _ _ _ _) _ => groupBy
  | .compiled _ (.configLatest groupBy _ _) _ => groupBy ++ ["config_value"]
  | .configChanged _ _ => ["device_id", "config_key", "config_hash", "config_value"]

/-- The columns a request takes from any row of a group. -/
def TierRequest.labelColumns : TierRequest → List String
  | .compiled _ .empty _ => []
  | .compiled _ (.aggregate _ _ labels _ _ _ _) _ => labels
  | .compiled _ (.configLatest _ labels _) _ => labels
  | .configChanged _ _ => ["device_name"]

def TierRequest.HasSql : TierRequest → Prop
  | .compiled _ sql _ => sql ≠ .empty
  | .configChanged _ _ => True

/-- ClickHouse can return a row for a request: it shows the columns of a group of stored rows
in the scope of the request. -/
structure TierRequest.Returns (request : TierRequest) (a : AnswerRow) : Prop where
  hasSql : request.HasSql
  scope : ∀ d ∈ a.source, d "assignment_id" ∈ request.scope
  columns : a.row.texts.keys = request.groupColumns ++ request.labelColumns
  grouped : ∀ d ∈ a.source, ∀ column ∈ request.groupColumns, a.row.text column = d column

/-- A row says that a tier's condition holds on the data of an entity. A row about changed
configuration says so when the entity remembers another hash. -/
def Concerns (isConfigChanged : Bool) (e : AlertEntity) (a : AnswerRow) : Prop :=
  (∃ d ∈ a.source, d "assignment_id" = e.assignmentId) ∧
    (isConfigChanged = true → ∃ prev, e.entityLabels.lookup configHashLabel = some prev ∧
      prev ≠ a.row.text "config_hash")

/-- **The keys agree**: a row about an entity becomes the entity's key, and the entity is
found. -/
def KeysAgree (ch : ClickHouse) (isConfigChanged : Bool) (vars : Variables) (name : QueryName)
    (q : CompiledQuery) (instances : List AlertEntity) (answer : List AnswerRow) : Prop :=
  ∀ e ∈ instances, ∀ a ∈ answer, Concerns isConfigChanged e a →
    (isConfigChanged = false → rowKey a.row = e.key) ∧
      ∃ fk instances', evaluateTier ch isConfigChanged vars name q instances =
        .ok (fk, instances') ∧ e.key ∈ fk.keys

/-! ### Keys with two parts -/

theorem interpolated_ne_empty (x y : String) : s!"{x}|{y}" ≠ "" := by
  intro h
  simp only [String.append_eq_empty_iff] at h
  exact absurd h.1.2 (by decide)

theorem snd_ne_empty_of_configChanged {rows : List Row} {acc : Firing × List AlertEntity}
    (hacc : ∀ key ∈ acc.1.keys, key.2 ≠ "") :
    ∀ key ∈ (rows.foldl configChangedRow acc).1.keys, key.2 ≠ "" := by
  induction rows generalizing acc with
  | nil => exact hacc
  | cons row rows ih =>
    refine ih ?_
    unfold configChangedRow
    dsimp only
    split
    · exact hacc
    · split
      · split
        · intro key hkey
          rw [Dict.keys_set] at hkey
          split at hkey
          · exact hacc key hkey
          · rcases List.mem_append.1 hkey with hkey | hkey
            · exact hacc key hkey
            · rw [List.mem_singleton.1 hkey]
              exact interpolated_ne_empty _ _
        · exact hacc
      · exact hacc

variable {table : String}

theorem rowKey_snd_ne_empty {row : Row}
    (htable : tableGroupBy table ≠ ["assignment_id"]) {extra : List String} (hcolumns : row.texts.keys = tableGroupBy table ++ extra) :
    (rowKey row).2 ≠ "" := by
  have hmem : "component_type" ∈ row.texts.keys ∨ "interface_id" ∈ row.texts.keys ∨
      "config_key" ∈ row.texts.keys := by
    rw [hcolumns]
    unfold tableGroupBy at htable ⊢
    split_ifs at htable ⊢ <;> simp_all
  unfold rowKey
  dsimp only
  split_ifs with hinterface hcomponent hconfig
  · exact interpolated_ne_empty _ _
  · exact interpolated_ne_empty _ _
  · exact interpolated_ne_empty _ _
  · simp [hinterface, hcomponent, hconfig] at hmem

/-- **The key of a row grouped by assignment** is the key of the assignment's entity. -/
theorem rowKey_of_assignment {row : Row}
    (hcolumns : row.texts.keys = ["assignment_id"] ++ tableLabelColumns table) :
    rowKey row = (row.text "assignment_id", "") := by
  have hlabels : ∀ column ∈ tableLabelColumns table, column = "device_name" ∨ column = "if_name" := by
    unfold tableLabelColumns
    split_ifs <;> simp
  have hnot : ∀ column, column ≠ "assignment_id" → column ≠ "device_name" → column ≠ "if_name" →
      column ∉ row.texts.keys := by
    intro column h₁ h₂ h₃ hmem
    rw [hcolumns, mem_append, mem_singleton] at hmem
    exact (hmem.resolve_left h₁ |> hlabels column).elim h₂ h₃
  rw [rowKey, if_neg (hnot _ (by decide) (by decide) (by decide)),
    if_neg (hnot _ (by decide) (by decide) (by decide)),
    if_neg (hnot _ (by decide) (by decide) (by decide))]

/-! ### Compiled definitions -/

/-- The query of one of the tiers, or of the healthy one. -/
def CompiledDefinition.Runs (compiled : CompiledDefinition) (q : CompiledQuery) : Prop :=
  q ∈ compiled.tiers.map Prod.snd ∨ compiled.healthy = some q

variable {q : CompiledQuery}

theorem compileTier_runs {window : String} {compiled compiled' : CompiledDefinition}
    {tier : SeverityTier} (h : compileTier table window compiled tier = some compiled')
    (hq : compiled'.Runs q) : compiled.Runs q ∨ ∃ ast, compileToSql ast table window = .ok q := by
  unfold compileTier at h
  split at h
  · rw [← some.inj h] at hq
    exact .inl hq
  next e _ =>
    obtain ⟨q', hcompile, rfl⟩ := map_eq_some_iff.1 h
    have hast : ∃ ast, compileToSql ast table window = .ok q' := by
      unfold compileExpression at hcompile
      split at hcompile
      next ast _ =>
        cases hsql : compileToSql ast table window with
        | error e => rw [hsql] at hcompile; cases hcompile
        | ok q'' =>
          rw [hsql] at hcompile
          exact ⟨ast, hsql.trans (congrArg _ (some.inj hcompile))⟩
      · cases hcompile
    unfold CompiledDefinition.Runs at hq ⊢
    split_ifs at hq
    · rcases hq with hq | hq
      · exact .inl (.inl hq)
      · exact .inr (some.inj hq ▸ hast)
    · rcases hq with hq | hq
      · rw [map_append, mem_append, map_singleton, mem_singleton] at hq
        exact hq.elim (fun hq => .inl (.inl hq)) fun hq => .inr (hq ▸ hast)
      · exact .inl (.inr hq)

theorem exists_compileToSql_of_runs {defn : AlertDefinition}
    {compiled : CompiledDefinition} (h : compileDefinition table defn = some compiled)
    (hq : compiled.Runs q) : ∃ ast, compileToSql ast table defn.window = .ok q := by
  have hfold : ∀ (tiers : List SeverityTier) (acc : CompiledDefinition),
      tiers.foldlM (compileTier table defn.window) acc = some compiled →
      acc.Runs q ∨ ∃ ast, compileToSql ast table defn.window = .ok q := by
    intro tiers
    induction tiers with
    | nil => intro acc h; exact .inl (some.inj h ▸ hq)
    | cons tier tiers ih =>
      intro acc h
      rw [foldlM_cons] at h
      obtain ⟨acc', hstep, hrest⟩ := bind_eq_some_iff.1 h
      exact (ih acc' hrest).elim (compileTier_runs hstep) .inr
  exact (hfold defn.tiers _ h).resolve_left (by simp [CompiledDefinition.Runs])

theorem columns_of_compileToSql {ast : Ast} {window : String}
    (h : compileToSql ast table window = .ok q) {ids : List Uuid}
    {params : Dict String ParamValue} (hsql : q.sql ≠ .empty) :
    (∃ extra, (TierRequest.compiled ids q.sql params).groupColumns = tableGroupBy table ++ extra ∧
      (table ≠ "config" → extra = [])) ∧
      (TierRequest.compiled ids q.sql params).labelColumns = tableLabelColumns table := by
  by_cases hchanged : ∃ key, ast = .changed key
  · obtain ⟨key, rfl⟩ := hchanged
    rw [← Except.ok.inj h] at hsql
    exact absurd rfl hsql
  · obtain ⟨s, -, ⟨htable, parts, s', -, rfl⟩ | ⟨-, rfl⟩⟩ :=
      (compileToSql_eq_ok fun key h => hchanged ⟨key, h⟩).1 h
    · exact ⟨⟨["config_value"], rfl, fun h => absurd htable.1 h⟩, rfl⟩
    · exact ⟨⟨[], (append_nil _).symm, fun _ => rfl⟩, rfl⟩

/-! ### When the keys agree -/

/-- The answer to the query of a tier: ClickHouse gives it, and can give it. -/
structure Answered (ch : ClickHouse) (isConfigChanged : Bool) (vars : Variables)
    (name : QueryName) (q : CompiledQuery) (instances : List AlertEntity)
    (answer : List AnswerRow) : Prop where
  received : ch.tier name (tierRequest isConfigChanged vars instances q) =
    some (answer.map AnswerRow.row)
  returns : ∀ a ∈ answer, (tierRequest isConfigChanged vars instances q).Returns a

theorem rowKey_mem_of_answered {ch : ClickHouse} {vars : Variables} {name : QueryName}
    {instances : List AlertEntity} {answer : List AnswerRow}
    (h : Answered ch false vars name q instances answer) {a : AnswerRow} (ha : a ∈ answer) :
    ∃ fk instances', evaluateTier ch false vars name q instances = .ok (fk, instances') ∧
      rowKey a.row ∈ fk.keys := by
  have hanswer : ch.tier name (.compiled (assignmentIds instances) q.sql (resolveParams vars q)) =
      some (answer.map AnswerRow.row) := h.received
  refine ⟨Dict.setAll [] ((answer.map AnswerRow.row).map fun row =>
    (rowKey row, rowFireData q (resolveParams vars q) row)), instances, ?_, ?_⟩
  · rw [evaluateTier, if_neg Bool.false_ne_true, executeCompiledQuery, hanswer]
    rfl
  · rw [Dict.mem_keys_iff, Dict.lookup_setAll_isSome]
    refine .inl (List.mem_map.2 ⟨_, mem_map_of_mem (mem_map_of_mem ha), rfl⟩)

/-- **When the keys agree**: exactly when the definition runs its own queries on a table
grouped by assignment, or when no row says anything about an entity. -/
theorem keysAgree_iff {table : String} {defn : AlertDefinition} {compiled : CompiledDefinition}
    (hcompiled : compileDefinition table defn = some compiled) {entities : Entities}
    (hcreated : Created entities) {ch : ClickHouse} {vars : Variables} {name : QueryName}
    {q : CompiledQuery} (hq : compiled.Runs q) {answer : List AnswerRow}
    (hanswer : Answered ch compiled.isConfigChanged vars name q entities.enabled answer) :
    KeysAgree ch compiled.isConfigChanged vars name q entities.enabled answer ↔
      compiled.isConfigChanged = false ∧ tableGroupBy table = ["assignment_id"] ∨
        ∀ e ∈ entities.enabled, ∀ a ∈ answer, ¬Concerns compiled.isConfigChanged e a := by
  obtain ⟨ast, hast⟩ := exists_compileToSql_of_runs hcompiled hq
  have hkey : ∀ e ∈ entities.enabled, e.key = (e.assignmentId, "") := fun e he => by
    rw [AlertEntity.key, hcreated.entityKey e (List.mem_filter.1 he).1]
  cases hmode : compiled.isConfigChanged with
  | true =>
    rw [hmode] at hanswer
    simp only [Bool.true_eq_false, false_and, false_or]
    constructor
    · intro h e he a ha hconcerns
      obtain ⟨-, fk, instances', heval, hmem⟩ := h e he a ha hconcerns
      have hrequest : ch.tier name (.configChanged (assignmentIds entities.enabled)
          (q.configChangedKey.getD "")) = some (answer.map AnswerRow.row) := hanswer.received
      rw [evaluateTier, if_pos rfl, evaluateConfigChanged, hrequest] at heval
      have hfk := congrArg Prod.fst (Except.ok.inj heval)
      dsimp only at hfk
      rw [← hfk, hkey e he] at hmem
      exact snd_ne_empty_of_configChanged (by simp [Dict.keys]) _ hmem rfl
    · intro h e he a ha hconcerns
      exact absurd hconcerns (h e he a ha)
  | false =>
    rw [hmode] at hanswer
    simp only [true_and]
    have hcolumns : ∀ a ∈ answer, ∃ extra, (table ≠ "config" → extra = []) ∧
        (tierRequest false vars entities.enabled q).groupColumns = tableGroupBy table ++ extra ∧
        a.row.texts.keys = tableGroupBy table ++ extra ++ tableLabelColumns table := by
      intro a ha
      have hreturns := hanswer.returns a ha
      obtain ⟨⟨extra, hgroup, hextra⟩, hlabels⟩ := @columns_of_compileToSql _ _ _ _ hast
        (assignmentIds entities.enabled) (resolveParams vars q) hreturns.hasSql
      exact ⟨extra, hextra, hgroup, by rw [← hgroup, ← hlabels]; exact hreturns.columns⟩
    constructor
    · intro h
      by_contra hno
      rw [not_or] at hno
      obtain ⟨htable, hno⟩ := hno
      push Not at hno
      obtain ⟨e, he, a, ha, hconcerns⟩ := hno
      obtain ⟨extra, -, -, hkeys⟩ := hcolumns a ha
      rw [append_assoc] at hkeys
      have := (h e he a ha hconcerns).1 rfl
      rw [hkey e he] at this
      exact rowKey_snd_ne_empty htable hkeys (congrArg Prod.snd this)
    · rintro (htable | h) e he a ha hconcerns
      · obtain ⟨extra, hextra, hgroup, hkeys⟩ := hcolumns a ha
        have hconfig : table ≠ "config" := by
          rintro rfl
          exact absurd htable (by decide)
        rw [hextra hconfig, append_nil, htable] at hgroup hkeys
        obtain ⟨⟨d, hd, hid⟩, -⟩ := hconcerns
        have hrow : rowKey a.row = e.key := by
          rw [rowKey_of_assignment hkeys, hkey e he, ← hid,
            (hanswer.returns a ha).grouped d hd "assignment_id" (by simp [hgroup])]
        exact ⟨fun _ => hrow, hrow ▸ rowKey_mem_of_answered hanswer ha⟩
      · exact absurd hconcerns (h e he a ha)

/-! ### Two definitions -/

/-- The entity of an assignment of a device. -/
def syncedEntities : Entities :=
  syncInstancesForDefinition true [⟨"a1", some "d1", true⟩] ⟨[], nodup_nil⟩

/-- A row of the data of that assignment. -/
def storedRow : StoredRow := fun column =>
  if column = "assignment_id" then "a1"
  else if column = "device_id" then "d1"
  else if column = "component_type" then "cpu"
  else if column = "component" then "0"
  else ""

/-- ClickHouse when every query returns one row. -/
def oneRow (a : AnswerRow) : ClickHouse where
  freshness _ := none
  tier _ _ := some [a.row]

/-- An alert on the round trip time. -/
def latencyDefinition : AlertDefinition where
  tiers := [⟨"warning", some "avg(rtt_ms) > 100"⟩]
  window := "5m"

def latencyQuery : CompiledQuery where
  sql := .aggregate ["assignment_id"] [(.aggregate (.plain .avg (.column "rtt_ms")), 0)]
    ["device_name"] "availability_latency" "5m" [] [.placeholder 0 .gt "_threshold_0"]
  params := [("_threshold_0", .float 100)]
  thresholdParams := [⟨"rtt_ms_threshold", 100, "_threshold_0"⟩]
  metricAliases := [("rtt_ms", 0)]

/-- The row that says the round trips of the assignment take too long. -/
def latencyAnswer : AnswerRow where
  row := ⟨[("assignment_id", "a1"), ("device_name", "sw1")], [(0, some 120)]⟩
  source := [storedRow]

theorem answered_latencyAnswer :
    Answered (oneRow latencyAnswer) false [] (.tier 0) latencyQuery syncedEntities.enabled
      [latencyAnswer] where
  received := rfl
  returns := List.forall_mem_singleton.2
    ⟨(by decide : latencyQuery.sql ≠ .empty), by decide, by decide, by decide⟩

theorem latencyDefinition_keysAgree :
    KeysAgree (oneRow latencyAnswer) false [] (.tier 0) latencyQuery syncedEntities.enabled
      [latencyAnswer] := by
  have hcompiled : compileDefinition "availability_latency" latencyDefinition =
      some ⟨[("warning", latencyQuery)], none⟩ := by decide +kernel
  exact (keysAgree_iff hcompiled (.definitionStored true _ .empty) (.inl (by simp))
    answered_latencyAnswer).2 (.inl ⟨rfl, rfl⟩)

/-- An alert on the load of a processor. -/
def cpuDefinition : AlertDefinition where
  tiers := [⟨"warning", some "avg(cpu_pct) > 90"⟩]
  window := "5m"

def cpuQuery : CompiledQuery where
  sql := .aggregate ["device_id", "component_type", "component"]
    [(.aggregate (.plain .avg (.arrayElement "cpu_pct")), 0)] ["device_name"] "performance" "5m"
    ["cpu_pct"] [.placeholder 0 .gt "_threshold_0"]
  params := [("_threshold_0", .float 90)]
  thresholdParams := [⟨"cpu_pct_threshold", 90, "_threshold_0"⟩]
  metricAliases := [("cpu_pct", 0)]

/-- The row that says a processor of the assignment's device is busy. -/
def cpuAnswer : AnswerRow where
  row := ⟨[("device_id", "d1"), ("component_type", "cpu"), ("component", "0"),
    ("device_name", "sw1")], [(0, some 95)]⟩
  source := [storedRow]

theorem answered_cpuAnswer :
    Answered (oneRow cpuAnswer) false [] (.tier 0) cpuQuery syncedEntities.enabled
      [cpuAnswer] where
  received := rfl
  returns := List.forall_mem_singleton.2
    ⟨(by decide : cpuQuery.sql ≠ .empty), by decide, by decide, by decide⟩

/-- The router accepts the definition, and its only row becomes the key of no entity: the row
is about the entity of `a1`, whose key is `("a1", "")`, and becomes `("", "d1|cpu|0")`. -/
theorem cpuDefinition_not_keysAgree : acceptsTiers "performance" cpuDefinition.tiers = true ∧
      compileDefinition "performance" cpuDefinition = some ⟨[("warning", cpuQuery)], none⟩ ∧
      Created syncedEntities ∧
      Answered (oneRow cpuAnswer) false [] (.tier 0) cpuQuery syncedEntities.enabled [cpuAnswer] ∧
      ¬KeysAgree (oneRow cpuAnswer) false [] (.tier 0) cpuQuery syncedEntities.enabled
        [cpuAnswer] := by
  refine ⟨by decide +kernel, by decide +kernel, .definitionStored true _ .empty,
    answered_cpuAnswer, fun h => ?_⟩
  have hkey := (h _ (.head _) _ (.head _) ⟨⟨storedRow, .head _, rfl⟩, by simp⟩).1 rfl
  exact absurd hkey (by decide)

end MonCTL.Alerting
