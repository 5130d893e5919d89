import Mathlib.Data.List.Destutter
import Mathlib.Data.List.Sort
import MonCTL.Basic

/-!
# Deduplication of Configuration Rows

Each poll of a configuration app writes its values again, changed or not. Once an hour the
scheduler deletes rows: those of a key that are older than two hours, have the hash of the newest
row of the key, and are not the newest row. A row is compared with the newest one and not with
the one before it, so that what is deleted includes the rows at which the key came to its
present value.
-/

namespace MonCTL.CentralScheduler

open List

/-! ### The table -/

/-- What identifies a value: the sorting key of the table, without the time. -/
structure ConfigKey where
  deviceId : String
  componentType : String
  component : String
  configKey : String
  deriving DecidableEq

/-- A row of the table `config`. -/
structure ConfigRow where
  assignmentId : String
  appId : String
  appName : String
  key : ConfigKey
  configValue : String
  configHash : String
  executedAt : Timestamp
  deriving DecidableEq

/-- The table. The hash of a row is computed from its value when it is written. -/
@[ext]
structure ConfigTable where
  rows : List ConfigRow
  hash_of_value : ∀ r ∈ rows, ∀ r' ∈ rows, r.key = r'.key → r.configValue = r'.configValue →
    r.configHash = r'.configHash

/-- `argMax(…, executed_at)`: some row that is as new as any other. Which one it is among
several is not said. -/
structure ArgMax where
  pick : List ConfigRow → Option ConfigRow
  isSome : ∀ rows, rows ≠ [] → (pick rows).isSome
  mem : ∀ rows r, pick rows = some r → r ∈ rows
  newest : ∀ rows r, pick rows = some r → ∀ r' ∈ rows, r'.executedAt ≤ r.executedAt

/-! ### Deduplication -/

section Dedup

variable (argMax : ArgMax) (rows : List ConfigRow) (cutoff : Timestamp)

/-- The hash of the newest row of a key. -/
def latestHash (key : ConfigKey) : Option String :=
  (argMax.pick (rows.filter fun r => r.key = key)).map ConfigRow.configHash

/-- A row is as new as any other of its key. -/
def IsNewest (r : ConfigRow) : Prop := ∀ r' ∈ rows, r'.key = r.key → r'.executedAt ≤ r.executedAt
  deriving Decidable

/-- The rows of the subquery: they are old, have the hash of the newest row of their key, and are
not as new as it. -/
def Repeated (r : ConfigRow) : Prop :=
  r.executedAt < cutoff ∧ latestHash argMax rows r.key = some r.configHash ∧ ¬IsNewest rows r
  deriving Decidable

/-- The predicate of the deletion, which has the keys and times of these rows. -/
def Deleted (r : ConfigRow) : Prop :=
  r.executedAt < cutoff ∧ ∃ r' ∈ rows, Repeated argMax rows cutoff r' ∧ r'.key = r.key ∧
    r'.executedAt = r.executedAt
  deriving Decidable

end Dedup

/-- `_config_dedup`. -/
def ConfigTable.dedup (argMax : ArgMax) (cutoff : Timestamp) (t : ConfigTable) : ConfigTable where
  rows := t.rows.filter fun r => ¬Deleted argMax t.rows cutoff r
  hash_of_value := fun r hr r' hr' =>
    t.hash_of_value r (mem_of_mem_filter hr) r' (mem_of_mem_filter hr')

/-! ### Snapshots -/

/-- One row of `query_config_snapshot_at_time`. -/
structure SnapshotRow where
  configValue : String
  configHash : String
  resolvedAppName : String
  resolvedAppId : String
  latestTs : Timestamp

/-- `query_config_snapshot_at_time`, at one of the keys it groups by. -/
def ConfigTable.snapshotAt (argMax : ArgMax) (t : ConfigTable) (deviceId : String)
    (atTime : Timestamp) (appId : Option String) (componentType component configKey : String) :
    Option SnapshotRow :=
  (argMax.pick (t.rows.filter fun r => r.key = ⟨deviceId, componentType, component, configKey⟩ ∧
      r.executedAt ≤ atTime ∧ ∀ id ∈ appId, r.appId = id)).map fun r =>
    { configValue := r.configValue
      configHash := r.configHash
      resolvedAppName := r.appName
      resolvedAppId := r.appId
      latestTs := r.executedAt }

/-! ### History -/

/-- The rows of a key that an assignment has written, the oldest first. -/
def ConfigTable.history (t : ConfigTable) (assignmentId : String) (key : ConfigKey) :
    List ConfigRow :=
  (t.rows.filter fun r => r.assignmentId = assignmentId ∧ r.key = key).insertionSort fun r r' =>
    r.executedAt ≤ r'.executedAt

/-- The change points: the rows whose value is not that of the row before. -/
def changePoints (history : List ConfigRow) : List ConfigRow :=
  history.destutter fun r r' => r.configValue ≠ r'.configValue

/-- **The history is kept**: change points and latest values stay, only rows are removed that
repeat the value of the row before, and every snapshot has the values it had. -/
structure KeepsHistory (argMax : ArgMax) (before after : ConfigTable) : Prop where
  changePoints : ∀ assignmentId key,
    changePoints (after.history assignmentId key) = changePoints (before.history assignmentId key)
  latest : ∀ assignmentId key, (after.history assignmentId key).getLast?.map ConfigRow.configValue =
      (before.history assignmentId key).getLast?.map ConfigRow.configValue
  removed : ∀ assignmentId key i r, (before.history assignmentId key)[i]? = some r →
    r ∉ after.rows → ∃ i' r', i = i' + 1 ∧ (before.history assignmentId key)[i']? = some r' ∧
      r'.configValue = r.configValue
  snapshot : ∀ deviceId atTime appId componentType component configKey,
    (after.snapshotAt argMax deviceId atTime appId componentType component configKey).map
        SnapshotRow.configValue =
      (before.snapshotAt argMax deviceId atTime appId componentType component configKey).map
        SnapshotRow.configValue

section History

variable {argMax : ArgMax} {t : ConfigTable} {cutoff : Timestamp} {assignmentId : String}
  {key : ConfigKey} {r r' : ConfigRow}

theorem mem_history : r ∈ t.history assignmentId key ↔
    r ∈ t.rows ∧ r.assignmentId = assignmentId ∧ r.key = key := by
  rw [ConfigTable.history, mem_insertionSort, mem_filter, decide_eq_true_iff]

theorem history_pairwise (t : ConfigTable) (assignmentId : String) (key : ConfigKey) :
    (t.history assignmentId key).Pairwise fun r r' => r.executedAt ≤ r'.executedAt := by
  have : Std.Total fun r r' : ConfigRow => r.executedAt ≤ r'.executedAt :=
    ⟨fun r r' => Int.le_total r.executedAt r'.executedAt⟩
  have : IsTrans ConfigRow fun r r' => r.executedAt ≤ r'.executedAt :=
    ⟨fun _ _ _ h h' => Int.le_trans h h'⟩
  exact pairwise_insertionSort _ _

theorem notMem_dedup (hr : r ∈ t.rows) (h : Repeated argMax t.rows cutoff r) :
    r ∉ (t.dedup argMax cutoff).rows := by
  intro hmem
  have hnot := (List.mem_filter.1 hmem).2
  rw [decide_eq_true_iff] at hnot
  exact hnot ⟨h.1, r, hr, h, rfl, rfl⟩

theorem dedup_eq_self (h : ∀ r ∈ t.rows, ¬Repeated argMax t.rows cutoff r) :
    (t.dedup argMax cutoff).rows = t.rows := by
  refine List.filter_eq_self.2 fun r hr => ?_
  rw [decide_eq_true_iff]
  rintro ⟨-, r', hr', hrepeated, -⟩
  exact h r' hr' hrepeated

theorem Repeated.of_same_value (h : Repeated argMax t.rows cutoff r) (hr : r ∈ t.rows)
    (hr' : r' ∈ t.rows) (hkey : r'.key = r.key) (hvalue : r'.configValue = r.configValue)
    (hle : r'.executedAt ≤ r.executedAt) : Repeated argMax t.rows cutoff r' := by
  obtain ⟨hold, hhash, hnewest⟩ := h
  refine ⟨Int.lt_of_le_of_lt hle hold, ?_, fun hnew => hnewest fun r'' hr'' hk => ?_⟩
  · rw [hkey, t.hash_of_value r' hr' r hr hkey hvalue]
    exact hhash
  · exact Int.le_trans (hnew r'' hr'' (hk.trans hkey.symm)) hle

end History

/-- **The history is kept** iff no row is repeated: no row older than the cutoff, other than the
newest of its key, has the hash of the newest. -/
theorem keepsHistory_iff (argMax : ArgMax) (t : ConfigTable) (cutoff : Timestamp) :
    KeepsHistory argMax t (t.dedup argMax cutoff) ↔
      ∀ r ∈ t.rows, ¬Repeated argMax t.rows cutoff r := by
  constructor
  · intro hkeeps r hr hrepeated
    -- the first repeated row of the history has no predecessor with its value
    have hexists : ∃ i : ℕ, ∃ r', (t.history r.assignmentId r.key)[i]? = some r' ∧
        Repeated argMax t.rows cutoff r' := by
      obtain ⟨i, hi⟩ := getElem?_of_mem (mem_history.2 ⟨hr, rfl, rfl⟩)
      exact ⟨i, r, hi, hrepeated⟩
    classical
    obtain ⟨r₁, hget, hrepeated₁⟩ := Nat.find_spec hexists
    obtain ⟨hr₁, -, hkey₁⟩ := mem_history.1 (mem_of_getElem? hget)
    obtain ⟨i, r₀, hi, hget₀, hvalue⟩ := hkeeps.removed _ _ _ r₁ hget (notMem_dedup hr₁ hrepeated₁)
    obtain ⟨hr₀, -, hkey₀⟩ := mem_history.1 (mem_of_getElem? hget₀)
    have hle : r₀.executedAt ≤ r₁.executedAt := by
      obtain ⟨hlt, rfl⟩ := List.getElem?_eq_some_iff.1 hget
      obtain ⟨hlt₀, rfl⟩ := List.getElem?_eq_some_iff.1 hget₀
      exact List.pairwise_iff_getElem.1 (history_pairwise t _ _) _ _ hlt₀ hlt (by omega)
    have hrepeated₀ := hrepeated₁.of_same_value hr₁ hr₀ (hkey₀.trans hkey₁.symm) hvalue hle
    exact Nat.find_min hexists (m := i) (by omega) ⟨r₀, hget₀, hrepeated₀⟩
  · intro hnone
    rw [ConfigTable.ext (dedup_eq_self hnone)]
    refine ⟨fun _ _ => rfl, fun _ _ => rfl, fun assignmentId key i r hget hr => ?_,
      fun _ _ _ _ _ _ => rfl⟩
    exact absurd (mem_history.1 (mem_of_getElem? hget)).1 hr

/-! ### A value that comes back -/

def newestFirst (rows : List ConfigRow) : List ConfigRow :=
  rows.insertionSort fun r r' => r'.executedAt ≤ r.executedAt

/-- An `argMax`. -/
def argMaxFirst : ArgMax where
  pick := fun rows => (newestFirst rows).head?
  isSome := fun rows h => by
    rw [isSome_head?]
    intro hnil
    have hperm : (newestFirst rows).Perm rows := perm_insertionSort _ rows
    rw [hnil] at hperm
    exact h hperm.nil_eq.symm
  mem := fun rows r h => mem_insertionSort _ |>.1 (mem_of_mem_head? h)
  newest := fun rows r h r' hr' => by
    have : Std.Total fun r r' : ConfigRow => r'.executedAt ≤ r.executedAt :=
      ⟨fun r r' => Int.le_total r'.executedAt r.executedAt⟩
    have : IsTrans ConfigRow fun r r' => r'.executedAt ≤ r.executedAt :=
      ⟨fun _ _ _ h h' => Int.le_trans h' h⟩
    have hsorted : (newestFirst rows).Pairwise fun r r' => r'.executedAt ≤ r.executedAt :=
      pairwise_insertionSort _ rows
    have hmem : r' ∈ newestFirst rows := (mem_insertionSort _).2 hr'
    cases hrows : newestFirst rows with
    | nil =>
      rw [hrows] at hmem
      cases hmem
    | cons first rest =>
      rw [hrows] at h hmem hsorted
      cases h
      rcases List.mem_cons.1 hmem with rfl | hmem
      · exact Int.le_refl _
      · exact (List.pairwise_cons.1 hsorted).1 r' hmem

def versionRow (configValue : String) (executedAt : Timestamp) : ConfigRow where
  assignmentId := "a1"
  appId := "app1"
  appName := "snmp_inventory"
  key := ⟨"d1", "snmp_inventory", "", "version"⟩
  configValue
  configHash := configValue
  executedAt

/-- An upgrade that has been taken back. -/
def rolledBack : ConfigTable where
  rows := [versionRow "A" 0, versionRow "B" 1, versionRow "A" 2]
  hash_of_value := by decide

/-- The first row with the old value is gone, and with it a change point. -/
theorem not_keepsHistory_rolledBack :
    ¬∀ argMax t cutoff, KeepsHistory argMax t (t.dedup argMax cutoff) := by
  intro h
  have hpoints := (h argMaxFirst rolledBack 7200000).changePoints "a1" (versionRow "A" 0).key
  exact absurd hpoints (by decide +kernel)

/-! ### Current values -/

/-- A table after writes and deduplications, with all rows that have been written. -/
inductive ConfigTable.Kept (argMax : ArgMax) : List ConfigRow → ConfigTable → Prop
  | empty : Kept argMax [] ⟨[], nofun⟩
  | write {written : List ConfigRow} {t t' : ConfigTable} (r : ConfigRow) :
      Kept argMax written t → t'.rows = t.rows ++ [r] → Kept argMax (written ++ [r]) t'
  | dedup {written : List ConfigRow} {t : ConfigTable} (cutoff : Timestamp) :
      Kept argMax written t → Kept argMax written (t.dedup argMax cutoff)

/-- **Current values stay**: after any writes and deduplications the table has the newest row of
every key among all that have been written, and no row that has not been. -/
theorem ConfigTable.Kept.holds_newest {argMax : ArgMax} {written : List ConfigRow} {t : ConfigTable}
    (h : t.Kept argMax written) :
    t.rows ⊆ written ∧ ∀ r ∈ written, IsNewest written r → r ∈ t.rows := by
  induction h with
  | empty => exact ⟨Subset.refl _, nofun⟩
  | write r _ hrows ih =>
    obtain ⟨hsub, hnewest⟩ := ih
    rw [hrows]
    refine ⟨append_subset.2 ⟨fun r' hr' => mem_append_left _ (hsub hr'), by simp⟩,
      fun r' hr' hnew => ?_⟩
    rcases List.mem_append.1 hr' with hr' | hr'
    · exact mem_append_left _ (hnewest r' hr' fun r'' hr'' => hnew r'' (mem_append_left _ hr''))
    · exact mem_append_right _ hr'
  | dedup cutoff _ ih =>
    obtain ⟨hsub, hnewest⟩ := ih
    refine ⟨fun r hr => hsub (mem_of_mem_filter hr), fun r hr hnew =>
      List.mem_filter.2 ⟨hnewest r hr hnew, ?_⟩⟩
    rw [decide_eq_true_iff]
    rintro ⟨-, r', hr', hrepeated, hkey, htime⟩
    exact hrepeated.2.2 fun r'' hr'' hkey'' => htime ▸ hnew r'' (hsub hr'') (hkey''.trans hkey)

theorem holds_newest_rolledBack : ∃ t, ConfigTable.Kept argMaxFirst rolledBack.rows t ∧
    versionRow "A" 2 ∈ t.rows ∧ versionRow "A" 0 ∉ t.rows := by
  have hkept : ConfigTable.Kept argMaxFirst rolledBack.rows
      (rolledBack.dedup argMaxFirst 7200000) :=
    .dedup _ (.write (t := ⟨[versionRow "A" 0, versionRow "B" 1], by decide⟩) (versionRow "A" 2)
      (.write (t := ⟨[versionRow "A" 0], by decide⟩) (versionRow "B" 1)
        (.write (versionRow "A" 0) .empty rfl) rfl) rfl)
  exact ⟨_, hkept, hkept.holds_newest.2 _ (by decide) (by decide), by decide +kernel⟩

end MonCTL.CentralScheduler
