import MonCTL.Lib.Dict

/-!
# Tables with a Key

A database table with a primary key: its rows in the order in which they were inserted, no two
of them with one key. The statements on a single row are given as functions, and each has a
lemma that says what is read afterwards.
-/

namespace MonCTL

open List

structure Table (K V : Type) where
  rows : Dict K V := []
  keys_nodup : rows.keys.Nodup := by exact List.nodup_nil

namespace Table

variable {K V : Type} [DecidableEq K]

/-- The row of a key. -/
def get? (t : Table K V) (k : K) : Option V := t.rows.get? k

omit [DecidableEq K] in
theorem keys_map_value (rows : Dict K V) (f : K × V → V) :
    (Dict.keys (rows.map fun row => (row.1, f row))) = rows.keys := by
  rw [Dict.keys, map_map]
  rfl

/-- A row is inserted, or the one with its key is updated. -/
def upsert (t : Table K V) (k : K) (new : V) (update : V → V) : Table K V where
  rows := t.rows.set k (((t.get? k).map update).getD new)
  keys_nodup := Dict.nodup_keys_set t.keys_nodup k _

/-- The row of a key is updated. -/
def modify (t : Table K V) (k : K) (update : V → V) : Table K V where
  rows := t.rows.map fun row => (row.1, if row.1 = k then update row.2 else row.2)
  keys_nodup := by
    rw [keys_map_value t.rows fun row => if row.1 = k then update row.2 else row.2]
    exact t.keys_nodup

def mapRows (t : Table K V) (update : K → V → V) : Table K V where
  rows := t.rows.map fun row => (row.1, update row.1 row.2)
  keys_nodup := by
    rw [keys_map_value t.rows fun row => update row.1 row.2]
    exact t.keys_nodup

/-- The row of a key is deleted. -/
def erase (t : Table K V) (k : K) : Table K V where
  rows := t.rows.filter fun row => row.1 ≠ k
  keys_nodup := t.keys_nodup.sublist (List.filter_sublist.map _)

variable {t : Table K V} {k : K}

/-- What is in the table can be read, and the other way round. -/
theorem mem_rows {v : V} : (k, v) ∈ t.rows ↔ t.get? k = some v := by
  constructor
  · exact Dict.lookup_eq_some_of_mem t.keys_nodup
  · exact Dict.mem_of_get?

theorem get?_empty (k : K) : ({} : Table K V).get? k = none := rfl

theorem get?_eq_none : t.get? k = none ↔ k ∉ t.rows.keys := by
  constructor
  · intro h hk
    obtain ⟨row, hrow, rfl⟩ := List.mem_map.1 hk
    rw [mem_rows.1 (show (row.1, row.2) ∈ t.rows from hrow)] at h
    cases h
  · intro h
    cases hget : t.get? k with
    | none => rfl
    | some v => exact absurd (mem_map_of_mem (mem_rows.2 hget)) h

/-- What is read after an upsert. -/
theorem get?_upsert (t : Table K V) (k k' : K) (new : V) (update : V → V) :
    (t.upsert k new update).get? k' =
      if k' = k then some (((t.get? k).map update).getD new) else t.get? k' :=
  Dict.lookup_set t.rows k k' _

theorem keys_modify (t : Table K V) (k : K) (update : V → V) :
    (t.modify k update).rows.keys = t.rows.keys :=
  keys_map_value t.rows fun row => if row.1 = k then update row.2 else row.2

/-- What is read after an update. -/
theorem get?_modify (t : Table K V) (k k' : K) (update : V → V) :
    (t.modify k update).get? k' = if k' = k then (t.get? k').map update else t.get? k' := by
  cases hget : t.get? k' with
  | none =>
    have hnone : (t.modify k update).get? k' = none := by
      rw [get?_eq_none, keys_modify]
      exact get?_eq_none.1 hget
    rw [hnone, Option.map_none, ite_self]
  | some v =>
    have hsome : (t.modify k update).get? k' = some (if k' = k then update v else v) :=
      mem_rows.1 (List.mem_map.2 ⟨(k', v), mem_rows.2 hget, rfl⟩)
    rw [hsome]
    split
    · rfl
    · rfl

omit [DecidableEq K] in
theorem keys_mapRows (t : Table K V) (update : K → V → V) :
    (t.mapRows update).rows.keys = t.rows.keys :=
  keys_map_value t.rows fun row => update row.1 row.2

/-- What is read after an update of every row. -/
theorem get?_mapRows (t : Table K V) (update : K → V → V) (k : K) :
    (t.mapRows update).get? k = (t.get? k).map (update k) := by
  cases hget : t.get? k with
  | none =>
    rw [Option.map_none, get?_eq_none, keys_mapRows]
    exact get?_eq_none.1 hget
  | some v => exact mem_rows.1 (List.mem_map.2 ⟨(k, v), mem_rows.2 hget, rfl⟩)

/-- What is read after a deletion. -/
theorem get?_erase (t : Table K V) (k k' : K) :
    (t.erase k).get? k' = if k' = k then none else t.get? k' := by
  split
  next hk =>
    rw [get?_eq_none]
    intro hmem
    obtain ⟨row, hrow, hid⟩ := List.mem_map.1 hmem
    have hne := (List.mem_filter.1 hrow).2
    rw [hid, hk] at hne
    simp at hne
  next hk =>
    cases hget : t.get? k' with
    | none =>
      rw [get?_eq_none]
      intro hmem
      obtain ⟨row, hrow, rfl⟩ := List.mem_map.1 hmem
      exact get?_eq_none.1 hget (mem_map_of_mem (mem_of_mem_filter hrow))
    | some v =>
      refine mem_rows.1 (List.mem_filter.2 ⟨mem_rows.2 hget, ?_⟩)
      simpa using hk

/-! ### Several rows -/

variable {W : Type}

/-- What is read after a series of steps, one for each row of another table, that write under the
key of the row. -/
theorem get?_foldl_rows {f : Table K V → K × W → Table K V} {g : K → W → Option V → Option V}
    (hf : ∀ t e k, (f t e).get? k = if k = e.1 then g e.1 e.2 (t.get? k) else t.get? k)
    (t : Table K V) (u : Table K W) (k : K) :
    (u.rows.foldl f t).get? k = ((u.get? k).map fun w => g k w (t.get? k)).getD (t.get? k) := by
  obtain ⟨rows, hnodup⟩ := u
  change _ = ((Dict.get? rows k).map fun w => g k w (t.get? k)).getD (t.get? k)
  induction rows generalizing t with
  | nil => rfl
  | cons e rows ih =>
    have hcons := List.nodup_cons.1 hnodup
    rw [foldl_cons, ih _ hcons.2, hf]
    by_cases hk : k = e.1
    · have hnone : Dict.get? rows k = none := by
        rw [Dict.get?, lookup_eq_none_iff]
        intro e' he'
        rw [hk, bne_iff_ne]
        exact fun heq => hcons.1 (heq ▸ mem_map_of_mem he')
      have hsome : Dict.get? (e :: rows) k = some e.2 := by
        rw [Dict.get?, lookup_cons, hk, beq_self_eq_true]
      rw [hnone, hsome, if_pos hk, ← hk]
      rfl
    · have hcons : Dict.get? (e :: rows) k = Dict.get? rows k := by
        rw [Dict.get?, lookup_cons, beq_false_of_ne hk]
        rfl
      rw [if_neg hk, hcons]

/-- What is read after rows have been added for keys that have none. -/
theorem get?_foldl_upsert (new : K → V) (keys : List K) (t : Table K V) (k : K) :
    (keys.foldl (fun t key => t.upsert key (new key) id) t).get? k =
      if k ∈ keys then some ((t.get? k).getD (new k)) else t.get? k := by
  induction keys generalizing t with
  | nil => rfl
  | cons key keys ih =>
    rw [foldl_cons, ih, get?_upsert, Option.map_id]
    by_cases hk : k = key
    · have hmem : k ∈ key :: keys := by
        rw [hk]
        exact mem_cons_self
      rw [if_pos hk, if_pos hmem, Option.getD_some, ite_self, hk]
      rfl
    · have hmem : k ∈ key :: keys ↔ k ∈ keys := by
        rw [mem_cons, or_iff_right hk]
      rw [if_neg hk]
      exact (if_congr hmem rfl rfl).symm

/-- What is made of the rows, of which some go. -/
def filterMapRows (t : Table K V) (f : K → V → Option W) : Table K W where
  rows := t.rows.filterMap fun row => (f row.1 row.2).map fun w => (row.1, w)
  keys_nodup := by
    refine t.keys_nodup.sublist ?_
    rw [Dict.keys, Dict.keys, map_filterMap]
    induction t.rows with
    | nil => exact List.Sublist.slnil
    | cons row rows ih =>
      rw [filterMap_cons, map_cons, Option.map_map]
      cases f row.1 row.2 with
      | none => exact ih.cons _
      | some w => exact ih.cons_cons _

theorem get?_filterMapRows (t : Table K V) (f : K → V → Option W) (k : K) :
    (t.filterMapRows f).get? k = (t.get? k).bind (f k) := by
  cases hf : (t.get? k).bind (f k) with
  | none =>
    rw [get?_eq_none]
    intro hmem
    obtain ⟨e, he, rfl⟩ := List.mem_map.1 hmem
    obtain ⟨row, hrow, he⟩ := List.mem_filterMap.1 he
    obtain ⟨w, hw, rfl⟩ := Option.map_eq_some_iff.1 he
    rw [mem_rows.1 (show (row.1, row.2) ∈ t.rows from hrow), Option.bind_some, hw] at hf
    cases hf
  | some w =>
    obtain ⟨v, hv, hw⟩ := Option.bind_eq_some_iff.1 hf
    refine mem_rows.1 (List.mem_filterMap.2 ⟨(k, v), mem_rows.2 hv, ?_⟩)
    rw [hw]
    rfl

theorem filter_filterMap_rows (t : Table K V) (f : K → V → Option W) (k : K) :
    (t.rows.filterMap fun row => (f row.1 row.2).map fun w => (row.1, w)).filter (·.1 = k) =
      (((t.get? k).bind (f k)).map fun w => (k, w)).toList := by
  obtain ⟨rows, hnodup⟩ := t
  change _ = (((Dict.get? rows k).bind (f k)).map fun w => (k, w)).toList
  induction rows with
  | nil => rfl
  | cons row rows ih =>
    have hcons := List.nodup_cons.1 hnodup
    have ih := ih hcons.2
    rw [filterMap_cons]
    by_cases hk : k = row.1
    · have hnone : Dict.get? rows k = none := by
        rw [Dict.get?, lookup_eq_none_iff]
        intro e' he'
        rw [hk, bne_iff_ne]
        exact fun heq => hcons.1 (heq ▸ mem_map_of_mem he')
      have hsome : Dict.get? (row :: rows) k = some row.2 := by
        rw [Dict.get?, lookup_cons, hk, beq_self_eq_true]
      rw [hnone] at ih
      rw [hsome, Option.bind_some, hk]
      rw [hk] at ih
      cases hf : f row.1 row.2 with
      | none => exact ih
      | some w =>
        rw [Option.map_some, filter_cons_of_pos (by simp), ih]
        rfl
    · have hrest : Dict.get? (row :: rows) k = Dict.get? rows k := by
        rw [Dict.get?, lookup_cons, beq_false_of_ne hk]
        rfl
      rw [hrest, ← ih]
      cases f row.1 row.2 with
      | none => rfl
      | some w => rw [Option.map_some, filter_cons_of_neg (by simpa using Ne.symm hk)]

/-! ### New rows -/

/-- A row is inserted under a key that has none. -/
def insert (t : Table K V) (k : K) (v : V) (h : t.get? k = none) : Table K V where
  rows := t.rows ++ [(k, v)]
  keys_nodup := by
    rw [Dict.keys, map_append, nodup_append]
    refine ⟨t.keys_nodup, pairwise_singleton _ _, ?_⟩
    rintro k₁ hk₁ k₂ hk₂ rfl
    obtain rfl := List.mem_singleton.1 hk₂
    exact get?_eq_none.1 h hk₁

theorem get?_insert (t : Table K V) (h : t.get? k = none) (v : V) (k' : K) :
    (t.insert k v h).get? k' = if k' = k then some v else t.get? k' := by
  have hrows (w : V) : (t.insert k v h).get? k' = some w ↔ t.get? k' = some w ∨ k' = k ∧ w = v := by
    rw [← mem_rows, ← mem_rows, insert, mem_append, mem_singleton, Prod.mk.injEq]
  split
  next hk => exact (hrows v).2 (.inr ⟨hk, rfl⟩)
  next hk => exact Option.ext fun w => (hrows w).trans (or_iff_left fun h => hk h.1)

/-! ### Generated keys -/

/-- A key that no row has. -/
def fresh {V : Type} (t : Table ℕ V) : ℕ := t.rows.foldr (fun row next => max next (row.1 + 1)) 0

theorem lt_fresh {V : Type} {t : Table ℕ V} {k : ℕ} {v : V} (h : (k, v) ∈ t.rows) :
    k < t.fresh := by
  rw [fresh]
  revert h
  generalize t.rows = rows
  intro h
  induction rows with
  | nil => cases h
  | cons row rows ih =>
    rw [foldr_cons]
    rcases List.mem_cons.1 h with rfl | h
    · omega
    · have := ih h
      omega

/-- The next key is not in the table. -/
theorem get?_fresh {V : Type} (t : Table ℕ V) : t.get? t.fresh = none := by
  cases hget : t.get? t.fresh with
  | none => rfl
  | some v => exact absurd (lt_fresh (mem_rows.2 hget)) (Nat.lt_irrefl _)

/-- A row is inserted under a generated key. -/
def add {V : Type} (t : Table ℕ V) (v : V) : Table ℕ V := t.insert t.fresh v (get?_fresh t)

theorem get?_add {V : Type} (t : Table ℕ V) (v : V) (k : ℕ) :
    (t.add v).get? k = if k = t.fresh then some v else t.get? k :=
  get?_insert t (get?_fresh t) v k

end Table

end MonCTL
