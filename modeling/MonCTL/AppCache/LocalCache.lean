import Mathlib.Data.List.Sort
import MonCTL.Basic
import MonCTL.Lib.Json
import MonCTL.Lib.Table

/-!
# The Local App Cache

Apps keep values for the devices they poll in the cache of their collector. A row says when its
value was written and whether it is dirty, that is, not yet sent to central.

The time of a row is that of its writer. A select without an order may return its rows in any
order; the order is a parameter, a rank for each key.
-/

namespace MonCTL.AppCache

/-! ### The table -/

/-- The key of an entry. -/
structure CacheKey where
  appId : String
  deviceId : String
  cacheKey : String
  deriving DecidableEq

/-- A value, how long it lives and when it was written. -/
structure CacheEntry where
  value : Json
  ttlSeconds : Option ℤ
  updatedAt : Timestamp

/-- The time to live is over. -/
def CacheEntry.Expired (now : Timestamp) (e : CacheEntry) : Prop :=
  ∃ ttl ∈ e.ttlSeconds, e.updatedAt + ttl * 1000000 < now
  deriving Decidable

/-- A row of `app_cache`. -/
structure LocalRow extends CacheEntry where
  dirty : Bool

/-- `app_cache`. -/
abbrev LocalCache := Table CacheKey LocalRow

/-- The newer of two entries; the first, if they are from the same time. -/
def newer (old new : CacheEntry) : CacheEntry :=
  if old.updatedAt < new.updatedAt then new else old

/-! ### What an app can do -/

/-- `app_cache_set`. -/
def appCacheSet (k : CacheKey) (value : Json) (ttlSeconds : Option ℤ) (now : Timestamp)
    (cache : LocalCache) : LocalCache :=
  cache.upsert k ⟨⟨value, ttlSeconds, now⟩, true⟩ fun _ => ⟨⟨value, ttlSeconds, now⟩, true⟩

/-- `app_cache_get`. -/
def appCacheGet (k : CacheKey) (now : Timestamp) (cache : LocalCache) : Option Json × LocalCache :=
  match cache.get? k with
  | none => (none, cache)
  | some row => if row.Expired now then (none, cache.erase k) else (some row.value, cache)

/-- `app_cache_delete`. -/
def appCacheDelete (k : CacheKey) (cache : LocalCache) : LocalCache := cache.erase k

/-! ### What the sync loop does -/

/-- `app_cache_get_dirty`. -/
def appCacheGetDirty (rank : CacheKey → ℕ) (limit : ℕ) (cache : LocalCache) :
    List (CacheKey × CacheEntry) :=
  (((cache.rows.filter fun row => row.2.dirty).insertionSort fun row row' =>
    rank row.1 ≤ rank row'.1).take limit).map fun row => (row.1, row.2.toCacheEntry)

/-- One round of `app_cache_mark_clean`. -/
def markClean (k : CacheKey) (cache : LocalCache) : LocalCache :=
  cache.modify k fun row => { row with dirty := false }

/-- One round of `app_cache_upsert_from_central`: an entry that is newer replaces the row, which
stays dirty if it was. -/
def upsertFromCentral (e : CacheKey × CacheEntry) (cache : LocalCache) : LocalCache :=
  cache.upsert e.1 ⟨e.2, false⟩ fun row => { row with toCacheEntry := newer row.toCacheEntry e.2 }

/-! ### What is read afterwards -/

theorem get?_appCacheSet (k k' : CacheKey) (value : Json) (ttlSeconds : Option ℤ)
    (now : Timestamp) (cache : LocalCache) : (appCacheSet k value ttlSeconds now cache).get? k' =
      if k' = k then some ⟨⟨value, ttlSeconds, now⟩, true⟩ else cache.get? k' := by
  rw [appCacheSet, Table.get?_upsert]
  cases cache.get? k with
  | none => rfl
  | some row => rfl

theorem get?_markClean (k k' : CacheKey) (cache : LocalCache) :
    (markClean k cache).get? k' = if k' = k
      then (cache.get? k').map fun row => { row with dirty := false } else cache.get? k' :=
  Table.get?_modify ..

theorem get?_upsertFromCentral (e : CacheKey × CacheEntry) (k : CacheKey) (cache : LocalCache) :
    (upsertFromCentral e cache).get? k = if k = e.1
      then some (((cache.get? e.1).map fun row : LocalRow =>
        { row with toCacheEntry := newer row.toCacheEntry e.2 }).getD ⟨e.2, false⟩)
      else cache.get? k :=
  Table.get?_upsert ..

theorem get?_appCacheGet (k k' : CacheKey) (now : Timestamp) (cache : LocalCache) :
    (appCacheGet k now cache).2.get? k' = cache.get? k' ∨
      k' = k ∧ (appCacheGet k now cache).2.get? k' = none := by
  rw [appCacheGet]
  split
  · exact .inl rfl
  next row hrow =>
    split
    · dsimp only
      rw [Table.get?_erase]
      split
      next hk => exact .inr ⟨hk, rfl⟩
      · exact .inl rfl
    · exact .inl rfl

variable {cache : LocalCache} {e : CacheKey × CacheEntry}

theorem mem_appCacheGetDirty {rank : CacheKey → ℕ} {limit : ℕ}
    (h : e ∈ appCacheGetDirty rank limit cache) :
    ∃ row : LocalRow, cache.get? e.1 = some row ∧ row.dirty = true ∧ row.toCacheEntry = e.2 := by
  obtain ⟨row, hrow, rfl⟩ := List.mem_map.1 h
  obtain ⟨hmem, hdirty⟩ := List.mem_filter.1
    ((List.perm_insertionSort _ _).mem_iff.1 (List.mem_of_mem_take hrow))
  exact ⟨row.2, Table.mem_rows.1 hmem, hdirty, rfl⟩

/-! ### How old a row is -/

theorem newer_eq (old new : CacheEntry) : newer old new = new ∨ newer old new = old := by
  rw [newer]
  split
  · exact .inl rfl
  · exact .inr rfl

theorem le_newer_left (old new : CacheEntry) : old.updatedAt ≤ (newer old new).updatedAt := by
  rw [newer]
  split
  next h => exact h.le
  · exact le_refl _

theorem le_newer_right (old new : CacheEntry) : new.updatedAt ≤ (newer old new).updatedAt := by
  rw [newer]
  split
  · exact le_refl _
  next h => exact not_lt.1 h

/-- The row of a key is from a time or later. -/
def Has (cache : LocalCache) (k : CacheKey) (t : Timestamp) : Prop :=
  ∃ row ∈ cache.get? k, t ≤ row.updatedAt
  deriving Decidable

theorem has_upsertFromCentral_self (e : CacheKey × CacheEntry) (cache : LocalCache) :
    Has (upsertFromCentral e cache) e.1 e.2.updatedAt := by
  rw [Has, get?_upsertFromCentral, if_pos rfl]
  refine ⟨_, rfl, ?_⟩
  cases cache.get? e.1 with
  | none => exact le_refl _
  | some row => exact le_newer_right ..

variable {k : CacheKey} {t : Timestamp}

theorem has_upsertFromCentral (h : Has cache k t) : Has (upsertFromCentral e cache) k t := by
  obtain ⟨row, hrow, hle⟩ := h
  rw [Has, get?_upsertFromCentral]
  split
  next hk =>
    subst hk
    rw [hrow]
    exact ⟨_, rfl, hle.trans (le_newer_left ..)⟩
  · exact ⟨row, hrow, hle⟩

theorem has_markClean {k' : CacheKey} (h : Has cache k' t) : Has (markClean k cache) k' t := by
  obtain ⟨row, hrow, hle⟩ := h
  rw [Has, get?_markClean]
  split
  · rw [hrow]
    exact ⟨_, rfl, hle⟩
  · exact ⟨row, hrow, hle⟩

end MonCTL.AppCache
