import MonCTL.AppCache.LocalCache
import MonCTL.Lib.Uuid

/-!
# The App Cache of Central

Central keeps the app cache of a collector group. Collectors push their dirty entries and pull
the entries that were updated after a time. They name an app by its name; central keeps its id.

A time and its ISO text are the same here, so that the time of an entry can always be read.
Which apps a collector may write, and that a collector has a group, are decided elsewhere.
-/

namespace MonCTL.AppCache

open List Option

/-! ### The tables of central -/

/-- The key of an entry, within the group. -/
structure CentralKey where
  appId : Uuid
  deviceId : Uuid
  cacheKey : String
  deriving DecidableEq

/-- `app_cache` of central. -/
abbrev CentralCache := Table CentralKey CacheEntry

/-- The apps, by name, and the devices. -/
structure Directory where
  apps : Dict String Uuid
  devices : List Uuid

/-- How the handler deals with one entry. -/
inductive Outcome
  | accepted
  | unknownApp
  | unauthorised
  | badDevice
  deriving DecidableEq

/-- The handler logs a warning. -/
def Outcome.reported : Outcome → Bool
  | .unknownApp => true
  | .unauthorised => true
  | _ => false

/-- The id of an app, given by its name or as it is. -/
def resolveApp (d : Directory) (appId : String) : Option Uuid :=
  (d.apps.get? appId).orElse fun _ => parseUuid appId

/-- The key of an entry at central, or why it is not accepted. -/
def resolveKey (d : Directory) (allowed : Option (List Uuid)) (k : CacheKey) :
    Except Outcome CentralKey :=
  match resolveApp d k.appId with
  | none => .error .unknownApp
  | some appId =>
    if ∃ ids ∈ allowed, appId ∉ ids then .error .unauthorised
    else
      match parseUuid k.deviceId with
      | none => .error .badDevice
      | some deviceId => .ok ⟨appId, deviceId, k.cacheKey⟩

/-- How the handler deals with an entry of a key. -/
def outcomeOf (d : Directory) (allowed : Option (List Uuid)) (k : CacheKey) : Outcome :=
  match resolveKey d allowed k with
  | .ok _ => .accepted
  | .error outcome => outcome

variable {allowed : Option (List Uuid)} {d : Directory}

theorem exists_of_outcomeOf {k : CacheKey}
    (h : outcomeOf d allowed k = .accepted) : ∃ k', resolveKey d allowed k = .ok k' := by
  rw [outcomeOf, resolveKey] at h
  rw [resolveKey]
  split at h
  next k' hk' => exact ⟨k', hk'⟩
  next outcome houtcome =>
    subst h
    split at houtcome
    · cases houtcome
    · split at houtcome
      · cases houtcome
      · split at houtcome <;> cases houtcome

/-- The key of an entry at the collectors; an app that has been deleted has none. -/
def localKey (d : Directory) (k : CentralKey) : Option CacheKey :=
  (d.apps.find? fun app => app.2 = k.appId).map fun app => ⟨app.1, k.deviceId, k.cacheKey⟩

/-! ### Pushing -/

/-- The app and the device of a new row have to be there. -/
def Directory.Knows (d : Directory) (k : CentralKey) : Prop :=
  (∃ app ∈ d.apps, app.2 = k.appId) ∧ k.deviceId ∈ d.devices
  deriving Decidable

/-- One round of the loop of the handler; a row without its app or device fails. -/
def pushEntry (d : Directory) (allowed : Option (List Uuid)) (central : CentralCache)
    (e : CacheKey × CacheEntry) : Option (Outcome × CentralCache) :=
  match resolveKey d allowed e.1 with
  | .error outcome => some (outcome, central)
  | .ok k =>
    if (central.get? k).isNone ∧ ¬d.Knows k then none
    else some (.accepted, central.upsert k e.2 fun row => newer row e.2)

/-- The loop of the handler. -/
def pushEntries (d : Directory) (allowed : Option (List Uuid)) :
    List (CacheKey × CacheEntry) → CentralCache → Option (List Outcome × CentralCache)
  | [], central => some ([], central)
  | e :: entries, central => do
      let (outcome, central) ← pushEntry d allowed central e
      let (outcomes, central) ← pushEntries d allowed entries central
      pure (outcome :: outcomes, central)

/-- The value is a dictionary. -/
def isDict : Json → Bool
  | .obj _ => true
  | _ => false

/-- `push_app_cache`: the outcomes, and the table afterwards. A request with a value that is no
dictionary is refused. -/
def pushAppCache (d : Directory) (allowed : Option (List Uuid))
    (entries : List (CacheKey × CacheEntry)) (central : CentralCache) :
    Option (List Outcome × CentralCache) :=
  if entries.all fun e => isDict e.2.value then pushEntries d allowed entries central else none

/-- The row of a key at central is from a time or later. -/
def HasCentral (central : CentralCache) (k : CentralKey) (t : Timestamp) : Prop :=
  ∃ row ∈ central.get? k, t ≤ row.updatedAt
  deriving Decidable

theorem get?_upsert_newer (central : CentralCache) (k k' : CentralKey) (e : CacheEntry) :
    (central.upsert k e fun row => newer row e).get? k' =
      if k' = k then some (((central.get? k).map fun row => newer row e).getD e)
      else central.get? k' :=
  Table.get?_upsert ..

/-- **What a push does to the table**, for some of its entries. -/
structure Pushed (d : Directory) (allowed : Option (List Uuid))
    (entries : List (CacheKey × CacheEntry)) (central central' : CentralCache) : Prop where
  /-- No row becomes older. -/
  keeps : ∀ {k t}, HasCentral central k t → HasCentral central' k t
  /-- An accepted entry is there, or a newer one. -/
  stores : ∀ e ∈ entries, ∀ k, resolveKey d allowed e.1 = .ok k →
    HasCentral central' k e.2.updatedAt
  /-- A new row is an accepted entry that is newer than the row before. -/
  changes : ∀ {k row}, central'.get? k = some row → central.get? k = some row ∨
    ∃ e ∈ entries, resolveKey d allowed e.1 = .ok k ∧ e.2 = row ∧
      ¬HasCentral central k row.updatedAt

theorem Pushed.refl (d : Directory) (allowed : Option (List Uuid)) (central : CentralCache) :
    Pushed d allowed [] central central :=
  ⟨id, by simp, .inl⟩

variable {entries : List (CacheKey × CacheEntry)} {c c' : CentralCache}

theorem Pushed.append {entries' : List (CacheKey × CacheEntry)} {c'' : CentralCache}
    (h : Pushed d allowed entries c c') (h' : Pushed d allowed entries' c' c'') :
    Pushed d allowed (entries ++ entries') c c'' where
  keeps := fun hhas => h'.keeps (h.keeps hhas)
  stores := fun e he k hk => by
    rcases List.mem_append.1 he with he | he
    · exact h'.keeps (h.stores e he k hk)
    · exact h'.stores e he k hk
  changes := fun hrow => by
    rcases h'.changes hrow with hrow | ⟨e, he, hk, rfl, hold⟩
    · rcases h.changes hrow with hrow | ⟨e, he, hk, hvalue, hold⟩
      · exact .inl hrow
      · exact .inr ⟨e, mem_append_left _ he, hk, hvalue, hold⟩
    · exact .inr ⟨e, mem_append_right _ he, hk, rfl, fun hhas => hold (h.keeps hhas)⟩

variable {e : CacheKey × CacheEntry} {outcome : Outcome}

theorem Pushed.rejected (h : resolveKey d allowed e.1 = .error outcome) (central : CentralCache) :
    Pushed d allowed [e] central central where
  keeps := id
  stores := fun e' he' k hk => by
    rw [List.mem_singleton.1 he', h] at hk
    cases hk
  changes := .inl

variable {k : CentralKey}

theorem Pushed.accepted (h : resolveKey d allowed e.1 = .ok k) (central : CentralCache) :
    Pushed d allowed [e] central (central.upsert k e.2 fun row => newer row e.2) where
  keeps := by
    rintro k' t ⟨row, hrow, hle⟩
    rw [HasCentral, get?_upsert_newer]
    split
    next hk =>
      subst hk
      rw [hrow]
      exact ⟨_, rfl, hle.trans (le_newer_left ..)⟩
    · exact ⟨row, hrow, hle⟩
  stores := fun e' he' k' hk' => by
    rw [List.mem_singleton.1 he', h] at hk'
    cases hk'
    rw [List.mem_singleton.1 he', HasCentral, get?_upsert_newer, if_pos rfl]
    refine ⟨_, rfl, ?_⟩
    cases central.get? k with
    | none => exact le_refl _
    | some row => exact le_newer_right ..
  changes := fun {k' row} hrow => by
    rw [get?_upsert_newer] at hrow
    split at hrow
    next hk =>
      subst hk
      cases hold : central.get? k' with
      | none =>
        rw [hold] at hrow
        cases hrow
        refine .inr ⟨e, mem_singleton_self _, h, rfl, ?_⟩
        rintro ⟨row, hrow, -⟩
        rw [hold] at hrow
        cases hrow
      | some old =>
        rw [hold] at hrow
        cases hrow
        by_cases hlt : old.updatedAt < e.2.updatedAt
        · have hnew : newer old e.2 = e.2 := if_pos hlt
          refine .inr ⟨e, mem_singleton_self _, h, hnew.symm, ?_⟩
          rintro ⟨row, hrow, hle⟩
          rw [hold] at hrow
          cases hrow
          rw [map_some, getD_some, hnew] at hle
          exact not_lt.2 hle hlt
        · have hsame : newer old e.2 = old := if_neg hlt
          exact .inl (congrArg some hsame.symm)
    · exact .inl hrow

theorem pushEntry_spec (h : pushEntry d allowed c e = some (outcome, c')) :
    outcome = outcomeOf d allowed e.1 ∧ Pushed d allowed [e] c c' := by
  rw [pushEntry] at h
  rw [outcomeOf]
  split at h
  next outcome' hkey =>
    cases h
    rw [hkey]
    exact ⟨rfl, .rejected hkey c⟩
  next k hkey =>
    split at h
    · cases h
    · cases h
      rw [hkey]
      exact ⟨rfl, .accepted hkey c⟩

variable {outcomes : List Outcome}

theorem pushEntries_spec (h : pushEntries d allowed entries c = some (outcomes, c')) :
    outcomes = entries.map (fun e => outcomeOf d allowed e.1) ∧ Pushed d allowed entries c c' := by
  induction entries generalizing c outcomes with
  | nil =>
    cases h
    exact ⟨rfl, .refl d allowed _⟩
  | cons e entries ih =>
    rw [pushEntries] at h
    obtain ⟨⟨outcome, c₁⟩, hentry, h⟩ := bind_eq_some_iff.1 h
    obtain ⟨⟨rest, c₂⟩, hrest, h⟩ := bind_eq_some_iff.1 h
    cases h
    obtain ⟨rfl, hpushed⟩ := pushEntry_spec hentry
    obtain ⟨rfl, hpushed'⟩ := ih hrest
    exact ⟨rfl, hpushed.append hpushed'⟩

/-- **A push** says for each entry how it was dealt with, and stores those it accepts. -/
theorem pushAppCache_spec (h : pushAppCache d allowed entries c = some (outcomes, c')) :
    outcomes = entries.map (fun e => outcomeOf d allowed e.1) ∧ Pushed d allowed entries c c' := by
  rw [pushAppCache] at h
  split at h
  · exact pushEntries_spec h
  · cases h

/-! ### Pulling -/

/-- A response of the handler. -/
structure PullResponse where
  entries : List (CacheKey × CacheEntry)
  hasMore : Bool

/-- A time is later than another one, if there is one. -/
def Beyond (since : Option Timestamp) (t : Timestamp) : Prop := ∀ u ∈ since, u < t
  deriving Decidable

/-- The order of the select; rows from the same time may be in any order. -/
def Earlier (rank : CentralKey → ℕ) (row row' : CentralKey × CacheEntry) : Prop :=
  row.2.updatedAt < row'.2.updatedAt ∨ row.2.updatedAt = row'.2.updatedAt ∧ rank row.1 ≤ rank row'.1

instance (rank : CentralKey → ℕ) : DecidableRel (Earlier rank) := fun _ _ =>
  inferInstanceAs (Decidable (_ ∨ _ ∧ _))

/-- The rows after a time, in order. -/
def selectUpdated (rank : CentralKey → ℕ) (since : Option Timestamp) (central : CentralCache) :
    List (CentralKey × CacheEntry) :=
  (central.rows.filter fun row => Beyond since row.2.updatedAt).insertionSort (Earlier rank)

/-- `pull_app_cache`. -/
def pullAppCache (d : Directory) (rank : CentralKey → ℕ) (since : Option Timestamp) (limit : ℕ)
    (now : Timestamp) (central : CentralCache) : PullResponse :=
  let rows := (selectUpdated rank since central).take (limit + 1)
  { entries := (rows.take limit).filterMap fun row =>
      if row.2.Expired now then none else (localKey d row.1).map (·, row.2)
    hasMore := limit < rows.length }

section Pull

variable {d : Directory} {rank : CentralKey → ℕ} {since : Option Timestamp} {limit : ℕ}
  {now : Timestamp} {central : CentralCache}

theorem mem_selectUpdated {e : CacheEntry} : (k, e) ∈ selectUpdated rank since central ↔
      central.get? k = some e ∧ Beyond since e.updatedAt := by
  rw [selectUpdated, (perm_insertionSort _ _).mem_iff, mem_filter, Table.mem_rows]
  simp

theorem selectUpdated_pairwise : (selectUpdated rank since central).Pairwise fun row row' =>
      row.2.updatedAt ≤ row'.2.updatedAt := by
  have htotal : Std.Total (Earlier rank) := ⟨fun row row' => by
    rcases lt_trichotomy row.2.updatedAt row'.2.updatedAt with hlt | heq | hlt
    · exact .inl (.inl hlt)
    · exact (le_total (rank row.1) (rank row'.1)).imp (.inr ⟨heq, ·⟩) (.inr ⟨heq.symm, ·⟩)
    · exact .inr (.inl hlt)⟩
  have htrans : IsTrans _ (Earlier rank) := ⟨fun row row' row'' h h' => by
    rcases h with h | ⟨h, hrank⟩
    · exact .inl (h.trans_le (h'.elim le_of_lt fun h' => h'.1.le))
    · rcases h' with h' | ⟨h', hrank'⟩
      · exact .inl (h.trans_lt h')
      · exact .inr ⟨h.trans h', hrank.trans hrank'⟩⟩
  refine (pairwise_insertionSort (Earlier rank) _).imp fun h => ?_
  exact h.elim le_of_lt fun h => h.1.le

theorem mem_pullAppCache (h : e ∈ (pullAppCache d rank since limit now central).entries) :
    ∃ k, (k, e.2) ∈ (selectUpdated rank since central).take limit ∧ localKey d k = some e.1 := by
  obtain ⟨row, hrow, he⟩ := List.mem_filterMap.1 h
  rw [take_take, Nat.min_eq_left (Nat.le_succ limit)] at hrow
  split at he
  · cases he
  · obtain ⟨k, hk, rfl⟩ := map_eq_some_iff.1 he
    exact ⟨row.1, hrow, hk⟩

/-- **What a pull leaves out**: rows that are expired or of a deleted app, and rows after the
last one it returns. -/
theorem pullAppCache_complete {k' : CacheKey} {e : CacheEntry}
    (h : central.get? k = some e) (hsince : Beyond since e.updatedAt) (hk : localKey d k = some k')
    (hnow : ¬e.Expired now) : (k', e) ∈ (pullAppCache d rank since limit now central).entries ∨
      (k, e) ∈ (selectUpdated rank since central).drop limit := by
  have hmem : (k, e) ∈ selectUpdated rank since central := mem_selectUpdated.2 ⟨h, hsince⟩
  rw [← take_append_drop limit (selectUpdated rank since central)] at hmem
  refine (List.mem_append.1 hmem).imp_left fun hmem => ?_
  refine List.mem_filterMap.2 ⟨(k, e), ?_, ?_⟩
  · rw [take_take, Nat.min_eq_left (Nat.le_succ limit)]
    exact hmem
  · rw [if_neg hnow, hk]
    rfl

variable {row : CentralKey × CacheEntry}

theorem pullAppCache_hasMore (h : row ∈ (selectUpdated rank since central).drop limit) :
    (pullAppCache d rank since limit now central).hasMore = true := by
  have hlt : limit < (selectUpdated rank since central).length := by
    by_contra hle
    rw [drop_eq_nil_of_le (Nat.le_of_not_lt hle)] at h
    cases h
  rw [pullAppCache]
  dsimp only
  rw [length_take, decide_eq_true_iff]
  omega

theorem le_of_mem_drop (he : e ∈ (pullAppCache d rank since limit now central).entries)
    (h : row ∈ (selectUpdated rank since central).drop limit) : e.2.updatedAt ≤ row.2.updatedAt :=
    by
  obtain ⟨k, hk, -⟩ := mem_pullAppCache he
  have hpairwise : (selectUpdated rank since central).Pairwise fun row row' =>
      row.2.updatedAt ≤ row'.2.updatedAt := selectUpdated_pairwise
  rw [← take_append_drop limit (selectUpdated rank since central),
    pairwise_append] at hpairwise
  exact hpairwise.2.2 _ hk row h

end Pull

end MonCTL.AppCache
