import MonCTL.Lib.Runs
import MonCTL.Packs.Importer

/-!
# The Latest Version

One version of an app or of a connector is flagged as the latest, and readers ask for it with a
query that fails on two rows. An upload and a switch clear the flags of all other versions, and
so do the imports that skip or overwrite. A reconciliation writes the flags of the versions in
the document and leaves the flags of all others.
-/

namespace MonCTL.Packs

open List

/-! ### Flags -/

/-- The kinds that have versions. -/
def PackSection.versioned : PackSection → Bool
  | apps | connectors => true
  | _ => false

/-- The versions that are flagged. -/
def latestVersions (versions : Versions) : List String :=
  (versions.rows.filter fun row => row.2.isLatest).map Prod.fst

def AtMostOneLatest (versions : Versions) : Prop := (latestVersions versions).length ≤ 1
  deriving Decidable

/-- `preview_import`: the version that is flagged. -/
def existingLatestVersion (versions : Versions) : Except ImportError (Option String) :=
  scalarOneOrNone (latestVersions versions)

def flagIn (versions : Versions) (version : String) : Option Bool :=
  (versions.get? version).map Version.isLatest

variable {versions : Versions} {version : String}

theorem mem_latestVersions : version ∈ latestVersions versions ↔
    flagIn versions version = some true := by
  rw [latestVersions, mem_map, flagIn, Option.map_eq_some_iff]
  constructor
  · rintro ⟨row, hrow, rfl⟩
    obtain ⟨hmem, hlatest⟩ := List.mem_filter.1 hrow
    exact ⟨row.2, Table.mem_rows.1 hmem, hlatest⟩
  · rintro ⟨v, hv, hlatest⟩
    exact ⟨(version, v), List.mem_filter.2 ⟨Table.mem_rows.2 hv, hlatest⟩, rfl⟩

theorem nodup_latestVersions (versions : Versions) : (latestVersions versions).Nodup :=
  versions.keys_nodup.sublist (List.filter_sublist.map _)

theorem atMostOneLatest_iff : AtMostOneLatest versions ↔ ∀ k k', flagIn versions k = some true →
      flagIn versions k' = some true → k = k' := by
  simp only [← mem_latestVersions, AtMostOneLatest]
  have hnodup := nodup_latestVersions versions
  generalize latestVersions versions = latest at hnodup ⊢
  match latest with
  | [] => simp
  | [k] =>
    refine iff_of_true (by simp) fun k₁ k₂ h₁ h₂ => ?_
    rw [List.mem_singleton.1 h₁, List.mem_singleton.1 h₂]
  | k :: k' :: rest =>
    refine iff_of_false (by simp) fun hall => ?_
    have heq := hall k k' (by simp) (by simp)
    rw [heq] at hnodup
    simp at hnodup

/-- At most one version of a document's entity is flagged. -/
def FlaggedOnce (items : List VersionItem) : Prop :=
  (items.filter VersionItem.isLatest).length ≤ 1
  deriving Decidable

variable {items : List VersionItem}

theorem FlaggedOnce.eq (h : FlaggedOnce items) {item item' : VersionItem}
    (hmem : item ∈ items) (hlatest : item.isLatest = true) (hmem' : item' ∈ items)
    (hlatest' : item'.isLatest = true) : item = item' := by
  have h₁ := List.mem_filter.2 ⟨hmem, hlatest⟩
  have h₂ := List.mem_filter.2 ⟨hmem', hlatest'⟩
  rw [FlaggedOnce] at h
  match hitems : items.filter VersionItem.isLatest with
  | [] => simp [hitems] at h₁
  | [_] =>
    rw [hitems] at h₁ h₂
    rw [List.mem_singleton.1 h₁, List.mem_singleton.1 h₂]
  | _ :: _ :: _ => simp [hitems] at h

theorem exists_of_matchingFlag {flag : Bool} (h : matchingFlag items version = some flag) :
    ∃ item ∈ items, item.version = version ∧ item.isLatest = flag := by
  obtain ⟨item, hitem, hflag⟩ := Option.map_eq_some_iff.1 h
  exact ⟨item, mem_of_find?_eq_some hitem, by simpa using find?_some hitem, hflag⟩

theorem matchingFlag_eq_none :
    matchingFlag items version = none ↔ version ∉ items.map VersionItem.version := by
  rw [matchingFlag, Option.map_eq_none_iff, find?_eq_none, mem_map]
  simp

theorem FlaggedOnce.matchingFlag_eq (h : FlaggedOnce items)
    {k k' : String} (hk : matchingFlag items k = some true)
    (hk' : matchingFlag items k' = some true) : k = k' := by
  obtain ⟨item, hmem, rfl, hlatest⟩ := exists_of_matchingFlag hk
  obtain ⟨item', hmem', rfl, hlatest'⟩ := exists_of_matchingFlag hk'
  rw [h.eq hmem hlatest hmem' hlatest']

/-! ### Synchronising versions -/

variable {cols : List Column} {versions' : Versions}

theorem flagIn_addVersion {item : VersionItem} {flag : Bool}
    (h : addVersion cols item flag versions = .ok versions') :
    versions.get? item.version = none ∧ ∀ k, flagIn versions' k =
      if k = item.version then some flag else flagIn versions k := by
  obtain ⟨columns, -, hrest⟩ := StateExcept.bind_eq_ok.1 h
  split at hrest
  · cases hrest
  next hnone =>
    cases hrest
    refine ⟨hnone, fun k => ?_⟩
    rw [flagIn, Table.get?_upsert, hnone]
    split <;> rfl

theorem flagIn_modify_columns (versions : Versions) (version k : String)
    (update : JsonObject → JsonObject) : flagIn (versions.modify version fun v => { v with columns := update v.columns }) k =
      flagIn versions k := by
  rw [flagIn, Table.get?_modify, flagIn]
  split
  · rw [Option.map_map]; rfl
  · rfl

theorem flagIn_mapRows (versions : Versions) (flag : String → Bool → Bool) (k : String) :
    flagIn (versions.mapRows fun version v => { v with isLatest := flag version v.isLatest }) k =
      (flagIn versions k).map (flag k) := by
  rw [flagIn, Table.get?_mapRows, flagIn, Option.map_map, Option.map_map]
  rfl

theorem flagged_of_createVersions (h : createVersions cols items versions = .ok versions')
    {k : String} (hk : flagIn versions' k = some true) :
    flagIn versions k = some true ∨ ∃ item ∈ items, item.version = k ∧ item.isLatest = true := by
  induction items generalizing versions with
  | nil =>
    cases h
    exact .inl hk
  | cons item items ih =>
    obtain ⟨versions₁, hadd, hrest⟩ := StateExcept.bind_eq_ok.1 h
    rcases ih hrest with hold | ⟨item', hmem, hitem⟩
    · rw [(flagIn_addVersion hadd).2] at hold
      split at hold
      next heq => exact .inr ⟨item, mem_cons_self .., heq.symm, Option.some.inj hold⟩
      · exact .inl hold
    · exact .inr ⟨item', mem_cons_of_mem _ hmem, hitem⟩

/-- **A new entity has at most one flag**, when the document has. -/
theorem atMostOneLatest_createVersions (h : createVersions cols items {} = .ok versions)
    (honce : FlaggedOnce items) : AtMostOneLatest versions := by
  have hitem : ∀ {k}, flagIn versions k = some true →
      ∃ item ∈ items, item.version = k ∧ item.isLatest = true :=
    fun hk => (flagged_of_createVersions h hk).resolve_left nofun
  rw [atMostOneLatest_iff]
  intro k k' hk hk'
  obtain ⟨item, hmem, rfl, hlatest⟩ := hitem hk
  obtain ⟨item', hmem', rfl, hlatest'⟩ := hitem hk'
  rw [honce.eq hmem hlatest hmem' hlatest']

variable {rewrite : Bool}

/-- The loop over the versions adds those that were not there, without a flag, and leaves the
flags of the others. -/
theorem flagIn_addMissing {existing : List String}
    (h : addMissing cols existing rewrite items versions = .ok versions')
    (hexisting : ∀ k ∈ existing, flagIn versions k ≠ none) (k : String) :
    flagIn versions' k = (flagIn versions k).or
      (if k ∈ items.map VersionItem.version then some false else none) := by
  induction items generalizing versions with
  | nil =>
    cases h
    rw [map_nil, if_neg not_mem_nil, Option.or_none]
  | cons item items ih =>
    rw [addMissing] at h
    split at h
    next hmem =>
      have hflags : ∀ k, flagIn (if rewrite then versions.modify item.version fun v =>
          { v with columns := updateColumns cols item.columns v.columns } else versions) k =
            flagIn versions k := by
        intro k
        split
        · exact flagIn_modify_columns ..
        · rfl
      rw [ih h fun k hk => (hflags k).symm ▸ hexisting k hk, hflags k]
      cases hflag : flagIn versions k with
      | some flag => rfl
      | none =>
        have hne : k ≠ item.version := fun heq => hexisting _ hmem (heq ▸ hflag)
        simp [hne]
    next hmem =>
      obtain ⟨versions₁, hadd, hrest⟩ := StateExcept.bind_eq_ok.1 h
      obtain ⟨hnone, hflags⟩ := flagIn_addVersion hadd
      rw [ih hrest, hflags k]
      · by_cases hk : k = item.version
        · rw [if_pos hk, hk, flagIn, hnone]
          simp
        · simp [hk]
      · intro k hk
        rw [hflags k]
        split
        · nofun
        · exact hexisting k hk

theorem flagIn_ne_none {k : String} (hk : k ∈ versions.rows.keys) : flagIn versions k ≠ none := by
  rw [flagIn, ne_eq, Option.map_eq_none_iff, Table.get?_eq_none]
  exact not_not_intro hk

/-- **Skipping and overwriting**: a version is flagged iff it is in the document with the flag. -/
theorem flagIn_syncVersions
    (h : syncVersions cols rewrite items versions = .ok versions') (k : String) :
    flagIn versions' k = some true ↔ matchingFlag items k = some true := by
  obtain ⟨versions₁, hadd, hrest⟩ := StateExcept.bind_eq_ok.1 h
  cases hrest
  rw [flagIn_mapRows versions₁ fun version _ => (matchingFlag items version).getD false,
    flagIn_addMissing hadd fun k => flagIn_ne_none]
  cases hflag : matchingFlag items k with
  | none => cases flagIn versions k <;> simp
  | some flag =>
    have hmem : k ∈ items.map VersionItem.version := by
      by_contra hnot
      rw [matchingFlag_eq_none.2 hnot] at hflag
      cases hflag
    rw [if_pos hmem]
    cases flagIn versions k <;> simp

/-- **Reconciling**: a version is flagged iff the document flags it, or does not have it and it
was flagged before. -/
theorem flagIn_syncVersionsTracked
    (h : syncVersionsTracked cols items versions = .ok versions') (k : String) :
    flagIn versions' k = some true ↔
      matchingFlag items k = some true ∨
        matchingFlag items k = none ∧ flagIn versions k = some true := by
  obtain ⟨versions₁, hadd, hrest⟩ := StateExcept.bind_eq_ok.1 h
  cases hrest
  rw [flagIn_mapRows versions₁ fun version old => (matchingFlag items version).getD old,
    flagIn_addMissing hadd fun k => flagIn_ne_none]
  cases hflag : matchingFlag items k with
  | none =>
    rw [if_neg (matchingFlag_eq_none.1 hflag), Option.or_none]
    cases flagIn versions k <;> simp
  | some flag =>
    have hmem : k ∈ items.map VersionItem.version := by
      by_contra hnot
      rw [matchingFlag_eq_none.2 hnot] at hflag
      cases hflag
    rw [if_pos hmem]
    cases flagIn versions k <;> simp

/-- **Skipping and overwriting leave at most one flag**, when the document has. -/
theorem atMostOneLatest_syncVersions
    (h : syncVersions cols rewrite items versions = .ok versions') (honce : FlaggedOnce items) :
    AtMostOneLatest versions' := by
  rw [atMostOneLatest_iff]
  intro k k' hk hk'
  exact honce.matchingFlag_eq ((flagIn_syncVersions h k).1 hk) ((flagIn_syncVersions h k').1 hk')

/-- The document has every version that is flagged, or flags none of its own. -/
def Heeds (items : List VersionItem) (versions : Versions) : Prop :=
  (∀ k ∈ latestVersions versions, k ∈ items.map VersionItem.version) ∨
    ∀ item ∈ items, matchingFlag items item.version ≠ some true
  deriving Decidable

/-- **A reconciliation leaves at most one flag exactly when** the document has every version that
is flagged, or flags none of its own. -/
theorem atMostOneLatest_syncVersionsTracked_iff
    (h : syncVersionsTracked cols items versions = .ok versions') (honce : FlaggedOnce items)
    (hbefore : AtMostOneLatest versions) : AtMostOneLatest versions' ↔ Heeds items versions := by
  rw [atMostOneLatest_iff] at hbefore ⊢
  simp only [flagIn_syncVersionsTracked h]
  constructor
  · intro hafter
    by_contra hnot
    rw [Heeds, not_or] at hnot
    obtain ⟨hold, hnew⟩ := hnot
    push Not at hold hnew
    obtain ⟨k, hk, hmem⟩ := hold
    obtain ⟨item, hitem, hflag⟩ := hnew
    have heq := hafter k item.version
      (.inr ⟨matchingFlag_eq_none.2 hmem, mem_latestVersions.1 hk⟩) (.inl hflag)
    exact hmem (heq ▸ mem_map_of_mem hitem)
  · rintro (hheeds | hheeds) k k' hk hk'
    · have hflag : ∀ {k}, (matchingFlag items k = some true ∨
          matchingFlag items k = none ∧ flagIn versions k = some true) →
          matchingFlag items k = some true := by
        rintro k (hk | ⟨hnone, hk⟩)
        · exact hk
        · exact absurd (hheeds k (mem_latestVersions.2 hk)) (matchingFlag_eq_none.1 hnone)
      exact honce.matchingFlag_eq (hflag hk) (hflag hk')
    · have hflag : ∀ {k}, (matchingFlag items k = some true ∨
          matchingFlag items k = none ∧ flagIn versions k = some true) →
          flagIn versions k = some true := by
        rintro k (hk | ⟨-, hk⟩)
        · obtain ⟨item, hitem, rfl, -⟩ := exists_of_matchingFlag hk
          exact absurd hk (hheeds item hitem)
        · exact hk
      exact hbefore k k' (hflag hk) (hflag hk')

end MonCTL.Packs
