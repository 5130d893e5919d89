import MonCTL.AppCache.Central

/-!
# The Sync Loop of the App Cache

The cache node of a collector has one loop that first pushes the dirty entries and then pulls
updates, page by page. It waits for central, and for its own database after every row, and apps
may write in between. After a restart it pulls from the start.
-/

namespace MonCTL.AppCache

open Option

/-! ### State -/

/-- An entry that has been sent, and how central has dealt with it. The loop does not read the
outcome. -/
structure SentEntry where
  key : CacheKey
  entry : CacheEntry
  outcome : Outcome

/-- Where the loop is. -/
inductive Phase
  | idle
  /-- The dirty entries have been read, and are to be sent. -/
  | pushing (batch : List (CacheKey × CacheEntry))
  /-- Central has answered; these are still to be marked. -/
  | marking (rest : List SentEntry)
  /-- The entries after a time are to be asked for. -/
  | pulling (since : Option Timestamp)
  /-- Central has answered; these are still to be merged. -/
  | applying (since : Option Timestamp) (page : PullResponse)
      (rest : List (CacheKey × CacheEntry))

/-- The cache node of a collector: the app cache, the sync loop and its `_last_pull_at`. The keys
that have been written since the dirty entries were read, and are still there, are to state what
has happened; no step reads them. -/
structure CacheNode where
  cache : LocalCache := {}
  phase : Phase := .idle
  lastPullAt : Timestamp := 0
  written : List CacheKey := []

/-! ### Apps -/

/-- An app writes an entry. -/
def CacheNode.set (k : CacheKey) (value : Json) (ttlSeconds : Option ℤ) (now : Timestamp)
    (n : CacheNode) : CacheNode :=
  { n with cache := appCacheSet k value ttlSeconds now n.cache, written := n.written.insert k }

/-- An app reads an entry. -/
def CacheNode.get (k : CacheKey) (now : Timestamp) (n : CacheNode) : CacheNode :=
  let cache := (appCacheGet k now n.cache).2
  { n with cache, written := n.written.filter fun k => (cache.get? k).isSome }

/-- An app deletes an entry. -/
def CacheNode.delete (k : CacheKey) (n : CacheNode) : CacheNode :=
  { n with cache := appCacheDelete k n.cache, written := n.written.filter (· ≠ k) }

/-! ### The loop -/

def sinceOf (lastPullAt : Timestamp) : Option Timestamp :=
  if 0 < lastPullAt then some lastPullAt else none

/-- `_push_dirty` up to the request; without dirty entries there is no request. -/
def readDirty (rank : CacheKey → ℕ) (n : CacheNode) : Option CacheNode :=
  match n.phase with
  | .idle =>
    let batch := appCacheGetDirty rank 500 n.cache
    some { n with
      phase := if batch.isEmpty then .pulling (sinceOf n.lastPullAt) else .pushing batch
      written := [] }
  | _ => none

/-- `_push_dirty` after the request: a response marks all entries, whatever it says. -/
def receivePush (outcomes : Option (List Outcome)) (n : CacheNode) : Option CacheNode :=
  match n.phase with
  | .pushing batch =>
    some { n with
      phase := match outcomes with
        | none => .pulling (sinceOf n.lastPullAt)
        | some outcomes => .marking ((batch.zip outcomes).map fun e => ⟨e.1.1, e.1.2, e.2⟩) }
  | _ => none

/-- One round of the loop that marks entries, or its end. -/
def markNext (n : CacheNode) : Option CacheNode :=
  match n.phase with
  | .marking (e :: rest) => some { n with cache := markClean e.key n.cache, phase := .marking rest }
  | .marking [] => some { n with phase := .pulling (sinceOf n.lastPullAt) }
  | _ => none

/-- `_pull_updates` after a request: without entries the loop ends. -/
def receivePull (response : Option PullResponse) (n : CacheNode) : Option CacheNode :=
  match n.phase with
  | .pulling since =>
    some { n with
      phase := match response with
        | none => .idle
        | some page => if page.entries.isEmpty then .idle else .applying since page page.entries }
  | _ => none

/-- One round of the loop that merges entries, or its end. -/
def applyNext (n : CacheNode) : Option CacheNode :=
  match n.phase with
  | .applying since page (e :: rest) =>
    some { n with cache := upsertFromCentral e n.cache, phase := .applying since page rest }
  | .applying _ page [] =>
    page.entries.getLast?.map fun last =>
      { n with
        lastPullAt := last.2.updatedAt
        phase := if page.hasMore then .pulling (some last.2.updatedAt) else .idle }
  | _ => none

/-- Something raises, and the next cycle starts from the beginning. -/
def abort (n : CacheNode) : CacheNode := { n with phase := .idle }

def restart (n : CacheNode) : CacheNode := { n with phase := .idle, lastPullAt := 0 }

/-- The time up to which a node does not ask again, when it has merged what it has. -/
def reach (n : CacheNode) : Option Timestamp :=
  match n.phase with
  | .pulling since => since
  | .applying _ page _ => page.entries.getLast?.map fun e => e.2.updatedAt
  | _ => sinceOf n.lastPullAt

/-! ### What has been sent -/

/-- The entries that are to be sent, or have been sent and are to be marked. -/
def Phase.sent : Phase → List (CacheKey × CacheEntry)
  | .pushing batch => batch
  | .marking rest => rest.map fun e => (e.key, e.entry)
  | _ => []

def nextMark (n : CacheNode) : Option SentEntry :=
  match n.phase with
  | .marking (e :: _) => some e
  | _ => none

/-- The batch that is to be sent. -/
def nextBatch (n : CacheNode) : List (CacheKey × CacheEntry) :=
  match n.phase with
  | .pushing batch => batch
  | _ => []

def toMark (n : CacheNode) : List SentEntry :=
  match n.phase with
  | .marking rest => rest
  | _ => []

/-- A key that has been sent, and not written since, has the entry that was sent. -/
def Unwritten (n : CacheNode) : Prop :=
  ∀ e ∈ n.phase.sent, e.1 ∉ n.written → ∀ row ∈ n.cache.get? e.1, row.toCacheEntry = e.2

section Unwritten

variable {n n' : CacheNode}

theorem Unwritten.of_sent_nil (h : n.phase.sent = []) : Unwritten n := by
  intro e he
  rw [h] at he
  cases he

theorem Unwritten.set (h : Unwritten n) (k : CacheKey) (value : Json) (ttlSeconds : Option ℤ)
    (now : Timestamp) : Unwritten (n.set k value ttlSeconds now) := by
  intro e he hwritten row hrow
  have hne : ¬e.1 = k := fun hk => hwritten (hk ▸ List.mem_insert_self ..)
  rw [CacheNode.set, get?_appCacheSet, if_neg hne] at hrow
  exact h e he (fun hmem => hwritten (List.mem_insert_of_mem hmem)) row hrow

theorem Unwritten.get (h : Unwritten n) (k : CacheKey) (now : Timestamp) :
    Unwritten (n.get k now) := by
  intro e he hwritten row hrow
  rcases get?_appCacheGet k e.1 now n.cache with hsame | ⟨-, hnone⟩
  · have hrow' : n.cache.get? e.1 = some row := hsame.symm.trans hrow
    refine h e he (fun hmem => hwritten ?_) row hrow'
    exact List.mem_filter.2 ⟨hmem, isSome_iff_exists.2 ⟨row, hrow⟩⟩
  · cases hnone.symm.trans hrow

theorem Unwritten.delete (h : Unwritten n) (k : CacheKey) : Unwritten (n.delete k) := by
  intro e he hwritten row hrow
  rw [CacheNode.delete, appCacheDelete, Table.get?_erase] at hrow
  split at hrow
  · cases hrow
  next hne =>
    refine h e he (fun hmem => hwritten ?_) row hrow
    exact List.mem_filter.2 ⟨hmem, by simpa using hne⟩

theorem Unwritten.readDirty {rank : CacheKey → ℕ} (h : readDirty rank n = some n') :
    Unwritten n' := by
  rw [AppCache.readDirty] at h
  split at h
  · cases h
    intro e he _ row hrow
    dsimp only at he
    split at he
    · cases he
    · obtain ⟨row', hrow', -, hentry⟩ := mem_appCacheGetDirty he
      cases hrow'.symm.trans hrow
      exact hentry
  · cases h

theorem Unwritten.receivePush (h : Unwritten n) {outcomes : Option (List Outcome)}
    (hpush : receivePush outcomes n = some n') : Unwritten n' := by
  rw [AppCache.receivePush] at hpush
  split at hpush
  next batch hphase =>
    cases hpush
    rw [Unwritten, hphase] at h
    intro e he
    cases outcomes with
    | none => cases he
    | some outcomes =>
      obtain ⟨sent, hsent, rfl⟩ := List.mem_map.1 he
      obtain ⟨pair, hpair, rfl⟩ := List.mem_map.1 hsent
      exact h pair.1 (List.of_mem_zip hpair).1
  · cases hpush

theorem Unwritten.markNext (h : Unwritten n) (hmark : markNext n = some n') : Unwritten n' := by
  rw [AppCache.markNext] at hmark
  split at hmark
  next e₀ rest hphase =>
    cases hmark
    rw [Unwritten, hphase] at h
    intro e he hwritten row hrow
    have hold := h e (List.mem_cons_of_mem _ he) hwritten
    rw [get?_markClean] at hrow
    split at hrow
    · obtain ⟨row', hrow', rfl⟩ := map_eq_some_iff.1 hrow
      exact hold row' hrow'
    · exact hold row hrow
  · cases hmark
    exact .of_sent_nil rfl
  · cases hmark

theorem Unwritten.receivePull {response : Option PullResponse}
    (h : receivePull response n = some n') : Unwritten n' := by
  rw [AppCache.receivePull] at h
  split at h
  · cases h
    refine .of_sent_nil ?_
    cases response with
    | none => rfl
    | some page =>
      dsimp only
      split <;> rfl
  · cases h

theorem Unwritten.applyNext (h : applyNext n = some n') : Unwritten n' := by
  rw [AppCache.applyNext] at h
  split at h
  · cases h
    exact .of_sent_nil rfl
  next page _ =>
    obtain ⟨last, -, rfl⟩ := map_eq_some_iff.1 h
    refine .of_sent_nil ?_
    dsimp only
    split <;> rfl
  · cases h

end Unwritten

end MonCTL.AppCache
