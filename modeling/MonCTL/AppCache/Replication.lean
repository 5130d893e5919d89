import MonCTL.AppCache.SyncLoop
import MonCTL.Lib.Runs

/-!
# Replication of the App Cache

The collectors of a group write, push and pull. Once all that is dirty has been pushed, and every
collector has pulled until central has no more, they should all hold the newest value of every
key, and so should central.

A collector asks for what was updated after the newest time it has seen, and the times are those
of the writers. So an entry that arrives at central late is not seen by a collector that has
already seen a later time; and of entries from the same time, those after the end of a page are
not seen either.
-/

namespace MonCTL.AppCache

/-! ### The system -/

/-- Central with the time of its last answer, the cache nodes, the entries that have been
written, and the collectors that have been told that there is no more since central handled a
push. -/
structure System where
  central : CentralCache := {}
  now : Timestamp := 0
  nodes : String → CacheNode := fun _ => {}
  writes : List (CacheKey × CacheEntry) := []
  caughtUp : List String := []

/-- What can happen at a collector. -/
inductive Action
  /-- An app writes. -/
  | write (k : CacheKey) (value : Json) (ttlSeconds : Option ℤ) (now : Timestamp)
  /-- The loop starts, and reads the dirty entries. -/
  | readDirty (rank : CacheKey → ℕ)
  /-- Central handles a push; its response may get lost. -/
  | push (allowed : Option (List Uuid)) (arrives : Bool)
  /-- The loop marks an entry, or is done with marking. -/
  | mark
  /-- Central answers a pull; its response may get lost. -/
  | pull (rank : CentralKey → ℕ) (limit : ℕ) (now : Timestamp) (arrives : Bool)
  /-- The loop merges an entry, or is done with a page. -/
  | apply
  /-- The loop raises. -/
  | abort
  /-- The cache node is restarted. -/
  | restart

/-- The entries that are still to be merged. -/
def Phase.rest : Phase → List (CacheKey × CacheEntry)
  | .applying _ _ rest => rest
  | _ => []

/-- A collector changes. -/
def System.withNode (s : System) (c : String) (n : CacheNode) : System :=
  { s with nodes := Function.update s.nodes c n }

/-- The loop of a collector stops where it is; what was to be merged is lost. -/
def System.interrupt (s : System) (c : String) (n : CacheNode) : System :=
  { s.withNode c n with
    caughtUp := if (s.nodes c).phase.rest.isEmpty then s.caughtUp
      else s.caughtUp.filter (· ≠ c) }

variable (d : Directory)

/-- Central handles a push of a collector. -/
def System.push (s : System) (c : String) (allowed : Option (List Uuid))
    (arrives : Bool) : Option System :=
  match pushAppCache d allowed (nextBatch (s.nodes c)) s.central with
  | none => (receivePush none (s.nodes c)).map (s.withNode c)
  | some (outcomes, central) =>
    (receivePush (if arrives then some outcomes else none) (s.nodes c)).map
      ({ s with central, caughtUp := [] }.withNode c)

/-- The time a collector asks for. -/
def nextSince (n : CacheNode) : Option Timestamp :=
  match n.phase with
  | .pulling since => since
  | _ => none

/-- The answer of central to a pull of a collector. -/
def System.page (s : System) (c : String) (rank : CentralKey → ℕ) (limit : ℕ)
    (now : Timestamp) : PullResponse :=
  pullAppCache d rank (nextSince (s.nodes c)) limit now s.central

/-- Central answers a pull of a collector. -/
def System.pull (s : System) (c : String) (rank : CentralKey → ℕ) (limit : ℕ)
    (now : Timestamp) (arrives : Bool) : Option System :=
  let page := s.page d c rank limit now
  (receivePull (if arrives then some page else none) (s.nodes c)).map fun n =>
    { s.withNode c n with
      now
      caughtUp := if arrives && !page.hasMore then c :: s.caughtUp else s.caughtUp }

/-- The steps of the system; the clock of central does not go back. -/
def act (s : System) (c : String) : Action → Option System
  | .write k value ttlSeconds now =>
    some { s.withNode c ((s.nodes c).set k value ttlSeconds now) with
      writes := s.writes ++ [(k, ⟨value, ttlSeconds, now⟩)] }
  | .readDirty rank => (readDirty rank (s.nodes c)).map (s.withNode c)
  | .push allowed arrives => s.push d c allowed arrives
  | .mark => (markNext (s.nodes c)).map (s.withNode c)
  | .pull rank limit now arrives => if now < s.now then none else s.pull d c rank limit now arrives
  | .apply => (applyNext (s.nodes c)).map (s.withNode c)
  | .abort => some (s.interrupt c (abort (s.nodes c)))
  | .restart => some (s.interrupt c (restart (s.nodes c)))

/-- Something happens at a collector of the group. -/
def step (group : List String) (s : System) (a : String × Action) : Option System :=
  if a.1 ∈ group then act d s a.1 a.2 else none

/-- A collector has merged what there was when it was told that there is no more. -/
def CaughtUp (s : System) (c : String) : Prop :=
  c ∈ s.caughtUp ∧ (s.nodes c).phase.rest = []

instance (s : System) (c : String) : Decidable (CaughtUp s c) :=
  decidable_of_iff (c ∈ s.caughtUp ∧ (s.nodes c).phase.rest.isEmpty = true)
    (and_congr_right fun _ => List.isEmpty_iff)

/-- A cache has nothing that is to be pushed. -/
def Clean (n : CacheNode) : Prop := ∀ row ∈ n.cache.rows, row.2.dirty = false
  deriving Decidable

/-! ### The condition -/

def canonicalKey (k : CacheKey) : Option CentralKey :=
  match resolveKey d none k with
  | .ok k' => if localKey d k' = some k then some k' else none
  | .error _ => none

/-- Every collector has an entry of a time, or has seen no such time. -/
def Timely (group : List String) (s : System) (k : CacheKey) (t : Timestamp) : Prop :=
  ∀ c ∈ group, Has (s.nodes c).cache k t ∨ Beyond (reach (s.nodes c)) t
  deriving Decidable

/-- **What a step has to find.** An app writes a key that central knows, later than the entry
that is there and at a time of its own. A push has entries that central has already or that are
timely, and when its response arrives, central accepts all of them. A row that is marked has not
been written since. The page of a pull does not end among entries of one time. -/
def KeepsUp (group : List String) (s : System) (a : String × Action) : Prop :=
  match a.2 with
  | .write k _ _ now => (canonicalKey d k).isSome ∧ ¬Has (s.nodes a.1).cache k now ∧
      ∀ w ∈ s.writes, w.1 = k → w.2.updatedAt ≠ now
  | .push allowed arrives =>
    (arrives = true → ∀ e ∈ nextBatch (s.nodes a.1), outcomeOf d allowed e.1 = .accepted) ∧
    ∀ e ∈ nextBatch (s.nodes a.1), ∀ k ∈ canonicalKey d e.1,
      HasCentral s.central k e.2.updatedAt ∨ Timely group s e.1 e.2.updatedAt
  | .mark => ∀ e ∈ nextMark (s.nodes a.1), ((s.nodes a.1).cache.get? e.key).isSome →
      e.key ∉ (s.nodes a.1).written
  | .pull rank limit now true =>
    ∀ last ∈ (s.page d a.1 rank limit now).entries.getLast?,
      ∀ row ∈ (selectUpdated rank (nextSince (s.nodes a.1)) s.central).drop limit,
        last.2.updatedAt ≠ row.2.updatedAt
  | _ => True

instance (d : Directory) (group : List String) (s : System) :
    ∀ a : String × Action, Decidable (KeepsUp d group s a)
  | (_, .write ..) => inferInstanceAs (Decidable (_ ∧ _ ∧ _))
  | (_, .push ..) => inferInstanceAs (Decidable (_ ∧ _))
  | (c, .mark) => inferInstanceAs (Decidable (∀ e ∈ nextMark (s.nodes c), _))
  | (c, .pull rank limit now true) =>
    inferInstanceAs (Decidable (∀ last ∈ (s.page d c rank limit now).entries.getLast?, _))
  | (_, .pull _ _ _ false) => isTrue trivial
  | (_, .readDirty _) => isTrue trivial
  | (_, .apply) => isTrue trivial
  | (_, .abort) => isTrue trivial
  | (_, .restart) => isTrue trivial

/-! ### The invariant -/

/-- A dirty row of a key is from a time or later. -/
def HasDirty (cache : LocalCache) (k : CacheKey) (t : Timestamp) : Prop :=
  ∃ row ∈ cache.get? k, row.dirty = true ∧ t ≤ row.updatedAt

/-- A row of central has reached a collector, or will when the loop goes on, or need not. -/
def Delivered (n : CacheNode) (now : Timestamp) (k : CacheKey) (e : CacheEntry) : Prop :=
  Has n.cache k e.updatedAt ∨ e.Expired now ∨ (k, e) ∈ n.phase.rest

/-- **The invariant of a collector.** -/
structure NodeInv (d : Directory) (writes : List (CacheKey × CacheEntry)) (central : CentralCache)
    (n : CacheNode) : Prop where
  /-- The rows have been written. -/
  rows : ∀ {k row}, n.cache.get? k = some row → (k, row.toCacheEntry) ∈ writes
  /-- Sent entries are those of their rows, unless these have been written. -/
  unwritten : Unwritten n
  /-- The rows of sent entries have not become older. -/
  sent : ∀ e ∈ n.phase.sent, e ∈ writes ∧ Has n.cache e.1 e.2.updatedAt
  /-- Central has what is to be marked. -/
  marked : ∀ e ∈ toMark n, ∀ k, canonicalKey d e.key = some k →
    HasCentral central k e.entry.updatedAt
  /-- The entries of a page have been written, and are later than the time asked for. -/
  page : ∀ {since page rest}, n.phase = .applying since page rest → page.entries ≠ [] ∧
    rest ⊆ page.entries ∧ (∀ e ∈ page.entries, Beyond since e.2.updatedAt ∧ e ∈ writes) ∧
    ∀ t, Beyond since t → Beyond (sinceOf n.lastPullAt) t
  /-- The time asked for is not earlier than that of the last pull. -/
  pulling : ∀ {since}, n.phase = .pulling since →
    ∀ t, Beyond since t → Beyond (sinceOf n.lastPullAt) t

/-- **The invariant.** -/
structure Inv (d : Directory) (group : List String) (s : System) : Prop where
  /-- The keys that are written are ones that central knows. -/
  canonical : ∀ w ∈ s.writes, ∃ k, canonicalKey d w.1 = some k
  /-- No key is written twice at one time. -/
  distinct : ∀ w ∈ s.writes, ∀ w' ∈ s.writes, w.1 = w'.1 → w.2.updatedAt = w'.2.updatedAt → w = w'
  /-- The rows of central have been written. -/
  central : ∀ {k e}, s.central.get? k = some e →
    ∃ k', canonicalKey d k' = some k ∧ (k', e) ∈ s.writes
  node : ∀ c, NodeInv d s.writes s.central (s.nodes c)
  /-- What has been written is at central, or dirty somewhere, or there is something newer. -/
  covered : ∀ w ∈ s.writes, ∀ k, canonicalKey d w.1 = some k →
    HasCentral s.central k w.2.updatedAt ∨ ∃ c ∈ group, HasDirty (s.nodes c).cache w.1 w.2.updatedAt
  /-- What is at central is delivered, or will be asked for. -/
  delivered : ∀ c ∈ group, ∀ {k e k'}, s.central.get? k = some e → canonicalKey d k' = some k →
    Delivered (s.nodes c) s.now k' e ∨ Beyond (reach (s.nodes c)) e.updatedAt
  /-- A collector that has been told that there is no more is not missing anything. -/
  caughtUp : ∀ c ∈ group, c ∈ s.caughtUp → ∀ {k e k'}, s.central.get? k = some e →
    canonicalKey d k' = some k → Delivered (s.nodes c) s.now k' e

theorem inv_start (group : List String) : Inv d group {} where
  canonical := by simp
  distinct := by simp
  central := fun h => by cases h
  node := fun _ => {
    rows := fun h => by cases h
    unwritten := .of_sent_nil rfl
    sent := by simp [Phase.sent]
    marked := by simp [toMark]
    page := fun h => by cases h
    pulling := fun h => by cases h }
  covered := by simp
  delivered := fun _ _ _ _ _ h => by cases h
  caughtUp := fun _ _ h => by cases h

end MonCTL.AppCache
