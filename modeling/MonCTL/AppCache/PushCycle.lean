import MonCTL.AppCache.SyncLoop
import MonCTL.Lib.Runs

/-!
# The Push Cycle

A local write should stay dirty until central has accepted its value. The sync loop reads the
dirty entries, sends them, and then marks rows as clean. It marks them by their keys, all that it
has sent: also a row that has been written again in the meantime, and a row whose entry central
has not accepted.

Apps write while the loop waits for central or for the database. What central does with a push
depends on its tables at that time, which are parameters of the step.
-/

namespace MonCTL.AppCache.PushCycle

open List Option

/-! ### The system -/

/-- A row that has been marked: the entry it held, and how central has dealt with the entry that
was sent for its key. -/
structure Mark where
  key : CacheKey
  entry : CacheEntry
  outcome : Outcome

/-- A cache node, the entries that central has accepted from it, and the rows it has marked. -/
structure System where
  node : CacheNode := {}
  accepted : List (CacheKey × CacheEntry) := []
  marks : List Mark := []

/-- What can happen. -/
inductive Action
  /-- An app writes. -/
  | set (k : CacheKey) (value : Json) (ttlSeconds : Option ℤ) (now : Timestamp)
  /-- An app reads. -/
  | get (k : CacheKey) (now : Timestamp)
  /-- An app deletes. -/
  | delete (k : CacheKey)
  /-- The loop starts, and reads the dirty entries. -/
  | readDirty (rank : CacheKey → ℕ)
  /-- Central handles a push; its response may get lost. -/
  | push (d : Directory) (allowed : Option (List Uuid)) (central : CentralCache) (arrives : Bool)
  /-- The loop marks an entry, or is done with marking. -/
  | mark
  /-- Central answers a pull, or does not. -/
  | pulled (response : Option PullResponse)
  /-- The loop merges an entry, or is done with a page. -/
  | apply
  /-- The loop raises. -/
  | abort
  /-- The cache node is restarted. -/
  | restart

def acceptedOf (batch : List (CacheKey × CacheEntry)) (outcomes : List Outcome) :
    List (CacheKey × CacheEntry) :=
  (batch.zip outcomes).filterMap fun e => if e.2 = .accepted then some e.1 else none

/-- The row that is marked next, if it is still there. -/
def newMark (n : CacheNode) : Option Mark :=
  (nextMark n).bind fun e => (n.cache.get? e.key).map fun row =>
    ⟨e.key, row.toCacheEntry, e.outcome⟩

def step (s : System) : Action → Option System
  | .set k value ttlSeconds now => some { s with node := s.node.set k value ttlSeconds now }
  | .get k now => some { s with node := s.node.get k now }
  | .delete k => some { s with node := s.node.delete k }
  | .readDirty rank => (readDirty rank s.node).map fun node => { s with node }
  | .push d allowed central arrives =>
    let batch := nextBatch s.node
    let outcomes := (pushAppCache d allowed batch central).map Prod.fst
    (receivePush (if arrives then outcomes else none) s.node).map fun node =>
      { s with node, accepted := s.accepted ++ acceptedOf batch (outcomes.getD []) }
  | .mark => (markNext s.node).map fun node =>
    { s with node, marks := s.marks ++ (newMark s.node).toList }
  | .pulled response => (receivePull response s.node).map fun node => { s with node }
  | .apply => (applyNext s.node).map fun node => { s with node }
  | .abort => some { s with node := abort s.node }
  | .restart => some { s with node := restart s.node }

/-- **What a step has to find**: when central's answer arrives, all entries that are sent are ones
that central accepts; and a row that is marked has not been written since the dirty entries were
read. -/
def KeepsWrites (s : System) : Action → Prop
  | .push d allowed _ true => ∀ e ∈ nextBatch s.node, outcomeOf d allowed e.1 = .accepted
  | .mark => ∀ e ∈ nextMark s.node, (s.node.cache.get? e.key).isSome → e.key ∉ s.node.written
  | _ => True

instance (s : System) : ∀ a, Decidable (KeepsWrites s a)
  | .push _ _ _ true => inferInstanceAs (Decidable (∀ e ∈ nextBatch s.node, _))
  | .mark => inferInstanceAs (Decidable (∀ e ∈ nextMark s.node, _))
  | .push _ _ _ false => isTrue trivial
  | .set .. => isTrue trivial
  | .get .. => isTrue trivial
  | .delete _ => isTrue trivial
  | .readDirty _ => isTrue trivial
  | .pulled _ => isTrue trivial
  | .apply => isTrue trivial
  | .abort => isTrue trivial
  | .restart => isTrue trivial

/-! ### The invariant -/

/-- The keys that have been written since the last read have dirty rows. -/
def WrittenDirty (n : CacheNode) : Prop :=
  ∀ k ∈ n.written, ∃ row ∈ n.cache.get? k, row.dirty = true

/-- **The invariant**: sent entries are those of their rows, unless these have been written; rows
that have been written are dirty; and what is marked, or to be marked, has been accepted. -/
structure Inv (s : System) : Prop where
  unwritten : Unwritten s.node
  written : WrittenDirty s.node
  toMark : ∀ e ∈ toMark s.node, e.outcome = .accepted ∧ (e.key, e.entry) ∈ s.accepted
  marks : ∀ m ∈ s.marks, m.outcome = .accepted ∧ (m.key, m.entry) ∈ s.accepted

theorem inv_start : Inv {} where
  unwritten := .of_sent_nil rfl
  written := by simp [WrittenDirty]
  toMark := by simp [AppCache.toMark]
  marks := by simp

section Steps

variable {s s' : System} {n n' : CacheNode}

/-! ### Dirty rows -/

theorem WrittenDirty.set (h : WrittenDirty n) (k : CacheKey) (value : Json)
    (ttlSeconds : Option ℤ) (now : Timestamp) : WrittenDirty (n.set k value ttlSeconds now) := by
  intro k' hk'
  rw [CacheNode.set, get?_appCacheSet]
  split
  · exact ⟨_, rfl, rfl⟩
  next hne => exact h k' ((List.mem_insert_iff.1 hk').resolve_left hne)

theorem WrittenDirty.get (h : WrittenDirty n) (k : CacheKey) (now : Timestamp) :
    WrittenDirty (n.get k now) := by
  intro k' hk'
  obtain ⟨hmem, hthere⟩ := List.mem_filter.1 hk'
  rcases get?_appCacheGet k k' now n.cache with hsame | ⟨-, hnone⟩
  · rw [CacheNode.get, hsame]
    exact h k' hmem
  · rw [hnone] at hthere
    cases hthere

theorem WrittenDirty.delete (h : WrittenDirty n) (k : CacheKey) : WrittenDirty (n.delete k) := by
  intro k' hk'
  obtain ⟨hmem, hne⟩ := List.mem_filter.1 hk'
  rw [CacheNode.delete, appCacheDelete, Table.get?_erase, if_neg (by simpa using hne)]
  exact h k' hmem

theorem readDirty_written {rank : CacheKey → ℕ} (h : readDirty rank n = some n') :
    n'.written = [] ∧ toMark n' = [] := by
  rw [readDirty] at h
  split at h
  · cases h
    refine ⟨rfl, ?_⟩
    rw [toMark]
    split
    next rest hphase =>
      dsimp only at hphase
      split at hphase <;> cases hphase
    · rfl
  · cases h

theorem WrittenDirty.markNext (h : WrittenDirty n) (hmark : markNext n = some n')
    (hkeeps : ∀ e ∈ nextMark n, (n.cache.get? e.key).isSome → e.key ∉ n.written) :
    WrittenDirty n' := by
  rw [AppCache.markNext] at hmark
  split at hmark
  next e₀ rest hphase =>
    cases hmark
    have hnot := hkeeps e₀ (by rw [nextMark, hphase]; rfl)
    intro k hk
    obtain ⟨row, hrow, hdirty⟩ := h k hk
    have hne : k ≠ e₀.key := by
      rintro rfl
      exact hnot (isSome_iff_exists.2 ⟨row, hrow⟩) hk
    rw [get?_markClean, if_neg hne]
    exact ⟨row, hrow, hdirty⟩
  · cases hmark
    exact h
  · cases hmark

theorem WrittenDirty.applyNext (h : WrittenDirty n) (happly : applyNext n = some n') :
    WrittenDirty n' := by
  rw [AppCache.applyNext] at happly
  split at happly
  next since page e rest hphase =>
    cases happly
    intro k hk
    obtain ⟨row, hrow, hdirty⟩ := h k hk
    rw [get?_upsertFromCentral]
    split
    next hkey =>
      subst hkey
      rw [hrow]
      exact ⟨_, rfl, hdirty⟩
    · exact ⟨row, hrow, hdirty⟩
  · obtain ⟨last, -, rfl⟩ := map_eq_some_iff.1 happly
    exact h
  · cases happly

/-! ### The answer of central -/

variable {batch : List (CacheKey × CacheEntry)}

theorem mem_acceptedOf {outcomes : List Outcome}
    {e : (CacheKey × CacheEntry) × Outcome} (he : e ∈ batch.zip outcomes)
    (haccepted : e.2 = .accepted) : e.1 ∈ acceptedOf batch outcomes :=
  List.mem_filterMap.2 ⟨e, he, if_pos haccepted⟩

variable {outcomes : Option (List Outcome)}

theorem toMark_receivePush (hpush : receivePush outcomes n = some n')
    (haccepted : ∀ os ∈ outcomes, ∀ o ∈ os, o = .accepted) :
    ∀ e ∈ toMark n', e.outcome = .accepted ∧
      (e.key, e.entry) ∈ acceptedOf (nextBatch n) (outcomes.getD []) := by
  rw [receivePush] at hpush
  split at hpush
  next batch hphase =>
    cases hpush
    intro e he
    cases outcomes with
    | none => cases he
    | some os =>
      obtain ⟨pair, hpair, rfl⟩ := List.mem_map.1 he
      have ho : pair.2 = .accepted := haccepted os rfl pair.2 (of_mem_zip hpair).2
      rw [nextBatch, hphase]
      exact ⟨ho, mem_acceptedOf hpair ho⟩
  · cases hpush

theorem receivePush_written
    (h : receivePush outcomes n = some n') : n'.cache = n.cache ∧ n'.written = n.written := by
  rw [receivePush] at h
  split at h
  · cases h
    exact ⟨rfl, rfl⟩
  · cases h

theorem outcomes_accepted {d : Directory} {allowed : Option (List Uuid)} {central : CentralCache}
    (h : ∀ e ∈ batch, outcomeOf d allowed e.1 = .accepted) :
    ∀ os ∈ (pushAppCache d allowed batch central).map Prod.fst, ∀ o ∈ os, o = .accepted := by
  intro os hos o ho
  obtain ⟨⟨outcomes, central'⟩, hresult, rfl⟩ := map_eq_some_iff.1 hos
  rw [(pushAppCache_spec hresult).1] at ho
  obtain ⟨e, he, rfl⟩ := List.mem_map.1 ho
  exact h e he

/-! ### Marking -/

theorem mem_newMark {m : Mark} (hunwritten : Unwritten n)
    (hkeeps : ∀ e ∈ nextMark n, (n.cache.get? e.key).isSome → e.key ∉ n.written)
    (hm : m ∈ newMark n) : ∃ e ∈ toMark n, m = ⟨e.key, e.entry, e.outcome⟩ := by
  obtain ⟨e, he, hm⟩ := bind_eq_some_iff.1 hm
  obtain ⟨row, hrow, rfl⟩ := map_eq_some_iff.1 hm
  have hnot := hkeeps e he (isSome_iff_exists.2 ⟨row, hrow⟩)
  rw [nextMark] at he
  split at he
  next rest hphase =>
    cases he
    rw [Unwritten, hphase] at hunwritten
    have hentry := hunwritten (e.key, e.entry) (mem_cons_self ..) hnot row hrow
    refine ⟨e, ?_, by rw [hentry]⟩
    rw [toMark, hphase]
    exact mem_cons_self ..
  · cases he

theorem toMark_markNext (h : markNext n = some n') : toMark n' ⊆ toMark n := by
  rw [markNext] at h
  split at h
  next e rest hphase =>
    cases h
    rw [toMark, toMark, hphase]
    exact subset_cons_self ..
  · cases h
    exact nil_subset _
  · cases h

theorem toMark_receivePull {response : Option PullResponse} (h : receivePull response n = some n') :
    toMark n' = [] ∧ n'.cache = n.cache ∧ n'.written = n.written := by
  rw [receivePull] at h
  split at h
  · cases h
    refine ⟨?_, rfl, rfl⟩
    cases response with
    | none => rfl
    | some page =>
      rw [toMark]
      dsimp only
      split
      next rest hphase => split at hphase <;> cases hphase
      · rfl
  · cases h

theorem toMark_applyNext (h : applyNext n = some n') : toMark n' = [] := by
  rw [applyNext] at h
  split at h
  · cases h
    rfl
  next page _ =>
    obtain ⟨last, -, rfl⟩ := map_eq_some_iff.1 h
    rw [toMark]
    dsimp only
    split
    next rest hphase => split at hphase <;> cases hphase
    · rfl
  · cases h

/-! ### Steps -/

theorem Inv.of_toMark_nil (h : Inv s) (hunwritten : Unwritten n) (hwritten : WrittenDirty n)
    (hnil : AppCache.toMark n = []) : Inv { s with node := n } where
  unwritten := hunwritten
  written := hwritten
  toMark := by simp [hnil]
  marks := h.marks

/-- **The step**: a step that meets the condition keeps the invariant. -/
theorem step_inv {a : Action} (h : Inv s) (hkeeps : KeepsWrites s a) (hstep : step s a = some s') :
    Inv s' := by
  cases a with
  | set k value ttlSeconds now =>
    cases hstep
    exact ⟨h.unwritten.set k value ttlSeconds now, h.written.set k value ttlSeconds now,
      h.toMark, h.marks⟩
  | get k now =>
    cases hstep
    exact ⟨h.unwritten.get k now, h.written.get k now, h.toMark, h.marks⟩
  | delete k =>
    cases hstep
    exact ⟨h.unwritten.delete k, h.written.delete k, h.toMark, h.marks⟩
  | readDirty rank =>
    obtain ⟨n, hn, rfl⟩ := map_eq_some_iff.1 hstep
    obtain ⟨hwritten, hnil⟩ := readDirty_written hn
    refine h.of_toMark_nil (Unwritten.readDirty hn) ?_ hnil
    rw [WrittenDirty, hwritten]
    simp
  | push d allowed central arrives =>
    obtain ⟨n, hn, rfl⟩ := map_eq_some_iff.1 hstep
    obtain ⟨hcache, hwritten⟩ := receivePush_written hn
    refine ⟨h.unwritten.receivePush hn, ?_, ?_, fun m hm => ?_⟩
    · rw [WrittenDirty, hcache, hwritten]
      exact h.written
    · cases arrives with
      | true =>
        intro e he
        rw [if_pos rfl] at hn
        obtain ⟨houtcome, hmem⟩ := toMark_receivePush hn (outcomes_accepted hkeeps) e he
        exact ⟨houtcome, mem_append_right _ hmem⟩
      | false =>
        intro e he
        rw [if_neg Bool.false_ne_true] at hn
        obtain ⟨-, hmem⟩ := toMark_receivePush hn (by simp) e he
        rw [getD_none, acceptedOf, zip_nil_right] at hmem
        cases hmem
    · exact (h.marks m hm).imp_right (mem_append_left _)
  | mark =>
    obtain ⟨n, hn, rfl⟩ := map_eq_some_iff.1 hstep
    refine ⟨h.unwritten.markNext hn, h.written.markNext hn hkeeps,
      fun e he => h.toMark e (toMark_markNext hn he), fun m hm => ?_⟩
    rcases List.mem_append.1 hm with hm | hm
    · exact h.marks m hm
    · obtain ⟨e, he, rfl⟩ := mem_newMark h.unwritten hkeeps (Option.mem_toList.1 hm)
      exact h.toMark e he
  | pulled response =>
    obtain ⟨n, hn, rfl⟩ := map_eq_some_iff.1 hstep
    obtain ⟨hnil, hcache, hwritten⟩ := toMark_receivePull hn
    refine h.of_toMark_nil (Unwritten.receivePull hn) ?_ hnil
    rw [WrittenDirty, hcache, hwritten]
    exact h.written
  | apply =>
    obtain ⟨n, hn, rfl⟩ := map_eq_some_iff.1 hstep
    exact h.of_toMark_nil (Unwritten.applyNext hn) (h.written.applyNext hn) (toMark_applyNext hn)
  | abort =>
    cases hstep
    exact h.of_toMark_nil (.of_sent_nil rfl) h.written rfl
  | restart =>
    cases hstep
    exact h.of_toMark_nil (.of_sent_nil rfl) h.written rfl

end Steps

/-! ### Runs -/

/-- **The run**: in a run whose steps all meet the condition, a row that is marked holds an entry
that central has accepted, an entry that central has not accepted is marked only if central has
reported it, and a key that has been written since the dirty entries were read has a dirty row. -/
theorem marked_accepted {s : System} (h : Run step KeepsWrites {} s) :
    (∀ m ∈ s.marks, (m.key, m.entry) ∈ s.accepted) ∧
      (∀ m ∈ s.marks, m.outcome ≠ .accepted → m.outcome.reported = true) ∧
      ∀ k ∈ s.node.written, ∀ row ∈ s.node.cache.get? k, row.dirty = true := by
  have hinv := h.invariant (I := Inv) inv_start step_inv
  refine ⟨fun m hm => (hinv.marks m hm).2, fun m hm hne => ?_, fun k hk row hrow => ?_⟩
  · exact absurd (hinv.marks m hm).1 hne
  · obtain ⟨row', hrow', hdirty⟩ := hinv.written k hk
    cases hrow'.symm.trans hrow
    exact hdirty

/-! ### One key -/

/-- An app and a device that central knows. -/
def directory : Directory where
  apps := [("arp", "11111111-1111-1111-1111-111111111111")]
  devices := ["22222222-2222-2222-2222-222222222222"]

/-- A key of that app and device. -/
def tableKey : CacheKey := ⟨"arp", "22222222-2222-2222-2222-222222222222", "table"⟩

/-- The app writes, and the value is pushed. -/
def pushOnce : List Action :=
  [.set tableKey (.obj []) none 1, .readDirty fun _ => 0, .push directory none {} true, .mark]

theorem marked_accepted_pushOnce : ∃ s, Run step KeepsWrites {} s ∧ s.marks.length = 1 ∧
      ∀ m ∈ s.marks, (m.key, m.entry) ∈ s.accepted := by
  have hreplay : ∃ s ∈ replay step KeepsWrites {} pushOnce, s.marks.length = 1 := by decide +kernel
  obtain ⟨s, hs, hlength⟩ := hreplay
  have hrun : Run step KeepsWrites {} s := run_of_replay hs
  exact ⟨s, hrun, hlength, (marked_accepted hrun).1⟩

/-- The app writes again while the first value is being sent. -/
def writeWhileSending : List Action :=
  [.set tableKey (.obj []) none 1, .readDirty fun _ => 0, .set tableKey (.obj []) none 2,
    .push directory none {} true, .mark]

/-- The row is marked although central has accepted the first value only. -/
theorem not_marked_accepted :
    ¬∀ s, Run step (fun _ _ => True) {} s → ∀ m ∈ s.marks, (m.key, m.entry) ∈ s.accepted := by
  intro h
  have hlost : ∃ s ∈ replay step (fun _ _ => True) {} writeWhileSending,
      ∃ m ∈ s.marks, ∀ e ∈ s.accepted, e.2.updatedAt ≠ m.entry.updatedAt := by
    decide +kernel
  obtain ⟨s, hs, m, hm, hne⟩ := hlost
  exact hne _ (h s (run_of_replay hs) m hm) rfl

end MonCTL.AppCache.PushCycle
