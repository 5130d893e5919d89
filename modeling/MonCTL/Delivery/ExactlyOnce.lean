import MonCTL.Delivery.Accounts

/-!
# How Often a Result Is Appended

The batch id is a digest of the ids of the rows, and central marks it when it is done. A retry
is recognised when it has the rows of the first attempt and central has finished with that. The
forwarder, however, posts whatever is unsent, and central may still be at work.

In the runs in which the mechanism can do its work no row is appended twice: no row is posted
while a request with it is pending, and a batch has rows that are all new to central or is one
that central has marked. In all runs a row that is marked as sent has been appended, or central
has skipped it or turned it down.
-/

namespace MonCTL.Delivery

open List Collector CollectorApi

/-! ### The condition -/

/-- Two batches without a common row, and with different ids. -/
def Apart (cfg : Config) (rows rows' : List (ℕ × CollectorResult)) : Prop :=
  (∀ id ∈ rows.map Prod.fst, id ∉ rows'.map Prod.fst) ∧ cfg.batch rows ≠ cfg.batch rows'

/-- Central has marked a batch and worked through all of its rows, or it has done neither for
the batch nor for any row. -/
def Settled (cfg : Config) (s : System) (rows : List (ℕ × CollectorResult)) : Prop :=
  (s.central.isDuplicate (cfg.request rows) = true ∧ ∀ id ∈ rows.map Prod.fst, id ∈ s.processed) ∨
    (s.central.isDuplicate (cfg.request rows) = false ∧ ∀ id ∈ rows.map Prod.fst, id ∉ s.processed)

/-- **The condition on a step**: a batch is posted apart from all pending requests, and settled;
and a mark expires when no pending request has its id. -/
def Keeps (cfg : Config) (s : System) : Action → Prop
  | .flush =>
    (∀ q ∈ s.requests, Apart cfg (dequeueResults s.table batchSize) q.rows) ∧
      Settled cfg s (dequeueResults s.table batchSize)
  | .expire batch => ∀ q ∈ s.requests, cfg.batch q.rows ≠ batch
  | _ => True

instance (cfg : Config) (s : System) (a : Action) : Decidable (Keeps cfg s a) := by
  unfold Keeps Apart Settled
  split <;> infer_instance

/-! ### The invariant -/

/-- What a pending request relies on in its phase. -/
def Request.Ready (cfg : Config) (s : System) (q : Request) : Prop :=
  match q.phase with
  | .posted => Settled cfg s q.rows
  | .checked => ∀ id ∈ q.ids, id ∉ s.processed
  | .ingested => ∀ id ∈ q.ids, id ∈ s.processed

/-- **The invariant**: rows and requests are told apart, pending requests are apart and ready,
and nothing is processed twice. -/
structure Inv (cfg : Config) (s : System) : Prop where
  ids_lt : ∀ r ∈ s.table, r.id < s.nextId
  ids_nodup : (s.table.map (·.id)).Nodup
  tags_lt : ∀ q ∈ s.requests, q.tag < s.nextTag
  rows_nodup : ∀ q ∈ s.requests, q.ids.Nodup
  apart : ∀ q ∈ s.requests, ∀ q' ∈ s.requests, q.tag ≠ q'.tag → Apart cfg q.rows q'.rows
  same : ∀ q ∈ s.requests, ∀ q' ∈ s.requests, q.tag = q'.tag → q = q'
  ready : ∀ q ∈ s.requests, q.Ready cfg s
  once : s.processed.Nodup

variable {cfg : Config}

theorem Apart.symm {rows rows' : List (ℕ × CollectorResult)}
    (h : Apart cfg rows rows') : Apart cfg rows' rows :=
  ⟨fun id hid hid' => h.1 id hid' hid, fun heq => h.2 heq.symm⟩

theorem inv_init (cfg : Config) : Inv cfg {} := by
  constructor
  case ids_nodup => exact nodup_nil
  case once => exact nodup_nil
  all_goals simp

namespace Inv

variable {cfg : Config} {s : System} {q : Request} {others : List Request} {tag : ℕ} {phase : Phase}

/-! ### Steps on the table -/

variable {table : ResultsTable CollectorResult}

theorem setTable {nextId : ℕ} (h : Inv cfg s)
    (hlt : ∀ r ∈ table, r.id < nextId) (hnodup : (table.map (·.id)).Nodup) :
    Inv cfg { s with table, nextId } :=
  { h with ids_lt := hlt, ids_nodup := hnodup }

theorem enqueue (h : Inv cfg s) (result : CollectorResult) (now : Timestamp) :
    Inv cfg { s with table := enqueueResult s.table s.nextId result now,
                     nextId := s.nextId + 1 } := by
  refine h.setTable ?_ ?_
  · intro r hr
    rcases List.mem_append.1 hr with hr | hr
    · exact Nat.lt_succ_of_lt (h.ids_lt r hr)
    · obtain rfl := List.mem_singleton.1 hr
      exact Nat.lt_succ_self _
  · rw [enqueueResult, map_append]
    refine List.nodup_append.2 ⟨h.ids_nodup, nodup_singleton _, ?_⟩
    rintro id hid id' hid' rfl
    obtain ⟨r, hr, rfl⟩ := List.mem_map.1 hid
    exact absurd (h.ids_lt r hr) (by simp [List.mem_singleton.1 hid'])

theorem subtable (h : Inv cfg s)
    (hsub : table.Sublist s.table) : Inv cfg { s with table } :=
  h.setTable (fun r hr => h.ids_lt r (hsub.subset hr)) (h.ids_nodup.sublist (hsub.map _))

/-! ### Steps on the requests -/

/-- The requests may change as long as each of the new ones stands for an old one and is
ready. -/
theorem setRequests {requests : List Request} (h : Inv cfg s)
    (hold : ∀ q ∈ requests, ∃ q' ∈ s.requests, q'.tag = q.tag ∧ q'.rows = q.rows)
    (hsame : ∀ q ∈ requests, ∀ q' ∈ requests, q.tag = q'.tag → q = q')
    (hready : ∀ q ∈ requests, q.Ready cfg s) : Inv cfg { s with requests } := by
  refine { h with
    tags_lt := ?_
    rows_nodup := ?_
    apart := ?_
    same := hsame
    ready := hready }
  · intro q hq
    obtain ⟨q', hq', htag, -⟩ := hold q hq
    exact htag ▸ h.tags_lt q' hq'
  · intro q hq
    obtain ⟨q', hq', -, hrows⟩ := hold q hq
    have hnodup := h.rows_nodup q' hq'
    rwa [Request.ids, hrows] at hnodup
  · intro q₁ hq₁ q₂ hq₂ hne
    obtain ⟨q₁', hq₁', htag₁, hrows₁⟩ := hold q₁ hq₁
    obtain ⟨q₂', hq₂', htag₂, hrows₂⟩ := hold q₂ hq₂
    rw [← hrows₁, ← hrows₂]
    exact h.apart q₁' hq₁' q₂' hq₂' (by rwa [htag₁, htag₂])

theorem remove (h : Inv cfg s) (htake : s.take tag phase = some (q, others)) :
    Inv cfg { s with requests := others } := by
  obtain ⟨-, -, -, rfl⟩ := System.mem_of_take htake
  have hmem : ∀ q ∈ s.requests.filter (·.tag ≠ tag), q ∈ s.requests := fun q hq =>
    (List.mem_filter.1 hq).1
  exact h.setRequests (fun q hq => ⟨q, hmem q hq, rfl, rfl⟩)
    (fun q hq q' hq' => h.same q (hmem q hq) q' (hmem q' hq')) fun q hq => h.ready q (hmem q hq)

theorem cons (h : Inv cfg s) (hlt : q.tag < s.nextTag) (hnodup : q.ids.Nodup)
    (hapart : ∀ q' ∈ s.requests, q.tag ≠ q'.tag ∧ Apart cfg q.rows q'.rows)
    (hready : q.Ready cfg s) : Inv cfg { s with requests := q :: s.requests } := by
  refine { h with
    tags_lt := List.forall_mem_cons.2 ⟨hlt, h.tags_lt⟩
    rows_nodup := List.forall_mem_cons.2 ⟨hnodup, h.rows_nodup⟩
    apart := ?_
    same := ?_
    ready := List.forall_mem_cons.2 ⟨hready, h.ready⟩ }
  · intro q₁ hq₁ q₂ hq₂ htag
    rcases List.mem_cons.1 hq₁ with rfl | hmem₁
    · rcases List.mem_cons.1 hq₂ with rfl | hmem₂
      · exact absurd rfl htag
      · exact (hapart q₂ hmem₂).2
    · rcases List.mem_cons.1 hq₂ with rfl | hmem₂
      · exact (hapart q₁ hmem₁).2.symm
      · exact h.apart q₁ hmem₁ q₂ hmem₂ htag
  · intro q₁ hq₁ q₂ hq₂ htag
    rcases List.mem_cons.1 hq₁ with rfl | hmem₁
    · rcases List.mem_cons.1 hq₂ with rfl | hmem₂
      · rfl
      · exact absurd htag (hapart q₂ hmem₂).1
    · rcases List.mem_cons.1 hq₂ with rfl | hmem₂
      · exact absurd htag.symm (hapart q₁ hmem₁).1
      · exact h.same q₁ hmem₁ q₂ hmem₂ htag

theorem apart_of_take (h : Inv cfg s) (htake : s.take tag phase = some (q, others)) :
    ∀ q' ∈ others, q.tag ≠ q'.tag ∧ Apart cfg q.rows q'.rows := by
  obtain ⟨hq, rfl, -, rfl⟩ := System.mem_of_take htake
  intro q' hq'
  obtain ⟨hmem, hne⟩ : q' ∈ s.requests ∧ q'.tag ≠ q.tag := by simpa using List.mem_filter.1 hq'
  exact ⟨hne.symm, h.apart q hq q' hmem hne.symm⟩

theorem advance (h : Inv cfg s) (htake : s.take tag phase = some (q, others)) {phase' : Phase}
    (hready : Request.Ready cfg s { q with phase := phase' }) :
    Inv cfg { s with requests := { q with phase := phase' } :: others } := by
  have hq := (System.mem_of_take htake).1
  have hapart := h.apart_of_take htake
  exact (h.remove htake).cons (h.tags_lt q hq) (h.rows_nodup q hq) hapart hready

theorem answer (h : Inv cfg s) (htake : s.take tag phase = some (q, others)) (status : ℕ) :
    Inv cfg (s.answer q others status) := by
  unfold System.answer
  cases q.awaited with
  | false => exact h.remove htake
  | true =>
    have hids := map_id_finishFlush s.table q.ids (some status)
    refine (h.remove htake).setTable ?_ (hids ▸ h.ids_nodup)
    intro r hr
    have hmem : r.id ∈ s.table.map (·.id) := hids ▸ mem_map_of_mem hr
    obtain ⟨r', hr', heq⟩ := List.mem_map.1 hmem
    exact heq ▸ h.ids_lt r' hr'

theorem giveUp (h : Inv cfg s) (tag : ℕ) : Inv cfg { s with
      requests := s.requests.map fun q => if q.tag = tag then
      { q with awaited := false } else q } := by
  have hold : ∀ q ∈ s.requests.map fun q => if q.tag = tag then { q with awaited := false } else q,
      ∃ q' ∈ s.requests, q = (if q'.tag = tag then { q' with awaited := false } else q') := by
    intro q hq
    obtain ⟨q', hq', rfl⟩ := List.mem_map.1 hq
    exact ⟨q', hq', rfl⟩
  refine h.setRequests ?_ ?_ ?_
  · intro q hq
    obtain ⟨q', hq', rfl⟩ := hold q hq
    exact ⟨q', hq', by split <;> rfl, by split <;> rfl⟩
  · intro q₁ hq₁ q₂ hq₂ htag
    obtain ⟨q₁', hq₁', rfl⟩ := hold q₁ hq₁
    obtain ⟨q₂', hq₂', rfl⟩ := hold q₂ hq₂
    have htag' : q₁'.tag = q₂'.tag := by simpa only [apply_ite Request.tag, ite_self] using htag
    rw [h.same q₁' hq₁' q₂' hq₂' htag']
  · intro q hq
    obtain ⟨q', hq', rfl⟩ := hold q hq
    have hready := h.ready q' hq'
    split
    · exact hready
    · exact hready

theorem flush (h : Inv cfg s) (hkeeps : Keeps cfg s .flush) : Inv cfg { s with
      nextTag := s.nextTag + 1
      posted := dequeueResults s.table batchSize :: s.posted
      requests := ⟨s.nextTag, dequeueResults s.table batchSize, .posted, true⟩ :: s.requests } := by
  obtain ⟨hapart, hsettled⟩ := hkeeps
  have hnext : Inv cfg { s with
      nextTag := s.nextTag + 1, posted := dequeueResults s.table batchSize :: s.posted } :=
    { h with tags_lt := fun q hq => Nat.lt_succ_of_lt (h.tags_lt q hq) }
  exact hnext.cons (Nat.lt_succ_self _) (nodup_ids_dequeueResults h.ids_nodup _)
    (fun q hq => ⟨(h.tags_lt q hq).ne', hapart q hq⟩) hsettled

/-! ### Steps of central -/

theorem setCentral {central : Central} (h : Inv cfg s)
    (hmarks : ∀ q ∈ s.requests, q.phase = .posted →
      central.isDuplicate (cfg.request q.rows) = s.central.isDuplicate (cfg.request q.rows)) :
    Inv cfg { s with central } := by
  refine { h with ready := ?_ }
  intro q hq
  have hready := h.ready q hq
  unfold Request.Ready at hready ⊢
  split
  · next hphase =>
    rw [hphase] at hready
    unfold Settled
    rw [hmarks q hq hphase]
    exact hready
  · next hphase =>
    rw [hphase] at hready
    exact hready
  · next hphase =>
    rw [hphase] at hready
    exact hready

theorem expire (h : Inv cfg s) {batch : String} (hkeeps : Keeps cfg s (.expire batch)) :
    Inv cfg { s with
      central := { s.central with batchSeen := s.central.batchSeen.filter (· ≠ batch) } } := by
  refine h.setCentral fun q hq _ => ?_
  have hne : cfg.batch q.rows ≠ batch := hkeeps q hq
  have hcontains : (s.central.batchSeen.filter (· ≠ batch)).contains (cfg.batch q.rows) =
      s.central.batchSeen.contains (cfg.batch q.rows) := by
    simp [hne]
  rw [isDuplicate_request, isDuplicate_request, hcontains]

theorem mark (h : Inv cfg s) (htake : s.take tag .ingested = some (q, others)) :
    Inv cfg { s with central := s.central.mark (cfg.request q.rows) } := by
  obtain ⟨hq, -, hphase, -⟩ := System.mem_of_take htake
  refine h.setCentral fun q' hq' hposted => ?_
  have htag : q.tag ≠ q'.tag := by
    intro htag
    rw [h.same q hq q' hq' htag, hposted] at hphase
    cases hphase
  have hne : cfg.batch q'.rows ≠ cfg.batch q.rows := (h.apart q hq q' hq' htag).2.symm
  rw [isDuplicate_request, isDuplicate_request, batchSeen_mark]
  split
  · rfl
  · simp [hne]

variable {verdicts : List Verdict}

theorem log (h : Inv cfg s) {rows : List (ℕ × CollectorResult)}
    (hlength : verdicts.length = rows.length) (hnodup : (rows.map Prod.fst).Nodup)
    (hfresh : ∀ id ∈ rows.map Prod.fst, id ∉ s.processed)
    (hapart : ∀ q ∈ s.requests, Apart cfg rows q.rows) :
    Inv cfg { s with
      central := s.central.appendRows verdicts
      log := s.log ++ (rows.map Prod.fst).zip verdicts } := by
  -- What is processed now is what was, and these rows.
  have hprocessed : (s.log ++ (rows.map Prod.fst).zip verdicts).map Prod.fst =
      s.processed ++ rows.map Prod.fst := by
    rw [map_append, map_fst_zip (by simp [hlength]), System.processed]
  have hmem : ∀ id, id ∈ (s.log ++ (rows.map Prod.fst).zip verdicts).map Prod.fst ↔
      id ∈ s.processed ∨ id ∈ rows.map Prod.fst := by
    intro id
    rw [hprocessed, mem_append]
  refine { h with ready := ?_, once := ?_ }
  · intro q hq
    have hready := h.ready q hq
    have hothers : ∀ id ∈ q.ids, id ∉ rows.map Prod.fst :=
      fun id hid hid' => (hapart q hq).1 id hid' hid
    unfold Request.Ready at hready ⊢
    split
    · next hphase =>
      rw [hphase] at hready
      obtain ⟨hdup, hids⟩ | ⟨hdup, hids⟩ := hready
      · refine .inl ⟨?_, fun id hid => (hmem id).2 (.inl (hids id hid))⟩
        rwa [isDuplicate_request, batchSeen_appendRows, ← isDuplicate_request]
      · refine .inr ⟨?_, fun id hid hid' => ?_⟩
        · rwa [isDuplicate_request, batchSeen_appendRows, ← isDuplicate_request]
        · exact ((hmem id).1 hid').elim (hids id hid) (hothers id hid)
    · next hphase =>
      rw [hphase] at hready
      exact fun id hid hid' => ((hmem id).1 hid').elim (hready id hid) (hothers id hid)
    · next hphase =>
      rw [hphase] at hready
      exact fun id hid => (hmem id).2 (.inl (hready id hid))
  · change (List.map Prod.fst _).Nodup
    rw [hprocessed]
    refine List.nodup_append.2 ⟨h.once, hnodup, ?_⟩
    rintro id hid id' hid' rfl
    exact hfresh id hid' hid

theorem ingest (h : Inv cfg s) (htake : s.take tag .checked = some (q, others))
    (hlength : verdicts.length = q.rows.length) :
    Inv cfg { s with
      requests := { q with phase := .ingested } :: others
      central := s.central.appendRows verdicts
      log := s.log ++ q.ids.zip verdicts } := by
  obtain ⟨hq, -, hphase, -⟩ := System.mem_of_take htake
  have hfresh := h.ready q hq
  rw [Request.Ready, hphase] at hfresh
  have hapart := h.apart_of_take htake
  have hlogged := (h.remove htake).log hlength (h.rows_nodup q hq) hfresh
    fun q' hq' => (hapart q' hq').2
  refine hlogged.cons (h.tags_lt q hq) (h.rows_nodup q hq) hapart fun id hid => ?_
  have hzip : (q.ids.zip verdicts).map Prod.fst = q.ids :=
    map_fst_zip (by simp [Request.ids, hlength])
  change id ∈ List.map Prod.fst (s.log ++ q.ids.zip verdicts)
  rw [map_append, hzip]
  exact mem_append_right _ hid

end Inv

/-! ### Runs -/

variable {s : System}

theorem Inv.check {q : Request} {others : List Request} {tag : ℕ}
    (h : Inv cfg s) (htake : s.take tag .posted = some (q, others)) :
    Inv cfg (if s.central.isDuplicate (cfg.request q.rows) then s.answer q others 202
      else { s with requests := { q with phase := .checked } :: others }) := by
  obtain ⟨hq, -, hphase, -⟩ := System.mem_of_take htake
  have hready := h.ready q hq
  rw [Request.Ready, hphase] at hready
  obtain ⟨hdup, -⟩ | ⟨hdup, hids⟩ := hready
  · rw [if_pos hdup]
    exact h.answer htake 202
  · rw [hdup, if_neg Bool.false_ne_true]
    exact h.advance htake hids

/-- **Every step under the condition keeps the invariant.** -/
theorem Inv.step {s' : System} {a : Action} (h : Inv cfg s) (hkeeps : Keeps cfg s a)
    (hs : step cfg s a = some s') : Inv cfg s' := by
  cases a with
  | enqueue result now =>
    cases hs
    exact h.enqueue result now
  | flush =>
    simp only [Delivery.step] at hs
    split at hs
    · cases hs
    · cases hs
      exact h.flush hkeeps
  | giveUp tag =>
    cases hs
    exact h.giveUp tag
  | lose tag =>
    obtain ⟨⟨q, others⟩, htake, hs⟩ := Option.bind_eq_some_iff.1 hs
    cases hs
    exact h.remove htake
  | refuse tag =>
    obtain ⟨⟨q, others⟩, htake, hs⟩ := Option.bind_eq_some_iff.1 hs
    cases hs
    have hrefused : Inv cfg { s with refused := s.refused ++ q.ids } := { h with }
    exact hrefused.answer htake 422
  | check tag =>
    obtain ⟨⟨q, others⟩, htake, hs⟩ := Option.bind_eq_some_iff.1 hs
    have hcheck := h.check htake
    dsimp only at hs
    split at hs
    · next hdup =>
      cases hs
      rwa [if_pos hdup] at hcheck
    · next hdup =>
      cases hs
      rwa [if_neg hdup] at hcheck
  | ingest tag env caller =>
    obtain ⟨⟨q, others⟩, htake, hs⟩ := Option.bind_eq_some_iff.1 hs
    dsimp only at hs
    split at hs
    · cases hs
      exact h.answer htake _
    · next verdicts hverdicts =>
      cases hs
      exact h.ingest htake (length_of_batchVerdicts hverdicts)
  | mark tag =>
    obtain ⟨⟨q, others⟩, htake, hs⟩ := Option.bind_eq_some_iff.1 hs
    cases hs
    exact (h.mark htake).answer htake 202
  | expire batch =>
    cases hs
    exact h.expire hkeeps
  | cleanup cutoff =>
    cases hs
    exact h.subtable filter_sublist
  | dropOldest count =>
    cases hs
    exact h.subtable filter_sublist

/-- What is marked as sent was appended, skipped or turned down, and the buffer has the rows of
the log and no others. -/
structure NothingLost (s : System) : Prop where
  accounted : ∀ r ∈ s.table, r.sent = true → r.id ∈ s.appended ∨ r.id ∈ s.skipped ∨ r.id ∈ s.refused
  buffer : ∀ table, s.central.rows table =
    (s.log.flatMap fun e => e.2.rows).filter (·.table = table)

/-- **Delivery.** After every run without collisions nothing is lost, and after every run under
the condition no row has been appended twice. -/
theorem delivery_of_run (cfg : Config) (s : System) :
    (Run (step cfg) (NoCollision cfg) {} s → NothingLost s) ∧
      (Run (step cfg) (Keeps cfg) {} s → s.appended.Nodup) := by
  refine ⟨fun h => ?_, fun h => ?_⟩
  · have haccounts := accounts_of_run h
    refine ⟨fun r hr hsent => ?_, haccounts.buffer⟩
    rw [← or_assoc, ← mem_processed_iff]
    exact haccounts.sent r hr hsent
  · have hinv : Inv cfg s := h.invariant (inv_init cfg) Inv.step
    exact hinv.once.sublist (List.filter_sublist.map _)

/-! ### Two runs -/

/-- A collector, with identities in place of digests. -/
def exampleConfig : Config := { nodeId := "host-1", sha256 := id }

/-- A central that knows nothing of collectors and assignments, and asks for no identity. -/
def exampleEnv : Env where
  fleet := { collectors := [], groups := [], devices := [], assignments := [] }
  requirePerCollectorAuth := false
  turn := fun _ =>
    { session := .ok ()
      enrichment := none
      perfCounter := fun _ _ _ => none
      interface := fun _ =>
        { cached := none, byId := .ok none, byName := .ok none, flush := fun _ => .ok (),
          newId := nilUuid, pollingAfterRules := fun _ => none }
      previousCounters := fun _ => none }
  repr := fun _ => ""
  md5 := id

/-- A result of an assignment. -/
def exampleResult : CollectorResult :=
  { jobId := "11111111-1111-1111-1111-111111111111", timestamp := .finite 1700000000 }

/-- A batch whose answer is lost. It is posted again while a second result waits behind it. -/
def lostAnswer : List Action :=
  [.enqueue exampleResult 1, .flush, .check 0, .ingest 0 exampleEnv { auth := .sharedSecret },
    .giveUp 0, .mark 0, .flush, .check 1, .enqueue exampleResult 2, .flush, .check 2,
    .ingest 2 exampleEnv { auth := .sharedSecret }, .mark 2]

/-- The run is one under both conditions. Nothing is lost in it, and both results are appended
once. -/
theorem delivery_lostAnswer : ∃ s, Run (step exampleConfig) (NoCollision exampleConfig) {} s ∧
      Run (step exampleConfig) (Keeps exampleConfig) {} s ∧
      s.appended = [1, 2] ∧ NothingLost s ∧ s.appended.Nodup := by
  have hreplay : (replay (step exampleConfig)
      (fun s a => NoCollision exampleConfig s a ∧ Keeps exampleConfig s a) {} lostAnswer).map
      System.appended = some [1, 2] := by decide +kernel
  obtain ⟨s, hs, happended⟩ := Option.map_eq_some_iff.1 hreplay
  have hcollision := (run_of_replay hs).mono fun _ _ h => h.1
  have hkeeps := (run_of_replay hs).mono fun _ _ h => h.2
  exact ⟨s, hcollision, hkeeps, happended, (delivery_of_run exampleConfig s).1 hcollision,
    (delivery_of_run exampleConfig s).2 hkeeps⟩

/-- What the mechanism is meant to give: no row is appended twice, and a row is marked as sent
only when it was appended. -/
def ExactlyOnce (s : System) : Prop :=
  s.appended.Nodup ∧ ∀ r ∈ s.table, r.sent = true → r.id ∈ s.appended

/-- A result whose job id is no UUID. -/
def skippedResult : List Action :=
  [.enqueue { exampleResult with jobId := "ping-1" } 1, .flush, .check 0,
    .ingest 0 exampleEnv { auth := .sharedSecret }, .mark 0]

/-- The result is skipped, and its row is marked as sent. -/
theorem not_exactlyOnce : ¬∀ cfg s, Run (step cfg) (fun _ _ => True) {} s → ExactlyOnce s := by
  intro h
  have hreplay : (replay (step exampleConfig) (fun _ _ => True) {} skippedResult).map
      (fun s => (s.appended, s.table.map fun r => (r.id, r.sent))) = some ([], [(1, true)]) := by
    decide +kernel
  obtain ⟨s, hs, heq⟩ := Option.map_eq_some_iff.1 hreplay
  obtain ⟨happended, htable⟩ := Prod.mk.inj heq
  have hmem : (1, true) ∈ s.table.map fun r => (r.id, r.sent) := by
    rw [htable]
    exact mem_singleton_self _
  obtain ⟨r, hr, hrow⟩ := List.mem_map.1 hmem
  have hsent := (h exampleConfig s (run_of_replay hs)).2 r hr (Prod.mk.inj hrow).2
  rw [happended] at hsent
  cases hsent

end MonCTL.Delivery
