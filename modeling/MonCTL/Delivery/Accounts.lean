import MonCTL.Delivery.Protocol

/-!
# Every Sent Row Is Accounted For

Whatever is enqueued, lost, repeated or worked on at the same time, a row is marked as sent only
after central has worked through its result, or has turned down the request it was in, and the
buffer has the rows of the results worked through, once for every time they were. The one thing
this relies on is that no batch is taken for another: batches with the same id have the same rows.
-/

namespace MonCTL.Delivery

open List Collector CollectorApi

/-- Two batches of the same rows. -/
def SameRows (rows rows' : List (ℕ × CollectorResult)) : Prop :=
  (∀ id ∈ rows.map Prod.fst, id ∈ rows'.map Prod.fst) ∧
    ∀ id ∈ rows'.map Prod.fst, id ∈ rows.map Prod.fst

/-- The digest has no collisions: a batch is not posted under the id of another one. -/
def NoCollision (cfg : Config) (s : System) : Action → Prop
  | .flush => ∀ rows ∈ s.posted, cfg.batch rows = cfg.batch (dequeueResults s.table batchSize) →
      SameRows rows (dequeueResults s.table batchSize)
  | _ => True

instance (cfg : Config) (s : System) (a : Action) : Decidable (NoCollision cfg s a) := by
  unfold NoCollision SameRows
  split <;> infer_instance

/-- A row that central has worked through, or turned down as part of a malformed request. -/
def Accounted (s : System) (id : ℕ) : Prop := id ∈ s.processed ∨ id ∈ s.refused

/-- **The accounts**: a marked batch has been worked through, and so has one that central is
about to mark; what is sent is accounted for; and the buffer is what the log says. -/
structure Accounts (cfg : Config) (s : System) : Prop where
  posted : ∀ q ∈ s.requests, q.rows ∈ s.posted
  distinct : ∀ rows ∈ s.posted, ∀ rows' ∈ s.posted, cfg.batch rows = cfg.batch rows' →
    SameRows rows rows'
  seen : ∀ batch ∈ s.central.batchSeen, ∃ rows ∈ s.posted, cfg.batch rows = batch ∧
    ∀ id ∈ rows.map Prod.fst, id ∈ s.processed
  ingested : ∀ q ∈ s.requests, q.phase = .ingested → ∀ id ∈ q.ids, id ∈ s.processed
  sent : ∀ r ∈ s.table, r.sent = true → Accounted s r.id
  buffer : ∀ table, s.central.rows table =
    (s.log.flatMap fun e => e.2.rows).filter (·.table = table)

theorem accounts_init (cfg : Config) : Accounts cfg {} := by
  constructor
  case buffer => exact fun _ => rfl
  all_goals simp

namespace Accounts

variable {cfg : Config} {s : System} {q : Request} {others : List Request} {tag : ℕ} {phase : Phase}

theorem setTable {table : ResultsTable CollectorResult} {nextId : ℕ} (h : Accounts cfg s)
    (hsent : ∀ r ∈ table, r.sent = true → Accounted s r.id) :
    Accounts cfg { s with table, nextId } :=
  { h with sent := hsent }

/-- The requests may change as long as each of the new ones has the rows of an old one, and only
one that has been worked through is about to be marked. -/
theorem setRequests {requests : List Request} (h : Accounts cfg s)
    (hposted : ∀ q ∈ requests, q.rows ∈ s.posted)
    (hingested : ∀ q ∈ requests, q.phase = .ingested → ∀ id ∈ q.ids, id ∈ s.processed) :
    Accounts cfg { s with requests } :=
  { h with posted := hposted, ingested := hingested }

theorem remove (h : Accounts cfg s) (htake : s.take tag phase = some (q, others)) :
    Accounts cfg { s with requests := others } := by
  obtain ⟨-, -, -, rfl⟩ := System.mem_of_take htake
  exact h.setRequests (fun q hq => h.posted q (List.mem_filter.1 hq).1)
    fun q hq => h.ingested q (List.mem_filter.1 hq).1

theorem answer (h : Accounts cfg s) (htake : s.take tag phase = some (q, others)) {status : ℕ}
    (haccounted : marksSent (some status) = true → ∀ id ∈ q.ids, Accounted s id) :
    Accounts cfg (s.answer q others status) := by
  unfold System.answer
  cases q.awaited with
  | false => exact h.remove htake
  | true =>
    refine (h.remove htake).setTable fun r hr hsent => ?_
    obtain ⟨r', hr', heq, hsent'⟩ | ⟨hmarks, hmem⟩ := sent_of_mem_finishFlush hr hsent
    · exact heq ▸ h.sent r' hr' hsent'
    · exact haccounted hmarks r.id hmem

theorem processed_of_isDuplicate (h : Accounts cfg s) (hq : q ∈ s.requests)
    (hdup : s.central.isDuplicate (cfg.request q.rows) = true) :
    ∀ id ∈ q.ids, id ∈ s.processed := by
  intro id hid
  rw [isDuplicate_request, Bool.and_eq_true, contains_iff_mem] at hdup
  obtain ⟨rows, hrows, hbatch, hprocessed⟩ := h.seen _ hdup.2
  exact hprocessed id ((h.distinct rows hrows q.rows (h.posted q hq) hbatch).2 id hid)

theorem ingest (h : Accounts cfg s) (htake : s.take tag .checked = some (q, others))
    {verdicts : List Verdict} (hlength : verdicts.length = q.rows.length) :
    Accounts cfg { s with
      requests := { q with phase := .ingested } :: others
      central := s.central.appendRows verdicts
      log := s.log ++ q.ids.zip verdicts } := by
  obtain ⟨hq, -, -, rfl⟩ := System.mem_of_take htake
  have hfst : (q.ids.zip verdicts).map Prod.fst = q.ids :=
    map_fst_zip (by simp [Request.ids, hlength])
  have hsnd : (q.ids.zip verdicts).map Prod.snd = verdicts :=
    map_snd_zip (by simp [Request.ids, hlength])
  -- What is processed now is what was, and the rows of the request.
  have hmem : ∀ id, id ∈ (s.log ++ q.ids.zip verdicts).map Prod.fst ↔
      id ∈ s.processed ∨ id ∈ q.ids := by
    intro id
    rw [map_append, hfst, mem_append, System.processed]
  have hothers : ∀ q' ∈ s.requests.filter (·.tag ≠ tag), q' ∈ s.requests := fun q' hq' =>
    (List.mem_filter.1 hq').1
  refine { h with posted := ?_, seen := ?_, ingested := ?_, sent := ?_, buffer := ?_ }
  · exact List.forall_mem_cons.2 ⟨h.posted q hq, fun q' hq' => h.posted q' (hothers q' hq')⟩
  · intro batch hbatch
    rw [batchSeen_appendRows] at hbatch
    obtain ⟨rows, hrows, hid, hprocessed⟩ := h.seen batch hbatch
    exact ⟨rows, hrows, hid, fun id hid => (hmem id).2 (.inl (hprocessed id hid))⟩
  · refine List.forall_mem_cons.2 ⟨fun _ id hid => (hmem id).2 (.inr hid), ?_⟩
    exact fun q' hq' hphase id hid =>
      (hmem id).2 (.inl (h.ingested q' (hothers q' hq') hphase id hid))
  · intro r hr hsent
    exact (h.sent r hr hsent).imp (fun hid => (hmem _).2 (.inl hid)) id
  · intro table
    have hrows : (q.ids.zip verdicts).flatMap (fun e => e.2.rows) =
        verdicts.flatMap Verdict.rows := by
      conv_rhs => rw [← hsnd]
      rw [flatMap_map]
    rw [rows_appendRows, h.buffer, flatMap_append, filter_append, hrows]

theorem mark (h : Accounts cfg s) (htake : s.take tag .ingested = some (q, others)) :
    Accounts cfg { s with central := s.central.mark (cfg.request q.rows) } := by
  obtain ⟨hq, -, hphase, -⟩ := System.mem_of_take htake
  refine { h with seen := ?_, buffer := fun table => (rows_mark _ _ _).trans (h.buffer table) }
  intro batch hbatch
  rw [batchSeen_mark] at hbatch
  split at hbatch
  · exact h.seen batch hbatch
  · rcases List.mem_cons.1 hbatch with rfl | hbatch
    · exact ⟨q.rows, h.posted q hq, rfl, h.ingested q hq hphase⟩
    · exact h.seen batch hbatch

theorem flush (h : Accounts cfg s) (hcollision : NoCollision cfg s .flush) : Accounts cfg { s with
      nextTag := s.nextTag + 1
      posted := dequeueResults s.table batchSize :: s.posted
      requests := ⟨s.nextTag, dequeueResults s.table batchSize, .posted, true⟩ :: s.requests } := by
  refine { h with posted := ?_, distinct := ?_, seen := ?_, ingested := ?_ }
  · exact List.forall_mem_cons.2 ⟨mem_cons_self,
      fun q hq => mem_cons_of_mem _ (h.posted q hq)⟩
  · intro rows hrows rows' hrows' hbatch
    rcases List.mem_cons.1 hrows with rfl | hmem
    · rcases List.mem_cons.1 hrows' with rfl | hmem'
      · exact ⟨fun _ hid => hid, fun _ hid => hid⟩
      · exact (hcollision rows' hmem' hbatch.symm).symm
    · rcases List.mem_cons.1 hrows' with rfl | hmem'
      · exact hcollision rows hmem hbatch
      · exact h.distinct rows hmem rows' hmem' hbatch
  · intro batch hbatch
    obtain ⟨rows, hrows, hrest⟩ := h.seen batch hbatch
    exact ⟨rows, mem_cons_of_mem _ hrows, hrest⟩
  · exact List.forall_mem_cons.2 ⟨nofun, h.ingested⟩

end Accounts

/-- **Every step without a collision keeps the accounts.** -/
theorem Accounts.step {cfg : Config} {s s' : System} {a : Action} (h : Accounts cfg s)
    (hcollision : NoCollision cfg s a) (hs : step cfg s a = some s') : Accounts cfg s' := by
  cases a with
  | enqueue result now =>
    cases hs
    refine h.setTable fun r hr hsent => ?_
    rcases List.mem_append.1 hr with hr | hr
    · exact h.sent r hr hsent
    · obtain rfl := List.mem_singleton.1 hr
      cases hsent
  | flush =>
    simp only [Delivery.step] at hs
    split at hs
    · cases hs
    · cases hs
      exact h.flush hcollision
  | giveUp tag =>
    cases hs
    refine h.setRequests ?_ ?_
    · intro q hq
      obtain ⟨q', hq', rfl⟩ := List.mem_map.1 hq
      rw [apply_ite Request.rows, ite_self]
      exact h.posted q' hq'
    · intro q hq hphase
      obtain ⟨q', hq', rfl⟩ := List.mem_map.1 hq
      rw [apply_ite Request.phase, ite_self] at hphase
      rw [apply_ite Request.ids]
      exact (ite_self q'.ids (c := q'.tag = tag)).symm ▸ h.ingested q' hq' hphase
  | lose tag =>
    obtain ⟨⟨q, others⟩, htake, hs⟩ := Option.bind_eq_some_iff.1 hs
    cases hs
    exact h.remove htake
  | refuse tag =>
    obtain ⟨⟨q, others⟩, htake, hs⟩ := Option.bind_eq_some_iff.1 hs
    cases hs
    have hrefused : Accounts cfg { s with refused := s.refused ++ q.ids } :=
      { h with sent := fun r hr hsent => (h.sent r hr hsent).imp_right (mem_append_left _) }
    exact hrefused.answer htake fun _ id hid => .inr (mem_append_right _ hid)
  | check tag =>
    obtain ⟨⟨q, others⟩, htake, hs⟩ := Option.bind_eq_some_iff.1 hs
    obtain ⟨hq, -, -, hothers⟩ := System.mem_of_take htake
    dsimp only at hs
    split at hs
    · next hdup =>
      cases hs
      exact h.answer htake fun _ id hid => .inl (h.processed_of_isDuplicate hq hdup id hid)
    · cases hs
      have hremoved := h.remove htake
      exact hremoved.setRequests (List.forall_mem_cons.2 ⟨h.posted q hq, hremoved.posted⟩)
        (List.forall_mem_cons.2 ⟨nofun, hremoved.ingested⟩)
  | ingest tag env caller =>
    obtain ⟨⟨q, others⟩, htake, hs⟩ := Option.bind_eq_some_iff.1 hs
    dsimp only at hs
    split at hs
    · next e _ =>
      cases hs
      refine h.answer htake fun hmarks => ?_
      exact absurd ((marksSent_statusCode_iff _).1 hmarks) (not_succeeds_error e)
    · next verdicts hverdicts =>
      cases hs
      exact h.ingest htake (length_of_batchVerdicts hverdicts)
  | mark tag =>
    obtain ⟨⟨q, others⟩, htake, hs⟩ := Option.bind_eq_some_iff.1 hs
    cases hs
    obtain ⟨hq, -, hphase, -⟩ := System.mem_of_take htake
    exact (h.mark htake).answer htake fun _ id hid => .inl (h.ingested q hq hphase id hid)
  | expire batch =>
    cases hs
    exact { h with seen := fun b hb => h.seen b (List.mem_filter.1 hb).1 }
  | cleanup cutoff =>
    cases hs
    exact h.setTable fun r hr => h.sent r (List.mem_filter.1 hr).1
  | dropOldest count =>
    cases hs
    exact h.setTable fun r hr => h.sent r (List.mem_filter.1 hr).1

theorem accounts_of_run {cfg : Config} {s : System}
    (h : Run (step cfg) (NoCollision cfg) {} s) : Accounts cfg s :=
  h.invariant (accounts_init cfg) Accounts.step

theorem mem_processed_iff (s : System) (id : ℕ) :
    id ∈ s.processed ↔ id ∈ s.appended ∨ id ∈ s.skipped := by
  unfold System.processed System.appended System.skipped
  simp only [mem_map, mem_filter]
  constructor
  · rintro ⟨e, he, rfl⟩
    cases hverdict : e.2.isAccepted with
    | true => exact .inl ⟨e, ⟨he, hverdict⟩, rfl⟩
    | false => exact .inr ⟨e, ⟨he, by rw [hverdict]; rfl⟩, rfl⟩
  · rintro (⟨e, ⟨he, -⟩, rfl⟩ | ⟨e, ⟨he, -⟩, rfl⟩)
    · exact ⟨e, he, rfl⟩
    · exact ⟨e, he, rfl⟩

end MonCTL.Delivery
