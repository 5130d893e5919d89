import Mathlib.Data.List.Sort
import MonCTL.Basic

/-!
# The Results Buffer and the Forwarder

A collector keeps its results in a table. The forwarder posts the oldest unsent rows to the
central server and marks them as sent when the answer says that they arrived, or that they
will never be accepted. After any other answer they stay, and are posted again.

The digest behind the batch id is a parameter.
-/

namespace MonCTL.Collector

open List

variable {α : Type}

/-! ### The table -/

/-- A row of the `results` table. -/
structure BufferedResult (α : Type) where
  id : ℕ
  result : α
  createdAt : Timestamp
  sent : Bool := false

/-- The `results` table, in the order of the ids. -/
abbrev ResultsTable (α : Type) := List (BufferedResult α)

/-- `enqueue_result`; ids grow, and none is used again. -/
def enqueueResult (t : ResultsTable α) (id : ℕ) (result : α) (now : Timestamp) :
    ResultsTable α := t ++ [{ id, result, createdAt := now }]

/-- `dequeue_results`: the oldest unsent rows. -/
def dequeueResults (t : ResultsTable α) (limit : ℕ) : List (ℕ × α) :=
  (((t.filter fun r => !r.sent).insertionSort fun r r' => r.createdAt ≤ r'.createdAt).take
    limit).map fun r => (r.id, r.result)

/-- `mark_results_sent`. -/
def markResultsSent (t : ResultsTable α) (ids : List ℕ) : ResultsTable α :=
  t.map fun r => if r.id ∈ ids then { r with sent := true } else r

/-- `cleanup_sent_results`: sent rows from before a time go. -/
def cleanupSentResults (t : ResultsTable α) (cutoff : Timestamp) : ResultsTable α :=
  t.filter fun r => !(r.sent && r.createdAt < cutoff)

/-- `drop_oldest_results`: the oldest rows go, sent or not. -/
def dropOldestResults (t : ResultsTable α) (count : ℕ) : ResultsTable α :=
  let oldest := ((t.insertionSort fun r r' => r.createdAt ≤ r'.createdAt).take count).map (·.id)
  t.filter fun r => r.id ∉ oldest

/-! ### A flush -/

/-- `_BATCH_SIZE`. -/
def batchSize : ℕ := 100

variable (sha256 : String → String)

def batchId (nodeId : String) (ids : List ℕ) : String :=
  let joined := ",".intercalate ((ids.insertionSort (· ≤ ·)).map toString)
  let seed := s!"{nodeId}:{joined}"
  String.ofList ((sha256 seed).toList.take 32)

/-- What is posted. -/
structure Payload (α : Type) where
  collectorNode : String
  batchId : String
  results : List α

def payload (nodeId : String) (rows : List (ℕ × α)) : Payload α :=
  { collectorNode := nodeId, batchId := batchId sha256 nodeId (rows.map Prod.fst),
    results := rows.map Prod.snd }

/-- The answers after which the rows are marked. -/
def marksSent (status : Option ℕ) : Bool :=
  match status with
  | some code => code ∈ [200, 201, 202, 204, 422]
  | none => false

/-- What follows the post: the rows are marked, or the flush raises and nothing changes. No
status stands for a request that got no answer. -/
def finishFlush (t : ResultsTable α) (ids : List ℕ) (status : Option ℕ) : ResultsTable α :=
  if marksSent status then markResultsSent t ids else t

/-- `_flush_batch`. -/
def flushBatch (nodeId : String) (post : Payload α → Option ℕ)
    (t : ResultsTable α) : ResultsTable α :=
  match dequeueResults t batchSize with
  | [] => t
  | row :: rows =>
    finishFlush t ((row :: rows).map Prod.fst) (post (payload sha256 nodeId (row :: rows)))

/-! ### What is dequeued and what is marked -/

variable {t : ResultsTable α}

theorem mem_of_mem_dequeueResults {limit : ℕ} {id : ℕ} {result : α}
    (h : (id, result) ∈ dequeueResults t limit) :
    ∃ r ∈ t, r.sent = false ∧ r.id = id ∧ r.result = result := by
  obtain ⟨r, hr, heq⟩ := List.mem_map.1 h
  have hmem := List.mem_filter.1 ((mem_insertionSort _).1 (mem_of_mem_take hr))
  cases heq
  exact ⟨r, hmem.1, by simpa using hmem.2, rfl, rfl⟩

theorem nodup_ids_dequeueResults (h : (t.map (·.id)).Nodup) (limit : ℕ) :
    ((dequeueResults t limit).map Prod.fst).Nodup := by
  rw [dequeueResults, map_map]
  refine List.Nodup.sublist ((take_sublist _ _).map _) ?_
  refine ((perm_insertionSort _ _).map _).nodup_iff.2 ?_
  exact h.sublist (List.filter_sublist.map _)

@[simp] theorem map_id_finishFlush (t : ResultsTable α) (ids : List ℕ) (status : Option ℕ) :
    (finishFlush t ids status).map (·.id) = t.map (·.id) := by
  unfold finishFlush markResultsSent
  split
  · rw [map_map]
    refine map_congr_left fun r _ => ?_
    simp only [Function.comp_apply]
    split
    · rfl
    · rfl
  · rfl

/-- A row that is sent after a flush was sent before, or is in the batch and the answer counts. -/
theorem sent_of_mem_finishFlush {ids : List ℕ} {status : Option ℕ}
    {r : BufferedResult α} (hr : r ∈ finishFlush t ids status) (hsent : r.sent = true) :
    (∃ r' ∈ t, r'.id = r.id ∧ r'.sent = true) ∨ (marksSent status = true ∧ r.id ∈ ids) := by
  unfold finishFlush at hr
  split at hr
  · next hmarks =>
    obtain ⟨r', hr', rfl⟩ := List.mem_map.1 hr
    by_cases hmem : r'.id ∈ ids
    · exact .inr ⟨hmarks, by simp [hmem]⟩
    · exact .inl ⟨r', hr', by simp [hmem], by simpa [hmem] using hsent⟩
  · exact .inl ⟨r, hr, rfl, hsent⟩

/-- A flush that is answered by an error other than a validation error changes nothing. -/
theorem flushBatch_eq_self {sha256 : String → String} {nodeId : String}
    {post : Payload α → Option ℕ}
    (h : marksSent (post (payload sha256 nodeId (dequeueResults t batchSize))) = false) :
    flushBatch sha256 nodeId post t = t := by
  unfold flushBatch
  split
  · rfl
  · next row rows hrows =>
    rw [hrows] at h
    rw [finishFlush, h, if_neg Bool.false_ne_true]

end MonCTL.Collector
