import MonCTL.CollectorApi.SubmitResults
import MonCTL.Lib.Runs

/-!
# The Delivery of Results

A collector's workers put results into a table, its forwarder posts the oldest unsent ones,
and central appends their rows to the ingest buffer. Central looks for the mark of a batch
when it starts on a request and sets it when it is done, and works on several requests at
once. Requests and answers can be lost: then the forwarder posts what is unsent by then.

The steps are those of the code: central's check, its loop with the appending of the rows, and
its marking are separate, and anything may happen in between. An answer that is lost is an
answer to a forwarder that has given up.
-/

namespace MonCTL.Delivery

open Collector CollectorApi

/-! ### States -/

/-- The collector's name, and the digest behind batch ids. -/
structure Config where
  nodeId : String
  sha256 : String → String

/-- How far a request has got: on its way, past the check for the mark, or with its rows in
the buffer. -/
inductive Phase
  | posted
  | checked
  | ingested
  deriving DecidableEq

/-- A request that has no answer yet, and whether the forwarder still waits for one. -/
structure Request where
  tag : ℕ
  rows : List (ℕ × CollectorResult)
  phase : Phase
  awaited : Bool

def Request.ids (q : Request) : List ℕ := q.rows.map Prod.fst

variable (cfg : Config)

/-- What central receives. -/
def Config.request (rows : List (ℕ × CollectorResult)) : SubmitResultsRequest :=
  requestOf (payload cfg.sha256 cfg.nodeId rows)

/-- The batch id of some rows. -/
def Config.batch (rows : List (ℕ × CollectorResult)) : String :=
  batchId cfg.sha256 cfg.nodeId (rows.map Prod.fst)

/-- The collector's table, the requests, and central. The batches posted, the log and the
refused rows are there to state what has happened. -/
structure System where
  table : ResultsTable CollectorResult := []
  nextId : ℕ := 1
  nextTag : ℕ := 0
  requests : List Request := []
  central : Central := {}
  posted : List (List (ℕ × CollectorResult)) := []
  log : List (ℕ × Verdict) := []
  refused : List ℕ := []

namespace System

variable (s : System)

/-- The rows whose results central has worked through. -/
def processed : List ℕ := s.log.map Prod.fst

/-- The rows whose results central has appended to the buffer. -/
def appended : List ℕ :=
  (s.log.filter fun e => e.2.isAccepted).map Prod.fst

/-- The rows whose results central has skipped, or not taken from this caller. -/
def skipped : List ℕ :=
  (s.log.filter fun e => !e.2.isAccepted).map Prod.fst

/-- The request of a tag, in a phase, and all others. -/
def take (tag : ℕ) (phase : Phase) : Option (Request × List Request) :=
  (s.requests.find? fun q => q.tag = tag ∧ q.phase = phase).map fun q =>
    (q, s.requests.filter (·.tag ≠ tag))

/-- A request is answered: if the forwarder waits for it, it finishes its flush. -/
def answer (q : Request) (others : List Request) (status : ℕ) : System :=
  { s with
    requests := others
    table := if q.awaited then finishFlush s.table q.ids (some status) else s.table }

end System

/-! ### Steps -/

/-- What can happen. -/
inductive Action
  /-- A worker enqueues a result. -/
  | enqueue (result : CollectorResult) (now : Timestamp)
  /-- The forwarder posts a batch. -/
  | flush
  /-- The forwarder stops waiting: the connection broke, or the time ran out. -/
  | giveUp (tag : ℕ)
  /-- A request never arrives. -/
  | lose (tag : ℕ)
  /-- Central turns a request down that does not have the right form. -/
  | refuse (tag : ℕ)
  /-- Central looks for the mark of the batch. -/
  | check (tag : ℕ)
  /-- Central works through the results and appends the rows. -/
  | ingest (tag : ℕ) (env : Env) (caller : Caller)
  /-- Central marks the batch and answers. -/
  | mark (tag : ℕ)
  /-- The mark of a batch expires. -/
  | expire (batch : String)
  /-- The forwarder cleans up. -/
  | cleanup (cutoff : Timestamp)
  /-- The forwarder makes room. -/
  | dropOldest (count : ℕ)

/-- One step. The forwarder posts a batch only when it does not wait for another. -/
def step (s : System) : Action → Option System
  | .enqueue result now =>
    some { s with table := enqueueResult s.table s.nextId result now, nextId := s.nextId + 1 }
  | .flush =>
    let rows := dequeueResults s.table batchSize
    if rows = [] ∨ s.requests.any (·.awaited) then none
    else
      some { s with
        nextTag := s.nextTag + 1
        posted := rows :: s.posted
        requests := ⟨s.nextTag, rows, .posted, true⟩ :: s.requests }
  | .giveUp tag =>
    some { s with
      requests := s.requests.map fun q => if q.tag = tag then { q with awaited := false } else q }
  | .lose tag => do
      let (_, others) ← s.take tag .posted
      return { s with requests := others }
  | .refuse tag => do
      let (q, others) ← s.take tag .posted
      return { s.answer q others 422 with refused := s.refused ++ q.ids }
  | .check tag => do
      let (q, others) ← s.take tag .posted
      if s.central.isDuplicate (cfg.request q.rows) then return s.answer q others 202
      else return { s with requests := { q with phase := .checked } :: others }
  | .ingest tag env caller => do
      let (q, others) ← s.take tag .checked
      match batchVerdicts env caller (cfg.request q.rows) with
      | .error e => return s.answer q others (statusCode (.error e))
      | .ok verdicts =>
        return { s with
          requests := { q with phase := .ingested } :: others
          central := s.central.appendRows verdicts
          log := s.log ++ q.ids.zip verdicts }
  | .mark tag => do
      let (q, others) ← s.take tag .ingested
      return { s.answer q others 202 with central := s.central.mark (cfg.request q.rows) }
  | .expire batch =>
    some { s with
      central := { s.central with batchSeen := s.central.batchSeen.filter (· ≠ batch) } }
  | .cleanup cutoff => some { s with table := cleanupSentResults s.table cutoff }
  | .dropOldest count => some { s with table := dropOldestResults s.table count }

/-! ### Marks -/

theorem isDuplicate_request (c : Central) (rows : List (ℕ × CollectorResult)) :
    c.isDuplicate (cfg.request rows) =
      (decide (cfg.batch rows ≠ "") && c.batchSeen.contains (cfg.batch rows)) := rfl

theorem batchSeen_mark (c : Central) (rows : List (ℕ × CollectorResult)) :
    (c.mark (cfg.request rows)).batchSeen =
      if cfg.batch rows = "" then c.batchSeen else cfg.batch rows :: c.batchSeen := by
  change (if cfg.batch rows = "" then c else _).batchSeen = _
  split
  · rfl
  · rfl

@[simp] theorem batchSeen_appendRows (c : Central) (verdicts : List Verdict) :
    (c.appendRows verdicts).batchSeen = c.batchSeen := by
  unfold Central.appendRows
  generalize byTable (verdicts.flatMap Verdict.rows) = entries
  induction entries generalizing c with
  | nil => rfl
  | cons e entries ih => exact ih _

theorem length_of_batchVerdicts {cfg : Config} {env : Env} {caller : Caller}
    {rows : List (ℕ × CollectorResult)} {verdicts : List Verdict}
    (h : batchVerdicts env caller (cfg.request rows) = .ok verdicts) :
    verdicts.length = rows.length := by
  unfold batchVerdicts at h
  split at h
  · cases h
  · split at h
    · cases h
    · split at h
      · cases h
      · next hloop =>
        cases h
        have hlength := (mapM_eq_ok_iff.1 hloop).length_eq
        simpa [Config.request, requestOf, payload] using hlength.symm

/-! ### What a step on a request finds -/

theorem System.mem_of_take {s : System} {tag : ℕ} {phase : Phase} {q : Request}
    {others : List Request} (h : s.take tag phase = some (q, others)) :
    q ∈ s.requests ∧ q.tag = tag ∧ q.phase = phase ∧ others = s.requests.filter (·.tag ≠ tag) := by
  obtain ⟨q', hfind, heq⟩ := Option.map_eq_some_iff.1 h
  cases heq
  have hq := List.find?_some hfind
  simp only [decide_eq_true_eq] at hq
  exact ⟨List.mem_of_find?_eq_some hfind, hq.1, hq.2, rfl⟩

end MonCTL.Delivery
