import Mathlib.Data.List.Basic
import MonCTL.Lib.Runs

/-!
# The Audit Buffer

Rows of the audit log are appended to a buffer by request handlers, and taken out of it by a loop
that has a thread insert a batch of them every few seconds. A full buffer drops its oldest rows,
and a batch whose insert fails is dropped; both are counted. `stop` sets an event that the loop
looks at after each batch, and waits for the loop to end.

The loop may be suspended while it waits for the event or the interval, while the thread inserts,
and while Redis counts a failure, which swallows its own errors. Every other step is one action.
The numbers of rows appended and inserted, and the calls of `stop`, are recorded to say what has
happened.
-/

namespace MonCTL.Audit

open List

/-- `_MAX_BUFFER`: the hard cap. -/
def maxBuffer : ℕ := 5000

/-- `_FLUSH_BATCH`. -/
def flushBatch : ℕ := 500

/-- Where the flush loop is: not started, about to look at the event for the first time, waiting
for the event or the interval, with a thread inserting a batch, having a failure counted, or
over. -/
inductive LoopPhase (α : Type)
  | none
  | created
  | waiting
  | inserting (batch : List α)
  | counting
  | finished

/-- Whether there is no loop that runs. -/
def LoopPhase.idle {α : Type} : LoopPhase α → Bool
  | .none | .finished => true
  | .created | .waiting | .inserting _ | .counting => false

/-- The rows in the hands of the loop. -/
def LoopPhase.batch {α : Type} : LoopPhase α → List α
  | .inserting batch => batch
  | .none | .created | .waiting | .counting | .finished => []

/-- The buffer, with its loop and its event. The calls of `stop` that wait for the loop, those for
which it is over, and whether one has returned since the last start are recorded. -/
structure AuditBuffer (α : Type) where
  rows : List α := []
  phase : LoopPhase α := .none
  stopSet : Bool := false
  droppedTotal : ℕ := 0
  flushFailures : ℕ := 0
  extended : ℕ := 0
  inserted : ℕ := 0
  stopping : ℕ := 0
  ended : ℕ := 0
  stopped : Bool := false

/-- What happens. -/
inductive BufferAction (α : Type)
  | extend (rows : List α)
  | start
  /-- The loop runs for the first time. -/
  | enter
  /-- The event has been set, or the interval has passed. -/
  | wake
  | insertReturns
  | insertRaises
  /-- The failure has been counted in Redis. -/
  | counted
  | callStop
  | stopReturns

namespace AuditBuffer

variable {α : Type}

/-- `extend`. -/
def extend (b : AuditBuffer α) (rows : List α) : AuditBuffer α :=
  if rows.isEmpty then b
  else if maxBuffer ≤ b.rows.length then
    let dropped := b.rows.length + rows.length - maxBuffer
    { b with
      rows := b.rows.drop dropped ++ rows
      droppedTotal := b.droppedTotal + dropped
      extended := b.extended + rows.length }
  else { b with rows := b.rows ++ rows, extended := b.extended + rows.length }

/-- The head of the loop: it ends when the event is set. -/
def again (b : AuditBuffer α) : AuditBuffer α :=
  if b.stopSet then { b with phase := .finished, ended := b.ended + b.stopping, stopping := 0 }
  else { b with phase := .waiting }

/-- `_drain`, and an insert of what there is. -/
def drain (b : AuditBuffer α) : AuditBuffer α :=
  let batch := b.rows.take flushBatch
  if batch.isEmpty then b.again
  else { b with rows := b.rows.drop flushBatch, phase := .inserting batch }

def step (b : AuditBuffer α) : BufferAction α → Option (AuditBuffer α)
  | .extend rows => some (b.extend rows)
  | .start =>
    if b.phase.idle then some { b with stopSet := false, phase := .created, stopped := false }
    else some b
  | .enter => match b.phase with
      | .created => some b.again
      | _ => none
  | .wake => match b.phase with
      | .waiting => some b.drain
      | _ => none
  | .insertReturns => match b.phase with
      | .inserting batch => some { b with inserted := b.inserted + batch.length }.again
      | _ => none
  | .insertRaises => match b.phase with
      | .inserting batch => some { b with
          phase := .counting
          flushFailures := b.flushFailures + 1
          droppedTotal := b.droppedTotal + batch.length }
      | _ => none
  | .counted => match b.phase with
      | .counting => some b.again
      | _ => none
  | .callStop =>
    if b.phase.idle then some { b with stopSet := true, stopped := true }
    else some { b with stopSet := true, stopping := b.stopping + 1 }
  | .stopReturns =>
    if 0 < b.ended then some { b with ended := b.ended - 1, stopped := true } else none

/-- **Rows are conserved**: each row appended has been inserted, is in the buffer or in the hands
of the loop, or has been counted as dropped; the buffer keeps to its cap; and when `stop` has
returned, the buffer is empty. -/
structure Conserved (b : AuditBuffer α) : Prop where
  rows : b.extended = b.inserted + b.rows.length + b.phase.batch.length + b.droppedTotal
  capped : b.rows.length ≤ maxBuffer
  stopped : b.stopped = true → b.rows = []

/-! ### The condition -/

/-- How many rows a loop still takes out of the buffer that finds the event set: a batch, if it is
waiting. -/
def remaining (b : AuditBuffer α) : ℕ :=
  match b.phase with
  | .waiting => flushBatch
  | .none | .created | .inserting _ | .counting | .finished => 0

/-- **The condition**: rows appended fit below the cap, or replace as many rows of a full buffer;
once `stop` is called the buffer has no more rows than the loop still takes out; and there is no
new start before a call of `stop` returns. -/
def Keeps (b : AuditBuffer α) : BufferAction α → Prop
  | .extend rows =>
    (b.rows.length + rows.length ≤ maxBuffer ∨
      b.rows.length = maxBuffer ∧ rows.length ≤ maxBuffer) ∧
    (b.stopSet = true → b.rows.length + rows.length ≤ b.remaining)
  | .start => b.ended = 0
  | .callStop => b.rows.length ≤ b.remaining
  | .enter | .wake | .insertReturns | .insertRaises | .counted | .stopReturns => True

instance (b : AuditBuffer α) : ∀ a, Decidable (b.Keeps a)
  | .extend _ => inferInstanceAs (Decidable (_ ∧ _))
  | .start => inferInstanceAs (Decidable (b.ended = 0))
  | .callStop => inferInstanceAs (Decidable (_ ≤ _))
  | .enter | .wake | .insertReturns | .insertRaises | .counted | .stopReturns =>
    inferInstanceAs (Decidable True)

/-! ### The invariant -/

/-- **The invariant**: rows are conserved, those that the loop will not take out are gone when the
event is set, and it is set and the loop idle when a call of `stop` may return or has returned. -/
structure Inv (b : AuditBuffer α) : Prop where
  rows : b.extended = b.inserted + b.rows.length + b.phase.batch.length + b.droppedTotal
  capped : b.rows.length ≤ maxBuffer
  draining : b.stopSet = true → b.rows.length ≤ b.remaining
  idle : 0 < b.ended ∨ b.stopped = true → b.stopSet = true ∧ b.phase.idle = true

variable {b : AuditBuffer α}

theorem remaining_of_idle (h : b.phase.idle = true) : b.remaining = 0 := by
  unfold remaining
  cases hphase : b.phase with
  | waiting =>
    rw [hphase] at h
    cases h
  | none | created | inserting | counting | finished => rfl

theorem batch_of_idle (h : b.phase.idle = true) : b.phase.batch = [] := by
  cases hphase : b.phase with
  | inserting =>
    rw [hphase] at h
    cases h
  | none | created | waiting | counting | finished => rfl

theorem Inv.conserved (h : Inv b) : Conserved b where
  rows := h.rows
  capped := h.capped
  stopped hstopped := by
    obtain ⟨hset, hidle⟩ := h.idle (.inr hstopped)
    have hle := h.draining hset
    rw [remaining_of_idle hidle] at hle
    exact eq_nil_of_length_eq_zero (by omega)

theorem Inv.init : Inv ({} : AuditBuffer α) where
  rows := rfl
  capped := Nat.zero_le _
  draining := nofun
  idle := nofun

theorem Inv.extend (h : Inv b) {rows : List α} (hk : b.Keeps (.extend rows)) :
    Inv (b.extend rows) := by
  obtain ⟨hfits, hlast⟩ := hk
  have hrows := h.rows
  unfold AuditBuffer.extend
  split
  · exact h
  next hne =>
    have hpos : 0 < rows.length := List.length_pos_iff.2 fun hnil => hne (by rw [hnil]; rfl)
    split
    next hfull =>
      -- As many rows are dropped as come in: the buffer is exactly full.
      have hlen := h.capped
      have hdrop : b.rows.length + rows.length - maxBuffer = rows.length := by omega
      have hle : rows.length ≤ b.rows.length := by omega
      refine ⟨?_, ?_, fun hset => ?_, h.idle⟩
      · simp only [hdrop, length_append, length_drop]
        omega
      · simp only [hdrop, length_append, length_drop]
        omega
      · have := hlast hset
        simp only [hdrop, length_append, length_drop]
        simp only [remaining] at this ⊢
        omega
    next hroom =>
      refine ⟨?_, ?_, fun hset => ?_, h.idle⟩
      · simp only [length_append]
        omega
      · simp only [length_append]
        omega
      · rw [length_append]
        exact hlast hset

theorem Inv.again (hcapped : b.rows.length ≤ maxBuffer)
    (hrows : b.extended = b.inserted + b.rows.length + b.droppedTotal)
    (hdrained : b.stopSet = true → b.rows.length = 0)
    (hrunning : ¬(0 < b.ended ∨ b.stopped = true)) :
    Inv b.again := by
  unfold AuditBuffer.again
  split
  next hset => exact ⟨hrows, hcapped, fun _ => Nat.le_of_eq (hdrained hset), fun _ => ⟨hset, rfl⟩⟩
  next hset => exact ⟨hrows, hcapped, fun h => absurd h hset, fun hended => absurd hended hrunning⟩

theorem Inv.running (h : Inv b) (hphase : b.phase.idle = false) :
    ¬(0 < b.ended ∨ b.stopped = true) := fun hended => by
  have hidle := (h.idle hended).2
  rw [hphase] at hidle
  cases hidle

theorem Inv.drain (h : Inv b) (hphase : b.phase = .waiting) : Inv b.drain := by
  have hrows := h.rows
  have hcapped := h.capped
  have hrunning := h.running (by rw [hphase]; rfl)
  rw [hphase] at hrows
  simp only [LoopPhase.batch, length_nil, Nat.add_zero] at hrows
  unfold AuditBuffer.drain
  dsimp only
  split
  next hempty =>
    have hnil : b.rows = [] := by simpa [flushBatch] using hempty
    exact .again hcapped hrows (fun _ => by rw [hnil]; rfl) hrunning
  · refine ⟨?_, ?_, fun hset => ?_, fun hended => absurd hended hrunning⟩
    · simp only [LoopPhase.batch, length_take, length_drop]
      omega
    · simp only [length_drop]
      omega
    · have hle := h.draining hset
      simp only [remaining, hphase] at hle
      simp only [remaining, length_drop]
      omega

theorem Inv.step {b' : AuditBuffer α} {a : BufferAction α} (h : Inv b) (hk : b.Keeps a)
    (hs : b.step a = some b') : Inv b' := by
  have hrows := h.rows
  cases a with
  | extend rows =>
    cases hs
    exact h.extend hk
  | start =>
    simp only [AuditBuffer.step] at hs
    split at hs
    next hidle =>
      cases hs
      rw [batch_of_idle hidle] at hrows
      have hnone : b.ended = 0 := hk
      refine ⟨hrows, h.capped, nofun, fun hended => ?_⟩
      rcases hended with hended | hended
      · exact absurd hnone (Nat.ne_of_gt hended)
      · cases hended
    · cases hs
      exact h
  | enter =>
    simp only [AuditBuffer.step] at hs
    split at hs
    next hphase =>
      cases hs
      rw [hphase] at hrows
      refine .again h.capped hrows (fun hset => ?_) (h.running (by rw [hphase]; rfl))
      have hle := h.draining hset
      simp only [remaining, hphase] at hle
      omega
    · cases hs
  | wake =>
    simp only [AuditBuffer.step] at hs
    split at hs
    next hphase =>
      cases hs
      exact h.drain hphase
    · cases hs
  | insertReturns =>
    simp only [AuditBuffer.step] at hs
    split at hs
    next batch hphase =>
      cases hs
      rw [hphase] at hrows
      refine .again h.capped ?_ (fun hset => ?_) (h.running (by rw [hphase]; rfl))
      · simp only [LoopPhase.batch] at hrows ⊢
        omega
      · have hle := h.draining hset
        simp only [remaining, hphase] at hle
        exact Nat.le_zero.1 hle
    · cases hs
  | insertRaises =>
    simp only [AuditBuffer.step] at hs
    split at hs
    next batch hphase =>
      cases hs
      rw [hphase] at hrows
      have hrunning := h.running (by rw [hphase]; rfl)
      refine ⟨?_, h.capped, fun hset => ?_, fun hended => absurd hended hrunning⟩
      · simp only [LoopPhase.batch, length_nil] at hrows ⊢
        omega
      · have hle := h.draining hset
        simpa only [remaining, hphase] using hle
    · cases hs
  | counted =>
    simp only [AuditBuffer.step] at hs
    split at hs
    next hphase =>
      cases hs
      rw [hphase] at hrows
      refine .again h.capped hrows (fun hset => ?_) (h.running (by rw [hphase]; rfl))
      have hle := h.draining hset
      simp only [remaining, hphase] at hle
      omega
    · cases hs
  | callStop =>
    simp only [AuditBuffer.step] at hs
    split at hs
    next hidle =>
      cases hs
      exact ⟨hrows, h.capped, fun _ => hk, fun _ => ⟨rfl, hidle⟩⟩
    next hbusy =>
      cases hs
      exact ⟨hrows, h.capped, fun _ => hk, fun hended => ⟨rfl, (h.idle hended).2⟩⟩
  | stopReturns =>
    simp only [AuditBuffer.step] at hs
    split at hs
    next hended =>
      cases hs
      exact ⟨hrows, h.capped, h.draining, fun _ => h.idle (.inl hended)⟩
    · cases hs

end AuditBuffer

open AuditBuffer

/-- **Conservation.** After every run under the condition rows are conserved: none is lost without
being counted, the cap holds, and `stop` leaves nothing behind. -/
theorem rows_conserved_of_run {α : Type} {b : AuditBuffer α} (h : Run step Keeps {} b) :
    Conserved b :=
  (h.invariant (I := Inv) .init fun hinv hk hs => hinv.step hk hs).conserved

/-- A loop inserts one batch and fails with another, and `stop` finds it waiting for more. -/
theorem conserved_of_run_stop : ∃ b : AuditBuffer ℕ, b.stopped = true ∧ b.extended = 4 ∧
    b.inserted = 3 ∧ b.droppedTotal = 1 ∧ Conserved b := by
  have h : ∃ b ∈ replay step Keeps ({} : AuditBuffer ℕ) [.start, .enter, .extend [1, 2], .wake,
      .insertReturns, .extend [3], .wake, .insertRaises, .counted, .extend [4], .callStop, .wake,
      .insertReturns, .stopReturns], b.stopped = true ∧ b.extended = 4 ∧ b.inserted = 3 ∧
      b.droppedTotal = 1 := by
    decide +kernel
  obtain ⟨b, hb, hstopped, hextended, hinserted, hdropped⟩ := h
  exact ⟨b, hstopped, hextended, hinserted, hdropped, rows_conserved_of_run (run_of_replay hb)⟩

/-- **Losses.** A batch larger than the cap comes into a full buffer: more rows are counted as
dropped than there were. One that comes into a buffer with room for a single row takes it over the
cap. And what comes in while the last batch is inserted is still there when `stop` has returned. -/
theorem not_conserved : (∃ b : AuditBuffer Unit, Run step (fun _ _ => True) {} b ∧
      b.extended ≠ b.inserted + b.rows.length + b.phase.batch.length + b.droppedTotal) ∧
    (∃ b : AuditBuffer Unit, Run step (fun _ _ => True) {} b ∧ maxBuffer < b.rows.length) ∧
    (∃ b : AuditBuffer Unit, Run step (fun _ _ => True) {} b ∧ b.stopped = true ∧ b.rows ≠ []) := by
  refine ⟨?_, ?_, ?_⟩
  · have h : ∃ b ∈ replay step (fun _ _ => True) ({} : AuditBuffer Unit)
        [.extend (.replicate 5000 ()), .extend (.replicate 5001 ())],
        b.extended ≠ b.inserted + b.rows.length + b.phase.batch.length + b.droppedTotal := by
      decide +kernel
    obtain ⟨b, hb, hlost⟩ := h
    exact ⟨b, run_of_replay hb, hlost⟩
  · have h : ∃ b ∈ replay step (fun _ _ => True) ({} : AuditBuffer Unit)
        [.extend (.replicate 4999 ()), .extend [(), ()]], maxBuffer < b.rows.length := by
      decide +kernel
    obtain ⟨b, hb, hover⟩ := h
    exact ⟨b, run_of_replay hb, hover⟩
  · have h : ∃ b ∈ replay step (fun _ _ => True) ({} : AuditBuffer Unit) [.start, .enter,
        .extend [()], .wake, .extend [()], .callStop, .insertReturns, .stopReturns],
        b.stopped = true ∧ b.rows ≠ [] := by
      decide +kernel
    obtain ⟨b, hb, hleft⟩ := h
    exact ⟨b, run_of_replay hb, hleft⟩

end MonCTL.Audit
