import MonCTL.Lib.Collect
import MonCTL.Lib.Runs

/-!
# The ClickHouse Write Buffer

Rows are appended to a buffer, by table, and written to ClickHouse from there: by a loop that
flushes all tables every two seconds, by an append that makes a table large, and by `stop`. A
flush takes a table's rows out of the buffer, has a thread insert them, and puts them back in
front of the table's rows when the insert fails; what is too much then is dropped and counted.

A flush may be suspended between any two of these steps, and cancelled there. A thread cannot be
cancelled. Each row has a number, by which it was appended; `appended`, `inserted`, `dropped` and
`failures` only record what happened. The lock is held by a flush that counts what it drops, and
otherwise within one step. Time and the statistics are left out.
-/

namespace MonCTL.Storage

open Dict

/-- `_FLUSH_THRESHOLD_ROWS`. -/
def flushThresholdRows : ℕ := 500

/-- `_MAX_BUFFER_ROWS`. -/
def maxBufferRows : ℕ := 10000

/-- A row, with its place in the order of arrival. -/
structure Row (α : Type) where
  arrival : ℕ
  data : α
  deriving DecidableEq

/-! ### Flushes -/

/-- How far a flush is: about to take the rows, with a thread inserting them, with the insert
done, with the insert failed, or with the rows put back and some of them dropped. -/
inductive FlushPhase (α : Type)
  | starting
  | inserting (rows : List (Row α))
  | returned
  | failed (rows : List (Row α))
  | overflowed (dropped : List (Row α))

/-- A running `_flush_table`. -/
structure Flush (α : Type) where
  table : String
  phase : FlushPhase α

def Flush.rows {α : Type} (f : Flush α) : List (Row α) :=
  match f.phase with
  | .starting => []
  | .inserting rows => rows
  | .returned => []
  | .failed rows => rows
  | .overflowed dropped => dropped

/-- Whether a flush holds the lock. -/
def Flush.locks {α : Type} (f : Flush α) : Bool :=
  match f.phase with
  | .overflowed _ => true
  | _ => false

/-- Who runs a flush: the caller of an append, the loop, or `stop`. -/
inductive Task
  | caller (n : ℕ)
  | loop
  | stop
  deriving DecidableEq

/-- How far `stop` is: not called, before or within its `_flush_all`, returned, or cancelled. -/
inductive StopPhase
  | notCalled
  | listing
  | flushing
  | returned
  | cancelled
  deriving DecidableEq

/-- What a failed insert has left: the table's rows, and those there was no place for. -/
structure Failure (α : Type) where
  kept : List (Row α)
  dropped : List (Row α)

/-! ### The buffer -/

/-- The buffer with its running flushes, and with the tables that each running `_flush_all` has
still to flush. -/
structure WriteBuffer (α : Type) where
  buffers : Dict String (List (Row α)) := []
  flushes : Dict Task (Flush α) := []
  tables : Dict Task (List String) := []
  threads : List (List (Row α)) := []
  loopRunning : Bool := true
  stopPhase : StopPhase := .notCalled
  next : ℕ := 0
  appended : Multiset (Row α) := 0
  inserted : Multiset (Row α) := 0
  dropped : Multiset (Row α) := 0
  failures : List (Failure α) := []

/-- What happens. -/
inductive Action (α : Type)
  | append (n : ℕ) (table : String) (rows : List α)
  | listTables (task : Task)
  | flushNext (task : Task)
  | pop (task : Task)
  | insertReturns (task : Task)
  | insertRaises (task : Task)
  | resume (task : Task)
  | rebuffer (task : Task)
  | count (task : Task) (counted : Bool)
  | flushAllReturns (task : Task)
  | cancel (task : Task)
  | threadReturns (i : ℕ)
  | threadRaises (i : ℕ)
  | callStop

namespace WriteBuffer

variable {α : Type} (b : WriteBuffer α)

def rowsOf (table : String) : List (Row α) := (b.buffers.get? table).getD []

def hand (task : Task) : List (Row α) :=
  ((b.flushes.get? task).map Flush.rows).getD []

/-- Whether the lock is held. -/
def locked : Bool := b.flushes.any fun e => e.2.locks

/-- The rows of an append. -/
def stamp (rows : List α) : List (Row α) :=
  (rows.zipIdx b.next).map fun e => ⟨e.2, e.1⟩

/-- A table has got other rows. -/
def putRows (table : String) (rows : List (Row α)) : WriteBuffer α :=
  { b with buffers := b.buffers.set table rows }

/-- The flush of a task has come to a phase. -/
def putFlush (task : Task) (f : Flush α) : WriteBuffer α :=
  { b with flushes := b.flushes.set task f }

def endFlush (task : Task) : WriteBuffer α :=
  { b with flushes := b.flushes.erase task }

/-- The step of `append` that needs the lock. A large table is flushed by the caller. -/
def extend (n : ℕ) (table : String) (rows : List α) : WriteBuffer α :=
  let b' := { b.putRows table (b.rowsOf table ++ b.stamp rows) with
    next := b.next + rows.length, appended := b.appended + b.stamp rows }
  if (b'.rowsOf table).length ≥ flushThresholdRows then b'.putFlush (.caller n) ⟨table, .starting⟩
  else b'

/-- A failed flush puts its rows back: in front of the table's rows, and the newest of them. -/
def putBack (task : Task) (table : String) (rows : List (Row α)) :
    WriteBuffer α :=
  let merged := rows ++ b.rowsOf table
  if merged.length ≤ maxBufferRows then
    { (b.putRows table merged).endFlush task with failures := ⟨merged, []⟩ :: b.failures }
  else
    let keep := merged.drop (merged.length - maxBufferRows)
    let dropped := merged.take (merged.length - maxBufferRows)
    { (b.putRows table keep).putFlush task ⟨table, .overflowed dropped⟩ with
      failures := ⟨keep, dropped⟩ :: b.failures }

/-- The task is cancelled where it waits. A thread goes on without it. -/
def cancelTask (task : Task) : WriteBuffer α :=
  let threads := match (b.flushes.get? task).map Flush.phase with
    | some (.inserting rows) => b.threads ++ [rows]
    | _ => b.threads
  { b.endFlush task with
    threads
    tables := b.tables.erase task
    loopRunning := b.loopRunning && task ≠ .loop }

/-- `_flush_all` lists the tables. -/
def list (task : Task) : WriteBuffer α :=
  { b with tables := b.tables.set task b.buffers.keys }

def step : Action α → Option (WriteBuffer α)
  | .append n table rows =>
    if b.locked ∨ b.flushes.get? (.caller n) ≠ none ∨ rows.isEmpty then none
    else some (b.extend n table rows)
  | .listTables .loop =>
    if b.locked ∨ ¬b.loopRunning ∨ b.tables.get? .loop ≠ none then none
    else some (b.list .loop)
  | .listTables .stop =>
    if b.locked ∨ b.stopPhase ≠ .listing then none
    else some { b.list .stop with stopPhase := .flushing }
  | .listTables (.caller _) => none
  | .flushNext task =>
    match b.tables.get? task, b.flushes.get? task with
    | some (table :: tables), none =>
      some { b.putFlush task ⟨table, .starting⟩ with tables := b.tables.set task tables }
    | _, _ => none
  | .pop task =>
    match b.flushes.get? task with
    | some ⟨table, .starting⟩ =>
      if b.locked then none
      else if (b.rowsOf table).isEmpty then
        some { b.endFlush task with buffers := b.buffers.erase table }
      else
        some { b.putFlush task ⟨table, .inserting (b.rowsOf table)⟩ with
          buffers := b.buffers.erase table }
    | _ => none
  | .insertReturns task =>
    match b.flushes.get? task with
    | some ⟨table, .inserting rows⟩ =>
      some { b.putFlush task ⟨table, .returned⟩ with inserted := b.inserted + rows }
    | _ => none
  | .insertRaises task =>
    match b.flushes.get? task with
    | some ⟨table, .inserting rows⟩ => some (b.putFlush task ⟨table, .failed rows⟩)
    | _ => none
  | .resume task =>
    match b.flushes.get? task with
    | some ⟨_, .returned⟩ => some (b.endFlush task)
    | _ => none
  | .rebuffer task =>
    match b.flushes.get? task with
    | some ⟨table, .failed rows⟩ => if b.locked then none else some (b.putBack task table rows)
    | _ => none
  | .count task counted =>
    match b.flushes.get? task with
    | some ⟨_, .overflowed dropped⟩ =>
      some { b.endFlush task with
        dropped := if counted then b.dropped + dropped else b.dropped }
    | _ => none
  | .flushAllReturns task =>
    match b.tables.get? task, b.flushes.get? task with
    | some [], none =>
      some { b with
        tables := b.tables.erase task
        stopPhase := if task = .stop then .returned else b.stopPhase }
    | _, _ => none
  | .cancel .stop =>
    if b.stopPhase = .listing ∨ b.stopPhase = .flushing then
      some { b.cancelTask .stop with stopPhase := .cancelled }
    else none
  | .cancel task => some (b.cancelTask task)
  | .threadReturns i =>
    (b.threads[i]?).map fun rows : List (Row α) =>
      { b with threads := b.threads.eraseIdx i, inserted := b.inserted + rows }
  | .threadRaises i => (b.threads[i]?).map fun _ => { b with threads := b.threads.eraseIdx i }
  | .callStop =>
    if b.stopPhase = .notCalled then some { b.cancelTask .loop with stopPhase := .listing }
    else none

def buffered : Multiset (Row α) := collect id b.buffers

/-- The rows in the hands of flushes, and of threads that a flush has left behind. -/
def inHand : Multiset (Row α) :=
  collect Flush.rows b.flushes + (b.threads.flatten : Multiset (Row α))

/-- **Rows are conserved**: each row is written, in the buffer, in the hands of a flush, or counted
as dropped; a failed insert leaves the newest rows, and no more than the maximum; and when `stop`
has returned, nothing is buffered or in flight. -/
structure Conserved (b : WriteBuffer α) : Prop where
  rows : b.appended = b.inserted + b.buffered + b.inHand + b.dropped
  capped : ∀ f ∈ b.failures, f.kept.length ≤ maxBufferRows
  newest : ∀ f ∈ b.failures, ∀ r ∈ f.dropped, ∀ r' ∈ f.kept, r.arrival < r'.arrival
  stopped : b.stopPhase = .returned → b.buffered = 0 ∧ b.inHand = 0

end WriteBuffer

end MonCTL.Storage
