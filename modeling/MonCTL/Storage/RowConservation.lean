import Mathlib.Tactic.Abel
import MonCTL.Storage.ChBuffer

/-!
# Row Conservation in the Write Buffer

Every row that was appended is somewhere as long as no flush is cancelled with rows in its hands
and Redis counts what is dropped. The rows that a failed insert leaves are the newest ones when the
rows it puts back are older than those it finds, which may be wrong after overlapping flushes of one
table. And `stop` leaves nothing when what is put into the buffer meanwhile can still be flushed.
-/

namespace MonCTL.Storage

open List Dict Option

namespace WriteBuffer

variable {α : Type}

/-! ### The condition -/

/-- The last flush of all tables has not come to a table yet. -/
def Awaits (b : WriteBuffer α) (table : String) : Prop :=
  b.stopPhase = .notCalled ∨ b.stopPhase = .listing ∨ b.stopPhase = .cancelled ∨
    table ∈ (b.tables.get? .stop).getD []
  deriving Decidable

/-- **The condition**: rows come into the buffer only where the last flush will find them, and come
back only in front of newer ones; drops are counted; and no flush is cancelled, or still running
at the end, that has rows in its hands. -/
def Orderly (b : WriteBuffer α) : Action α → Prop
  | .append _ table _ => b.Awaits table
  | .rebuffer task => ∀ f ∈ b.flushes.get? task, b.Awaits f.table ∧
      ∀ r ∈ f.rows, ∀ r' ∈ b.rowsOf f.table, r.arrival < r'.arrival
  | .count _ counted => counted = true
  | .cancel task => (b.hand task).length = 0
  | .callStop => (b.hand .loop).length = 0
  | .flushAllReturns .stop => b.flushes.length = 0
  | _ => True

instance (b : WriteBuffer α) : ∀ a, Decidable (b.Orderly a)
  | .append _ table _ => inferInstanceAs (Decidable (b.Awaits table))
  | .listTables _ | .flushNext _ | .pop _ | .insertReturns _ | .insertRaises _ | .resume _ =>
    inferInstanceAs (Decidable True)
  | .rebuffer task => inferInstanceAs (Decidable (∀ f ∈ b.flushes.get? task, b.Awaits f.table ∧
      ∀ r ∈ f.rows, ∀ r' ∈ b.rowsOf f.table, r.arrival < r'.arrival))
  | .count _ counted => inferInstanceAs (Decidable (counted = true))
  | .flushAllReturns .stop => inferInstanceAs (Decidable (b.flushes.length = 0))
  | .flushAllReturns (.caller _) | .flushAllReturns .loop => inferInstanceAs (Decidable True)
  | .cancel task => inferInstanceAs (Decidable ((b.hand task).length = 0))
  | .threadReturns _ | .threadRaises _ => inferInstanceAs (Decidable True)
  | .callStop => inferInstanceAs (Decidable ((b.hand .loop).length = 0))

/-! ### Reading what has changed -/

section Small

variable (b : WriteBuffer α)

@[simp] theorem rowsOf_putRows_self (table : String) (rows : List (Row α)) :
    (b.putRows table rows).rowsOf table = rows := by
  rw [rowsOf, putRows, get?_set_self, getD_some]

theorem rowsOf_putRows_ne {table table' : String} (h : table' ≠ table) (rows : List (Row α)) :
    (b.putRows table rows).rowsOf table' = b.rowsOf table' := by
  rw [rowsOf, putRows, get?_set_ne _ h, rowsOf]

@[simp] theorem hand_putFlush_self (task : Task) (f : Flush α) :
    (b.putFlush task f).hand task = f.rows := by
  rw [hand, putFlush, get?_set_self, map_some, getD_some]

variable {task : Task}

theorem hand_putFlush_ne {task' : Task} (h : task' ≠ task) (f : Flush α) :
    (b.putFlush task f).hand task' = b.hand task' := by
  rw [hand, putFlush, get?_set_ne _ h, hand]

theorem hand_endFlush (task task' : Task) :
    (b.endFlush task).hand task' = if task' = task then [] else b.hand task' := by
  rw [hand, endFlush, get?_erase]
  split
  · rfl
  · rfl

theorem hand_of_get? {b : WriteBuffer α} {f : Flush α}
    (h : b.flushes.get? task = some f) : b.hand task = f.rows := by
  rw [hand, h, map_some, getD_some]

end Small

/-- The branches of a step. -/
inductive Transition (b : WriteBuffer α) : Action α → WriteBuffer α → Prop
  | append (n : ℕ) (table : String) (rows : List α) (h : b.flushes.get? (.caller n) = none) :
      Transition b (.append n table rows) (b.extend n table rows)
  | listLoop (hrunning : b.loopRunning = true) :
      Transition b (.listTables .loop) (b.list .loop)
  | listStop (hlisting : b.stopPhase = .listing) :
      Transition b (.listTables .stop) { b.list .stop with stopPhase := .flushing }
  | flushNext (task : Task) (table : String) (tables : List String)
      (htables : b.tables.get? task = some (table :: tables))
      (hflush : b.flushes.get? task = none) :
      Transition b (.flushNext task)
        { b.putFlush task ⟨table, .starting⟩ with tables := b.tables.set task tables }
  | popNothing (task : Task) (table : String)
      (hflush : b.flushes.get? task = some ⟨table, .starting⟩) (hrows : b.rowsOf table = []) :
      Transition b (.pop task) { b.endFlush task with buffers := b.buffers.erase table }
  | pop (task : Task) (table : String)
      (hflush : b.flushes.get? task = some ⟨table, .starting⟩) :
      Transition b (.pop task) { b.putFlush task ⟨table, .inserting (b.rowsOf table)⟩ with
        buffers := b.buffers.erase table }
  | insertReturns (task : Task) (table : String) (rows : List (Row α))
      (hflush : b.flushes.get? task = some ⟨table, .inserting rows⟩) :
      Transition b (.insertReturns task)
        { b.putFlush task ⟨table, .returned⟩ with inserted := b.inserted + rows }
  | insertRaises (task : Task) (table : String) (rows : List (Row α))
      (hflush : b.flushes.get? task = some ⟨table, .inserting rows⟩) :
      Transition b (.insertRaises task) (b.putFlush task ⟨table, .failed rows⟩)
  | resume (task : Task) (table : String) (hflush : b.flushes.get? task = some ⟨table, .returned⟩) :
      Transition b (.resume task) (b.endFlush task)
  | rebuffer (task : Task) (table : String) (rows : List (Row α))
      (hflush : b.flushes.get? task = some ⟨table, .failed rows⟩) :
      Transition b (.rebuffer task) (b.putBack task table rows)
  | count (task : Task) (counted : Bool) (table : String) (dropped : List (Row α))
      (hflush : b.flushes.get? task = some ⟨table, .overflowed dropped⟩) :
      Transition b (.count task counted) { b.endFlush task with
        dropped := if counted then b.dropped + dropped else b.dropped }
  | flushAllReturns (task : Task) (htables : b.tables.get? task = some []) :
      Transition b (.flushAllReturns task) { b with
        tables := b.tables.erase task
        stopPhase := if task = .stop then .returned else b.stopPhase }
  | cancelStop (hphase : b.stopPhase = .listing ∨ b.stopPhase = .flushing) :
      Transition b (.cancel .stop) { b.cancelTask .stop with stopPhase := .cancelled }
  | cancel (task : Task) (hne : task ≠ .stop) : Transition b (.cancel task) (b.cancelTask task)
  | threadReturns (i : ℕ) (rows : List (Row α)) (hrows : b.threads[i]? = some rows) :
      Transition b (.threadReturns i)
        { b with threads := b.threads.eraseIdx i, inserted := b.inserted + rows }
  | threadRaises (i : ℕ) :
      Transition b (.threadRaises i) { b with threads := b.threads.eraseIdx i }
  | callStop (hphase : b.stopPhase = .notCalled) :
      Transition b .callStop { b.cancelTask .loop with stopPhase := .listing }

variable {b : WriteBuffer α}

theorem transition_of_step {b' : WriteBuffer α} {a : Action α} (h : b.step a = some b') :
    Transition b a b' := by
  cases a with
  | append n table rows =>
    rw [step] at h
    split at h
    · cases h
    next hnot =>
      cases h
      push Not at hnot
      exact .append n table rows hnot.2.1
  | listTables task =>
    cases task with
    | caller n => cases h
    | loop =>
      rw [step] at h
      split at h
      · cases h
      next hnot =>
        cases h
        push Not at hnot
        exact .listLoop hnot.2.1
    | stop =>
      rw [step] at h
      split at h
      · cases h
      next hnot =>
        cases h
        push Not at hnot
        exact .listStop hnot.2
  | flushNext task =>
    rw [step] at h
    split at h
    next table tables htables hflush =>
      cases h
      exact .flushNext task table tables htables hflush
    · cases h
  | pop task =>
    rw [step] at h
    split at h
    next table hflush =>
      split at h
      · cases h
      · split at h
        next hrows =>
          cases h
          exact .popNothing task table hflush (List.isEmpty_iff.1 hrows)
        · cases h
          exact .pop task table hflush
    · cases h
  | insertReturns task =>
    rw [step] at h
    split at h
    next table rows hflush =>
      cases h
      exact .insertReturns task table rows hflush
    · cases h
  | insertRaises task =>
    rw [step] at h
    split at h
    next table rows hflush =>
      cases h
      exact .insertRaises task table rows hflush
    · cases h
  | resume task =>
    rw [step] at h
    split at h
    next table hflush =>
      cases h
      exact .resume task table hflush
    · cases h
  | rebuffer task =>
    rw [step] at h
    split at h
    next table rows hflush =>
      split at h
      · cases h
      · cases h
        exact .rebuffer task table rows hflush
    · cases h
  | count task counted =>
    rw [step] at h
    split at h
    next table dropped hflush =>
      cases h
      exact .count task counted table dropped hflush
    · cases h
  | flushAllReturns task =>
    rw [step] at h
    split at h
    next htables hflush =>
      cases h
      exact .flushAllReturns task htables
    · cases h
  | cancel task =>
    cases task with
    | caller n =>
      cases h
      exact .cancel _ (by simp)
    | loop =>
      cases h
      exact .cancel _ (by simp)
    | stop =>
      rw [step] at h
      split at h
      next hphase =>
        cases h
        exact .cancelStop hphase
      · cases h
  | threadReturns i =>
    obtain ⟨rows, hrows, rfl⟩ := map_eq_some_iff.1 h
    exact .threadReturns i rows hrows
  | threadRaises i =>
    obtain ⟨rows, -, rfl⟩ := map_eq_some_iff.1 h
    exact .threadRaises i
  | callStop =>
    rw [step] at h
    split at h
    next hphase =>
      cases h
      exact .callStop hphase
    · cases h

/-! ### Accounts -/

/-- The rows add up, and no thread has been left behind with rows. -/
structure Accounts (b : WriteBuffer α) : Prop where
  buffers_nodup : b.buffers.keys.Nodup
  flushes_nodup : b.flushes.keys.Nodup
  rows : b.appended = b.inserted + b.buffered + collect Flush.rows b.flushes + b.dropped
  threads : ∀ rows ∈ b.threads, rows = []

theorem buffered_eq (h : b.buffers.keys.Nodup) (table : String) :
    b.buffered = b.rowsOf table + collect id (b.buffers.erase table) := by
  rw [buffered, rowsOf]
  cases hrows : b.buffers.get? table with
  | none => rw [erase_of_get?_eq_none hrows, getD_none, Multiset.coe_nil, zero_add]
  | some rows => rw [collect_eq_add_erase id h hrows, getD_some, id_eq]

theorem collect_flushes_eq (h : b.flushes.keys.Nodup) (task : Task) : collect Flush.rows b.flushes =
      b.hand task + collect Flush.rows (b.flushes.erase task) := by
  rw [hand]
  cases hflush : b.flushes.get? task with
  | none =>
    rw [erase_of_get?_eq_none hflush, map_none, getD_none, Multiset.coe_nil,
      zero_add]
  | some f => rw [collect_eq_add_erase _ h hflush, map_some, getD_some]

namespace Accounts

variable {b : WriteBuffer α} {b' : WriteBuffer α}

/-- **A step balances** when what it changes about one table and one task adds up. -/
theorem of_balance (h : Accounts b) (table : String) (task : Task)
    {inTable inTask : List (Row α)} (hbuffers_nodup : b'.buffers.keys.Nodup)
    (hflushes_nodup : b'.flushes.keys.Nodup) (hthreads : ∀ rows ∈ b'.threads, rows = [])
    (hbuffered : b'.buffered = inTable + collect id (b.buffers.erase table))
    (hflushes : collect Flush.rows b'.flushes =
      inTask + collect Flush.rows (b.flushes.erase task))
    (hbalance : b'.appended + (b.inserted + b.rowsOf table + b.hand task + b.dropped) =
      b.appended + (b'.inserted + inTable + inTask + b'.dropped)) : Accounts b' := by
  refine ⟨hbuffers_nodup, hflushes_nodup, ?_, hthreads⟩
  have hrows := h.rows
  rw [buffered_eq h.buffers_nodup table, collect_flushes_eq h.flushes_nodup task] at hrows
  rw [hrows] at hbalance
  rw [hbuffered, hflushes]
  refine add_right_cancel (hbalance.trans ?_)
  abel

theorem buffered_putRows (h : Accounts b) (table : String) (rows : List (Row α)) :
    (b.putRows table rows).buffered = rows + collect id (b.buffers.erase table) :=
  collect_set id h.buffers_nodup table rows

theorem collect_putFlush (h : Accounts b) (task : Task) (f : Flush α) :
    collect Flush.rows (b.putFlush task f).flushes =
      f.rows + collect Flush.rows (b.flushes.erase task) :=
  collect_set _ h.flushes_nodup task f

theorem extend (h : Accounts b) {n : ℕ} (hnone : b.flushes.get? (.caller n) = none)
    (table : String) (rows : List α) : Accounts (b.extend n table rows) := by
  have hhand : b.hand (.caller n) = [] := by
    rw [hand, hnone]
    rfl
  have hbuffers := nodup_keys_set h.buffers_nodup table (b.rowsOf table ++ b.stamp rows)
  rw [WriteBuffer.extend]
  split
  · refine h.of_balance table (.caller n) hbuffers (nodup_keys_set h.flushes_nodup _ _) h.threads
      (h.buffered_putRows table _) (h.collect_putFlush _ ⟨table, .starting⟩) ?_
    rw [hhand]
    change b.appended + b.stamp rows + (b.inserted + b.rowsOf table + _ + b.dropped) =
      b.appended + (b.inserted + _ + _ + b.dropped)
    rw [← Multiset.coe_add]
    change _ + (_ + (0 : Multiset (Row α)) + _) = _ + (_ + (0 : Multiset (Row α)) + _)
    abel
  · refine h.of_balance table (.caller n) hbuffers h.flushes_nodup h.threads
      (h.buffered_putRows table _) (collect_flushes_eq h.flushes_nodup _) ?_
    change b.appended + b.stamp rows + (b.inserted + b.rowsOf table + _ + b.dropped) =
      b.appended + (b.inserted + _ + _ + b.dropped)
    rw [← Multiset.coe_add]
    abel

variable {task : Task} {table : String}

theorem overflow (h : Accounts b) {rows : List (Row α)}
    (hhand : b.hand task = rows) {dropped keep : List (Row α)}
    (hsplit : dropped ++ keep = rows ++ b.rowsOf table) (failures : List (Failure α)) :
    Accounts { (b.putRows table keep).putFlush task ⟨table, .overflowed dropped⟩ with failures } :=
    by
  refine h.of_balance table task (nodup_keys_set h.buffers_nodup _ _)
    (nodup_keys_set h.flushes_nodup _ _) h.threads (h.buffered_putRows table _)
    (h.collect_putFlush task ⟨table, .overflowed dropped⟩) ?_
  have hsum : (rows : Multiset (Row α)) + b.rowsOf table = dropped + keep := by
    rw [Multiset.coe_add, Multiset.coe_add, hsplit]
  rw [hhand]
  change b.appended + (b.inserted + _ + _ + b.dropped) =
    b.appended + (b.inserted + keep + dropped + b.dropped)
  rw [add_assoc b.inserted, add_comm (b.rowsOf table : Multiset (Row α)), hsum]
  abel

theorem putBack (h : Accounts b) {rows : List (Row α)}
    (hflush : b.flushes.get? task = some ⟨table, .failed rows⟩) :
    Accounts (b.putBack task table rows) := by
  have hhand : b.hand task = rows := hand_of_get? hflush
  rw [WriteBuffer.putBack]
  split
  · refine h.of_balance table task (nodup_keys_set h.buffers_nodup _ _)
      (nodup_keys_erase h.flushes_nodup _) h.threads (h.buffered_putRows table _)
      (zero_add _).symm ?_
    rw [hhand, ← Multiset.coe_add]
    change b.appended + (b.inserted + _ + _ + b.dropped) =
      b.appended + (b.inserted + _ + 0 + b.dropped)
    abel
  · exact h.overflow hhand (take_append_drop _ _) _

theorem cancelTask (h : Accounts b) (hhand : b.hand task = []) : Accounts (b.cancelTask task) := by
  refine h.of_balance "" task h.buffers_nodup (nodup_keys_erase h.flushes_nodup _) ?_
    (buffered_eq h.buffers_nodup _) (zero_add _).symm ?_
  · rw [WriteBuffer.cancelTask]
    cases hflush : b.flushes.get? task with
    | none => exact h.threads
    | some f =>
      rw [hand_of_get? hflush] at hhand
      obtain ⟨table, phase⟩ := f
      cases phase with
      | inserting rows =>
        intro rows' hrows'
        rcases List.mem_append.1 hrows' with hrows' | hrows'
        · exact h.threads rows' hrows'
        · rw [List.mem_singleton.1 hrows']
          exact hhand
      | starting => exact h.threads
      | returned => exact h.threads
      | failed rows => exact h.threads
      | overflowed dropped => exact h.threads
  · rw [hhand]
    rfl

theorem step {a : Action α} (h : Accounts b) (ha : b.Orderly a)
    (hstep : Transition b a b') : Accounts b' := by
  cases hstep with
  | append n table rows hnone => exact h.extend hnone table rows
  | listLoop hrunning => exact ⟨h.buffers_nodup, h.flushes_nodup, h.rows, h.threads⟩
  | listStop hlisting => exact ⟨h.buffers_nodup, h.flushes_nodup, h.rows, h.threads⟩
  | flushNext task table tables htables hflush =>
    refine h.of_balance table task h.buffers_nodup (nodup_keys_set h.flushes_nodup _ _) h.threads
      (buffered_eq h.buffers_nodup _) (h.collect_putFlush task ⟨table, .starting⟩) ?_
    rw [hand, hflush]
    rfl
  | popNothing task table hflush hrows =>
    refine h.of_balance table task (nodup_keys_erase h.buffers_nodup _)
      (nodup_keys_erase h.flushes_nodup _) h.threads (zero_add _).symm (zero_add _).symm ?_
    rw [hand_of_get? hflush, hrows]
    rfl
  | pop task table hflush =>
    refine h.of_balance table task (nodup_keys_erase h.buffers_nodup _)
      (nodup_keys_set h.flushes_nodup _ _) h.threads (zero_add _).symm
      (h.collect_putFlush task _) ?_
    rw [hand_of_get? hflush]
    change b.appended + (b.inserted + b.rowsOf table + 0 + b.dropped) =
      b.appended + (b.inserted + 0 + b.rowsOf table + b.dropped)
    abel
  | insertReturns task table rows hflush =>
    refine h.of_balance table task h.buffers_nodup (nodup_keys_set h.flushes_nodup _ _) h.threads
      (buffered_eq h.buffers_nodup _) (h.collect_putFlush task ⟨table, .returned⟩) ?_
    rw [hand_of_get? hflush]
    change b.appended + (b.inserted + b.rowsOf table + rows + b.dropped) =
      b.appended + (b.inserted + rows + b.rowsOf table + 0 + b.dropped)
    abel
  | insertRaises task table rows hflush =>
    refine h.of_balance table task h.buffers_nodup (nodup_keys_set h.flushes_nodup _ _) h.threads
      (buffered_eq h.buffers_nodup _) (h.collect_putFlush task _) ?_
    rw [hand_of_get? hflush]
    rfl
  | resume task table hflush =>
    refine h.of_balance table task h.buffers_nodup (nodup_keys_erase h.flushes_nodup _) h.threads
      (buffered_eq h.buffers_nodup _) (zero_add _).symm ?_
    rw [hand_of_get? hflush]
    rfl
  | rebuffer task table rows hflush => exact h.putBack hflush
  | count task counted table dropped hflush =>
    refine h.of_balance table task h.buffers_nodup (nodup_keys_erase h.flushes_nodup _) h.threads
      (buffered_eq h.buffers_nodup _) (zero_add _).symm ?_
    rw [hand_of_get? hflush, show counted = true from ha, if_pos rfl]
    change b.appended + (b.inserted + b.rowsOf table + dropped + b.dropped) =
      b.appended + (b.inserted + b.rowsOf table + 0 + (b.dropped + dropped))
    abel
  | flushAllReturns task htables => exact ⟨h.buffers_nodup, h.flushes_nodup, h.rows, h.threads⟩
  | cancelStop hphase =>
    have hcancelled := h.cancelTask (List.length_eq_zero_iff.1 ha)
    exact ⟨hcancelled.buffers_nodup, hcancelled.flushes_nodup, hcancelled.rows,
      hcancelled.threads⟩
  | cancel task hne => exact h.cancelTask (List.length_eq_zero_iff.1 ha)
  | threadReturns i rows hrows =>
    have hnil := h.threads rows (mem_of_getElem? hrows)
    refine ⟨h.buffers_nodup, h.flushes_nodup, ?_, fun rows' hrows' =>
      h.threads rows' (mem_of_mem_eraseIdx hrows')⟩
    rw [hnil]
    exact (add_zero b.inserted).symm ▸ h.rows
  | threadRaises i =>
    exact ⟨h.buffers_nodup, h.flushes_nodup, h.rows, fun rows hrows =>
      h.threads rows (mem_of_mem_eraseIdx hrows)⟩
  | callStop hphase =>
    have hcancelled := h.cancelTask (List.length_eq_zero_iff.1 ha)
    exact ⟨hcancelled.buffers_nodup, hcancelled.flushes_nodup, hcancelled.rows,
      hcancelled.threads⟩

end Accounts

/-! ### The order of the rows -/

/-- Rows in the order of their arrival, all of which have arrived. -/
def Series (next : ℕ) (rows : List (Row α)) : Prop :=
  (rows.Pairwise fun r r' => r.arrival < r'.arrival) ∧ ∀ r ∈ rows, r.arrival < next

theorem Series.nil (next : ℕ) : Series next ([] : List (Row α)) := ⟨.nil, forall_mem_nil _⟩

variable {rows : List (Row α)}

theorem Series.mono {m n : ℕ} (h : Series m rows) (hle : m ≤ n) : Series n rows :=
  ⟨h.1, fun r hr => Nat.lt_of_lt_of_le (h.2 r hr) hle⟩

variable {next : ℕ} {rows' : List (Row α)}

theorem Series.sublist (h : Series next rows) (hsub : rows'.Sublist rows) : Series next rows' :=
  ⟨h.1.sublist hsub, fun r hr => h.2 r (hsub.mem hr)⟩

theorem Series.append (h : Series next rows)
    (h' : Series next rows') (hold : ∀ r ∈ rows, ∀ r' ∈ rows', r.arrival < r'.arrival) :
    Series next (rows ++ rows') := by
  refine ⟨List.pairwise_append.2 ⟨h.1, h'.1, hold⟩, fun r hr => ?_⟩
  rcases List.mem_append.1 hr with hr | hr
  · exact h.2 r hr
  · exact h'.2 r hr

theorem series_stamp (b : WriteBuffer α) (rows : List α) :
    Series (b.next + rows.length) (b.stamp rows) ∧
      ∀ r ∈ b.stamp rows, b.next ≤ r.arrival := by
  rw [stamp]
  generalize b.next = n
  induction rows generalizing n with
  | nil => exact ⟨Series.nil _, forall_mem_nil _⟩
  | cons x rows ih =>
    obtain ⟨⟨hsorted, hlt⟩, hle⟩ := ih (n + 1)
    rw [zipIdx_cons, map_cons]
    refine ⟨⟨List.pairwise_cons.2 ⟨fun r hr => hle r hr, hsorted⟩, ?_⟩, ?_⟩
    · intro r hr
      rw [length_cons]
      rcases List.mem_cons.1 hr with rfl | hr
      · exact Nat.lt_add_of_pos_right (Nat.succ_pos _)
      · have := hlt r hr
        omega
    · intro r hr
      rcases List.mem_cons.1 hr with rfl | hr
      · exact Nat.le_refl _
      · exact Nat.le_of_succ_le (hle r hr)

/-- Tables and hands hold rows in the order of their arrival, and failures left the newest. -/
structure Ordered (b : WriteBuffer α) : Prop where
  tables : ∀ table, Series b.next (b.rowsOf table)
  hands : ∀ task, Series b.next (b.hand task)
  capped : ∀ f ∈ b.failures, f.kept.length ≤ maxBufferRows
  newest : ∀ f ∈ b.failures, ∀ r ∈ f.dropped, ∀ r' ∈ f.kept, r.arrival < r'.arrival

section Frame

variable {b : WriteBuffer α} {P : List (Row α) → Prop}

theorem forall_rowsOf_putRows (h : ∀ table, P (b.rowsOf table)) {table : String}
    {rows : List (Row α)} (hrows : P rows) (table' : String) :
    P ((b.putRows table rows).rowsOf table') := by
  by_cases heq : table' = table
  · rw [heq, rowsOf_putRows_self]
    exact hrows
  · rw [rowsOf_putRows_ne b heq]
    exact h table'

theorem forall_rowsOf_erase (h : ∀ table, P (b.rowsOf table)) (hnil : P [])
    (table table' : String) :
    P (((b.buffers.erase table).get? table').getD []) := by
  rw [get?_erase]
  split
  · exact hnil
  · exact h table'

theorem forall_hand_putFlush (h : ∀ task, P (b.hand task)) {task : Task} {f : Flush α}
    (hf : P f.rows) (task' : Task) : P ((b.putFlush task f).hand task') := by
  by_cases heq : task' = task
  · rw [heq, hand_putFlush_self]
    exact hf
  · rw [hand_putFlush_ne b heq]
    exact h task'

theorem forall_hand_endFlush (h : ∀ task, P (b.hand task)) (hnil : P []) (task task' : Task) :
    P ((b.endFlush task).hand task') := by
  rw [hand_endFlush]
  split
  · exact hnil
  · exact h task'

end Frame

namespace Ordered

variable {b : WriteBuffer α}

theorem extend (h : Ordered b) (n : ℕ) (table : String) (rows : List α) :
    Ordered (b.extend n table rows) := by
  have hle : b.next ≤ b.next + rows.length := Nat.le_add_right _ _
  obtain ⟨hstamp, hnew⟩ := series_stamp b rows
  have hrows : Series (b.next + rows.length) (b.rowsOf table ++ b.stamp rows) :=
    ((h.tables table).mono hle).append hstamp fun r hr r' hr' =>
      Nat.lt_of_lt_of_le ((h.tables table).2 r hr) (hnew r' hr')
  have hplain : Ordered { b.putRows table (b.rowsOf table ++ b.stamp rows) with
      next := b.next + rows.length, appended := b.appended + b.stamp rows } :=
    ⟨forall_rowsOf_putRows (fun t => (h.tables t).mono hle) hrows,
      fun task => (h.hands task).mono hle, h.capped, h.newest⟩
  rw [WriteBuffer.extend]
  split
  · exact ⟨hplain.tables, forall_hand_putFlush hplain.hands (Series.nil _), hplain.capped,
    hplain.newest⟩
  · exact hplain

variable {task : Task} {table : String}

theorem overflow (h : Ordered b) {dropped keep : List (Row α)}
    (hmerged : Series b.next (dropped ++ keep)) (hle : keep.length ≤ maxBufferRows) :
    Ordered { (b.putRows table keep).putFlush task ⟨table, .overflowed dropped⟩ with
      failures := ⟨keep, dropped⟩ :: b.failures } :=
  ⟨forall_rowsOf_putRows h.tables (hmerged.sublist (sublist_append_right _ _)),
    forall_hand_putFlush h.hands (hmerged.sublist (sublist_append_left _ _)),
    List.forall_mem_cons.2 ⟨hle, h.capped⟩,
    List.forall_mem_cons.2 ⟨(List.pairwise_append.1 hmerged.1).2.2, h.newest⟩⟩

theorem putBack (h : Ordered b) {rows : List (Row α)} (hrows : Series b.next rows)
    (hold : ∀ r ∈ rows, ∀ r' ∈ b.rowsOf table, r.arrival < r'.arrival) :
    Ordered (b.putBack task table rows) := by
  have hmerged := hrows.append (h.tables table) hold
  rw [WriteBuffer.putBack]
  split
  next hle =>
    refine ⟨forall_rowsOf_putRows h.tables hmerged, forall_hand_endFlush h.hands (Series.nil _) task,
      List.forall_mem_cons.2 ⟨hle, h.capped⟩, List.forall_mem_cons.2 ⟨?_, h.newest⟩⟩
    exact forall_mem_nil _
  · refine h.overflow ?_ ?_
    · rw [take_append_drop]
      exact hmerged
    · rw [length_drop]
      omega

theorem step {b' : WriteBuffer α} {a : Action α} (h : Ordered b) (ha : b.Orderly a)
    (hstep : Transition b a b') : Ordered b' := by
  have hnil : Series b.next ([] : List (Row α)) := Series.nil _
  cases hstep with
  | append n table rows hnone => exact h.extend n table rows
  | listLoop hrunning => exact ⟨h.tables, h.hands, h.capped, h.newest⟩
  | listStop hlisting => exact ⟨h.tables, h.hands, h.capped, h.newest⟩
  | flushNext task table tables htables hflush =>
    exact ⟨h.tables, forall_hand_putFlush h.hands hnil, h.capped, h.newest⟩
  | popNothing task table hflush hrows =>
    exact ⟨forall_rowsOf_erase h.tables hnil table, forall_hand_endFlush h.hands hnil task,
      h.capped, h.newest⟩
  | pop task table hflush =>
    exact ⟨forall_rowsOf_erase h.tables hnil table, forall_hand_putFlush h.hands (h.tables table),
      h.capped, h.newest⟩
  | insertReturns task table rows hflush =>
    exact ⟨h.tables, forall_hand_putFlush h.hands hnil, h.capped, h.newest⟩
  | insertRaises task table rows hflush =>
    have hhand : b.hand task = rows := hand_of_get? hflush
    have hrows : Series b.next rows := hhand ▸ h.hands task
    exact ⟨h.tables, forall_hand_putFlush h.hands hrows, h.capped, h.newest⟩
  | resume task table hflush =>
    exact ⟨h.tables, forall_hand_endFlush h.hands hnil task, h.capped, h.newest⟩
  | rebuffer task table rows hflush =>
    have hhand : b.hand task = rows := hand_of_get? hflush
    have hrows : Series b.next rows := hhand ▸ h.hands task
    exact h.putBack hrows (ha _ hflush).2
  | count task counted table dropped hflush =>
    exact ⟨h.tables, forall_hand_endFlush h.hands hnil task, h.capped, h.newest⟩
  | flushAllReturns task htables => exact ⟨h.tables, h.hands, h.capped, h.newest⟩
  | cancelStop hphase =>
    exact ⟨h.tables, forall_hand_endFlush h.hands hnil .stop, h.capped, h.newest⟩
  | cancel task hne => exact ⟨h.tables, forall_hand_endFlush h.hands hnil task, h.capped, h.newest⟩
  | threadReturns i rows hrows => exact ⟨h.tables, h.hands, h.capped, h.newest⟩
  | threadRaises i => exact ⟨h.tables, h.hands, h.capped, h.newest⟩
  | callStop hphase => exact ⟨h.tables, forall_hand_endFlush h.hands hnil .loop, h.capped, h.newest⟩

end Ordered

/-! ### The last flush -/

/-- What `stop` relies on: each row in the buffer will be flushed, and who is still at work. -/
structure Draining (b : WriteBuffer α) : Prop where
  awaited : ∀ table, b.rowsOf table ≠ [] →
    b.Awaits table ∨ b.flushes.get? .stop = some ⟨table, .starting⟩
  stop : b.tables.get? .stop ≠ none → b.stopPhase = .flushing
  loop : b.tables.get? .loop ≠ none → b.loopRunning = true
  caller : ∀ n, b.tables.get? (.caller n) = none
  loopGone : b.stopPhase ≠ .notCalled → b.loopRunning = false
  returned : b.stopPhase = .returned → b.flushes = []

namespace Draining

variable {b : WriteBuffer α} {task : Task} {f : Flush α}

theorem ne_returned (h : Draining b)
    (hflush : b.flushes.get? task = some f) : b.stopPhase ≠ .returned := by
  intro hreturned
  rw [h.returned hreturned] at hflush
  cases hflush

theorem not_awaits (h : Draining b) (hreturned : b.stopPhase = .returned) (table : String) :
    ¬b.Awaits table := by
  have htables : b.tables.get? .stop = none := by
    by_contra hne
    have hflushing := h.stop hne
    rw [hreturned] at hflushing
    cases hflushing
  rw [Awaits, hreturned, htables]
  simp

variable {table : String} {flushes : Dict Task (Flush α)}

theorem awaited_of_frame (h : Draining b)
    (hframe : ∀ task' ≠ task, flushes.get? task' = b.flushes.get? task')
    (hrows : b.rowsOf table ≠ []) (hnot : b.flushes.get? task ≠ some ⟨table, .starting⟩) :
    b.Awaits table ∨ flushes.get? .stop = some ⟨table, .starting⟩ := by
  rcases h.awaited table hrows with hawaits | hstarting
  · exact .inl hawaits
  · by_cases htask : Task.stop = task
    · exact absurd (htask ▸ hstarting) hnot
    · rw [hframe _ htask]
      exact .inr hstarting

theorem putFlush (h : Draining b)
    (hflush : b.flushes.get? task = some f) (hphase : f.phase ≠ .starting) (f' : Flush α) :
    Draining (b.putFlush task f') := by
  refine ⟨fun table hrows => h.awaited_of_frame (fun _ hne => get?_set_ne _ hne _) hrows ?_, h.stop,
    h.loop, h.caller, h.loopGone, fun hreturned => absurd hreturned (h.ne_returned hflush)⟩
  rintro hstarting
  rw [hflush] at hstarting
  cases hstarting
  exact hphase rfl

theorem endFlush (h : Draining b)
    (hflush : b.flushes.get? task = some f) (hphase : f.phase ≠ .starting) :
    Draining (b.endFlush task) := by
  refine ⟨fun table hrows => h.awaited_of_frame (fun _ hne => get?_erase_ne _ hne) hrows ?_, h.stop,
    h.loop, h.caller, h.loopGone, fun hreturned => absurd hreturned (h.ne_returned hflush)⟩
  rintro hstarting
  rw [hflush] at hstarting
  cases hstarting
  exact hphase rfl

theorem putRows (h : Draining b) (hawaits : b.Awaits table)
    (rows : List (Row α)) : Draining (b.putRows table rows) := by
  refine ⟨fun table' hrows => ?_, h.stop, h.loop, h.caller, h.loopGone, h.returned⟩
  by_cases heq : table' = table
  · exact .inl (heq ▸ hawaits)
  · rw [rowsOf_putRows_ne b heq] at hrows
    exact h.awaited table' hrows

theorem extend (h : Draining b) {n : ℕ} (hnone : b.flushes.get? (.caller n) = none)
    (hawaits : b.Awaits table) (rows : List α) : Draining (b.extend n table rows) := by
  have hplain : Draining { b.putRows table (b.rowsOf table ++ b.stamp rows) with
      next := b.next + rows.length, appended := b.appended + b.stamp rows } :=
    have hput := h.putRows hawaits (b.rowsOf table ++ b.stamp rows)
    ⟨hput.awaited, hput.stop, hput.loop, hput.caller, hput.loopGone, hput.returned⟩
  rw [WriteBuffer.extend]
  split
  · refine ⟨fun table' hrows => hplain.awaited_of_frame (fun _ hne => get?_set_ne _ hne _) hrows ?_,
      h.stop, h.loop, h.caller, h.loopGone,
      fun hreturned => absurd hawaits (h.not_awaits hreturned table)⟩
    intro hstarting
    cases hnone.symm.trans hstarting
  · exact hplain

theorem overflow (h : Draining b) {rows : List (Row α)}
    (hflush : b.flushes.get? task = some ⟨table, .failed rows⟩) (hawaits : b.Awaits table)
    (keep dropped : List (Row α)) (failures : List (Failure α)) :
    Draining { (b.putRows table keep).putFlush task ⟨table, .overflowed dropped⟩ with failures } :=
  have hput := (h.putRows hawaits keep).putFlush hflush (by simp) ⟨table, .overflowed dropped⟩
  ⟨hput.awaited, hput.stop, hput.loop, hput.caller, hput.loopGone, hput.returned⟩

theorem putBack (h : Draining b) {rows : List (Row α)}
    (hflush : b.flushes.get? task = some ⟨table, .failed rows⟩) (hawaits : b.Awaits table) :
    Draining (b.putBack task table rows) := by
  rw [WriteBuffer.putBack]
  split
  · have hend := (h.putRows hawaits (rows ++ b.rowsOf table)).endFlush hflush (by simp)
    exact ⟨hend.awaited, hend.stop, hend.loop, hend.caller, hend.loopGone, hend.returned⟩
  · exact h.overflow hflush hawaits _ _ _

theorem cancelTask (h : Draining b) (hne : task ≠ .stop) : Draining (b.cancelTask task) := by
  have htables : ∀ task', (b.tables.erase task).get? task' ≠ none →
      b.tables.get? task' ≠ none ∧ task' ≠ task := by
    intro task' hget
    rw [get?_erase] at hget
    split at hget
    · exact absurd rfl hget
    next hne' => exact ⟨hget, hne'⟩
  have hstop : (b.tables.erase task).get? .stop = b.tables.get? .stop := get?_erase_ne _ hne.symm
  refine ⟨fun table hrows => ?_, fun hget => h.stop (htables _ hget).1, fun hget => ?_, fun n => ?_,
    fun hphase => ?_, fun hreturned => ?_⟩
  · have hkept : (b.flushes.erase task).get? .stop = b.flushes.get? .stop :=
      get?_erase_ne _ hne.symm
    refine (h.awaited table hrows).imp (fun hawaits => ?_) fun hstarting => hkept.trans hstarting
    rw [Awaits] at hawaits ⊢
    exact hstop.symm ▸ hawaits
  · have hrunning := h.loop (htables _ hget).1
    simp [WriteBuffer.cancelTask, hrunning, (htables _ hget).2.symm]
  · by_contra hget
    exact (htables _ hget).1 (h.caller n)
  · simp [WriteBuffer.cancelTask, h.loopGone hphase]
  · change b.flushes.erase task = []
    rw [h.returned hreturned]
    rfl

theorem callStop (h : Draining b) (hphase : b.stopPhase = .notCalled) :
    Draining { b.cancelTask .loop with stopPhase := .listing } := by
  have hcancelled : Draining (b.cancelTask .loop) := h.cancelTask (by simp)
  refine ⟨fun _ _ => .inl (.inr (.inl rfl)), fun hget => ?_, hcancelled.loop, hcancelled.caller,
    fun _ => ?_, fun hreturned => by cases hreturned⟩
  · have hflushing : b.stopPhase = .flushing := hcancelled.stop hget
    rw [hphase] at hflushing
    cases hflushing
  · simp [WriteBuffer.cancelTask]

theorem flushNext (h : Draining b) {tables : List String}
    (htables : b.tables.get? task = some (table :: tables)) (hflush : b.flushes.get? task = none) :
    Draining { b.putFlush task ⟨table, .starting⟩ with tables := b.tables.set task tables } := by
  have hsome : ∀ task', (b.tables.set task tables).get? task' ≠ none →
      b.tables.get? task' ≠ none := by
    intro task' hget
    by_cases heq : task' = task
    · rw [heq, htables]
      simp
    · rwa [get?_set_ne _ heq] at hget
  refine ⟨fun table' hrows => ?_, fun hget => h.stop (hsome _ hget), fun hget => h.loop (hsome _ hget),
    fun n => ?_, h.loopGone, fun hreturned => ?_⟩
  · by_cases htask : task = .stop
    · subst htask
      have hflushing : b.stopPhase = .flushing := h.stop (by rw [htables]; simp)
      rcases h.awaited table' hrows with hawaits | hstarting
      · rw [Awaits, hflushing, htables, getD_some] at hawaits
        have hmem : table' ∈ table :: tables := by simpa using hawaits
        rcases List.mem_cons.1 hmem with rfl | hmem
        · exact .inr (get?_set_self _ _ _)
        · refine .inl (.inr (.inr (.inr ?_)))
          rw [get?_set_self]
          exact hmem
      · rw [hflush] at hstarting
        cases hstarting
    · have hstop : (b.tables.set task tables).get? .stop = b.tables.get? .stop :=
        get?_set_ne _ (Ne.symm htask) _
      have hkept : (b.flushes.set task ⟨table, .starting⟩).get? .stop = b.flushes.get? .stop :=
        get?_set_ne _ (Ne.symm htask) _
      refine (h.awaited table' hrows).imp (fun hawaits => ?_) fun hstarting => hkept.trans hstarting
      rw [Awaits] at hawaits ⊢
      exact hstop.symm ▸ hawaits
  · by_contra hget
    exact hsome _ hget (h.caller n)
  · exfalso
    cases task with
    | caller n =>
      rw [h.caller n] at htables
      cases htables
    | loop =>
      have hrunning := h.loop (by rw [htables]; simp)
      rw [h.loopGone (by rw [show b.stopPhase = .returned from hreturned]; simp)] at hrunning
      cases hrunning
    | stop =>
      have hflushing := h.stop (by rw [htables]; simp)
      rw [show b.stopPhase = .returned from hreturned] at hflushing
      cases hflushing

theorem takeRows (h : Draining b) (hflush : b.flushes.get? task = some ⟨table, .starting⟩)
    (hframe : ∀ task' ≠ task, flushes.get? task' = b.flushes.get? task') :
    Draining { b with flushes, buffers := b.buffers.erase table } := by
  refine ⟨fun table' hrows => ?_, h.stop, h.loop, h.caller, h.loopGone,
    fun hreturned => absurd hreturned (h.ne_returned hflush)⟩
  have hrows' : ((b.buffers.erase table).get? table').getD [] ≠ [] := hrows
  rw [get?_erase] at hrows'
  split at hrows'
  · exact absurd rfl hrows'
  next hne =>
    refine h.awaited_of_frame hframe hrows' ?_
    intro hstarting
    rw [hflush] at hstarting
    cases hstarting
    exact hne rfl

theorem flushAllReturns (h : Draining b) (ha : b.Orderly (.flushAllReturns task))
    (htables : b.tables.get? task = some []) : Draining { b with
      tables := b.tables.erase task
      stopPhase := if task = .stop then .returned else b.stopPhase } := by
  have hcaller : ∀ n, (b.tables.erase task).get? (.caller n) = none := by
    intro n
    rw [get?_erase, h.caller n, ite_self]
  cases task with
  | caller n =>
    rw [h.caller n] at htables
    cases htables
  | loop =>
    have hstop : (b.tables.erase .loop).get? .stop = b.tables.get? .stop :=
      get?_erase_ne _ (by simp)
    refine ⟨fun table hrows => ?_, fun hget => h.stop (hstop ▸ hget), fun hget => ?_, hcaller,
      h.loopGone, h.returned⟩
    · refine (h.awaited table hrows).imp_left fun hawaits => ?_
      rw [Awaits] at hawaits ⊢
      exact hstop.symm ▸ hawaits
    · exact absurd (get?_erase_self _ _) hget
  | stop =>
    have hnoFlush : b.flushes = [] := List.length_eq_zero_iff.1 ha
    have hflushing : b.stopPhase = .flushing := h.stop (by rw [htables]; simp)
    refine ⟨fun table hrows => ?_, fun hget => absurd (get?_erase_self _ _) hget, fun hget => ?_,
      hcaller, fun _ => h.loopGone (by rw [hflushing]; simp), fun _ => hnoFlush⟩
    · exfalso
      rcases h.awaited table hrows with hawaits | hstarting
      · rw [Awaits, hflushing, htables] at hawaits
        simp at hawaits
      · rw [hnoFlush] at hstarting
        cases hstarting
    · have hloop : (b.tables.erase .stop).get? .loop = b.tables.get? .loop :=
        get?_erase_ne _ (by simp)
      exact h.loop (hloop ▸ hget)

theorem step {b' : WriteBuffer α} {a : Action α} (h : Draining b) (ha : b.Orderly a)
    (hstep : Transition b a b') : Draining b' := by
  cases hstep with
  | append n table rows hnone => exact h.extend hnone ha rows
  | listLoop hrunning =>
    have hstop : (b.tables.set .loop b.buffers.keys).get? .stop = b.tables.get? .stop :=
      get?_set_ne _ (by simp) _
    refine ⟨fun table hrows => ?_, fun hget => h.stop (hstop ▸ hget), fun _ => hrunning,
      fun n => (get?_set_ne _ (by simp) _).trans (h.caller n), h.loopGone, h.returned⟩
    refine (h.awaited table hrows).imp_left fun hawaits => ?_
    rw [Awaits] at hawaits ⊢
    exact hstop.symm ▸ hawaits
  | listStop hlisting =>
    have hloop : (b.tables.set .stop b.buffers.keys).get? .loop = b.tables.get? .loop :=
      get?_set_ne _ (by simp) _
    refine ⟨fun table hrows => .inl (.inr (.inr (.inr ?_))), fun _ => rfl,
      fun hget => h.loop (hloop ▸ hget),
      fun n => (get?_set_ne _ (by simp) _).trans (h.caller n),
      fun _ => h.loopGone (by rw [hlisting]; simp), fun hreturned => by cases hreturned⟩
    change table ∈ ((b.tables.set .stop b.buffers.keys).get? .stop).getD []
    rw [get?_set_self, getD_some, mem_keys_iff]
    by_contra hnone
    refine hrows ?_
    change (b.buffers.get? table).getD [] = []
    rw [get?, not_isSome_iff_eq_none.1 hnone]
    rfl
  | flushNext task table tables htables hflush => exact h.flushNext htables hflush
  | popNothing task table hflush hrows => exact h.takeRows hflush fun _ hne => get?_erase_ne _ hne
  | pop task table hflush => exact h.takeRows hflush fun _ hne => get?_set_ne _ hne _
  | insertReturns task table rows hflush =>
    have hput := h.putFlush hflush (by simp) ⟨table, .returned⟩
    exact ⟨hput.awaited, hput.stop, hput.loop, hput.caller, hput.loopGone, hput.returned⟩
  | insertRaises task table rows hflush => exact h.putFlush hflush (by simp) _
  | resume task table hflush => exact h.endFlush hflush (by simp)
  | rebuffer task table rows hflush => exact h.putBack hflush (ha _ hflush).1
  | count task counted table dropped hflush =>
    have hend := h.endFlush hflush (by simp)
    exact ⟨hend.awaited, hend.stop, hend.loop, hend.caller, hend.loopGone, hend.returned⟩
  | flushAllReturns task htables => exact h.flushAllReturns ha htables
  | cancelStop hphase =>
    have hloop : (b.tables.erase .stop).get? .loop = b.tables.get? .loop :=
      get?_erase_ne _ (by simp)
    refine ⟨fun _ _ => .inl (.inr (.inr (.inl rfl))),
      fun hget => absurd (get?_erase_self _ _) hget,
      fun hget => ?_, fun n => (get?_erase_ne _ (by simp)).trans (h.caller n), fun _ => ?_,
      fun hreturned => by cases hreturned⟩
    · have hrunning := h.loop (hloop ▸ hget)
      simp [WriteBuffer.cancelTask, hrunning]
    · have hgone := h.loopGone (by rcases hphase with hphase | hphase <;> rw [hphase] <;> simp)
      simp [WriteBuffer.cancelTask, hgone]
  | cancel task hne => exact h.cancelTask hne
  | threadReturns i rows hrows =>
    exact ⟨h.awaited, h.stop, h.loop, h.caller, h.loopGone, h.returned⟩
  | threadRaises i => exact ⟨h.awaited, h.stop, h.loop, h.caller, h.loopGone, h.returned⟩
  | callStop hphase => exact h.callStop hphase

end Draining

/-! ### Runs -/

theorem inv_start : Accounts ({} : WriteBuffer α) ∧ Ordered ({} : WriteBuffer α) ∧
    Draining ({} : WriteBuffer α) := by
  refine ⟨⟨nodup_nil, nodup_nil, rfl, forall_mem_nil _⟩,
    ⟨fun _ => Series.nil _, fun _ => Series.nil _, forall_mem_nil _, forall_mem_nil _⟩,
    ⟨fun _ h => absurd rfl h, fun h => absurd rfl h, fun h => absurd rfl h, fun _ => rfl,
      fun h => absurd rfl h, fun _ => rfl⟩⟩

theorem conserved_of_inv (haccounts : Accounts b) (hordered : Ordered b)
    (hdraining : Draining b) : Conserved b := by
  have hthreads : (b.threads.flatten : Multiset (Row α)) = 0 := by
    rw [Multiset.coe_eq_zero, flatten_eq_nil_iff]
    exact haccounts.threads
  refine ⟨?_, hordered.capped, hordered.newest, fun hreturned => ⟨?_, ?_⟩⟩
  · rw [inHand, hthreads, add_zero]
    exact haccounts.rows
  · refine collect_eq_zero id (fun table rows hrows => ?_) haccounts.buffers_nodup
    by_contra hne
    have htable : b.rowsOf table ≠ [] := by
      rw [rowsOf, hrows]
      exact hne
    rcases hdraining.awaited table htable with hawaits | hstarting
    · exact hdraining.not_awaits hreturned table hawaits
    · exact hdraining.ne_returned hstarting hreturned
  · rw [inHand, hthreads, hdraining.returned hreturned]
    rfl

/-- **Rows are conserved** in every state of a run whose steps meet the condition. -/
theorem conserved_of_run {b : WriteBuffer α} (h : Run step Orderly ({} : WriteBuffer α) b) :
    Conserved b := by
  have hinv : Accounts b ∧ Ordered b ∧ Draining b := by
    refine h.invariant (I := fun b => Accounts b ∧ Ordered b ∧ Draining b) inv_start ?_
    rintro b a b' ⟨haccounts, hordered, hdraining⟩ ha hstep
    have htransition := transition_of_step hstep
    exact ⟨haccounts.step ha htransition, hordered.step ha htransition,
      hdraining.step ha htransition⟩
  obtain ⟨haccounts, hordered, hdraining⟩ := hinv
  exact conserved_of_inv haccounts hordered hdraining

/-- The insert of the loop fails, and `stop` writes the row that has been put back. -/
def retried : List (Action String) :=
  [.append 0 "events" ["login"], .listTables .loop, .flushNext .loop, .pop .loop,
    .insertRaises .loop, .append 1 "events" ["logout"], .rebuffer .loop, .flushAllReturns .loop,
    .callStop, .listTables .stop, .flushNext .stop, .pop .stop, .insertReturns .stop, .resume .stop,
    .flushAllReturns .stop]

/-- A buffer that is stopped after a failed insert. -/
theorem conserved_retried : ∃ b, Run step Orderly ({} : WriteBuffer String) b ∧
    b.stopPhase = .returned ∧ Conserved b := by
  have hreplay : ∃ b ∈ replay step Orderly ({} : WriteBuffer String) retried,
      b.stopPhase = .returned := by
    decide +kernel
  obtain ⟨b, hb, hreturned⟩ := hreplay
  have hrun : Run step Orderly ({} : WriteBuffer String) b := run_of_replay hb
  exact ⟨b, hrun, hreturned, conserved_of_run hrun⟩

/-- `stop` cancels the loop while a thread inserts the rows that it has taken, and the insert
fails. -/
def cancelled : List (Action String) :=
  [.append 0 "events" ["login"], .listTables .loop, .flushNext .loop, .pop .loop, .callStop,
    .threadRaises 0, .listTables .stop, .flushAllReturns .stop]

/-- **A flush that is cancelled** loses its rows: they are not written, not in the buffer, in
nobody's hands and not counted. -/
theorem not_conserved_cancelled :
    ¬∀ b, Run step (fun _ _ => True) ({} : WriteBuffer String) b → Conserved b := by
  intro h
  have hreplay : ∃ b ∈ replay step (fun _ _ => True) ({} : WriteBuffer String) cancelled,
      b.appended ≠ b.inserted + b.buffered + b.inHand + b.dropped := by
    decide +kernel
  obtain ⟨b, hb, hlost⟩ := hreplay
  exact hlost (h b (run_of_replay hb)).rows

end WriteBuffer

end MonCTL.Storage
