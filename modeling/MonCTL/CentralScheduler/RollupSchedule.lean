import MonCTL.CentralScheduler.Rollups
import MonCTL.Lib.Runs

/-!
# When Rollups Run

Every tick of the leader asks whether a rollup is due: the hourly one from five minutes past the
hour, the daily one in the first hour of a day. A process remembers in memory when it last ran
one, and runs the next one no sooner than an hour or a day later. A rollup is for the hour or day
before the one in which its statements run. The statements insert into three tables; the one for
performance metrics keeps whatever is inserted twice, the others replace rows with the same key.

A tick here is a call of `_run_rollups` by whichever process leads. The cleanups that follow the
rollups are left out.
-/

namespace MonCTL.CentralScheduler

open Option

/-! ### The tests -/

def minuteLength : ℤ := 60 * 1000000

/-- `now.minute`. -/
def minuteOf (now : ℤ) : ℤ := (now - toStartOfHour now) / minuteLength

/-- `now.hour`. -/
def hourOf (now : ℤ) : ℤ := (toStartOfHour now - toStartOfDay now) / hourLength

/-- The test before the hourly rollups. -/
def hourlyDue (last : Option ℤ) (now : ℤ) : Prop :=
  5 ≤ minuteOf now ∧ ∀ t ∈ last, 3600 * 1000000 ≤ now - t
  deriving Decidable

/-- The test before the daily rollups. -/
def dailyDue (last : Option ℤ) (now : ℤ) : Prop :=
  hourOf now = 0 ∧ 15 ≤ minuteOf now ∧ ∀ t ∈ last, 86400 * 1000000 ≤ now - t
  deriving Decidable

/-! ### State -/

/-- When the statements of a rollup run, by the clock of the database; a statement without a time
fails. -/
structure Statements where
  interface : Option ℤ
  performance : Option ℤ
  availability : Option ℤ

/-- The hourly rollups, or the daily ones: when each process last ran them, and the hours or days
that were inserted into the tables, in order. -/
structure Chain where
  lastRun : String → Option ℤ := fun _ => none
  interface : List ℤ := []
  performance : List ℤ := []
  availability : List ℤ := []

/-- The processes, the tables, and the time of the last tick. -/
structure RollupState where
  hourly : Chain := {}
  daily : Chain := {}
  clock : ℤ

/-- What may happen. -/
inductive SchedulerEvent
  /-- A process that leads ticks. -/
  | tick (process : String) (now : ℤ) (hourly daily : Statements)
  /-- A process is started again. -/
  | restart (process : String)

/-- The hours or days that a statement inserts, when it runs. -/
def insertedBy (periods : ℤ → List ℤ) (statement : Option ℤ) : List ℤ :=
  (statement.map periods).getD []

/-- The stamp is set whether or not the statements have failed. -/
def Chain.stamp (c : Chain) (process : String) (now : ℤ) : Chain :=
  { c with lastRun := fun p => if p = process then some now else c.lastRun p }

/-- The hourly rollups. The one for availability looks at the last two hours. -/
def Chain.runHourly (c : Chain) (s : Statements) : Chain :=
  { c with
    interface := c.interface ++
      insertedBy (fun now => [toStartOfHour (now - hourLength)]) s.interface
    performance := c.performance ++
      insertedBy (fun now => [toStartOfHour (now - hourLength)]) s.performance
    availability := c.availability ++ insertedBy (fun now => [toStartOfHour (now - 2 * hourLength),
        toStartOfHour (now - hourLength)]) s.availability }

/-- The daily rollups. -/
def Chain.runDaily (c : Chain) (s : Statements) : Chain :=
  { c with
    interface := c.interface ++ insertedBy (fun now => [toStartOfDay (now - dayLength)]) s.interface
    performance := c.performance ++
      insertedBy (fun now => [toStartOfDay (now - dayLength)]) s.performance
    availability := c.availability ++
      insertedBy (fun now => [toStartOfDay (now - dayLength)]) s.availability }

/-- A process without a memory of its rollups. -/
def Chain.forget (c : Chain) (process : String) : Chain :=
  { c with lastRun := fun p => if p = process then none else c.lastRun p }

/-- `_run_rollups`, and the restart of a process. -/
def RollupState.step (s : RollupState) : SchedulerEvent → Option RollupState
  | .tick process now hourly daily => some {
      hourly := if hourlyDue (s.hourly.lastRun process) now then
          (s.hourly.runHourly hourly).stamp process now
        else s.hourly
      daily := if dailyDue (s.daily.lastRun process) now then
          (s.daily.runDaily daily).stamp process now
        else s.daily
      clock := now }
  | .restart process => some { s with
      hourly := s.hourly.forget process
      daily := s.daily.forget process }

/-! ### Runs -/

/-- Ticks are at least 30 seconds apart, and less than five minutes. -/
def Paced (s : RollupState) : SchedulerEvent → Prop
  | .tick _ now _ _ => 30 * 1000000 ≤ now - s.clock ∧ now - s.clock < 5 * minuteLength
  | .restart _ => True

/-- Every statement runs, in the hour or on the day of its tick. -/
def Statements.Prompt (s : Statements) (startOf : ℤ → ℤ) (now : ℤ) : Prop :=
  ∀ statement ∈ [s.interface, s.performance, s.availability],
    ∃ at' ∈ statement, startOf at' = startOf now
  deriving Decidable

/-- **A step that does no harm.** A rollup that is due is not for an hour, or a day, that has
been rolled up before; it is due before the last five minutes of the hour; and its statements
run at once. -/
def Undisturbed (s : RollupState) : SchedulerEvent → Prop
  | .tick process now hourly daily =>
    (hourlyDue (s.hourly.lastRun process) now →
      toStartOfHour now - hourLength ∉ s.hourly.performance ∧ minuteOf now < 55 ∧
      hourly.Prompt toStartOfHour now) ∧
    (dailyDue (s.daily.lastRun process) now →
      toStartOfDay now - dayLength ∉ s.daily.performance ∧ minuteOf now < 55 ∧
      daily.Prompt toStartOfDay now)
  | .restart _ => True

instance (s : RollupState) : ∀ e, Decidable (Paced s e)
  | .tick _ _ _ _ => inferInstanceAs (Decidable (_ ∧ _))
  | .restart _ => isTrue trivial

instance (s : RollupState) : ∀ e, Decidable (Undisturbed s e)
  | .tick _ _ _ _ => inferInstanceAs (Decidable (_ ∧ _))
  | .restart _ => isTrue trivial

/-- A period is in all three tables. -/
def Chain.Rolled (c : Chain) (period : ℤ) : Prop :=
  period ∈ c.interface ∧ period ∈ c.performance ∧ period ∈ c.availability

/-- The processes have just been started, and nothing is in the tables. -/
def RollupState.fresh (clock : ℤ) : RollupState := { clock }

/-! ### Periods -/

section Periods

/-- The start of a period of some length. -/
def startOf (length t : ℤ) : ℤ := t / length * length

theorem toStartOfHour_eq (t : ℤ) : toStartOfHour t = startOf hourLength t := rfl

theorem toStartOfDay_eq (t : ℤ) : toStartOfDay t = startOf dayLength t := rfl

variable {length : ℤ} (hpos : 0 < length)

include hpos

theorem startOf_le (t : ℤ) : startOf length t ≤ t := Int.ediv_mul_le t hpos.ne'

theorem startOf_add_le {t now : ℤ} (hle : t ≤ now) (hne : startOf length t ≠ startOf length now) :
    startOf length t + length ≤ startOf length now := by
  have hdiv : t / length ≤ now / length := Int.ediv_le_ediv hpos hle
  have hlt : t / length + 1 ≤ now / length := by
    refine Int.add_one_le_of_lt (lt_of_le_of_ne hdiv fun heq => hne ?_)
    rw [startOf, startOf, heq]
  have := Int.mul_le_mul_of_nonneg_right hlt hpos.le
  rw [startOf, startOf]
  linarith

theorem startOf_eq {t period : ℤ} (hperiod : startOf length period = period) (hle : period ≤ t)
    (hlt : t < period + length) : startOf length t = period := by
  by_contra hne
  have hnext := startOf_add_le hpos hle (by rw [hperiod]; exact Ne.symm hne)
  rw [hperiod] at hnext
  linarith [startOf_le hpos t]

end Periods

/-! ### One chain of rollups -/

/-- The last five minutes of an hour. -/
def lateMinutes : ℤ := 55 * minuteLength

/-- **The invariant of a chain.** No process has run a rollup in the last five minutes, nor one
whose period is not in the tables; every period is in the tables before the last five minutes of
the first hour after it; and no period has been inserted twice. -/
structure Chain.Inv (length start clock : ℤ) (c : Chain) : Prop where
  stamps : ∀ p t, c.lastRun p = some t → t ≤ clock ∧ t < startOf length t + lateMinutes ∧
    c.Rolled (startOf length t - length)
  rolled : ∀ period, startOf length period = period → startOf length start ≤ period →
    period + length + lateMinutes ≤ clock → c.Rolled period
  nodup : c.performance.Nodup

/-- A rollup that runs at once rolls up the period before that of its tick, and keeps what is in
the tables. -/
structure Chain.RunsFor (length now : ℤ) (c c' : Chain) : Prop where
  lastRun : c'.lastRun = c.lastRun
  performance : c'.performance = c.performance ++ [startOf length now - length]
  rolled : c'.Rolled (startOf length now - length)
  keeps : ∀ period, c.Rolled period → c'.Rolled period

section Chain

variable {length start clock now : ℤ} {c c' : Chain} {process : String} {due : Prop}
  [Decidable due] (hlength : hourLength ≤ length)

include hlength

/-- **The step: a tick** keeps the invariant of a chain, when the chain is due at the latest in
the last five minutes of the first hour of a period, and otherwise does no harm. -/
theorem Chain.Inv.tick (h : c.Inv length start clock)
    (hforward : clock ≤ now) (hpace : now - clock < 5 * minuteLength)
    (hdue : lateMinutes ≤ now - startOf length now → now - startOf length now < hourLength →
      (∀ t ∈ c.lastRun process, length ≤ now - t) → due) (hruns : due → c.RunsFor length now c')
    (hnew : due → startOf length now - length ∉ c.performance)
    (hearly : due → now - startOf length now < lateMinutes) :
    (if due then c'.stamp process now else c).Inv length start now := by
  have hpos : 0 < length := lt_of_lt_of_le (by decide) hlength
  have hhour : lateMinutes + 5 * minuteLength = hourLength := by decide
  -- a period whose last five minutes have just begun is that before the period of the tick
  have hperiod : ∀ period, startOf length period = period → clock < period + length + lateMinutes →
      period + length + lateMinutes ≤ now → startOf length now = period + length ∧
        lateMinutes ≤ now - startOf length now ∧ now - startOf length now < hourLength := by
    intro period haligned hbefore hafter
    have haligned' : startOf length (period + length) = period + length := by
      rw [startOf, Int.add_ediv_of_dvd_right (dvd_refl length), Int.ediv_self hpos.ne', add_mul,
        one_mul, ← startOf, haligned]
    have heq := startOf_eq hpos haligned' (t := now)
      (by linarith [show (0 : ℤ) < lateMinutes by decide]) (by linarith)
    rw [heq]
    exact ⟨rfl, by linarith, by linarith⟩
  by_cases hd : due
  · rw [if_pos hd]
    obtain ⟨hlast, hperformance, hrolled, hkeeps⟩ := hruns hd
    refine ⟨fun p t ht => ?_, fun period haligned hstart hlate => ?_, ?_⟩
    · change (if p = process then some now else c'.lastRun p) = some t at ht
      split at ht
      · obtain rfl := some.inj ht
        exact ⟨le_rfl, by linarith [hearly hd], hrolled⟩
      · rw [hlast] at ht
        obtain ⟨hle, hlt, hr⟩ := h.stamps p t ht
        exact ⟨hle.trans hforward, hlt, hkeeps _ hr⟩
    · by_cases hold : period + length + lateMinutes ≤ clock
      · exact hkeeps _ (h.rolled period haligned hstart hold)
      · have := hperiod period haligned (not_le.1 hold) hlate
        exact absurd (hearly hd) (not_lt.2 this.2.1)
    · change c'.performance.Nodup
      rw [hperformance]
      exact List.nodup_append.2 ⟨h.nodup, List.nodup_singleton _, fun a ha b hb heq =>
        hnew hd (List.mem_singleton.1 hb ▸ heq ▸ ha)⟩
  · rw [if_neg hd]
    refine ⟨fun p t ht => ?_, fun period haligned hstart hlate => ?_, h.nodup⟩
    · obtain ⟨hle, hrest⟩ := h.stamps p t ht
      exact ⟨hle.trans hforward, hrest⟩
    · by_cases hold : period + length + lateMinutes ≤ clock
      · exact h.rolled period haligned hstart hold
      · obtain ⟨heq, hfrom, hto⟩ := hperiod period haligned (not_le.1 hold) hlate
        -- the gate is shut, so the process has run a rollup less than a period ago
        have hshut : ∃ t ∈ c.lastRun process, ¬length ≤ now - t := by
          by_contra hopen
          exact hd (hdue hfrom hto fun t ht => not_not.1 fun hlt => hopen ⟨t, ht, hlt⟩)
        obtain ⟨t, ht, hlt⟩ := hshut
        obtain ⟨hle, hearly', hr⟩ := h.stamps process t ht
        by_cases hsame : startOf length t = startOf length now
        · rwa [hsame, heq, add_sub_cancel_right] at hr
        · have := startOf_add_le hpos (hle.trans hforward) hsame
          exact absurd (by linarith) hlt

omit hlength in
theorem Chain.Inv.forget (h : c.Inv length start clock) (process : String) :
    (c.forget process).Inv length start clock where
  stamps p t ht := by
    change (if p = process then none else c.lastRun p) = some t at ht
    split at ht
    · cases ht
    · exact h.stamps p t ht
  rolled := h.rolled
  nodup := h.nodup

end Chain

/-! ### The processes -/

variable {st : Statements} {now : ℤ}

theorem Statements.Prompt.inserted {startOf' : ℤ → ℤ}
    (h : st.Prompt startOf' now) (statement : Option ℤ)
    (hmem : statement ∈ [st.interface, st.performance, st.availability]) (periods : ℤ → List ℤ) :
    ∃ at', startOf' at' = startOf' now ∧ insertedBy periods statement = periods at' := by
  obtain ⟨at', hat, heq⟩ := h statement hmem
  rw [Option.mem_def.1 hat]
  exact ⟨at', heq, rfl⟩

theorem toStartOfHour_sub {t : ℤ} (h : toStartOfHour t = toStartOfHour now) :
    toStartOfHour (t - hourLength) = toStartOfHour now - hourLength := by
  simp only [toStartOfHour, hourLength] at h ⊢
  omega

theorem toStartOfDay_sub {t : ℤ} (h : toStartOfDay t = toStartOfDay now) :
    toStartOfDay (t - dayLength) = toStartOfDay now - dayLength := by
  simp only [toStartOfDay, dayLength, hourLength] at h ⊢
  omega

theorem Chain.Rolled.append {c c' : Chain} {i p a : List ℤ}
    (hi : c'.interface = c.interface ++ i) (hp : c'.performance = c.performance ++ p)
    (ha : c'.availability = c.availability ++ a) {period : ℤ} (h : c.Rolled period) :
    c'.Rolled period :=
  ⟨hi ▸ List.mem_append_left _ h.1, hp ▸ List.mem_append_left _ h.2.1,
    ha ▸ List.mem_append_left _ h.2.2⟩

theorem runsFor_runHourly (c : Chain)
    (h : st.Prompt toStartOfHour now) : c.RunsFor hourLength now (c.runHourly st) := by
  obtain ⟨i, hi, hinterface⟩ := h.inserted st.interface (by simp)
    fun now => [toStartOfHour (now - hourLength)]
  obtain ⟨p, hp, hperformance⟩ := h.inserted st.performance (by simp)
    fun now => [toStartOfHour (now - hourLength)]
  obtain ⟨a, ha, havailability⟩ := h.inserted st.availability (by simp)
    fun now => [toStartOfHour (now - 2 * hourLength), toStartOfHour (now - hourLength)]
  rw [toStartOfHour_sub hi] at hinterface
  rw [toStartOfHour_sub hp] at hperformance
  rw [toStartOfHour_sub ha] at havailability
  refine ⟨rfl, ?_, ?_, fun _ => .append rfl rfl rfl⟩
  · rw [Chain.runHourly, hperformance]
    rfl
  · rw [Chain.runHourly, hinterface, hperformance, havailability, ← toStartOfHour_eq]
    simp [Chain.Rolled]

theorem runsFor_runDaily (c : Chain)
    (h : st.Prompt toStartOfDay now) : c.RunsFor dayLength now (c.runDaily st) := by
  obtain ⟨i, hi, hinterface⟩ := h.inserted st.interface (by simp)
    fun now => [toStartOfDay (now - dayLength)]
  obtain ⟨p, hp, hperformance⟩ := h.inserted st.performance (by simp)
    fun now => [toStartOfDay (now - dayLength)]
  obtain ⟨a, ha, havailability⟩ := h.inserted st.availability (by simp)
    fun now => [toStartOfDay (now - dayLength)]
  rw [toStartOfDay_sub hi] at hinterface
  rw [toStartOfDay_sub hp] at hperformance
  rw [toStartOfDay_sub ha] at havailability
  refine ⟨rfl, ?_, ?_, fun _ => .append rfl rfl rfl⟩
  · rw [Chain.runDaily, hperformance]
    rfl
  · rw [Chain.runDaily, hinterface, hperformance, havailability, ← toStartOfDay_eq]
    simp [Chain.Rolled]

theorem hourlyDue_of_late {last : Option ℤ} (hlate : lateMinutes ≤ now - toStartOfHour now)
    (hgate : ∀ t ∈ last, hourLength ≤ now - t) : hourlyDue last now := by
  refine ⟨?_, hgate⟩
  simp only [minuteOf, minuteLength, lateMinutes] at hlate ⊢
  omega

/-- The daily rollup is due in the last five minutes of the first hour of a day, if its gate is
open. -/
theorem dailyDue_of_late {last : Option ℤ}
    (hlate : lateMinutes ≤ now - toStartOfDay now) (hhour : now - toStartOfDay now < hourLength)
    (hgate : ∀ t ∈ last, dayLength ≤ now - t) : dailyDue last now := by
  refine ⟨?_, ?_, hgate⟩ <;>
    simp only [hourOf, minuteOf, minuteLength, lateMinutes, toStartOfDay, toStartOfHour, dayLength,
      hourLength] at hlate hhour ⊢ <;>
    omega

theorem early_of_minuteOf (h : minuteOf now < 55) : now - toStartOfHour now < lateMinutes := by
  simp only [minuteOf, minuteLength, lateMinutes] at h ⊢
  omega

theorem early_of_hourOf (hhour : hourOf now = 0) (h : minuteOf now < 55) :
    now - toStartOfDay now < lateMinutes := by
  simp only [hourOf, minuteOf, minuteLength, lateMinutes, toStartOfDay, toStartOfHour, dayLength,
    hourLength] at hhour h ⊢
  omega

/-- The invariant of both chains. -/
structure RollupState.Inv (start : ℤ) (s : RollupState) : Prop where
  hourly : s.hourly.Inv hourLength start s.clock
  daily : s.daily.Inv dayLength start s.clock

/-- **The step lemma**: an undisturbed step keeps the invariant. -/
theorem RollupState.Inv.step {start : ℤ} {s s' : RollupState} {e : SchedulerEvent} (h : s.Inv start)
    (hpaced : Paced s e) (hundisturbed : Undisturbed s e) (hs : s.step e = some s') :
    s'.Inv start := by
  cases e with
  | restart process =>
    rw [← some.inj hs]
    exact ⟨h.hourly.forget process, h.daily.forget process⟩
  | tick process now hourly daily =>
    rw [← some.inj hs]
    have hforward : s.clock ≤ now := by
      have := hpaced.1
      omega
    obtain ⟨hhourly, hdaily⟩ := hundisturbed
    refine ⟨?_, ?_⟩
    · exact h.hourly.tick le_rfl hforward hpaced.2
        (fun hlate _ hgate => hourlyDue_of_late hlate hgate)
        (fun hdue => runsFor_runHourly _ (hhourly hdue).2.2)
        (fun hdue => (hhourly hdue).1)
        (fun hdue => early_of_minuteOf (hhourly hdue).2.1)
    · exact h.daily.tick (by decide) hforward hpaced.2
        (fun hlate hhour hgate => dailyDue_of_late hlate hhour hgate)
        (fun hdue => runsFor_runDaily _ (hdaily hdue).2.2)
        (fun hdue => (hdaily hdue).1)
        (fun hdue => early_of_hourOf hdue.1 (hdaily hdue).2.1)

end MonCTL.CentralScheduler
