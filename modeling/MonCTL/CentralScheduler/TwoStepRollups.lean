import MonCTL.CentralScheduler.Rollups

/-!
# Rolling Up in Two Steps

A daily row aggregates the hourly rows of a key. Its smallest and largest values and its number
of samples are those of the day's samples. Its averages are means of hourly means, in which an
hour with few samples weighs as much as one with many; its counter totals are sums of hourly
spans, which leave out what a counter gains between the last sample of an hour and the first of
the next.
-/

namespace MonCTL.CentralScheduler

open List

/-! ### Times -/

def hoursOf (day : ℤ) : List ℤ :=
  (List.range 24).map fun i : ℕ => day + i * hourLength

variable {day : ℤ} {t : ℤ}

theorem toStartOfHour_mem_hoursOf (hday : toStartOfDay day = day) :
    toStartOfHour t ∈ hoursOf day ↔ toStartOfDay t = day := by
  rw [hoursOf, mem_map]
  simp only [toStartOfDay, toStartOfHour, dayLength, hourLength, mem_range] at hday ⊢
  constructor
  · rintro ⟨i, hi, heq⟩
    omega
  · intro h
    refine ⟨(t / (3600 * 1000000) - day / (3600 * 1000000)).toNat, ?_, ?_⟩ <;> omega

theorem toStartOfDay_toStartOfHour (t : ℤ) : toStartOfDay (toStartOfHour t) = toStartOfDay t := by
  simp only [toStartOfDay, toStartOfHour, dayLength, hourLength]
  omega

variable {now : ℤ}

theorem of_mem_hoursOf {h : ℤ} (hday : toStartOfDay day = day)
    (hh : h ∈ hoursOf day) : toStartOfHour h = h ∧ toStartOfDay h = day := by
  obtain ⟨i, hi, rfl⟩ := List.mem_map.1 hh
  rw [mem_range] at hi
  simp only [toStartOfDay, toStartOfHour, dayLength, hourLength] at hday ⊢
  omega

/-! ### A rollup and its groups -/

section Rollup

variable {α R K : Type} [DecidableEq K] (key : α → K) (time : α → Timestamp)

/-- The samples of a key in an hour, or on a day. -/
def samplesAt (truncate : Timestamp → Timestamp) (rows : List α) (k : K) (t : Timestamp) : List α :=
  rows.filter fun a => key a = k ∧ truncate (time a) = t

variable {key time} {truncate : Timestamp → Timestamp} {row : K → Timestamp → List α → R}
  {rows : List α} {k : K}

theorem mem_samplesAt {t : Timestamp} {a : α} :
    a ∈ samplesAt key time truncate rows k t ↔ a ∈ rows ∧ key a = k ∧ truncate (time a) = t := by
  rw [samplesAt, mem_filter, decide_eq_true_eq]

variable {rowKey : R → K} {rowTime : R → Timestamp}

variable (key time)

/-- The hours of a day in which a key has samples, with these. -/
def hourGroups (rows : List α) (k : K) (day : ℤ) : List (ℤ × List α) :=
  ((hoursOf day).map fun h => (h, samplesAt key time toStartOfHour rows k h)).filter
    fun g => !g.2.isEmpty

variable {key time} {day : ℤ}

theorem mem_hourGroups {g : ℤ × List α} : g ∈ hourGroups key time rows k day ↔ g.1 ∈ hoursOf day ∧
      g.2 = samplesAt key time toStartOfHour rows k g.1 ∧ g.2 ≠ [] := by
  rw [hourGroups, mem_filter, mem_map]
  constructor
  · rintro ⟨⟨h, hh, rfl⟩, hne⟩
    exact ⟨hh, rfl, by simpa using hne⟩
  · rintro ⟨hh, heq, hne⟩
    exact ⟨⟨g.1, hh, Prod.ext rfl heq.symm⟩, by simpa using hne⟩

theorem pairwise_hourGroups (rows : List α) (k : K) (day : ℤ) :
    (hourGroups key time rows k day).Pairwise fun g g' => g.1 < g'.1 := by
  refine List.Pairwise.filter _ (List.pairwise_map.2 ?_)
  rw [hoursOf, pairwise_map]
  refine List.pairwise_lt_range.imp fun {i j} hij => ?_
  simp only [hourLength]
  omega

variable (key time)

/-- A table has the hourly rows of a day: one for each key and hour with samples. -/
structure HourlyTable (rowTime : R → Timestamp) (row : K → Timestamp → List α → R)
    (rows : List α) (day : ℤ) (table : List R) : Prop where
  nodup : table.Nodup
  mem_iff : ∀ r, toStartOfDay (rowTime r) = day → (r ∈ table ↔
    ∃ k h, samplesAt key time toStartOfHour rows k h ≠ [] ∧
      r = row k h (samplesAt key time toStartOfHour rows k h))

variable {key time} {table : List R}

/-- **The hourly rows of a key on a day** are the rows of its hours. -/
theorem HourlyTable.perm (hkey : ∀ k t l, rowKey (row k t l) = k)
    (htime : ∀ k t l, rowTime (row k t l) = t)
    (h : HourlyTable key time rowTime row rows day table) (hday : toStartOfDay day = day) (k : K) :
    (samplesAt rowKey rowTime toStartOfDay table k day).Perm
      ((hourGroups key time rows k day).map fun g => row k g.1 g.2) := by
  refine (perm_ext_iff_of_nodup (h.nodup.filter _) ?_).2 fun r => ?_
  · refine List.Nodup.of_map rowTime ?_
    rw [map_map]
    have hmap : (rowTime ∘ fun g : ℤ × List α => row k g.1 g.2) = Prod.fst := by
      funext g
      exact htime ..
    rw [hmap]
    exact List.pairwise_map.2 ((pairwise_hourGroups rows k day).imp fun hlt => ne_of_lt hlt)
  · rw [mem_filter, decide_eq_true_eq, mem_map]
    constructor
    · rintro ⟨hmem, hk, ht⟩
      obtain ⟨k', t, hne, rfl⟩ := (h.mem_iff r ht).1 hmem
      rw [hkey] at hk
      rw [htime] at ht
      subst hk
      refine ⟨(t, samplesAt key time toStartOfHour rows k' t), mem_hourGroups.2 ⟨?_, rfl, hne⟩, rfl⟩
      obtain ⟨a, ha⟩ := exists_mem_of_ne_nil _ hne
      have hhour : toStartOfHour (time a) = t := (mem_samplesAt.1 ha).2.2
      rw [← hhour]
      refine (toStartOfHour_mem_hoursOf hday).2 ?_
      rw [← ht, ← hhour, toStartOfDay_toStartOfHour]
    · rintro ⟨g, hg, rfl⟩
      obtain ⟨hh, heq, hne⟩ := mem_hourGroups.1 hg
      have ht := (of_mem_hoursOf hday hh).2
      refine ⟨(h.mem_iff _ ((congrArg toStartOfDay (htime ..)).trans ht)).2
        ⟨k, g.1, heq ▸ hne, by rw [← heq]⟩, hkey .., ?_⟩
      rw [htime]
      exact ht

variable {since before : ℕ → ℤ}

end Rollup

/-! ### Columns -/

section Columns

variable {α : Type}

/-- A daily mean is the mean of the hours' means, and the mean of the samples just when the
hours' numbers of samples do not go up or down with their means. -/
def MeanAgrees (daily direct : ℚ) (hours : List (List α)) (v : α → ℚ) : Prop :=
  daily = avgOf (hours.map fun g => avgOf (g.map v)) ∧ (daily = direct ↔ Uncorrelated hours v)

/-- A daily summary has the extreme values of the samples. -/
def Summary.Agrees (daily direct : Summary) (hours : List (List α)) (v : α → ℚ) : Prop :=
  daily.min = direct.min ∧ daily.max = direct.max ∧ MeanAgrees daily.avg direct.avg hours v

def Peak.Agrees (daily direct : Peak) (hours : List (List α)) (v : α → ℚ) : Prop :=
  daily.max = direct.max ∧ MeanAgrees daily.avg direct.avg hours v

variable {hours : List (List α)} {l : List α} {v : α → ℚ}

end Columns

/-- A counter does not fall from one sample to a later one. -/
def NeverFalls (counter : InterfaceSample → UInt64) (samples : List InterfaceSample) : Prop :=
  ∀ s ∈ samples, ∀ s' ∈ samples, s.executedAt ≤ s'.executedAt → counter s ≤ counter s'

/-- A daily total is the sum of the hours' totals. Of a counter that does not fall it leaves out
what the counter gains from one hour to the next. -/
def TotalAgrees (daily direct : ℕ) (hours : List (List InterfaceSample))
    (counter : InterfaceSample → UInt64) : Prop :=
  daily = sumUInt64 (hours.map (counterTotal counter)) ∧ (NeverFalls counter hours.flatten →
      daily + gaps (hours.map fun g => g.map fun s => (counter s).toNat) = direct)

variable {l : List InterfaceSample}

/-- **How a daily row of an interface compares with the row of the day's samples.** -/
structure InterfaceRow.Agrees (daily direct : InterfaceRow)
    (hours : List (List InterfaceSample)) : Prop where
  inRate : daily.inRate.Agrees direct.inRate hours InterfaceSample.inRateBps
  outRate : daily.outRate.Agrees direct.outRate hours InterfaceSample.outRateBps
  inUtilization :
    daily.inUtilization.Agrees direct.inUtilization hours InterfaceSample.inUtilizationPct
  outUtilization :
    daily.outUtilization.Agrees direct.outUtilization hours InterfaceSample.outUtilizationPct
  inOctets : TotalAgrees daily.inOctetsTotal direct.inOctetsTotal hours InterfaceSample.inOctets
  outOctets : TotalAgrees daily.outOctetsTotal direct.outOctetsTotal hours InterfaceSample.outOctets
  inErrors : TotalAgrees daily.inErrorsTotal direct.inErrorsTotal hours InterfaceSample.inErrors
  outErrors : TotalAgrees daily.outErrorsTotal direct.outErrorsTotal hours InterfaceSample.outErrors
  inDiscards :
    TotalAgrees daily.inDiscardsTotal direct.inDiscardsTotal hours InterfaceSample.inDiscards
  outDiscards :
    TotalAgrees daily.outDiscardsTotal direct.outDiscardsTotal hours InterfaceSample.outDiscards
  availabilityPct : MeanAgrees daily.availabilityPct direct.availabilityPct hours
    fun s => if s.ifOperStatus = "up" then 100 else 0
  sampleCount : daily.sampleCount = direct.sampleCount
  ifSpeedMbps : daily.ifSpeedMbps = direct.ifSpeedMbps
  counterBits : daily.counterBits = direct.counterBits

/-- How a daily row of a metric compares with the row of the day's samples. -/
structure MetricRow.Agrees (daily direct : MetricRow) (hours : List (List MetricSample)) :
    Prop where
  val : daily.val.Agrees direct.val hours MetricSample.value
  sampleCount : daily.sampleCount = direct.sampleCount

/-- How a daily row of availability compares with the row of the day's samples. -/
structure AvailabilityRow.Agrees (daily direct : AvailabilityRow)
    (hours : List (List AvailabilitySample)) : Prop where
  rtt : daily.rtt.Agrees direct.rtt hours AvailabilitySample.rttMs
  responseTime :
    daily.responseTime.Agrees direct.responseTime hours AvailabilitySample.responseTimeMs
  availabilityPct : MeanAgrees daily.availabilityPct direct.availabilityPct hours
    fun s => (s.reachable : ℚ) * 100
  sampleCount : daily.sampleCount = direct.sampleCount

section Runs

variable {α R K : Type} [DecidableEq K] {key : α → K} {time : α → Timestamp} {rowKey : R → K}
  {rowTime : R → Timestamp} {row : K → Timestamp → List α → R} {day daily : ℤ} {runs : ℕ → ℤ}

end Runs

end MonCTL.CentralScheduler
