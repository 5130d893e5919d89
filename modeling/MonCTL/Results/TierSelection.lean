import Mathlib.Data.Fintype.EquivFin
import MonCTL.CentralScheduler.Retention

/-!
# Tiers of Charts

The history of interfaces, performance and availability is kept in a raw, an hourly and a daily
table. Without a tier in the request, one is chosen by how long ago the chart begins. The ages by
which it is chosen are read from settings, and from the overrides of the device. The cleanup has
ages and overrides of its own.

Both ends of a chart are instants here; an empty text is no instant.
-/

namespace MonCTL.Results

open List

open CentralScheduler.Retention

/-! ### The choice -/

inductive Tier
  | raw
  | hourly
  | daily
  deriving DecidableEq

/-- `if age.days <= raw_days` … -/
def tierOf (ages : Age → ℤ) (days : ℤ) : Tier :=
  if days ≤ ages .rawDays then .raw else if days ≤ ages .hourlyDays then .hourly else .daily

/-- Ages are read, until a value is no number. -/
def readAges (values : Dict String String) (rawKey hourlyKey : String) (ages : Age → ℤ) :
    (Age → ℤ) × Bool :=
  load values clear [⟨rawKey, [.rawDays], none⟩, ⟨hourlyKey, [.hourlyDays], none⟩] ages

/-- The ages by which a tier is chosen: if the device has overrides and they can be read, these;
else what the settings say. -/
def selectedAges (settings retentionOverrides : Dict String String) (rawKey hourlyKey : String) :
    Age → ℤ :=
  let own := readAges retentionOverrides rawKey hourlyKey Age.initial
  if retentionOverrides = [] then (readAges settings rawKey hourlyKey Age.initial).1
  else if own.2 then own.1
  else (readAges settings rawKey hourlyKey own.1).1

/-- A tier is chosen by the age of the first instant, in days. -/
def selectTier (rawKey hourlyKey : String) (settings retentionOverrides : Dict String String)
    (now : Timestamp) : Option Timestamp → Tier
  | none => .raw
  | some fromTs =>
    tierOf (selectedAges settings retentionOverrides rawKey hourlyKey) ((now - fromTs) / day)

/-- `_auto_select_tier`. -/
def autoSelectTier : Dict String String → Dict String String → Timestamp → Option Timestamp →
    Tier :=
  selectTier "interface_raw_retention_days" "interface_hourly_retention_days"

/-- `_auto_select_perf_tier`. -/
def autoSelectPerfTier : Dict String String → Dict String String → Timestamp →
    Option Timestamp → Tier :=
  selectTier "perf_raw_retention_days" "perf_hourly_retention_days"

/-- `_auto_select_avail_tier`, which fails on more days than a `timedelta` takes. -/
def autoSelectAvailTier (settings : Dict String String) (now : Timestamp)
    (fromTs toTs : Option Timestamp) : Option Tier :=
  match fromTs with
  | none => some .raw
  | some fromTs =>
    let span := toTs.getD now - fromTs
    let retentionDays := ((settings.get? "avail_raw_retention_days").bind int).getD 30
    let window := max (retentionDays - 1) 1
    if 999999999 < window then none
    else if span ≤ 2 * day ∧ now - fromTs ≤ window * day then some .raw
    else if span ≤ 90 * day then some .hourly
    else some .daily

inductive History
  | interface
  | performance
  | availability

/-- The tier of a chart of a device. -/
def History.tier (h : History) (settings retentionOverrides : Dict String String)
    (now fromTs : Timestamp) (toTs : Option Timestamp) : Option Tier :=
  match h with
  | interface => some (autoSelectTier settings retentionOverrides now fromTs)
  | performance => some (autoSelectPerfTier settings retentionOverrides now fromTs)
  | availability => autoSelectAvailTier settings now fromTs toTs

/-- `_TIER_TABLE`, `_PERF_TIER_TABLE` and `_AVAIL_TIER_TABLE`, with what the cleanup has for the
table. -/
def History.entry : History → Tier → String × Age × ℤ
  | interface, .raw => ("interface", .rawDays, second)
  | interface, .hourly => ("interface_hourly", .hourlyDays, second)
  | interface, .daily => ("interface_daily", .dailyDays, day)
  | performance, .raw => ("performance", .perfDays, second)
  | performance, .hourly => ("performance_hourly", .perfHourlyDays, second)
  | performance, .daily => ("performance_daily", .perfDailyDays, day)
  | availability, .raw => ("availability_latency", .availDays, second)
  | availability, .hourly => ("availability_latency_hourly", .availHourlyDays, second)
  | availability, .daily => ("availability_latency_daily", .availDailyDays, day)

theorem History.entry_mem (h : History) (t : Tier) : h.entry t ∈ cleanupTables := by
  cases h <;> cases t <;> decide

/-- How coarse the test of the age is. -/
def History.granularity : History → ℤ
  | interface => day
  | performance => day
  | availability => 0

/-! ### What is to hold, and when it does -/

/-- A cleanup keeps the rows of a device in a table, from an instant on. -/
def Keeps (tables : Tables) (now : Timestamp) (device : Uuid) (table : String)
    (start : Timestamp) : Prop :=
  ∀ row : CentralScheduler.Retention.Row, row.table = table → row.deviceId = device →
    start ≤ row.executedAt → ¬Deletes tables clear now row

/-- **The chosen tier has the data**: unless it is the daily one, a cleanup keeps the rows of its
table from the beginning of the chart on, as exactly as the age has been tested. -/
def HasData (h : History) (tables : Tables) (retentionOverrides : Dict String String)
    (device : Uuid) (now fromTs : Timestamp) (toTs : Option Timestamp) : Prop :=
  ∀ tier, h.tier tables.settings retentionOverrides now fromTs toTs = some tier → tier ≠ .daily →
    Keeps tables now device (h.entry tier).1 (fromTs + h.granularity)

/-- The age that a table has in a cleanup: the last value that can be read for it. -/
def keptDays (tables : Tables) (age : Age) : ℤ :=
  daysOf tables.settings (seen tables.settings clear) age

/-- The overrides that a cleanup goes by: none, if a setting is no number. -/
def keptOverrides (tables : Tables) : List DataRetentionOverride :=
  if Loads tables.settings clear then tables.overrides else []

/-- Rows are kept for some days: they are not older, to the second or to the day. -/
def WithinDays (unit : ℤ) (now start : Timestamp) (days : ℤ) : Prop :=
  daysAgo unit now days ≤ start
  deriving Decidable

/-- **The condition.** The chart begins within the days of each override of the device for the
table that the cleanup reaches; and, if no date leads out of the calendar, within those of the
table. -/
def KeptLongEnough (tables : Tables) (device : Uuid) (now start : Timestamp)
    (entry : String × Age × ℤ) : Prop :=
  (∀ o ∈ keptOverrides tables, o.Known → o.dataType = entry.1 → o.deviceId = device →
    Reached (keptOverrides tables) now o → WithinDays second now start o.retentionDays) ∧
  ((∀ o ∈ keptOverrides tables, o.Known → InCalendar now o.retentionDays) →
    (∀ age, InCalendar now (keptDays tables age)) →
      WithinDays entry.2.2 now start (keptDays tables entry.2.1))

/-! ### What a cleanup keeps -/

variable {tables : Tables} {now start : Timestamp} {device : Uuid}

theorem exists_loadRetention (tables : Tables) :
    ∃ all, loadRetention tables clear = (keptDays tables, keptOverrides tables, all) := by
  by_cases hloads : Loads tables.settings clear
  · refine ⟨true, ?_⟩
    have hseen : seen tables.settings clear = lookups :=
      List.takeWhile_eq_self_iff.2 fun l hl => decide_eq_true (hloads.1 l hl)
    have hdays : keptDays tables = daysOf tables.settings lookups :=
      funext fun age => by rw [keptDays, hseen]
    rw [loadRetention_of_loads hloads, keptOverrides, if_pos hloads, hdays]
  · refine ⟨false, ?_⟩
    rw [loadRetention_of_not hloads, keptOverrides, if_neg hloads]
    rfl

theorem mem_overrideDeletes {d : Delete} {overrides : List DataRetentionOverride} :
    d ∈ (overrideDeletes now overrides).1 ↔ ∃ o ∈ overrides, o.Known ∧ Reached overrides now o ∧
      d = ⟨o.dataType, some (o.deviceId, o.appId), [], daysAgo second now o.retentionDays⟩ := by
  induction overrides with
  | nil => simp [overrideDeletes]
  | cons a rest ih =>
    by_cases hknown : a.Known
    · by_cases hcalendar : InCalendar now a.retentionDays
      · simp only [overrideDeletes, if_pos hknown, cutoff, if_pos hcalendar, mem_cons, ih]
        constructor
        · rintro (rfl | ⟨o, ho, hk, hreached, rfl⟩)
          · exact ⟨a, .inl rfl, hknown, reached_cons.2 ⟨fun _ => hcalendar, .inl rfl⟩, rfl⟩
          · exact ⟨o, .inr ho, hk, reached_cons.2 ⟨fun _ => hcalendar, .inr hreached⟩, rfl⟩
        · rintro ⟨o, rfl | ho, hk, hreached, rfl⟩
          · exact .inl rfl
          · rcases (reached_cons.1 hreached).2 with rfl | hreached
            · exact .inl rfl
            · exact .inr ⟨o, ho, hk, hreached, rfl⟩
      · simp only [overrideDeletes, if_pos hknown, cutoff, if_neg hcalendar, not_mem_nil,
          false_iff]
        rintro ⟨o, -, -, hreached, -⟩
        exact hcalendar ((reached_cons.1 hreached).1 hknown)
    · simp only [overrideDeletes, if_neg hknown, ih, mem_cons]
      constructor
      · rintro ⟨o, ho, hk, hreached, rfl⟩
        exact ⟨o, .inr ho, hk, reached_cons.2 ⟨fun h => absurd h hknown, .inr hreached⟩, rfl⟩
      · rintro ⟨o, rfl | ho, hk, hreached, rfl⟩
        · exact absurd hk hknown
        · rcases (reached_cons.1 hreached).2 with rfl | hreached
          · exact absurd hk hknown
          · exact ⟨o, ho, hk, hreached, rfl⟩

theorem entry_inj : ∀ e ∈ cleanupTables, ∀ e' ∈ cleanupTables, e.1 = e'.1 → e = e' := by decide

/-- **What a cleanup keeps** of a table for a device. -/
theorem keeps_iff {entry : String × Age × ℤ} (hentry : entry ∈ cleanupTables) :
    Keeps tables now device entry.1 start ↔ KeptLongEnough tables device now start entry := by
  obtain ⟨all, hload⟩ := exists_loadRetention tables
  have hdeletes (row : CentralScheduler.Retention.Row) : Deletes tables clear now row ↔ _ :=
    deletes_of_loadRetention hload
  constructor
  · intro h
    refine ⟨fun o ho hknown htable hdevice hreached => ?_, fun hall hages => ?_⟩
    · by_contra hold
      refine h ⟨entry.1, device, o.appId, start⟩ rfl rfl (Int.le_refl start)
        ((hdeletes _).2 (.inl ?_))
      refine ⟨_, mem_overrideDeletes.2 ⟨o, ho, hknown, hreached, rfl⟩, htable, ?_, not_mem_nil,
        not_le.1 hold⟩
      intro pair hpair
      cases hpair
      exact Prod.ext hdevice rfl
    · by_contra hold
      -- an app for which the device has no override
      obtain ⟨app, happ⟩ := Infinite.exists_notMem_finset
        ((keptOverrides tables).map fun o => o.appId).toFinset
      have honly : ∀ p ∈ (none : Option (Uuid × Uuid)), p = (device, app) :=
        fun _ hp => absurd hp (Option.not_mem_none _)
      refine h ⟨entry.1, device, app, start⟩ rfl rfl (Int.le_refl start) ((hdeletes _).2 (.inr
        ⟨(overrideDeletes_all _).2 hall, hages, _, mem_map_of_mem hentry, rfl, honly, ?_,
          not_le.1 hold⟩))
      intro hmem
      obtain ⟨o, ho, hpair⟩ := List.mem_map.1 hmem
      exact happ (mem_toFinset.2 (List.mem_map.2 ⟨o, (List.mem_filter.1 ho).1,
        (Prod.ext_iff.1 hpair).2⟩))
  · rintro ⟨hoverrides, hglobal⟩ row htable hdevice hstart hrow
    rcases (hdeletes row).1 hrow with ⟨d, hd, hmatches⟩ | ⟨hall, hages, d, hd, hmatches⟩
    · obtain ⟨o, ho, hknown, hreached, rfl⟩ := mem_overrideDeletes.1 hd
      have hdev : o.deviceId = row.deviceId := (Prod.ext_iff.1 (hmatches.2.1 _ rfl)).1
      have hwithin := hoverrides o ho hknown (hmatches.1.trans htable) (hdev.trans hdevice) hreached
      exact absurd hmatches.2.2.2 (not_lt.2 (hwithin.trans hstart))
    · obtain ⟨e, he, rfl⟩ := List.mem_map.1 hd
      obtain rfl := entry_inj e he entry hentry (hmatches.1.trans htable)
      have hwithin := hglobal ((overrideDeletes_all _).1 hall) hages
      exact absurd hmatches.2.2.2 (not_lt.2 (hwithin.trans hstart))

/-- **The chosen tier has the data exactly under the condition.** -/
theorem hasData_iff (h : History) (tables : Tables) (retentionOverrides : Dict String String)
    (device : Uuid) (now fromTs : Timestamp) (toTs : Option Timestamp) :
    HasData h tables retentionOverrides device now fromTs toTs ↔
      ∀ tier, h.tier tables.settings retentionOverrides now fromTs toTs = some tier →
        tier ≠ .daily →
          KeptLongEnough tables device now (fromTs + h.granularity) (h.entry tier) :=
  forall₃_congr fun tier _ _ => keeps_iff (h.entry_mem tier)

/-- **Chosen, but deleted**: rows of an interface that are five days old, in a chart that begins six
days ago, when they are kept for three days. -/
theorem not_hasData : (History.interface.tier [("retention_days_interface", "3")] [] 0 (-6 * day)
      none = some .raw ∧ Deletes (withSettings [("retention_days_interface", "3")]) clear 0
      ⟨"interface", "d", "a", -6 * day + day⟩) ∧
    ¬HasData .interface (withSettings [("retention_days_interface", "3")]) [] "d" 0 (-6 * day)
      none := by
  have hrow : History.interface.tier [("retention_days_interface", "3")] [] 0 (-6 * day)
        none = some .raw ∧
      Deletes (withSettings [("retention_days_interface", "3")]) clear 0
        ⟨"interface", "d", "a", -6 * day + day⟩ := by decide +kernel
  exact ⟨hrow, fun h => h .raw hrow.1 (by decide) _ rfl rfl (Int.le_refl _) hrow.2⟩

end MonCTL.Results
