import MonCTL.Basic
import MonCTL.Lib.Dict
import MonCTL.Lib.PyInt
import Mathlib.Data.List.Nodup

/-!
# Data Retention

How long raw rows are kept is computed twice. The retention endpoints report, for an app on a
device, the override of the device, else the unified setting of the data type, else its legacy
setting, else a default. The cleanup reads fourteen settings one after another into ten ages, with
defaults of its own, and takes what it has read so far when reading fails; then it deletes what is
older, first for each override and then for everything else.

A date outside of the calendar ends the cleanup where it is. A statement that fails deletes nothing.
-/

namespace MonCTL.CentralScheduler.Retention

open List Option

/-! ### Tables -/

/-- The tables of raw rows. -/
inductive DataType
  | config
  | performance
  | availabilityLatency
  | interface
  deriving DecidableEq

/-- The name of a table. -/
def DataType.name : DataType → String
  | config => "config"
  | performance => "performance"
  | availabilityLatency => "availability_latency"
  | interface => "interface"

/-- `VALID_DATA_TYPES`, which are also the keys of `override_exclusions`. -/
def validDataTypes : List DataType := [.config, .performance, .availabilityLatency, .interface]

/-- `DataRetentionOverride`. -/
structure DataRetentionOverride where
  deviceId : Uuid
  appId : Uuid
  dataType : String
  retentionDays : ℤ
  deriving DecidableEq

/-- What an override is for; unique. -/
def DataRetentionOverride.key (o : DataRetentionOverride) : Uuid × Uuid × String :=
  (o.deviceId, o.appId, o.dataType)

/-- The table of settings, and that of overrides. -/
structure Tables where
  settings : Dict String String := []
  overrides : List DataRetentionOverride := []
  overrides_nodup : (overrides.map DataRetentionOverride.key).Nodup

/-- The built-in `int`, of a text, which has no more than 4300 digits. -/
def int (text : String) : Option ℤ :=
  if (text.toList.filter isPyDigit).length ≤ 4300 then parseInt text else none

/-! ### Reports -/

/-- `DEFAULT_RETENTION`. -/
def defaultRetention : DataType → ℤ
  | .config => 365
  | .performance => 90
  | .availabilityLatency => 30
  | .interface => 90

/-- `_LEGACY_KEYS`. -/
def legacyKey : DataType → String
  | .config => "config_retention_days"
  | .performance => "check_results_retention_days"
  | .availabilityLatency => "check_results_retention_days"
  | .interface => "interface_raw_retention_days"

def unifiedKey (t : DataType) : String := "retention_days_" ++ t.name

/-- `_get_effective_default`; it fails on a setting that is no number. -/
def getEffectiveDefault (settings : Dict String String) (t : DataType) : Option ℤ :=
  match settings.get? (unifiedKey t) with
  | some value => int value
  | none =>
    match settings.get? (legacyKey t) with
    | some value => int value
    | none => some (defaultRetention t)

/-- `get_retention_defaults`. -/
def getRetentionDefaults (settings : Dict String String) : Option (List (DataType × ℤ)) :=
  validDataTypes.mapM fun t => (getEffectiveDefault settings t).map fun days => (t, days)

/-- An app that is assigned to a device. -/
structure App where
  id : Uuid
  name : String
  targetTable : DataType

/-- An entry of the report on a device. -/
structure Entry where
  appId : Uuid
  appName : String
  dataType : DataType
  retentionDays : ℤ
  source : String

def Tables.override (tables : Tables) (device app : Uuid) (t : DataType) :
    Option DataRetentionOverride :=
  tables.overrides.find? fun o => o.key = (device, app, t.name)

def Tables.entry (tables : Tables) (defaults : List (DataType × ℤ)) (device : Uuid) (app : App) :
    Entry :=
  let override := tables.override device app.id app.targetTable
  { appId := app.id
    appName := app.name
    dataType := app.targetTable
    retentionDays := match override with
      | some o => o.retentionDays
      | none => (defaults.lookup app.targetTable).getD 90
    source := if override.isSome then "device_override" else "global_default" }

/-- `get_device_retention`, on a device with its apps. -/
def getDeviceRetention (tables : Tables) (device : Uuid) (apps : List App) : Option (List Entry) :=
  (getRetentionDefaults tables.settings).map fun defaults =>
    (apps.map (tables.entry defaults device)).mergeSort fun e e' =>
      e.dataType.name < e'.dataType.name ∨
        e.dataType.name = e'.dataType.name ∧ e.appName ≤ e'.appName

/-- The effective retention of an app on a device: the override, else the default. -/
def effective (tables : Tables) (device app : Uuid) (t : DataType) : Option ℤ :=
  match tables.override device app t with
  | some o => some o.retentionDays
  | none => getEffectiveDefault tables.settings t

/-! ### Loading -/

/-- The ages that a cleanup keeps. -/
inductive Age
  | rawDays
  | hourlyDays
  | dailyDays
  | configDays
  | perfDays
  | availDays
  | perfHourlyDays
  | perfDailyDays
  | availHourlyDays
  | availDailyDays
  deriving DecidableEq

/-- The ages before anything has been read. -/
def Age.initial : Age → ℤ
  | rawDays => 7
  | hourlyDays => 90
  | dailyDays => 730
  | configDays => 90
  | perfDays => 90
  | availDays => 30
  | perfHourlyDays => 90
  | perfDailyDays => 730
  | availHourlyDays => 365
  | availDailyDays => 1825

/-- A setting that a cleanup reads: the ages it is for, and what they get without it. -/
structure Lookup where
  key : String
  ages : List Age
  default : Option ℤ := none
  deriving DecidableEq

/-- The settings in the order in which they are read. -/
def lookups : List Lookup :=
  [⟨"interface_raw_retention_days", [.rawDays], some 7⟩,
    ⟨"interface_hourly_retention_days", [.hourlyDays], some 90⟩,
    ⟨"interface_daily_retention_days", [.dailyDays], some 730⟩,
    ⟨"config_retention_days", [.configDays], some 90⟩,
    ⟨"check_results_retention_days", [.perfDays, .availDays], some 90⟩,
    ⟨"retention_days_config", [.configDays], none⟩,
    ⟨"retention_days_performance", [.perfDays], none⟩,
    ⟨"retention_days_availability_latency", [.availDays], none⟩,
    ⟨"retention_days_interface", [.rawDays], none⟩,
    ⟨"perf_hourly_retention_days", [.perfHourlyDays], none⟩,
    ⟨"perf_daily_retention_days", [.perfDailyDays], none⟩,
    ⟨"avail_raw_retention_days", [.availDays], none⟩,
    ⟨"avail_hourly_retention_days", [.availHourlyDays], none⟩,
    ⟨"avail_daily_retention_days", [.availDailyDays], none⟩]

/-- What the database answers: whether it can read a setting, and the overrides. -/
structure Weather where
  reads : String → Bool
  readsOverrides : Bool

def Lookup.assign (l : Lookup) (days : ℤ) (ages : Age → ℤ) : Age → ℤ :=
  fun age => if age ∈ l.ages then days else ages age

/-- Settings are read into ages, until one cannot be read or is no number. -/
def load (settings : Dict String String) (weather : Weather) :
    List Lookup → (Age → ℤ) → (Age → ℤ) × Bool
  | [], ages => (ages, true)
  | l :: rest, ages =>
    if weather.reads l.key then
      match settings.get? l.key with
      | some value =>
        match int value with
        | some days => load settings weather rest (l.assign days ages)
        | none => (ages, false)
      | none =>
        match l.default with
        | some days => load settings weather rest (l.assign days ages)
        | none => load settings weather rest ages
    else (ages, false)

/-- The ages and the overrides that a cleanup goes by, and whether all could be read. -/
def loadRetention (tables : Tables) (weather : Weather) :
    (Age → ℤ) × List DataRetentionOverride × Bool :=
  match load tables.settings weather lookups Age.initial with
  | (ages, true) =>
    if weather.readsOverrides then (ages, tables.overrides, true) else (ages, [], false)
  | (ages, false) => (ages, [], false)

/-! ### Deleting -/

structure Row where
  table : String
  deviceId : Uuid
  appId : Uuid
  executedAt : Timestamp

/-- `ALTER TABLE … DELETE`: of one app on one device, or of all but some. -/
structure Delete where
  table : String
  only : Option (Uuid × Uuid) := none
  excluded : List (Uuid × Uuid) := []
  before : Timestamp

def Delete.Matches (d : Delete) (row : Row) : Prop :=
  d.table = row.table ∧ (∀ pair ∈ d.only, pair = (row.deviceId, row.appId)) ∧
    (row.deviceId, row.appId) ∉ d.excluded ∧ row.executedAt < d.before
  deriving Decidable

/-- Some days before now, to the second or to the day. -/
def daysAgo (unit : ℤ) (now : Timestamp) (days : ℤ) : Timestamp :=
  (now - days * 86400000000) / unit * unit

/-- A number of days that a `timedelta` takes, and that leads to a date of the calendar. -/
def InCalendar (now : Timestamp) (days : ℤ) : Prop :=
  (-999999999 ≤ days ∧ days ≤ 999999999) ∧ -62135596800000000 ≤ now - days * 86400000000 ∧
      now - days * 86400000000 < 253402300800000000
  deriving Decidable

/-- `_ts_cutoff` and `_day_cutoff`, which fail outside of the calendar. -/
def cutoff (unit : ℤ) (now : Timestamp) (days : ℤ) : Option Timestamp :=
  if InCalendar now days then some (daysAgo unit now days) else none

/-- A second, and a day. -/
def second : ℤ := 1000000

def day : ℤ := 86400000000

/-- An override is for one of the tables of raw rows. -/
def DataRetentionOverride.Known (o : DataRetentionOverride) : Prop :=
  o.dataType ∈ validDataTypes.map DataType.name
  deriving Decidable

/-- The statements for the overrides, and whether they have all been reached. -/
def overrideDeletes (now : Timestamp) : List DataRetentionOverride → List Delete × Bool
  | [] => ([], true)
  | o :: rest =>
    if o.Known then
      match cutoff second now o.retentionDays with
      | some before =>
        let (deletes, all) := overrideDeletes now rest
        ({ table := o.dataType, only := some (o.deviceId, o.appId), before := before } ::
          deletes, all)
      | none => ([], false)
    else overrideDeletes now rest

/-- `cleanup_sqls`: the tables, with their ages and the units of their columns. -/
def cleanupTables : List (String × Age × ℤ) :=
  [("interface", .rawDays, second), ("interface_hourly", .hourlyDays, second),
    ("interface_daily", .dailyDays, day), ("config", .configDays, second),
    ("performance", .perfDays, second), ("performance_hourly", .perfHourlyDays, second),
    ("performance_daily", .perfDailyDays, day), ("availability_latency", .availDays, second),
    ("availability_latency_hourly", .availHourlyDays, second),
    ("availability_latency_daily", .availDailyDays, day)]

/-- `override_exclusions`. -/
def excludedFrom (overrides : List DataRetentionOverride) (table : String) : List (Uuid × Uuid) :=
  (overrides.filter fun o => o.Known ∧ o.dataType = table).map fun o => (o.deviceId, o.appId)

/-- The statements for everything else, unless an age leads out of the calendar. -/
def globalDeletes (now : Timestamp) (ages : Age → ℤ) (overrides : List DataRetentionOverride) :
    Option (List Delete) :=
  cleanupTables.mapM fun (table, age, unit) => (cutoff unit now (ages age)).map fun before =>
    { table := table, excluded := excludedFrom overrides table, before := before }

/-- `_retention_cleanup`: the statements that are executed. -/
def retentionCleanup (tables : Tables) (weather : Weather) (now : Timestamp) : List Delete :=
  let (ages, overrides, _) := loadRetention tables weather
  match overrideDeletes now overrides with
  | (deletes, true) => deletes ++ (globalDeletes now ages overrides).getD []
  | (deletes, false) => deletes

def Deletes (tables : Tables) (weather : Weather) (now : Timestamp) (row : Row) : Prop :=
  ∃ d ∈ retentionCleanup tables weather now, d.Matches row
  deriving Decidable

/-! ### What is to hold, and when it does -/

/-- **A cleanup honours what is reported**: it deletes the rows of an app on a device that are older
than the effective retention, and no others; if it could not read all settings or the overrides,
then it deletes none but such rows. -/
def Honours (tables : Tables) (weather : Weather) (now : Timestamp) (device app : Uuid)
    (t : DataType) : Prop :=
  ∀ days ∈ effective tables device app t, ∀ executedAt : Timestamp,
    (Deletes tables weather now ⟨t.name, device, app, executedAt⟩ →
      executedAt < daysAgo second now days) ∧
    ((loadRetention tables weather).2.2 = true → executedAt < daysAgo second now days →
      Deletes tables weather now ⟨t.name, device, app, executedAt⟩)

/-- **The reports are of the effective retention**: the entries of the apps of a device, and the
defaults, when the endpoints answer. -/
def ReportsEffective (tables : Tables) (device : Uuid) (apps : List App) : Prop :=
  (∀ entries, getDeviceRetention tables device apps = some entries →
    ∀ e ∈ entries, effective tables device e.appId e.dataType = some e.retentionDays) ∧
  ∀ defaults, getRetentionDefaults tables.settings = some defaults →
    ∀ t, defaults.lookup t = getEffectiveDefault tables.settings t

/-- The age of the raw rows of a table. -/
def DataType.age : DataType → Age
  | config => .configDays
  | performance => .perfDays
  | availabilityLatency => .availDays
  | interface => .rawDays

/-- A setting can be read, and is a number if it is there. -/
def Lookup.Succeeds (settings : Dict String String) (weather : Weather) (l : Lookup) : Prop :=
  weather.reads l.key = true ∧ ∀ value ∈ settings.get? l.key, (int value).isSome = true
  deriving Decidable

/-- What a lookup finds. -/
def Lookup.value (settings : Dict String String) (l : Lookup) : Option ℤ :=
  match settings.get? l.key with
  | some value => int value
  | none => l.default

/-- The last value that some lookups find for an age, else a given one. -/
def lastValue (settings : Dict String String) (seen : List Lookup) (age : Age) (days : ℤ) : ℤ :=
  ((seen.filterMap fun l => if age ∈ l.ages then l.value settings else none).getLast?).getD days

/-- An age, as far as some lookups have been made. -/
def daysOf (settings : Dict String String) (seen : List Lookup) (age : Age) : ℤ :=
  lastValue settings seen age age.initial

/-- The lookups before the first that fails. -/
def seen (settings : Dict String String) (weather : Weather) : List Lookup :=
  lookups.takeWhile fun l => l.Succeeds settings weather

/-- All settings and the overrides can be read. -/
def Loads (settings : Dict String String) (weather : Weather) : Prop :=
  (∀ l ∈ lookups, l.Succeeds settings weather) ∧ weather.readsOverrides = true
  deriving Decidable

/-- There is a setting. -/
def Has (settings : Dict String String) (key : String) : Prop := (settings.get? key).isSome = true
  deriving Decidable

/-- A data type has a unified or a legacy setting. -/
def HasDefault (settings : Dict String String) (t : DataType) : Prop :=
  Has settings (unifiedKey t) ∨ Has settings (legacyKey t)
  deriving Decidable

/-- The cleanup and the report have the same default: always for performance; for availability if
the cleanup's own setting is absent and another is not, or if it says the same; else if there is a
setting. -/
def DefaultsAgree (settings : Dict String String) : DataType → Prop
  | .performance => True
  | .availabilityLatency =>
    match settings.get? "avail_raw_retention_days" with
    | some value => int value = getEffectiveDefault settings .availabilityLatency
    | none => HasDefault settings .availabilityLatency
  | .config => HasDefault settings .config
  | .interface => HasDefault settings .interface

/-- The overrides before an override, and itself, lead into the calendar. -/
def Reached (overrides : List DataRetentionOverride) (now : Timestamp)
    (o : DataRetentionOverride) : Prop :=
  ∀ o' ∈ overrides.takeWhile (· ≠ o) ++ [o], o'.Known → InCalendar now o'.retentionDays

/-- **The condition.** If everything can be read, the override of the app is reached, or there is
none, the defaults agree and nothing leads out of the calendar. Else what has been read for the age
of the data type is at least the effective retention, or an age leads out of the calendar. -/
def Agrees (tables : Tables) (weather : Weather) (now : Timestamp) (device app : Uuid)
    (t : DataType) : Prop :=
  ∀ days ∈ effective tables device app t,
    if Loads tables.settings weather then
      match tables.override device app t with
      | some o => Reached tables.overrides now o
      | none => (∀ o ∈ tables.overrides, o.Known → InCalendar now o.retentionDays) ∧
          (∀ age, InCalendar now (daysOf tables.settings lookups age)) ∧
            DefaultsAgree tables.settings t
    else
      (∃ age, ¬InCalendar now (daysOf tables.settings (seen tables.settings weather) age)) ∨
        days ≤ daysOf tables.settings (seen tables.settings weather) t.age

/-! ### What is loaded -/

variable {settings : Dict String String} {weather : Weather} {l : Lookup}

theorem load_cons_of_not (h : ¬l.Succeeds settings weather) (rest : List Lookup) (ages : Age → ℤ) :
    load settings weather (l :: rest) ages = (ages, false) := by
  rw [load]
  split
  next hreads =>
    split
    next value hvalue =>
      split
      next days hdays =>
        refine absurd ⟨hreads, fun value' hvalue' => ?_⟩ h
        cases hvalue.symm.trans hvalue'
        exact isSome_of_eq_some hdays
      · rfl
    next hnone =>
      refine absurd ⟨hreads, fun value' hvalue' => ?_⟩ h
      cases hnone.symm.trans hvalue'
  · rfl

theorem load_cons (h : l.Succeeds settings weather) (rest : List Lookup) (ages : Age → ℤ) :
    load settings weather (l :: rest) ages = load settings weather rest (match l.value settings with
        | some days => l.assign days ages
        | none => ages) := by
  rw [load, if_pos h.1, Lookup.value]
  split
  next value hvalue =>
    obtain ⟨days, hdays⟩ := isSome_iff_exists.1 (h.2 value hvalue)
    rw [hdays]
  · split <;> rfl

theorem lastValue_cons (settings : Dict String String) (l : Lookup) (rest : List Lookup) (age : Age)
    (ages : Age → ℤ) : lastValue settings (l :: rest) age (ages age) = lastValue settings rest age
        ((match l.value settings with
          | some days => l.assign days ages
          | none => ages) age) := by
  rw [lastValue, lastValue, filterMap_cons]
  cases hvalue : l.value settings with
  | none => simp only [ite_self]
  | some days =>
    by_cases hage : age ∈ l.ages
    · simp only [hage, if_true, Lookup.assign, getLast?_cons, getD_some]
    · simp only [hage, if_false, Lookup.assign]

/-- **Each age is the last value that has been read for it.** -/
theorem load_eq (settings : Dict String String) (weather : Weather) (ls : List Lookup)
    (ages : Age → ℤ) : load settings weather ls ages =
      (fun age => lastValue settings (ls.takeWhile fun l => l.Succeeds settings weather) age
        (ages age), decide (∀ l ∈ ls, l.Succeeds settings weather)) := by
  induction ls generalizing ages with
  | nil => rfl
  | cons l rest ih =>
    by_cases hl : l.Succeeds settings weather
    · have htake : ((l :: rest).takeWhile fun l => l.Succeeds settings weather) =
          l :: rest.takeWhile fun l => l.Succeeds settings weather :=
        takeWhile_cons_of_pos (decide_eq_true hl)
      rw [load_cons hl, ih, htake]
      refine Prod.ext (funext fun age => ?_) ?_
      · exact (lastValue_cons settings l _ age ages).symm
      · simp only [forall_mem_cons, hl, true_and]
    · have htake : ((l :: rest).takeWhile fun l => l.Succeeds settings weather) = [] :=
        takeWhile_cons_of_neg (ne_true_of_eq_false (decide_eq_false hl))
      rw [load_cons_of_not hl, htake]
      refine Prod.ext rfl ?_
      exact (decide_eq_false fun h => hl (h l mem_cons_self)).symm

variable {tables : Tables}

theorem loadRetention_of_loads (h : Loads tables.settings weather) :
    loadRetention tables weather = (daysOf tables.settings lookups, tables.overrides, true) := by
  have hseen : (lookups.takeWhile fun l => l.Succeeds tables.settings weather) = lookups :=
    List.takeWhile_eq_self_iff.2 fun l hl => decide_eq_true (h.1 l hl)
  rw [loadRetention, load_eq, hseen, decide_eq_true h.1]
  exact if_pos h.2

theorem loadRetention_of_not (h : ¬Loads tables.settings weather) : loadRetention tables weather =
      (daysOf tables.settings (seen tables.settings weather), [], false) := by
  rw [loadRetention, load_eq]
  by_cases hall : ∀ l ∈ lookups, l.Succeeds tables.settings weather
  · rw [decide_eq_true hall]
    exact if_neg fun hoverrides => h ⟨hall, hoverrides⟩
  · rw [decide_eq_false hall]
    rfl

/-! ### What is deleted -/

variable {now : Timestamp} {o : DataRetentionOverride}

theorem reached_cons {a : DataRetentionOverride} {rest : List DataRetentionOverride} :
    Reached (a :: rest) now o ↔
      (a.Known → InCalendar now a.retentionDays) ∧ (a = o ∨ Reached rest now o) := by
  by_cases heq : a = o
  · subst heq
    rw [Reached, takeWhile_cons_of_neg (by simp)]
    simp only [nil_append, forall_mem_singleton, true_or, and_true]
  · rw [Reached, takeWhile_cons_of_pos (by simpa using heq), cons_append,
      forall_mem_cons]
    exact and_congr_right fun _ => (or_iff_right heq).symm

theorem overrideDeletes_all (overrides : List DataRetentionOverride) :
    (overrideDeletes now overrides).2 = true ↔
      ∀ o ∈ overrides, o.Known → InCalendar now o.retentionDays := by
  induction overrides with
  | nil => exact ⟨fun _ _ ho => absurd ho not_mem_nil, fun _ => rfl⟩
  | cons o rest ih =>
    rw [forall_mem_cons, ← ih, overrideDeletes]
    by_cases hknown : o.Known
    · by_cases hcalendar : InCalendar now o.retentionDays
      · simp only [hknown, cutoff, hcalendar, if_true, forall_const, true_and]
      · simp only [hknown, cutoff, hcalendar, if_true, if_false, forall_const, false_and,
          Bool.false_eq_true]
    · simp only [hknown, if_false, false_imp_iff, true_and]

variable {row : Row}

theorem matches_override {before : Timestamp} :
    Delete.Matches ⟨o.dataType, some (o.deviceId, o.appId), [], before⟩ row ↔
      o.key = (row.deviceId, row.appId, row.table) ∧ row.executedAt < before := by
  constructor
  · rintro ⟨htable, honly, _, hbefore⟩
    obtain ⟨hdevice, happ⟩ := Prod.ext_iff.1 (honly _ rfl)
    exact ⟨Prod.ext hdevice (Prod.ext happ htable), hbefore⟩
  · rintro ⟨hkey, hbefore⟩
    have hkey' := Prod.ext_iff.1 (Prod.ext_iff.1 hkey).2
    refine ⟨hkey'.2, fun pair hpair => ?_, not_mem_nil, hbefore⟩
    cases hpair
    exact Prod.ext (Prod.ext_iff.1 hkey).1 hkey'.1

/-- **The rows deleted for overrides**: those of the overrides that are reached. -/
theorem overrideDeletes_matches (hrow : row.table ∈ validDataTypes.map DataType.name)
    (overrides : List DataRetentionOverride) :
    (∃ d ∈ (overrideDeletes now overrides).1, d.Matches row) ↔
      ∃ o ∈ overrides, o.key = (row.deviceId, row.appId, row.table) ∧ Reached overrides now o ∧
        row.executedAt < daysAgo second now o.retentionDays := by
  have hknown_of {o : DataRetentionOverride}
      (hkey : o.key = (row.deviceId, row.appId, row.table)) : o.Known := by
    have htable : o.dataType = row.table := congrArg (fun k => k.2.2) hkey
    rw [DataRetentionOverride.Known, htable]
    exact hrow
  induction overrides with
  | nil => simp only [overrideDeletes, not_mem_nil, false_and, exists_false]
  | cons a rest ih =>
    by_cases hknown : a.Known
    · by_cases hcalendar : InCalendar now a.retentionDays
      · simp only [overrideDeletes, if_pos hknown, cutoff, if_pos hcalendar,
          exists_mem_cons_iff, ih, matches_override]
        constructor
        · rintro (⟨hkey, hbefore⟩ | ⟨o, ho, hkey, hreached, hbefore⟩)
          · exact .inl ⟨hkey, reached_cons.2 ⟨fun _ => hcalendar, .inl rfl⟩, hbefore⟩
          · exact .inr ⟨o, ho, hkey, reached_cons.2 ⟨fun _ => hcalendar, .inr hreached⟩, hbefore⟩
        · rintro (⟨hkey, _, hbefore⟩ | ⟨o, ho, hkey, hreached, hbefore⟩)
          · exact .inl ⟨hkey, hbefore⟩
          · rcases (reached_cons.1 hreached).2 with rfl | hreached
            · exact .inl ⟨hkey, hbefore⟩
            · exact .inr ⟨o, ho, hkey, hreached, hbefore⟩
      · simp only [overrideDeletes, if_pos hknown, cutoff, if_neg hcalendar, not_mem_nil,
          false_and, exists_false, false_iff]
        rintro ⟨o, _, _, hreached, _⟩
        exact hcalendar ((reached_cons.1 hreached).1 hknown)
    · simp only [overrideDeletes, if_neg hknown]
      refine ih.trans ⟨?_, ?_⟩
      · rintro ⟨o, ho, hkey, hreached, hbefore⟩
        exact ⟨o, mem_cons_of_mem _ ho, hkey,
          reached_cons.2 ⟨fun h => absurd h hknown, .inr hreached⟩, hbefore⟩
      · rintro ⟨o, ho, hkey, hreached, hbefore⟩
        have hne : a ≠ o := fun heq => hknown (heq ▸ hknown_of hkey)
        exact ⟨o, (List.mem_cons.1 ho).resolve_left hne.symm, hkey,
          (reached_cons.1 hreached).2.resolve_left hne, hbefore⟩

theorem mapM_of_forall {α β : Type} {g : α → Option β} {f : α → β} {l : List α}
    (h : ∀ a ∈ l, g a = some (f a)) : l.mapM g = some (l.map f) := by
  induction l with
  | nil => rfl
  | cons a l ih =>
    obtain ⟨ha, hl⟩ := List.forall_mem_cons.1 h
    rw [mapM_cons, ha, ih hl]
    rfl

theorem mapM_of_exists {α β : Type} {g : α → Option β} {l : List α} (h : ∃ a ∈ l, g a = none) :
    l.mapM g = none := by
  induction l with
  | nil => exact absurd h.choose_spec.1 not_mem_nil
  | cons a l ih =>
    rw [mapM_cons]
    rcases (exists_mem_cons_iff _ _ _).1 h with ha | hl
    · rw [ha]
      rfl
    · rw [ih hl]
      cases g a <;> rfl

theorem exists_cleanupTables (age : Age) : ∃ entry ∈ cleanupTables, entry.2.1 = age := by
  cases age <;> decide

/-- The statement for everything else in a table. -/
def globalDelete (now : Timestamp) (ages : Age → ℤ) (overrides : List DataRetentionOverride)
    (entry : String × Age × ℤ) : Delete :=
  { table := entry.1
    excluded := excludedFrom overrides entry.1
    before := daysAgo entry.2.2 now (ages entry.2.1) }

variable {ages : Age → ℤ}

theorem globalDeletes_of_forall
    (h : ∀ age, InCalendar now (ages age)) (overrides : List DataRetentionOverride) :
    globalDeletes now ages overrides =
      some (cleanupTables.map (globalDelete now ages overrides)) := by
  refine mapM_of_forall fun entry _ => ?_
  obtain ⟨table, age, unit⟩ := entry
  exact congrArg (Option.map _) (if_pos (h age))

theorem globalDeletes_of_not
    (h : ¬∀ age, InCalendar now (ages age)) (overrides : List DataRetentionOverride) :
    globalDeletes now ages overrides = none := by
  obtain ⟨age, hage⟩ := not_forall.1 h
  obtain ⟨⟨table, age', unit⟩, hmem, rfl⟩ := exists_cleanupTables age
  exact mapM_of_exists ⟨_, hmem, congrArg (Option.map _) (if_neg hage)⟩

variable {device app : Uuid} {t : DataType} {executedAt : Timestamp}
  {overrides : List DataRetentionOverride}

theorem globalDelete_matches : (∃ d ∈ cleanupTables.map (globalDelete now ages overrides),
        d.Matches ⟨t.name, device, app, executedAt⟩) ↔
      (device, app) ∉ excludedFrom overrides t.name ∧
        executedAt < daysAgo second now (ages t.age) := by
  have hentry : (t.name, t.age, second) ∈ cleanupTables := by cases t <;> decide
  have honly : ∀ entry ∈ cleanupTables, entry.1 = t.name → entry = (t.name, t.age, second) := by
    cases t <;> decide
  constructor
  · rintro ⟨d, hd, htable, _, hexcluded, hbefore⟩
    obtain ⟨entry, hmem, rfl⟩ := List.mem_map.1 hd
    cases honly entry hmem htable
    exact ⟨hexcluded, hbefore⟩
  · rintro ⟨hexcluded, hbefore⟩
    have hkey : ∀ p ∈ (none : Option (Uuid × Uuid)), p = (device, app) :=
      fun _ h => absurd h (not_mem_none _)
    exact ⟨_, mem_map_of_mem hentry, rfl, hkey, hexcluded, hbefore⟩

theorem notMem_excludedFrom :
    (device, app) ∉ excludedFrom tables.overrides t.name ↔ tables.override device app t = none := by
  have hname : t.name ∈ validDataTypes.map DataType.name := by cases t <;> decide
  rw [Tables.override, find?_eq_none]
  constructor
  · intro h o ho hkey
    have hkey := of_decide_eq_true hkey
    obtain ⟨hdevice, hrest⟩ := Prod.ext_iff.1 hkey
    obtain ⟨happ, htable⟩ := Prod.ext_iff.1 hrest
    refine h (List.mem_map.2 ⟨o, List.mem_filter.2 ⟨ho, decide_eq_true ⟨?_, htable⟩⟩, ?_⟩)
    · rw [DataRetentionOverride.Known, show o.dataType = t.name from htable]
      exact hname
    · exact Prod.ext hdevice happ
  · intro h hmem
    obtain ⟨o, ho, hpair⟩ := List.mem_map.1 hmem
    obtain ⟨ho, hfilter⟩ := List.mem_filter.1 ho
    obtain ⟨hdevice, happ⟩ := Prod.ext_iff.1 hpair
    have htable := (of_decide_eq_true hfilter).2
    exact h o ho (decide_eq_true (Prod.ext hdevice (Prod.ext happ htable)))

theorem Tables.of_override (tables : Tables) (h : tables.override device app t = some o) :
    o ∈ tables.overrides ∧ o.key = (device, app, t.name) := by
  rw [Tables.override] at h
  have hkey := find?_some h
  exact ⟨mem_of_find?_eq_some h, of_decide_eq_true hkey⟩

theorem deletes_of_loadRetention {all : Bool}
    (h : loadRetention tables weather = (ages, overrides, all)) : Deletes tables weather now row ↔
      (∃ d ∈ (overrideDeletes now overrides).1, d.Matches row) ∨
        (overrideDeletes now overrides).2 = true ∧ (∀ age, InCalendar now (ages age)) ∧
          ∃ d ∈ cleanupTables.map (globalDelete now ages overrides), d.Matches row := by
  rw [Deletes, retentionCleanup, h]
  dsimp only
  cases hoverrides : overrideDeletes now overrides with
  | mk deletes reached =>
    cases reached with
    | false => simp only [Bool.false_eq_true, false_and, or_false]
    | true =>
      by_cases hages : ∀ age, InCalendar now (ages age)
      · simp only [globalDeletes_of_forall hages, getD_some, mem_append,
          or_and_right, exists_or, hages, implies_true, true_and]
      · simp only [globalDeletes_of_not hages, getD_none, append_nil, hages,
          false_and, and_false, or_false]

/-- **The raw rows deleted when everything could be read**: those of the override if it is reached,
else what is older than the age of the data type. -/
theorem deletes_of_loads (h : Loads tables.settings weather) :
    Deletes tables weather now ⟨t.name, device, app, executedAt⟩ ↔
      match tables.override device app t with
      | some o => Reached tables.overrides now o ∧ executedAt < daysAgo second now o.retentionDays
      | none => ((∀ o ∈ tables.overrides, o.Known → InCalendar now o.retentionDays) ∧
          ∀ age, InCalendar now (daysOf tables.settings lookups age)) ∧
            executedAt < daysAgo second now (daysOf tables.settings lookups t.age) := by
  have hname : t.name ∈ validDataTypes.map DataType.name := by cases t <;> decide
  have hrow : (⟨t.name, device, app, executedAt⟩ : Row).table ∈ validDataTypes.map DataType.name :=
    hname
  rw [deletes_of_loadRetention (loadRetention_of_loads h), overrideDeletes_all,
    overrideDeletes_matches hrow, globalDelete_matches, notMem_excludedFrom]
  cases hoverride : tables.override device app t with
  | none =>
    have hnone := List.find?_eq_none.1 hoverride
    have hkeys : ¬∃ o ∈ tables.overrides, o.key = (device, app, t.name) ∧
        Reached tables.overrides now o ∧ executedAt < daysAgo second now o.retentionDays := by
      rintro ⟨o, ho, hkey, -⟩
      exact hnone o ho (decide_eq_true hkey)
    rw [or_iff_right hkeys]
    exact ⟨fun h => ⟨⟨h.1, h.2.1⟩, h.2.2.2⟩, fun h => ⟨h.1.1, h.1.2, rfl, h.2⟩⟩
  | some o =>
    obtain ⟨hmem, hkey⟩ := tables.of_override hoverride
    have hglobal : ¬((∀ o ∈ tables.overrides, o.Known → InCalendar now o.retentionDays) ∧
        (∀ age, InCalendar now (daysOf tables.settings lookups age)) ∧ some o = none ∧
          executedAt < daysAgo second now (daysOf tables.settings lookups t.age)) :=
      fun h => absurd h.2.2.1 (some_ne_none o)
    rw [or_iff_left hglobal]
    constructor
    · rintro ⟨o', ho', hkey', h⟩
      cases inj_on_of_nodup_map tables.overrides_nodup ho' hmem (hkey'.trans hkey.symm)
      exact h
    · exact fun h => ⟨o, hmem, hkey, h⟩

/-- **The raw rows deleted when something could not be read**: what is older than the age of the
data type, as far as it has been read, of all apps. -/
theorem deletes_of_not_loads (h : ¬Loads tables.settings weather) :
    Deletes tables weather now ⟨t.name, device, app, executedAt⟩ ↔
      (∀ age, InCalendar now (daysOf tables.settings (seen tables.settings weather) age)) ∧
        executedAt < daysAgo second now
          (daysOf tables.settings (seen tables.settings weather) t.age) := by
  rw [deletes_of_loadRetention (loadRetention_of_not h), globalDelete_matches]
  constructor
  · rintro (⟨d, hd, _⟩ | ⟨_, hages, _, hbefore⟩)
    · exact absurd hd not_mem_nil
    · exact ⟨hages, hbefore⟩
  · exact fun h => .inr ⟨rfl, h.1, not_mem_nil, h.2⟩

/-! ### Defaults -/

theorem daysOf_eq {age : Age} {ls : List Lookup}
    (h : (lookups.filter fun l => age ∈ l.ages).reverse = ls) :
    daysOf settings lookups age = ((ls.findSome? (Lookup.value settings))).getD age.initial := by
  have hfilter : (lookups.filterMap fun l => if age ∈ l.ages then l.value settings else none) =
      (lookups.filter fun l => age ∈ l.ages).filterMap (Lookup.value settings) := by
    rw [filterMap_filter]
    simp only [decide_eq_true_eq]
  rw [daysOf, lastValue, hfilter, getLast?_filterMap, h]

variable {days : ℤ} {other : ℤ}

theorem findSome_default
    (hdays : getEffectiveDefault settings t = some days) (ages ages' : List Age) :
    [(⟨unifiedKey t, ages, none⟩ : Lookup), ⟨legacyKey t, ages', some other⟩].findSome?
        (Lookup.value settings) =
      some (if HasDefault settings t then days else other) := by
  rw [getEffectiveDefault] at hdays
  rw [findSome?_cons, findSome?_cons, Lookup.value, Lookup.value]
  split at hdays
  next value hvalue =>
    have hhas : HasDefault settings t := .inl (isSome_of_eq_some hvalue)
    simp only [hvalue, hdays, if_pos hhas]
  next hnone =>
    split at hdays
    next value hvalue =>
      have hhas : HasDefault settings t := .inr (isSome_of_eq_some hvalue)
      simp only [hnone, hvalue, hdays, if_pos hhas]
    next hnone' =>
      have hhas : ¬HasDefault settings t := by
        rintro (h | h)
        · exact absurd (hnone ▸ h : (none : Option String).isSome = true) (by decide)
        · exact absurd (hnone' ▸ h : (none : Option String).isSome = true) (by decide)
      simp only [hnone, hnone', if_neg hhas]

theorem getEffectiveDefault_of_not
    (h : ¬HasDefault settings t) : getEffectiveDefault settings t = some (defaultRetention t) := by
  obtain ⟨hunified, hlegacy⟩ := not_or.1 h
  rw [Has, not_isSome_iff_eq_none] at hunified hlegacy
  rw [getEffectiveDefault, hunified, hlegacy]

theorem ite_default_iff (hdays : getEffectiveDefault settings t = some days) :
    (if HasDefault settings t then days else other) = days ↔
      HasDefault settings t ∨ other = defaultRetention t := by
  by_cases hhas : HasDefault settings t
  · simp only [hhas, if_true, true_or]
  · rw [if_neg hhas, or_iff_right hhas]
    rw [getEffectiveDefault_of_not hhas] at hdays
    rw [some.inj hdays]

theorem daysOf_default (other : ℤ)
    (ages : List Age) (hlookups : (lookups.filter fun l => t.age ∈ l.ages).reverse =
      [⟨unifiedKey t, [t.age], none⟩, ⟨legacyKey t, ages, some other⟩])
    (hdays : getEffectiveDefault settings t = some days) : daysOf settings lookups t.age = days ↔
      HasDefault settings t ∨ other = defaultRetention t := by
  rw [daysOf_eq hlookups, findSome_default hdays, getD_some, ite_default_iff hdays]

/-- **Where the defaults of the cleanup and of the report agree.** -/
theorem daysOf_lookups
    (hloads : Loads settings weather) (hdays : getEffectiveDefault settings t = some days) :
    daysOf settings lookups t.age = days ↔ DefaultsAgree settings t := by
  cases t with
  | config =>
    rw [daysOf_default 90 [.configDays] (by decide) hdays]
    exact or_iff_left (by decide)
  | performance =>
    rw [daysOf_default 90 [.perfDays, .availDays] (by decide) hdays]
    exact iff_of_true (.inr rfl) trivial
  | interface =>
    rw [daysOf_default 7 [.rawDays] (by decide) hdays]
    exact or_iff_left (by decide)
  | availabilityLatency =>
    have hlookups : (lookups.filter fun l => DataType.availabilityLatency.age ∈ l.ages).reverse =
        ⟨"avail_raw_retention_days", [.availDays], none⟩ ::
          [⟨unifiedKey .availabilityLatency, [.availDays], none⟩,
            ⟨legacyKey .availabilityLatency, [.perfDays, .availDays], some 90⟩] := by decide
    have hmem : (⟨"avail_raw_retention_days", [.availDays], none⟩ : Lookup) ∈ lookups := by decide
    rw [daysOf_eq hlookups, findSome?_cons, findSome_default hdays, Lookup.value,
      DefaultsAgree]
    cases hvalue : settings.get? "avail_raw_retention_days" with
    | some value =>
      obtain ⟨own, hown⟩ := isSome_iff_exists.1 ((hloads.1 _ hmem).2 value hvalue)
      simp only [hown, hdays, getD_some, some.injEq]
    | none =>
      simp only [getD_some]
      rw [ite_default_iff hdays]
      exact or_iff_left (by decide)

variable {m n : ℤ}

theorem daysAgo_le_iff {now : ℤ} : daysAgo second now m ≤ daysAgo second now n ↔ n ≤ m := by
  change (now - m * 86400000000) / 1000000 * 1000000 ≤
    (now - n * 86400000000) / 1000000 * 1000000 ↔ n ≤ m
  omega

variable {P : Prop}

/-- Rows that are deleted under a condition are old enough, iff the condition fails or so does the
date. -/
theorem forall_before_iff : (∀ x : ℤ, P ∧ x < m → x < n) ↔ ¬P ∨ m ≤ n := by
  constructor
  · intro h
    by_cases hP : P
    · have := h (m - 1) ⟨hP, by omega⟩
      exact .inr (by omega)
    · exact .inl hP
  · rintro (hP | hle) x ⟨hx, hlt⟩
    · exact absurd hx hP
    · omega

theorem forall_before_iff_iff :
    (∀ x : ℤ, (P ∧ x < m → x < n) ∧ (x < n → P ∧ x < m)) ↔ P ∧ m = n := by
  constructor
  · intro h
    have hn := (h (n - 1)).2 (by omega)
    have hm := (h (m - 1)).1 ⟨hn.1, by omega⟩
    exact ⟨hn.1, by omega⟩
  · rintro ⟨hP, rfl⟩ x
    exact ⟨fun h => h.2, fun h => ⟨hP, h⟩⟩

/-- **When a cleanup honours what is reported.** -/
theorem honours_iff (tables : Tables) (weather : Weather) (now : Timestamp) (device app : Uuid)
    (t : DataType) :
    Honours tables weather now device app t ↔ Agrees tables weather now device app t := by
  refine forall₂_congr fun days hdays => ?_
  by_cases hloads : Loads tables.settings weather
  · simp only [if_pos hloads, loadRetention_of_loads hloads, deletes_of_loads hloads, forall_const]
    cases hoverride : tables.override device app t with
    | some o =>
      rw [effective, hoverride] at hdays
      cases hdays
      dsimp only
      rw [forall_before_iff_iff]
      exact and_iff_left rfl
    | none =>
      rw [effective, hoverride] at hdays
      dsimp only
      rw [forall_before_iff_iff, ← daysOf_lookups hloads hdays, and_assoc]
      refine and_congr_right fun _ => and_congr_right fun _ => ?_
      refine ⟨fun h => ?_, fun h => by rw [h]⟩
      have hle := daysAgo_le_iff.1 (Int.le_of_eq h)
      have hge := daysAgo_le_iff.1 (Int.le_of_eq h.symm)
      exact Int.le_antisymm hge hle
  · simp only [if_neg hloads, loadRetention_of_not hloads, deletes_of_not_loads hloads,
      Bool.false_eq_true, false_imp_iff, and_true]
    rw [forall_before_iff, not_forall, daysAgo_le_iff]

/-! ### What is reported -/

theorem lookup_getRetentionDefaults
    {defaults : List (DataType × ℤ)} (h : getRetentionDefaults settings = some defaults)
    (t : DataType) :
    ∃ days, getEffectiveDefault settings t = some days ∧ defaults.lookup t = some days := by
  simp only [getRetentionDefaults, validDataTypes, mapM_cons, mapM_nil,
    Option.bind_eq_bind, Option.pure_def, bind_eq_some_iff, map_eq_some_iff,
    some.injEq] at h
  obtain ⟨_, ⟨c, hc, rfl⟩, _, ⟨_, ⟨p, hp, rfl⟩, _, ⟨_, ⟨a, ha, rfl⟩, _, ⟨_, ⟨i, hi, rfl⟩, _, rfl,
    rfl⟩, rfl⟩, rfl⟩, rfl⟩ := h
  cases t with
  | config => exact ⟨c, hc, rfl⟩
  | performance => exact ⟨p, hp, rfl⟩
  | availabilityLatency => exact ⟨a, ha, rfl⟩
  | interface => exact ⟨i, hi, rfl⟩

/-- **The effective retention is what is reported**, by the endpoints of a device and of the
defaults, if they answer. -/
theorem reportsEffective (tables : Tables) (device : Uuid) (apps : List App) :
    ReportsEffective tables device apps := by
  refine ⟨fun entries h e he => ?_, fun defaults h t => ?_⟩
  · obtain ⟨defaults, hdefaults, rfl⟩ := map_eq_some_iff.1 h
    obtain ⟨app, _, rfl⟩ := List.mem_map.1 (List.mem_mergeSort.1 he)
    rw [effective]
    simp only [Tables.entry]
    cases tables.override device app.id app.targetTable with
    | some o => rfl
    | none =>
      obtain ⟨days, hdays, hlookup⟩ := lookup_getRetentionDefaults hdefaults app.targetTable
      rw [hlookup]
      exact hdays
  · obtain ⟨days, hdays, hlookup⟩ := lookup_getRetentionDefaults h t
    exact hlookup.trans hdays.symm

/-- **Retention deletes what was reported**, exactly under the condition. -/
theorem retention_honoured_iff (tables : Tables) (weather : Weather) (now : Timestamp)
    (device app : Uuid) (t : DataType) (apps : List App) :
    ReportsEffective tables device apps ∧ Honours tables weather now device app t ↔
      Agrees tables weather now device app t := by
  rw [and_iff_right (reportsEffective tables device apps)]
  exact honours_iff tables weather now device app t

def withSettings (settings : Dict String String) : Tables := ⟨settings, [], .nil⟩

/-- Everything can be read. -/
def clear : Weather := ⟨fun _ => true, true⟩

/-- The first setting cannot be read. -/
def failsAtOnce : Weather := ⟨fun key => key ≠ "interface_raw_retention_days", true⟩

/-- **Rows that were to be kept**: configurations that are 100 days old, with the defaults;
availability that is 31 days old, with a setting that is not reported; and interfaces that are
8 days old, when the first setting cannot be read. -/
theorem not_honours : ¬Honours (withSettings []) clear 0 "d" "a" .config ∧
    ¬Honours (withSettings [("retention_days_availability_latency", "90"),
      ("avail_raw_retention_days", "30")]) clear 0 "d" "a" .availabilityLatency ∧
    ¬Honours (withSettings [("retention_days_interface", "365")]) failsAtOnce 0 "d" "a"
      .interface := by
  have hconfig : 365 ∈ effective (withSettings []) "d" "a" .config ∧
      Deletes (withSettings []) clear 0 ⟨"config", "d", "a", -100 * day⟩ := by decide +kernel
  have havail : 90 ∈ effective (withSettings [("retention_days_availability_latency", "90"),
        ("avail_raw_retention_days", "30")]) "d" "a" .availabilityLatency ∧
      Deletes (withSettings [("retention_days_availability_latency", "90"),
        ("avail_raw_retention_days", "30")]) clear 0
        ⟨"availability_latency", "d", "a", -31 * day⟩ := by decide +kernel
  have hinterface : 365 ∈ effective (withSettings [("retention_days_interface", "365")]) "d" "a"
        .interface ∧
      Deletes (withSettings [("retention_days_interface", "365")]) failsAtOnce 0
        ⟨"interface", "d", "a", -8 * day⟩ := by decide +kernel
  refine ⟨fun h => ?_, fun h => ?_, fun h => ?_⟩
  · exact absurd ((h 365 hconfig.1 (-100 * day)).1 hconfig.2) (by decide)
  · exact absurd ((h 90 havail.1 (-31 * day)).1 havail.2) (by decide)
  · exact absurd ((h 365 hinterface.1 (-8 * day)).1 hinterface.2) (by decide)

end MonCTL.CentralScheduler.Retention
