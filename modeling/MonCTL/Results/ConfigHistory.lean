import Mathlib.Data.List.Dedup
import Mathlib.Data.PNat.Basic
import MonCTL.Basic
import MonCTL.Lib.Pages

/-!
# The History of Configurations

The endpoints for the history of a device take times as texts. Three of them parse a text, format
the time that it shows on the clock, and leave out its offset; the comparison does so too, in its
own way; the snapshot hands the text over as it is. The store reads what it is given as a time of
its own.

What Python parses, what the store reads, and in which order it gives rows of one time, is given.
The texts that the comparison repeats in its answer are left out.
-/

namespace MonCTL.Results.ConfigHistory

open List Option

/-! ### Texts of times -/

/-- A time on the clock, in microseconds, and its offset from UTC. -/
structure DateTime where
  clock : ℤ
  offset : Option ℤ
  deriving DecidableEq

/-- A row of the `config` table; its time is in milliseconds. -/
structure ConfigRow where
  deviceId : Uuid := ""
  appId : Uuid := ""
  appName : String := ""
  componentType : String := ""
  component : String := ""
  configKey : String := ""
  configValue : String := ""
  configHash : String := ""
  executedAt : ℤ
  deriving DecidableEq

/-- What is not in the source: `datetime.fromisoformat`, `strftime` with milliseconds, what the
store reads as a `DateTime64(3)`, its `ilike`, and how it orders rows, newest first. -/
structure Env where
  fromisoformat : String → Option DateTime
  strftime : ℤ → String
  dateTime64 : String → Option ℤ
  ilike : String → String → Bool
  newestFirst : List ConfigRow → List ConfigRow
  newestFirst_perm : ∀ rows, (newestFirst rows).Perm rows

variable (env : Env)

/-- `strftime("%Y-%m-%d %H:%M:%S.%f")[:-3]`. -/
def Env.format (t : DateTime) : String := env.strftime (t.clock / 1000)

/-- `ts.replace("Z", "+00:00")`. -/
def replaceZ (ts : String) : String :=
  String.ofList (ts.toList.flatMap fun c => if c = 'Z' then "+00:00".toList else [c])

/-- The time of a text for the endpoints that parse it. -/
def Env.parse (ts : String) : Option DateTime := env.fromisoformat (replaceZ ts)

/-- What the store makes of it. -/
def Env.bound (ts : String) : Option ℤ := (env.parse ts).bind fun t => env.dateTime64 (env.format t)

/-- What a request is about. -/
structure Filter where
  deviceId : Uuid := ""
  appId : Option Uuid := none
  configKey : Option String := none
  component : Option String := none
  value : Option String := none

/-- The conditions of a query, with bounds for the time. -/
def select (f : Filter) (fromTs toTs : Option ℤ) (rows : List ConfigRow) : List ConfigRow :=
  rows.filter fun row => row.deviceId = f.deviceId ∧ (∀ id ∈ f.appId, row.appId = id) ∧
    (∀ k ∈ f.configKey, env.ilike row.configKey ("%" ++ k ++ "%")) ∧
    (∀ c ∈ f.component, env.ilike row.component ("%" ++ c ++ "%")) ∧
    (∀ v ∈ f.value, env.ilike row.configValue ("%" ++ v ++ "%")) ∧
    (∀ a ∈ fromTs, a ≤ row.executedAt) ∧ ∀ b ∈ toTs, row.executedAt ≤ b

/-- The key of a value. -/
abbrev Key := String × String × String

def ConfigRow.key (row : ConfigRow) : Key := (row.componentType, row.component, row.configKey)

/-- The order of the keys. -/
def keyLe (k l : Key) : Bool :=
  k.1 < l.1 ∨ k.1 = l.1 ∧ (k.2.1 < l.2.1 ∨ k.2.1 = l.2.1 ∧ k.2.2 ≤ l.2.2)

/-- `query_config_snapshot_at_time`: the latest row of each key; it fails on what is no time. -/
def snapshotAt (device : Uuid) (app : Option Uuid) (atTime : String) (rows : List ConfigRow) :
    Option (List ConfigRow) :=
  (env.dateTime64 atTime).map fun b =>
    let selected := select env { deviceId := device, appId := app } none (some b) rows
    ((selected.map (·.key)).dedup.mergeSort keyLe).filterMap fun key =>
      (selected.filter (·.key = key)).maxOn? (·.executedAt)

inductive ChangeType
  | unchanged
  | added
  | removed
  | modified
  deriving DecidableEq

structure Comparison where
  changes : List (Key × Option String × Option String × ChangeType)
  unchanged : List (Key × Option String × Option String × ChangeType)
  totalKeysA : ℕ
  totalKeysB : ℕ

/-- Two answers agree, if both are given. -/
def Agree {α : Type} (x y : Option α) : Prop := ∀ a ∈ x, ∀ b ∈ y, a = b

variable {env} {ts ts' : String}

/-! ### The same times give the same results -/

section

variable {α β : Type} {x y : Option α}

theorem Agree.refl (x : Option α) : Agree x x := fun _ ha _ hb => some.inj (ha.symm.trans hb)

theorem Agree.bind {f g : α → Option β} (h : Agree x y) (hf : ∀ a, Agree (f a) (g a)) :
    Agree (x.bind f) (y.bind g) := by
  intro a ha b hb
  obtain ⟨p, hp, ha⟩ := bind_eq_some_iff.1 ha
  obtain ⟨q, hq, hb⟩ := bind_eq_some_iff.1 hb
  obtain rfl := h p hp q hq
  exact hf p a ha b hb

theorem Agree.map (h : Agree x y) (f : α → β) : Agree (x.map f) (y.map f) := by
  intro a ha b hb
  obtain ⟨p, hp, rfl⟩ := map_eq_some_iff.1 ha
  obtain ⟨q, hq, rfl⟩ := map_eq_some_iff.1 hb
  rw [h p hp q hq]

end

/-- A row at an instant. -/
def rowAt (x : ℤ) : ConfigRow := { executedAt := x }

end MonCTL.Results.ConfigHistory
