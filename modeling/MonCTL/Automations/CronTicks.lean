import Mathlib.Algebra.Order.Group.Int
import Mathlib.Algebra.Ring.Nat
import Mathlib.Data.List.Chain
import Mathlib.Data.List.Count
import MonCTL.Automations.Engine

/-!
# Cron Automations over a Sequence of Ticks

A tick looks at the instant at which a cron expression was last due, and triggers the automation on
its devices if that is at most thirty seconds ago. It keeps no record of the instants it has
handled: only the cooldown holds an automation back that has just run. An exception ends the tick,
whatever automations and devices come after it.

Times are in microseconds here, as the clock of a tick gives them. What the query for the last run
finds is any answer whatever. The instants of an expression, and the last of them before a time, are
those of the cron library: it finds no last one only if there is none in fifty years.
-/

namespace MonCTL.Automations.Cron

open List Option

/-- Microseconds in a second. -/
def second : ℤ := 1000000

/-- The configuration, and the cron library. The primary keys are enforced. -/
structure Setup where
  automations : List Automation
  automations_nodup : (automations.map Automation.id).Nodup
  devices : List Device
  devices_nodup : (devices.map Device.id).Nodup
  /-- Whether the driver returns times without a time zone. -/
  naive : Bool
  /-- The instants of a cron expression. -/
  scheduled : String → ℤ → Prop
  /-- `croniter(expression, now).get_prev`; it raises if there is none. -/
  getPrev : String → ℤ → Option ℤ
  getPrev_some : ∀ e now s, getPrev e now = some s →
    scheduled e s ∧ s < now ∧ ∀ s', scheduled e s' → s' < now → s' ≤ s
  getPrev_none : ∀ e now s, getPrev e now = none → scheduled e s → s < now →
    18250 * 86400 * second ≤ now - s

/-- A tick: its clock, and the last run of each automation on each device that the query finds. -/
structure Tick where
  now : ℤ
  lastRun : Uuid → Uuid → Option ℤ

namespace Setup

variable (c : Setup)

/-- The devices of an automation. -/
def targets (a : Automation) : List Uuid :=
  resolveCronDevices ⟨c.automations, c.automations_nodup, c.devices, fun _ now => now, c.naive⟩ a

/-- Whether an automation is let through on a device. A time without a time zone cannot be
subtracted from one that has one. -/
def verdict (t : Tick) (a : Automation) (device : Uuid) : Verdict :=
  if 0 < a.cooldownSeconds then
    match t.lastRun a.id device with
    | none => .execute
    | some lastRun =>
      if c.naive then .raises
      else if t.now - lastRun < a.cooldownSeconds * second then .skip
      else .execute
  else .execute

/-- The loop over the devices: those that are let through, and whether an exception ends it. -/
def triggerDevices (t : Tick) (a : Automation) : List Uuid → List Uuid × Bool
  | [] => ([], false)
  | device :: devices =>
    match c.verdict t a device with
    | .execute => (device :: (triggerDevices t a devices).1, (triggerDevices t a devices).2)
    | .skip => triggerDevices t a devices
    | .raises => ([], true)

/-- One round of the loop over the automations. -/
def triggerAutomation (t : Tick) (a : Automation) : List Uuid × Bool :=
  match a.cronExpression with
  | none => ([], false)
  | some expression =>
    if expression = "" then ([], false)
    else
      match c.getPrev expression t.now with
      | none => ([], true)
      | some prevFire =>
        if t.now - prevFire > 30 * second then ([], false)
        else c.triggerDevices t a (c.targets a)

/-- The loop over the automations. -/
def triggerAutomations (t : Tick) : List Automation → List (Uuid × Uuid) × Bool
  | [] => ([], false)
  | a :: rest =>
    let triggered := (c.triggerAutomation t a).1.map fun device => (a.id, device)
    if (c.triggerAutomation t a).2 then (triggered, true)
    else (triggered ++ (triggerAutomations t rest).1, (triggerAutomations t rest).2)

/-- The automations a tick looks at. -/
def crons : List Automation :=
  c.automations.filter fun a => a.triggerType = "cron" ∧ a.enabled

/-- `evaluate_cron_triggers`: the automations and devices it triggers, and whether it raises. -/
def evaluateCronTriggers (t : Tick) : List (Uuid × Uuid) × Bool :=
  c.triggerAutomations t c.crons

end Setup

/-! ### What is to hold -/

/-- The ticks of a leader, at most thirty seconds apart. -/
structure Ticks where
  list : List Tick
  paced : list.IsChain fun t t' => t.now ≤ t'.now ∧ t'.now ≤ t.now + 30 * second

/-- The ticks begin before an instant, and go on after it. -/
def Ticks.Cover (ticks : Ticks) (s : ℤ) : Prop :=
  (∃ t ∈ ticks.list, t.now ≤ s) ∧ ∃ t ∈ ticks.list, s < t.now

/-- The cooldown holds an automation back on a device. -/
def Tick.Holds (t : Tick) (a : Automation) (device : Uuid) : Prop :=
  0 < a.cooldownSeconds ∧
    ∃ lastRun ∈ t.lastRun a.id device, t.now - lastRun < a.cooldownSeconds * second

namespace Setup

variable (c : Setup)

/-- The expression of an automation a tick looks at. -/
def Watches (a : Automation) (expression : String) : Prop :=
  a ∈ c.crons ∧ a.cronExpression = some expression ∧ expression ≠ ""

/-- How often an automation is triggered on a device for an instant. -/
def triggers (ticks : Ticks) (a : Automation) (expression : String) (device : Uuid) (s : ℤ) : ℕ :=
  (ticks.list.map fun t =>
    if c.getPrev expression t.now = some s then
      (c.evaluateCronTriggers t).1.count (a.id, device)
    else 0).sum

/-- **Each instant triggers once**: on every device of every automation. -/
def FiresOnce (ticks : Ticks) : Prop :=
  ∀ a expression, c.Watches a expression → ∀ device ∈ c.targets a, ∀ s, c.scheduled expression s →
    ticks.Cover s → c.triggers ticks a expression device s = 1

/-- **No tick raises.** -/
def NeverRaises (ticks : Ticks) : Prop :=
  ∀ t ∈ ticks.list, (c.evaluateCronTriggers t).2 = false

/-! ### When it holds -/

/-- An instant is the last one at a time, and not long ago. -/
def Due (expression : String) (s now : ℤ) : Prop :=
  c.scheduled expression s ∧ s < now ∧ now ≤ s + 30 * second ∧
    ∀ s', c.scheduled expression s' → s < s' → now ≤ s'

/-- **Nothing raises**: each expression has an instant in the past, and where the last one is due,
no run is found for an automation with a cooldown by a driver without time zones. -/
def Answerable (ticks : Ticks) : Prop :=
  ∀ t ∈ ticks.list, ∀ a expression, c.Watches a expression → (c.getPrev expression t.now).isSome ∧
      ∀ s, c.Due expression s t.now → 0 < a.cooldownSeconds → c.naive = true →
        ∀ device ∈ c.targets a, t.lastRun a.id device = none

/-- No other instant comes between an instant and the first tick after it. -/
def NotOvertaken (ticks : Ticks) (expression : String) (s : ℤ) : Prop :=
  ∀ before t after, ticks.list = before ++ t :: after → (∀ t' ∈ before, t'.now ≤ s) → s < t.now →
    ∀ s', c.scheduled expression s' → s < s' → t.now ≤ s'

def LetsThrough (a : Automation) (expression : String) (device : Uuid) (s : ℤ) (t : Tick) : Prop :=
  c.Due expression s t.now ∧ ¬t.Holds a device

/-- **Each instant is let through once**: it is not overtaken, and of the ticks at which it is due
the cooldown does not hold all back, and does not let two through. -/
def OnceLetThrough (ticks : Ticks) : Prop :=
  ∀ a expression, c.Watches a expression → ∀ device ∈ c.targets a, ∀ s, c.scheduled expression s →
    ticks.Cover s → c.NotOvertaken ticks expression s ∧
      ((∃ t ∈ ticks.list, c.Due expression s t.now) →
        ∃ t ∈ ticks.list, c.LetsThrough a expression device s t) ∧
      ticks.list.Pairwise fun t t' => ¬(c.LetsThrough a expression device s t ∧
        c.LetsThrough a expression device s t')

end Setup

/-! ### Sums -/

theorem sum_map_eq_zero_iff {α : Type} {f : α → ℕ} {P : α → Prop} {l : List α}
    (h : ∀ a ∈ l, P a ∧ f a = 1 ∨ ¬P a ∧ f a = 0) : (l.map f).sum = 0 ↔ ∀ a ∈ l, ¬P a := by
  induction l with
  | nil => exact iff_of_true rfl (forall_mem_nil _)
  | cons a l ih =>
    obtain ⟨ha, hl⟩ := List.forall_mem_cons.1 h
    rw [map_cons, sum_cons, forall_mem_cons, ← ih hl]
    rcases ha with ⟨hP, hf⟩ | ⟨hP, hf⟩
    · exact iff_of_false (by omega) fun hboth => hboth.1 hP
    · rw [hf, Nat.zero_add]
      exact ⟨fun hsum => ⟨hP, hsum⟩, fun hboth => hboth.2⟩

theorem sum_map_eq_one_iff {α : Type} {f : α → ℕ} {P : α → Prop} {l : List α}
    (h : ∀ a ∈ l, P a ∧ f a = 1 ∨ ¬P a ∧ f a = 0) :
    (l.map f).sum = 1 ↔ (∃ a ∈ l, P a) ∧ l.Pairwise fun a b => ¬(P a ∧ P b) := by
  induction l with
  | nil => simp only [map_nil, sum_nil, Nat.zero_ne_one, not_mem_nil, false_and,
      exists_false]
  | cons a l ih =>
    obtain ⟨ha, hl⟩ := List.forall_mem_cons.1 h
    rw [map_cons, sum_cons, pairwise_cons]
    rcases ha with ⟨hP, hf⟩ | ⟨hP, hf⟩
    · have hzero := sum_map_eq_zero_iff hl
      rw [hf]
      constructor
      · intro hsum
        have hnone := hzero.1 (by omega)
        refine ⟨⟨a, mem_cons_self, hP⟩, fun b hb hboth => hnone b hb hboth.2, ?_⟩
        exact List.Pairwise.imp_of_mem (fun hb _ _ hboth => hnone _ hb hboth.1)
          (pairwise_of_forall fun _ _ => trivial)
      · rintro ⟨-, hfirst, -⟩
        rw [hzero.2 fun b hb hPb => hfirst b hb ⟨hP, hPb⟩]
    · rw [hf, Nat.zero_add, ih hl]
      constructor
      · rintro ⟨⟨b, hb, hPb⟩, hpairs⟩
        exact ⟨⟨b, mem_cons_of_mem _ hb, hPb⟩, fun _ _ hboth => hP hboth.1, hpairs⟩
      · rintro ⟨⟨b, hb, hPb⟩, -, hpairs⟩
        rcases List.mem_cons.1 hb with rfl | hb
        · exact absurd hPb hP
        · exact ⟨⟨b, hb, hPb⟩, hpairs⟩

/-! ### The ticks around an instant -/

variable {s : ℤ} {t : Tick}

/-- The ticks after a tick that is not after an instant: the first one after the instant comes
within thirty seconds. -/
theorem exists_first_of_isChain {rest : List Tick}
    (hpaced : (t :: rest).IsChain fun t t' => t.now ≤ t'.now ∧ t'.now ≤ t.now + 30 * second)
    (ht : t.now ≤ s) (hafter : ∃ t' ∈ rest, s < t'.now) :
    ∃ before t' after, t :: rest = before ++ t' :: after ∧ (∀ t'' ∈ before, t''.now ≤ s) ∧
      s < t'.now ∧ t'.now ≤ s + 30 * second := by
  induction rest generalizing t with
  | nil =>
    obtain ⟨_, hmem, -⟩ := hafter
    exact absurd hmem not_mem_nil
  | cons t₁ rest ih =>
    obtain ⟨hpair, hrest⟩ := List.isChain_cons_cons.1 hpaced
    by_cases hlt : s < t₁.now
    · refine ⟨[t], t₁, rest, rfl, List.forall_mem_singleton.2 ht, hlt, ?_⟩
      exact hpair.2.trans (Int.add_le_add_right ht _)
    · have hle : t₁.now ≤ s := not_lt.1 hlt
      have hafter' : ∃ t' ∈ rest, s < t'.now := by
        obtain ⟨t', hmem, ht'⟩ := hafter
        rcases List.mem_cons.1 hmem with rfl | hmem
        · exact absurd ht' hlt
        · exact ⟨t', hmem, ht'⟩
      obtain ⟨before, t', after, heq, hbefore, hfirst⟩ := ih hrest hle hafter'
      refine ⟨t :: before, t', after, congrArg (t :: ·) heq, ?_, hfirst⟩
      exact List.forall_mem_cons.2 ⟨ht, hbefore⟩

theorem Ticks.ordered (ticks : Ticks) : ticks.list.Pairwise fun t t' => t.now ≤ t'.now :=
  List.isChain_iff_pairwise.1 (ticks.paced.imp fun _ _ hpair => hpair.1)

/-- **A tick comes within thirty seconds** after an instant the ticks cover. -/
theorem Ticks.exists_first_after (ticks : Ticks) (h : ticks.Cover s) :
    ∃ before t after, ticks.list = before ++ t :: after ∧ (∀ t' ∈ before, t'.now ≤ s) ∧
      s < t.now ∧ t.now ≤ s + 30 * second := by
  obtain ⟨⟨t₀, ht₀, hle⟩, t₁, ht₁, hlt⟩ := h
  have hpaced := ticks.paced
  have hordered := ticks.ordered
  cases hlist : ticks.list with
  | nil =>
    rw [hlist] at ht₀
    exact absurd ht₀ not_mem_nil
  | cons t rest =>
    rw [hlist] at ht₀ ht₁ hpaced hordered
    have ht : t.now ≤ s := by
      rcases List.mem_cons.1 ht₀ with rfl | hmem
      · exact hle
      · exact (rel_of_pairwise_cons hordered hmem).trans hle
    have hafter : ∃ t' ∈ rest, s < t'.now := by
      rcases List.mem_cons.1 ht₁ with rfl | hmem
      · exact absurd hlt (not_lt.2 ht)
      · exact ⟨t₁, hmem, hlt⟩
    exact exists_first_of_isChain hpaced ht hafter

variable {expression : String} {a : Automation} {device : Uuid} {ticks : Ticks}

namespace Setup

variable {c : Setup}

theorem due_iff {now : ℤ} :
    c.Due expression s now ↔ c.getPrev expression now = some s ∧ ¬now - s > 30 * second := by
  have hsecond : second = 1000000 := rfl
  constructor
  · rintro ⟨hscheduled, hlt, hle, hlast⟩
    refine ⟨?_, by omega⟩
    cases hprev : c.getPrev expression now with
    | none =>
      have hold := c.getPrev_none expression now s hprev hscheduled hlt
      omega
    | some p =>
      obtain ⟨hp, hpnow, hgreatest⟩ := c.getPrev_some expression now p hprev
      have hsp := hgreatest s hscheduled hlt
      rcases hsp.lt_or_eq with hlt' | rfl
      · exact absurd (hlast p hp hlt') (not_le.2 hpnow)
      · rfl
  · rintro ⟨hprev, hle⟩
    obtain ⟨hscheduled, hlt, hgreatest⟩ := c.getPrev_some expression now s hprev
    refine ⟨hscheduled, hlt, by omega, fun s' hs' hafter => ?_⟩
    exact not_lt.1 fun hbefore => absurd (hgreatest s' hs' hbefore) (not_le.2 hafter)

/-! ### One device -/

theorem verdict_eq_raises : c.verdict t a device = .raises ↔
      0 < a.cooldownSeconds ∧ c.naive = true ∧ t.lastRun a.id device ≠ none := by
  rw [verdict]
  split
  next hcooldown =>
    cases t.lastRun a.id device with
    | none => exact iff_of_false Verdict.noConfusion fun h => h.2.2 rfl
    | some lastRun =>
      dsimp only
      split
      next hnaive => exact iff_of_true rfl ⟨hcooldown, hnaive, some_ne_none _⟩
      next hnaive =>
        refine iff_of_false ?_ fun h => hnaive h.2.1
        split <;> exact Verdict.noConfusion
  next hcooldown => exact iff_of_false (by decide) fun h => hcooldown h.1

theorem verdict_eq_execute (h : c.verdict t a device ≠ .raises) :
    c.verdict t a device = .execute ↔ ¬t.Holds a device := by
  have hraises : ¬(0 < a.cooldownSeconds ∧ c.naive = true ∧ t.lastRun a.id device ≠ none) :=
    fun hraises => h (verdict_eq_raises.2 hraises)
  rw [verdict, Tick.Holds]
  split
  next hcooldown =>
    cases hlast : t.lastRun a.id device with
    | none => exact iff_of_true rfl fun hholds => by simp only [Option.mem_def, reduceCtorEq,
        false_and, exists_false, and_false] at hholds
    | some lastRun =>
      have hnaive : ¬c.naive = true := fun hnaive =>
        hraises ⟨hcooldown, hnaive, hlast ▸ some_ne_none _⟩
      dsimp only
      rw [if_neg hnaive]
      split
      next hlt => exact iff_of_false (by decide) fun hnot => hnot ⟨hcooldown, lastRun, rfl, hlt⟩
      next hge =>
        refine iff_of_true rfl fun hholds => ?_
        obtain ⟨-, lastRun', hsame, hlt⟩ := hholds
        cases hsame
        exact hge hlt
  next hcooldown => exact iff_of_true rfl fun hholds => hcooldown hholds.1

theorem triggerDevices_snd (devices : List Uuid) : (c.triggerDevices t a devices).2 = true ↔
      ∃ device ∈ devices, c.verdict t a device = .raises := by
  induction devices with
  | nil => simp only [triggerDevices, Bool.false_eq_true, not_mem_nil, false_and, exists_false]
  | cons device devices ih =>
    rw [triggerDevices, exists_mem_cons_iff]
    cases hverdict : c.verdict t a device with
    | execute => simp only [reduceCtorEq, false_or, ih]
    | skip => simp only [reduceCtorEq, false_or, ih]
    | raises => simp only [true_or]

theorem triggerDevices_fst {devices : List Uuid} (h : (c.triggerDevices t a devices).2 = false) :
    (c.triggerDevices t a devices).1 =
      devices.filter fun device => c.verdict t a device = .execute := by
  induction devices with
  | nil => rfl
  | cons device devices ih =>
    rw [triggerDevices] at h ⊢
    cases hverdict : c.verdict t a device with
    | execute =>
      rw [hverdict] at h
      rw [filter_cons_of_pos (by rw [hverdict]; rfl)]
      exact congrArg (device :: ·) (ih h)
    | skip =>
      rw [hverdict] at h
      rw [filter_cons_of_neg (by rw [hverdict]; decide)]
      exact ih h
    | raises =>
      rw [hverdict] at h
      cases h

/-! ### One tick -/

/-- A round raises exactly if there is no last instant, or the last one is due and the loop over the
devices raises. -/
theorem triggerAutomation_snd : (c.triggerAutomation t a).2 = true ↔
      ∃ expression, a.cronExpression = some expression ∧ expression ≠ "" ∧
        (c.getPrev expression t.now = none ∨ ∃ s, c.Due expression s t.now ∧
          ∃ device ∈ c.targets a, c.verdict t a device = .raises) := by
  rw [triggerAutomation]
  cases a.cronExpression with
  | none => simp only [Bool.false_eq_true, reduceCtorEq, false_and, exists_false]
  | some expression =>
    dsimp only
    split
    next hempty =>
      refine iff_of_false Bool.false_ne_true ?_
      rintro ⟨_, h, hne, -⟩
      cases h
      exact hne hempty
    next hne =>
      have hexists : (∃ e, some expression = some e ∧ e ≠ "" ∧ (c.getPrev e t.now = none ∨
          ∃ s, c.Due e s t.now ∧ ∃ device ∈ c.targets a, c.verdict t a device = .raises)) ↔
          (c.getPrev expression t.now = none ∨ ∃ s, c.Due expression s t.now ∧
            ∃ device ∈ c.targets a, c.verdict t a device = .raises) := by
        constructor
        · rintro ⟨_, h, -, hrest⟩
          cases h
          exact hrest
        · exact fun hrest => ⟨expression, rfl, hne, hrest⟩
      rw [hexists]
      simp only [due_iff]
      cases c.getPrev expression t.now with
      | none => exact iff_of_true rfl (.inl rfl)
      | some p =>
        dsimp only
        split
        next hold =>
          refine iff_of_false Bool.false_ne_true ?_
          rintro (h | ⟨s, ⟨hs, hrecent⟩, -⟩)
          · cases h
          · cases hs
            exact hrecent hold
        next hrecent =>
          rw [triggerDevices_snd]
          constructor
          · exact fun h => .inr ⟨p, ⟨rfl, hrecent⟩, h⟩
          · rintro (h | ⟨s, -, h⟩)
            · cases h
            · exact h

/-- If a round does not raise, it triggers the devices that are let through at a tick at which an
instant is due. -/
theorem mem_triggerAutomation_fst
    (hexpression : a.cronExpression = some expression) (hne : expression ≠ "")
    (h : (c.triggerAutomation t a).2 = false)
    (hprev : c.getPrev expression t.now = some s) (hdevice : device ∈ c.targets a) :
    (device ∈ (c.triggerAutomation t a).1 ↔ c.LetsThrough a expression device s t) ∧
      ((c.targets a).Nodup → (c.triggerAutomation t a).1.Nodup) := by
  rw [LetsThrough, due_iff]
  rw [triggerAutomation, hexpression] at h ⊢
  simp only [if_neg hne, hprev] at h ⊢
  by_cases hold : t.now - s > 30 * second
  · simp only [if_pos hold]
    exact ⟨iff_of_false not_mem_nil fun hlets => hlets.1.2 hold, fun _ => nodup_nil⟩
  · simp only [if_neg hold] at h ⊢
    have hverdict : c.verdict t a device ≠ .raises := fun hraises =>
      absurd (triggerDevices_snd (c.targets a) |>.2 ⟨device, hdevice, hraises⟩)
        (by rw [h]; exact Bool.false_ne_true)
    rw [triggerDevices_fst h]
    refine ⟨?_, fun hnodup => hnodup.filter _⟩
    rw [mem_filter, decide_eq_true_iff, verdict_eq_execute hverdict]
    exact ⟨fun hmem => ⟨⟨trivial, hold⟩, hmem.2⟩, fun hlets => ⟨hdevice, hlets.2⟩⟩

theorem triggerAutomations_snd (automations : List Automation) :
    (c.triggerAutomations t automations).2 = true ↔
      ∃ a ∈ automations, (c.triggerAutomation t a).2 = true := by
  induction automations with
  | nil => simp only [triggerAutomations, Bool.false_eq_true, not_mem_nil, false_and, exists_false]
  | cons a automations ih =>
    rw [triggerAutomations, exists_mem_cons_iff]
    split
    next hraises => exact iff_of_true rfl (.inl hraises)
    next hgoes => rw [or_iff_right hgoes, ih]

theorem count_triggerAutomations {automations : List Automation}
    (hnodup : (automations.map Automation.id).Nodup)
    (h : (c.triggerAutomations t automations).2 = false) (ha : a ∈ automations)
    (device : Uuid) : (c.triggerAutomations t automations).1.count (a.id, device) =
      (c.triggerAutomation t a).1.count device := by
  have hother : ∀ {b : Automation}, b.id ≠ a.id →
      ((c.triggerAutomation t b).1.map fun d => (b.id, d)).count (a.id, device) = 0 := by
    intro b hb
    refine List.count_eq_zero.2 fun hmem => ?_
    obtain ⟨d, -, heq⟩ := List.mem_map.1 hmem
    exact hb (Prod.mk.inj heq).1
  have hnone : ∀ {l : List Automation}, (c.triggerAutomations t l).2 = false →
      a.id ∉ l.map Automation.id → (c.triggerAutomations t l).1.count (a.id, device) = 0 := by
    intro l
    induction l with
    | nil => exact fun _ _ => rfl
    | cons b l ih =>
      intro hl hid
      rw [map_cons, mem_cons, not_or] at hid
      rw [triggerAutomations] at hl ⊢
      split at hl
      · cases hl
      next hgoes => rw [if_neg hgoes, count_append, hother (Ne.symm hid.1), ih hl hid.2]
  induction automations with
  | nil => exact absurd ha not_mem_nil
  | cons b automations ih =>
    rw [map_cons, nodup_cons] at hnodup
    rw [triggerAutomations] at h ⊢
    split at h
    · cases h
    next hgoes =>
      rw [if_neg hgoes, count_append]
      rcases List.mem_cons.1 ha with rfl | ha
      · have hinjective : Function.Injective fun d : Uuid => (a.id, d) :=
          fun _ _ heq => (Prod.mk.inj heq).2
        rw [count_map_of_injective _ _ hinjective, hnone h hnodup.1, Nat.add_zero]
      · have hne : b.id ≠ a.id := fun heq =>
          hnodup.1 (heq ▸ mem_map_of_mem ha)
        rw [hother hne, ih hnodup.2 h ha, Nat.zero_add]

theorem nodup_crons (c : Setup) : (c.crons.map Automation.id).Nodup :=
  c.automations_nodup.sublist (List.filter_sublist.map _)

theorem nodup_targets (c : Setup) (a : Automation) : (c.targets a).Nodup := by
  rw [targets, resolveCronDevices]
  split
  · exact c.devices_nodup.sublist (List.filter_sublist.map _)
  · split
    · exact c.devices_nodup.sublist (List.filter_sublist.map _)
    · exact nodup_nil

/-- **What raises in a tick**: an expression without a last instant, or a check where one is due. -/
theorem raised_iff : (c.evaluateCronTriggers t).2 = true ↔ ∃ a expression, c.Watches a expression ∧
      (c.getPrev expression t.now = none ∨ ∃ s, c.Due expression s t.now ∧ ∃ device ∈ c.targets a,
          0 < a.cooldownSeconds ∧ c.naive = true ∧ t.lastRun a.id device ≠ none) := by
  rw [evaluateCronTriggers, triggerAutomations_snd]
  simp only [triggerAutomation_snd, verdict_eq_raises, Watches, and_assoc, exists_and_left]

/-- **What a tick triggers**: if it does not raise, an automation once on each device that is let
through where an instant is due. -/
theorem count_evaluateCronTriggers (h : (c.evaluateCronTriggers t).2 = false)
    (hwatches : c.Watches a expression)
    (hdevice : device ∈ c.targets a) (hprev : c.getPrev expression t.now = some s) :
    c.LetsThrough a expression device s t ∧ (c.evaluateCronTriggers t).1.count (a.id, device) = 1 ∨
      ¬c.LetsThrough a expression device s t ∧
        (c.evaluateCronTriggers t).1.count (a.id, device) = 0 := by
  obtain ⟨ha, hexpression, hne⟩ := hwatches
  have hround : (c.triggerAutomation t a).2 = false := by
    refine Bool.eq_false_iff.2 fun hraises => ?_
    have hraised := (triggerAutomations_snd c.crons).2 ⟨a, ha, hraises⟩
    rw [evaluateCronTriggers] at h
    exact absurd (h.symm.trans hraised) Bool.false_ne_true
  obtain ⟨hmem, hnodup⟩ := mem_triggerAutomation_fst hexpression hne hround hprev hdevice
  rw [evaluateCronTriggers, count_triggerAutomations c.nodup_crons h ha,
    (hnodup (c.nodup_targets a)).count]
  by_cases hlets : c.LetsThrough a expression device s t
  · exact .inl ⟨hlets, if_pos (hmem.2 hlets)⟩
  · exact .inr ⟨hlets, if_neg (mt hmem.1 hlets)⟩

/-! ### The ticks together -/

/-- **No tick raises** exactly under the condition. -/
theorem neverRaises_iff : c.NeverRaises ticks ↔ c.Answerable ticks := by
  refine forall₂_congr fun t _ => ?_
  rw [← Bool.not_eq_true, raised_iff]
  constructor
  · intro h a expression hwatches
    refine ⟨isSome_iff_ne_none.2 fun hnone => h ⟨a, expression, hwatches, .inl hnone⟩, ?_⟩
    intro s hdue hcooldown hnaive device hdevice
    by_contra hrun
    exact h ⟨a, expression, hwatches, .inr ⟨s, hdue, device, hdevice, hcooldown, hnaive, hrun⟩⟩
  · rintro h ⟨a, expression, hwatches, hnone | ⟨s, hdue, device, hdevice, hcooldown, hnaive, hrun⟩⟩
    · exact isSome_iff_ne_none.1 (h a expression hwatches).1 hnone
    · exact hrun ((h a expression hwatches).2 s hdue hcooldown hnaive device hdevice)

/-- An instant is let through at some tick exactly if it is not overtaken, and not held back at all
ticks at which it is due. -/
theorem exists_letsThrough_iff (hscheduled : c.scheduled expression s) (hcover : ticks.Cover s) :
    (∃ t ∈ ticks.list, c.LetsThrough a expression device s t) ↔
      c.NotOvertaken ticks expression s ∧ ((∃ t ∈ ticks.list, c.Due expression s t.now) →
        ∃ t ∈ ticks.list, c.LetsThrough a expression device s t) := by
  constructor
  · rintro ⟨t, ht, hlets⟩
    refine ⟨fun before t₀ after hlist hbefore hfirst s' hs' hlt => ?_, fun _ => ⟨t, ht, hlets⟩⟩
    obtain ⟨⟨-, hafter, -, hlast⟩, -⟩ := hlets
    have hordered := ticks.ordered
    rw [hlist] at ht hordered
    have hle : t₀.now ≤ t.now := by
      rcases List.mem_append.1 ht with hmem | hmem
      · exact absurd (hbefore t hmem) (not_le.2 hafter)
      · rcases List.mem_cons.1 hmem with rfl | hmem
        · exact le_rfl
        · exact rel_of_pairwise_cons (List.pairwise_append.1 hordered).2.1 hmem
    exact hle.trans (hlast s' hs' hlt)
  · rintro ⟨hnot, hsome⟩
    obtain ⟨before, t, after, hlist, hbefore, hfirst, hsoon⟩ := ticks.exists_first_after hcover
    refine hsome ⟨t, ?_, hscheduled, hfirst, hsoon, hnot before t after hlist hbefore hfirst⟩
    rw [hlist]
    exact mem_append_right _ mem_cons_self

/-- **Each instant triggers once** exactly if each is let through once, if no tick raises. -/
theorem firesOnce_iff_of_neverRaises (h : c.NeverRaises ticks) :
    c.FiresOnce ticks ↔ c.OnceLetThrough ticks := by
  refine forall₃_congr fun a expression hwatches => forall₂_congr fun device hdevice =>
    forall₃_congr fun s hscheduled hcover => ?_
  have hcounts : ∀ t ∈ ticks.list, c.LetsThrough a expression device s t ∧
      (if c.getPrev expression t.now = some s then
        (c.evaluateCronTriggers t).1.count (a.id, device) else 0) = 1 ∨
      ¬c.LetsThrough a expression device s t ∧
      (if c.getPrev expression t.now = some s then
        (c.evaluateCronTriggers t).1.count (a.id, device) else 0) = 0 := by
    intro t ht
    by_cases hprev : c.getPrev expression t.now = some s
    · rw [if_pos hprev]
      exact count_evaluateCronTriggers (h t ht) hwatches hdevice hprev
    · exact .inr ⟨fun hlets => hprev (due_iff.1 hlets.1).1, if_neg hprev⟩
  rw [triggers, sum_map_eq_one_iff hcounts]
  exact (and_congr_left' (exists_letsThrough_iff hscheduled hcover)).trans and_assoc

/-- **Cron automations fire once per matching time, and no tick raises**, exactly under the two
conditions. -/
theorem firesOnce_iff (c : Setup) (ticks : Ticks) :
    c.NeverRaises ticks ∧ c.FiresOnce ticks ↔ c.Answerable ticks ∧ c.OnceLetThrough ticks := by
  constructor
  · rintro ⟨hnever, honce⟩
    exact ⟨neverRaises_iff.1 hnever, (firesOnce_iff_of_neverRaises hnever).1 honce⟩
  · rintro ⟨hanswerable, hlets⟩
    have hnever := neverRaises_iff.2 hanswerable
    exact ⟨hnever, (firesOnce_iff_of_neverRaises hnever).2 hlets⟩

end Setup

/-! ### Where it fails -/

/-- One automation on one device, due every so many seconds. -/
def every (seconds : ℕ) (h : 0 < seconds) (cooldownSeconds : ℤ) : Setup where
  automations := [⟨"nightly", "cron", true, cooldownSeconds, [], none, some "expression", [], [],
    ["router"], []⟩]
  automations_nodup := nodup_singleton _
  devices := [⟨"router", []⟩]
  devices_nodup := nodup_singleton _
  naive := true
  scheduled _ s := s % (seconds * second) = 0
  getPrev _ now := some ((now - 1) / (seconds * second) * (seconds * second))
  getPrev_some := by
    intro _ now s hs
    have hpos : (0 : ℤ) < seconds * second := Int.mul_pos (Int.natCast_pos.2 h) (by decide)
    generalize (seconds * second : ℤ) = period at hs hpos ⊢
    cases hs
    refine ⟨Int.mul_emod_left _ _, ?_, fun s' hs' hlt => ?_⟩
    · have := Int.ediv_mul_le (now - 1) hpos.ne'
      omega
    · have hdvd := Int.ediv_mul_cancel (Int.dvd_of_emod_eq_zero hs')
      rw [← hdvd]
      exact Int.mul_le_mul_of_nonneg_right (Int.ediv_le_ediv hpos (by omega)) hpos.le
  getPrev_none := fun _ _ _ h => by cases h

/-- A tick at which the query finds this last run. -/
def tickAt (seconds : ℤ) (lastRun : Option ℤ) : Tick := ⟨seconds * second, fun _ _ => lastRun⟩

/-- Two ticks see the same minute. -/
def crowded : Ticks where
  list := [tickAt 59 none, tickAt 61 none, tickAt 85 none]
  paced := by decide

/-- The automation has run before. -/
def again : Ticks where
  list := [tickAt 59 (some 0), tickAt 61 (some 0)]
  paced := by decide

/-- Three instants lie between two ticks. -/
def sparse : Ticks where
  list := [tickAt 5 none, tickAt 35 none]
  paced := by decide

theorem scheduled_every (seconds : ℕ) (h : 0 < seconds) (cooldownSeconds : ℤ) :
    (every seconds h cooldownSeconds).scheduled "expression" (seconds * second) :=
  Int.emod_self

/-- **An instant triggers twice**, a tick raises, and an instant is missed. -/
theorem not_firesOnce :
    ¬(every 60 (by decide) 0).FiresOnce crowded ∧ ¬(every 60 (by decide) 300).NeverRaises again ∧
      ¬(every 10 (by decide) 0).FiresOnce sparse := by
  refine ⟨fun h => ?_, fun h => ?_, fun h => ?_⟩
  · have honce := h _ _ ⟨mem_cons_self, rfl, by decide⟩ "router" mem_cons_self
      _ (scheduled_every 60 (by decide) 0) ⟨⟨tickAt 59 none, mem_cons_self, by decide⟩, tickAt 85 none,
        mem_of_getLast? rfl, by decide⟩
    exact absurd honce (by decide +kernel)
  · have hnever := h (tickAt 61 (some 0)) (mem_of_getLast? rfl)
    exact absurd hnever (by decide +kernel)
  · have honce := h _ _ ⟨mem_cons_self, rfl, by decide⟩ "router" mem_cons_self
      _ (scheduled_every 10 (by decide) 0) ⟨⟨tickAt 5 none, mem_cons_self, by decide⟩, tickAt 35 none,
        mem_of_getLast? rfl, by decide⟩
    exact absurd honce (by decide +kernel)

end MonCTL.Automations.Cron
