import Mathlib.Tactic.Linarith
import MonCTL.Automations.Engine

/-!
# The Cooldown of Automations

A check lets an automation through when the starts it has found are old enough. It does not find
executions that are still at work, have failed to be recorded, or began more than a day ago, nor
those that were let through after its query. Under the condition that each earlier execution was
found, or had begun long enough before anyway, executions keep the cooldown.
-/

namespace MonCTL.Automations

open List

namespace Engine

variable {cfg : Config}

/-! ### The condition -/

/-- Each execution of the target so far had begun long enough before, or was found. -/
def AllFound (e : Engine) (d : Dispatch) (target : Automation × Uuid) : Prop :=
  ∀ x ∈ e.executions, x.automation.id = target.1.id → x.device = target.2 →
    ∃ s ∈ x.startedAt.toList, s + 1000 * target.1.cooldownSeconds ≤ e.now ∨ s ∈ d.found.getD []
  deriving Decidable

/-- **The condition**: when an automation with a cooldown is let through on a device, each earlier
execution of it there was found, or had begun long enough before. -/
def Informed (cfg : Config) (e : Engine) : Action → Prop
  | .decide i => ∀ d ∈ e.dispatches[i]?, ∀ target ∈ d.targets.head?,
      e.executes cfg d target = true → 0 < target.1.cooldownSeconds → target.2 ≠ "" →
        e.AllFound d target
  | _ => True

instance (cfg : Config) (e : Engine) : ∀ a, Decidable (e.Informed cfg a)
  | .decide i => inferInstanceAs (Decidable (∀ d ∈ e.dispatches[i]?, ∀ target ∈ d.targets.head?,
      e.executes cfg d target = true → 0 < target.1.cooldownSeconds → target.2 ≠ "" →
        e.AllFound d target))
  | .pause _ | .transition _ | .cronTick | .query _ | .queryFails _ | .begin _ | .record _
  | .fail _ => inferInstanceAs (Decidable True)

/-! ### Lists -/

theorem pairwise_set {α : Type} {R : α → α → Prop} {l : List α} (h : l.Pairwise R) {j : ℕ}
    {x x' : α} (hx : l[j]? = some x) (hleft : ∀ y, R x y → R x' y) (hright : ∀ y, R y x → R y x') :
    (l.set j x').Pairwise R := by
  induction l generalizing j with
  | nil => cases hx
  | cons y l ih =>
    obtain ⟨hy, hl⟩ := List.pairwise_cons.1 h
    cases j with
    | zero =>
      cases hx
      exact List.pairwise_cons.2 ⟨fun z hz => hleft z (hy z hz), hl⟩
    | succ j =>
      refine List.pairwise_cons.2 ⟨fun z hz => ?_, ih hl hx⟩
      rcases mem_or_eq_of_mem_set hz with hz | rfl
      · exact hy z hz
      · exact hright y (hy x (mem_of_getElem? hx))

/-! ### The invariant -/

/-- The later of two executions was let through after the earlier one had begun, and when the
cooldown had passed. -/
def SpawnedAfter (x y : Execution) : Prop :=
  x.automation.id = y.automation.id → x.device = y.device → x.device ≠ "" →
    0 < x.automation.cooldownSeconds →
      ∃ s ∈ x.startedAt, s + 1000 * x.automation.cooldownSeconds ≤ y.spawnedAt

/-- Executions are let through far enough apart, and begin after that. -/
structure Inv (cfg : Config) (e : Engine) : Prop where
  targets : ∀ d ∈ e.dispatches, ∀ target ∈ d.targets, target.1 ∈ cfg.automations
  ticks : ∀ d ∈ e.dispatches, ∀ n ∈ d.tickNow, n ≤ e.now
  automations : ∀ x ∈ e.executions, x.automation ∈ cfg.automations
  begun : ∀ x ∈ e.executions, ∀ s ∈ x.startedAt, x.spawnedAt ≤ s
  spawned : ∀ x ∈ e.executions, x.spawnedAt ≤ e.now
  apart : e.executions.Pairwise SpawnedAfter

variable {target : Automation × Uuid}

theorem mem_of_mem_incidentTargets {t : Transition}
    (h : target ∈ incidentTargets cfg t) : target.1 ∈ cfg.automations := by
  obtain ⟨a, ha, rfl⟩ := List.mem_map.1 h
  exact mem_of_mem_filter (mem_of_mem_filter ha)

variable {now : Timestamp}

theorem mem_of_mem_cronTargets (h : target ∈ cronTargets cfg now) : target.1 ∈ cfg.automations := by
  obtain ⟨a, ha, htarget⟩ := List.mem_flatMap.1 h
  have hmem := mem_of_mem_filter ha
  split at htarget
  · cases htarget
  · split at htarget
    · cases htarget
    · obtain ⟨device, -, rfl⟩ := List.mem_map.1 htarget
      exact hmem

theorem le_now_of_execute {d : Dispatch} {a : Automation} {found : List Timestamp}
    (htick : ∀ n ∈ d.tickNow, n ≤ now) (h : d.verdict cfg now a found = .execute) {s : Timestamp}
    (hs : s ∈ found) : s + 1000 * a.cooldownSeconds ≤ now := by
  obtain ⟨m, hmax⟩ : ∃ m, found.max? = some m := Option.isSome_iff_exists.1 (isSome_max?_of_mem hs)
  have hle : s ≤ m := (List.max?_eq_some_iff.1 hmax).2 s hs
  rw [Dispatch.verdict, hmax] at h
  cases htickNow : d.tickNow with
  | none =>
    simp only [htickNow] at h
    split at h
    · cases h
    next helapsed => linarith
  | some tickNow =>
    have htick := htick tickNow htickNow
    simp only [htickNow] at h
    split at h
    · cases h
    · split at h
      · cases h
      next helapsed => linarith

namespace Inv

variable {e : Engine} {i : ℕ} {d : Dispatch}

theorem putDispatch (h : Inv cfg e) {d' : Dispatch} (hd : e.dispatches[i]? = some d)
    (htick : d'.tickNow = d.tickNow) (htargets : d'.targets ⊆ d.targets) :
    Inv cfg (e.putDispatch i d') := by
  have hmem := mem_of_getElem? hd
  refine ⟨fun d'' hd'' => ?_, fun d'' hd'' => ?_, h.automations, h.begun, h.spawned, h.apart⟩
  · rcases mem_or_eq_of_mem_set hd'' with hd'' | rfl
    · exact h.targets d'' hd''
    · exact fun target htarget => h.targets d hmem target (htargets htarget)
  · rcases mem_or_eq_of_mem_set hd'' with hd'' | rfl
    · exact h.ticks d'' hd''
    · rw [htick]
      exact h.ticks d hmem

theorem addDispatch (h : Inv cfg e) (htick : ∀ n ∈ d.tickNow, n ≤ e.now)
    (htargets : ∀ target ∈ d.targets, target.1 ∈ cfg.automations) :
    Inv cfg { e with dispatches := e.dispatches ++ [d] } := by
  refine ⟨fun d' hd' => ?_, fun d' hd' => ?_, h.automations, h.begun, h.spawned, h.apart⟩
  · rcases List.mem_append.1 hd' with hd' | hd'
    · exact h.targets d' hd'
    · exact List.mem_singleton.1 hd' ▸ htargets
  · rcases List.mem_append.1 hd' with hd' | hd'
    · exact h.ticks d' hd'
    · exact List.mem_singleton.1 hd' ▸ htick

variable {target : Automation × Uuid}

theorem spawn (h : Inv cfg e) (htarget : target.1 ∈ cfg.automations)
    (hold : 0 < target.1.cooldownSeconds → target.2 ≠ "" → ∀ x ∈ e.executions,
      x.automation.id = target.1.id → x.device = target.2 →
        ∃ s ∈ x.startedAt, s + 1000 * target.1.cooldownSeconds ≤ e.now) :
    Inv cfg (e.spawn target) := by
  refine ⟨h.targets, h.ticks, fun x hx => ?_, fun x hx => ?_, fun x hx => ?_, ?_⟩
  · rcases List.mem_append.1 hx with hx | hx
    · exact h.automations x hx
    · exact List.mem_singleton.1 hx ▸ htarget
  · rcases List.mem_append.1 hx with hx | hx
    · exact h.begun x hx
    · rw [List.mem_singleton.1 hx]
      exact fun s hs => absurd hs (by simp)
  · rcases List.mem_append.1 hx with hx | hx
    · exact h.spawned x hx
    · rw [List.mem_singleton.1 hx]
      exact le_refl e.now
  · refine List.pairwise_append.2 ⟨h.apart, pairwise_singleton _ _, fun x hx y hy => ?_⟩
    rw [List.mem_singleton.1 hy]
    intro hid hdevice hne hpos
    have hautomation : x.automation = target.1 :=
      inj_on_of_nodup_map cfg.automations_nodup (h.automations x hx) htarget hid
    rw [hautomation] at hpos ⊢
    have hdevice' : x.device = target.2 := hdevice
    exact hold hpos (hdevice' ▸ hne) x hx hid hdevice'

theorem putExecution (h : Inv cfg e) {j : ℕ} {x x' : Execution} (hx : e.executions[j]? = some x)
    (hautomation : x'.automation = x.automation) (hdevice : x'.device = x.device)
    (hspawned : x'.spawnedAt = x.spawnedAt) (hstarted : ∀ s ∈ x.startedAt, s ∈ x'.startedAt)
    (hbegun : ∀ s ∈ x'.startedAt, x.spawnedAt ≤ s) : Inv cfg (e.putExecution j x') := by
  have hmem := mem_of_getElem? hx
  refine ⟨h.targets, h.ticks, fun y hy => ?_, fun y hy => ?_, fun y hy => ?_, ?_⟩
  · rcases mem_or_eq_of_mem_set hy with hy | rfl
    · exact h.automations y hy
    · rw [hautomation]
      exact h.automations x hmem
  · rcases mem_or_eq_of_mem_set hy with hy | rfl
    · exact h.begun y hy
    · rw [hspawned]
      exact hbegun
  · rcases mem_or_eq_of_mem_set hy with hy | rfl
    · exact h.spawned y hy
    · rw [hspawned]
      exact h.spawned x hmem
  · refine pairwise_set h.apart hx (fun y hxy => ?_) fun y hyx => ?_
    · rw [SpawnedAfter, hautomation, hdevice]
      intro hid hdev hne hpos
      obtain ⟨s, hs, hle⟩ := hxy hid hdev hne hpos
      exact ⟨s, hstarted s hs, hle⟩
    · rw [SpawnedAfter, hautomation, hdevice, hspawned]
      exact hyx

variable {e' : Engine}

theorem decideTarget (h : Inv cfg e)
    {targets : List (Automation × Uuid)} (hd : e.dispatches[i]? = some d)
    (htargets : d.targets = target :: targets)
    (hinformed : e.executes cfg d target = true → 0 < target.1.cooldownSeconds → target.2 ≠ "" →
      e.AllFound d target)
    (hstep : e.decideTarget cfg i d target targets = some e') : Inv cfg e' := by
  have hmem := mem_of_getElem? hd
  have hsub : targets ⊆ d.targets := htargets ▸ subset_cons_self target targets
  have hnext : Inv cfg (e.putDispatch i { d with targets, found := none }) :=
    h.putDispatch hd rfl hsub
  have htarget : target.1 ∈ cfg.automations := h.targets d hmem target (htargets ▸ mem_cons_self)
  rw [Engine.decideTarget] at hstep
  by_cases hchecks : d.checks target = true
  · simp only [if_pos hchecks] at hstep
    cases hfound : d.found with
    | none =>
      simp only [hfound] at hstep
      cases hstep
    | some found =>
      simp only [hfound] at hstep
      cases hverdict : d.verdict cfg e.now target.1 found with
      | raises =>
        simp only [hverdict] at hstep
        cases hstep
        exact h.putDispatch hd rfl (nil_subset _)
      | skip =>
        simp only [hverdict] at hstep
        cases hstep
        exact hnext
      | execute =>
        simp only [hverdict] at hstep
        cases hstep
        refine hnext.spawn htarget fun hpos hne x hx hid hdevice => ?_
        have hexecutes : e.executes cfg d target = true := by
          rw [executes, if_pos hchecks, hfound]
          simp [hverdict]
        obtain ⟨s, hs, hle | hs'⟩ := hinformed hexecutes hpos hne x hx hid hdevice
        · exact ⟨s, Option.mem_toList.1 hs, hle⟩
        · rw [hfound] at hs'
          exact ⟨s, Option.mem_toList.1 hs, le_now_of_execute (h.ticks d hmem) hverdict hs'⟩
  · simp only [if_neg hchecks] at hstep
    cases hstep
    refine hnext.spawn htarget fun hpos hne x hx hid hdevice => ?_
    exact absurd (by simp [Dispatch.checks, hpos, hne]) hchecks

theorem step (h : Inv cfg e) {a : Action} (ha : e.Informed cfg a)
    (hstep : e.step cfg a = some e') : Inv cfg e' := by
  cases a with
  | pause milliseconds =>
    cases hstep
    have hle : e.now ≤ e.now + (milliseconds : Int) := Int.le_add_of_nonneg_right (by simp)
    exact ⟨h.targets, fun d hd n hn => (h.ticks d hd n hn).trans hle, h.automations, h.begun,
      fun x hx => (h.spawned x hx).trans hle, h.apart⟩
  | transition t =>
    cases hstep
    exact h.addDispatch (by simp) fun target htarget => mem_of_mem_incidentTargets htarget
  | cronTick =>
    cases hstep
    refine h.addDispatch (fun n hn => ?_) fun target htarget => mem_of_mem_cronTargets htarget
    cases hn
    exact le_refl e.now
  | query i =>
    rw [Engine.step] at hstep
    split at hstep
    next tickNow target targets hd =>
      cases hstep
      exact h.putDispatch hd rfl (List.Subset.refl _)
    · cases hstep
  | queryFails i =>
    rw [Engine.step] at hstep
    split at hstep
    next tickNow targets hd =>
      cases hstep
      exact h.putDispatch hd rfl (nil_subset _)
    · cases hstep
  | decide i =>
    rw [Engine.step] at hstep
    split at hstep
    next tickNow target targets found hd => exact h.decideTarget hd rfl (ha _ hd target rfl) hstep
    · cases hstep
  | begin j =>
    rw [Engine.step] at hstep
    split at hstep
    next x hx =>
      split at hstep
      next hnone =>
        cases hstep
        refine h.putExecution hx rfl rfl rfl (fun s hs => ?_) fun s hs => ?_
        · rw [hnone] at hs
          cases hs
        · cases hs
          exact h.spawned x (mem_of_getElem? hx)
      · cases hstep
    · cases hstep
  | record j =>
    rw [Engine.step] at hstep
    split at hstep
    next automation device spawnedAt startedAt hx =>
      cases hstep
      have hbegun := h.begun _ (mem_of_getElem? hx)
      have hput : Inv cfg (e.putExecution j
          ⟨automation, device, spawnedAt, some startedAt, true⟩) :=
        h.putExecution hx rfl rfl rfl (fun s hs => hs) hbegun
      exact ⟨hput.targets, hput.ticks, hput.automations, hput.begun, hput.spawned, hput.apart⟩
    · cases hstep
  | fail j =>
    rw [Engine.step] at hstep
    split at hstep
    next automation device spawnedAt startedAt hx =>
      cases hstep
      have hbegun := h.begun _ (mem_of_getElem? hx)
      exact h.putExecution hx rfl rfl rfl (fun s hs => hs) hbegun
    · cases hstep

end Inv

/-! ### Runs -/

/-- An automation that runs when an incident is opened or escalates, for every rule. -/
def restart : Automation := { id := "restart", triggerType := "incident" }

/-- A transition of an incident of the device. -/
def opened (ruleId : Uuid) : Transition := ⟨ruleId, "opened", "d1", []⟩

/-- Five minutes after the first run, which has been recorded, there is another one. -/
def later : List Action :=
  [.transition (opened "cpu"), .query 0, .decide 0, .begin 0, .record 0, .pause 60000,
    .transition (opened "memory"), .query 1, .decide 1, .pause 240000, .transition (opened "disk"),
    .query 2, .decide 2, .begin 1]

end Engine

end MonCTL.Automations
