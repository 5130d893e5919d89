import Mathlib.Tactic.Basic

/-!
# Runs of a Transition System

A system is a partial step function on states, labelled by actions. A run is a series of
steps, each of which the state before it allows. What holds at the start and is kept by the
allowed steps holds after every run; a list of actions that can be replayed is a run.
-/

namespace MonCTL

variable {S A : Type} {step : S → A → Option S} {allowed : S → A → Prop}

/-- The states after the runs from a state. -/
inductive Run (step : S → A → Option S) (allowed : S → A → Prop) (start : S) : S → Prop
  | start : Run step allowed start start
  | step {s s' : S} {a : A} : Run step allowed start s → allowed s a → step s a = some s' →
      Run step allowed start s'

variable {start s : S} {I : S → Prop}

/-- What holds at the start and is kept by every allowed step holds after every run. -/
theorem Run.invariant (h : Run step allowed start s) (hstart : I start)
    (hstep : ∀ {s a s'}, I s → allowed s a → step s a = some s' → I s') : I s := by
  induction h with
  | start => exact hstart
  | step _ hallowed hs ih => exact hstep ih hallowed hs

theorem Run.mono {allowed' : S → A → Prop} (h : Run step allowed start s)
    (hle : ∀ s a, allowed s a → allowed' s a) : Run step allowed' start s := by
  induction h with
  | start => exact .start
  | step _ hallowed hs ih => exact .step ih (hle _ _ hallowed) hs

/-- The state after a list of actions, if each of them is allowed and possible. -/
def replay (step : S → A → Option S) (allowed : S → A → Prop)
    [∀ s a, Decidable (allowed s a)] : S → List A → Option S
  | s, [] => some s
  | s, a :: actions =>
    if allowed s a then (step s a).bind fun s' => replay step allowed s' actions else none

variable {actions : List A}

/-- Replaying actions after a run makes a longer one. -/
theorem Run.replay [∀ s a, Decidable (allowed s a)] {t : S}
    (h : Run step allowed start s) (hreplay : MonCTL.replay step allowed s actions = some t) :
    Run step allowed start t := by
  induction actions generalizing s with
  | nil =>
    cases hreplay
    exact h
  | cons a actions ih =>
    rw [MonCTL.replay] at hreplay
    split at hreplay
    next hallowed =>
      obtain ⟨s', hs, hrest⟩ := Option.bind_eq_some_iff.1 hreplay
      exact ih (.step h hallowed hs) hrest
    · cases hreplay

/-- Actions that can be replayed from the start make a run. -/
theorem run_of_replay [∀ s a, Decidable (allowed s a)]
    (h : replay step allowed start actions = some s) : Run step allowed start s :=
  Run.start.replay h

/-! ### Runs of a total step -/

/-- Something holds of every step that a list of actions makes from a state. -/
def Throughout (next : S → A → S) (P : S → A → Prop) : S → List A → Prop
  | _, [] => True
  | s, a :: actions => P s a ∧ Throughout next P (next s a) actions

instance Throughout.decidable (next : S → A → S) (P : S → A → Prop)
    [∀ s a, Decidable (P s a)] : ∀ s actions, Decidable (Throughout next P s actions)
  | _, [] => isTrue trivial
  | s, a :: actions =>
    have := Throughout.decidable next P (next s a) actions
    inferInstanceAs (Decidable (P s a ∧ Throughout next P (next s a) actions))

variable {next : S → A → S} {P : S → A → Prop}

/-- Where two properties of a step are equivalent throughout, one holds throughout iff the other
does. -/
theorem throughout_congr {D Q : S → A → Prop} (hiff : ∀ s a, D s a → (P s a ↔ Q s a))
    (h : Throughout next D s actions) :
    Throughout next P s actions ↔ Throughout next Q s actions := by
  induction actions generalizing s with
  | nil => exact Iff.rfl
  | cons a actions ih => exact and_congr (hiff s a h.1) (ih h.2)

/-- What an invariant that steps keep gives of a step holds throughout. -/
theorem throughout_of_invariant {D : A → Prop}
    (hstep : ∀ s a, I s → D a → P s a ∧ I (next s a)) (hs : I s)
    (h : ∀ a ∈ actions, D a) : Throughout next P s actions := by
  induction actions generalizing s with
  | nil => exact trivial
  | cons a actions ih =>
    obtain ⟨ha, hrest⟩ := List.forall_mem_cons.1 h
    obtain ⟨hP, hnext⟩ := hstep s a hs ha
    exact ⟨hP, ih hnext hrest⟩

end MonCTL
