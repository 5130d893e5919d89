import Mathlib.Tactic.Basic

/-!
# Successful Runs of Stateful, Fallible Programs

A program over `StateT σ (Except ε)` either fails or ends in a result and a state. The
lemmas here take a successful run apart: a sequence succeeds exactly when its parts do,
one after the other, and the primitive steps succeed in the one way they can. Together
they turn the definition of a `do` block into the facts its success implies, without
unfolding the monad.
-/

namespace MonCTL.StateExcept

variable {σ ε α β : Type}

/-- A successful computation followed by another. -/
theorem bind_eq_ok {x : Except ε α} {f : α → Except ε β} {b : β} :
    x >>= f = .ok b ↔ ∃ a, x = .ok a ∧ f a = .ok b := by
  cases x with
  | error e => simp [bind, Except.bind]
  | ok a => simp [bind, Except.bind]

variable {s : σ}

/-- A sequence succeeds exactly when its first part does and the rest does from the state
reached. -/
@[simp] theorem run_bind_eq_ok {x : StateT σ (Except ε) α} {f : α → StateT σ (Except ε) β}
    {r : β × σ} :
    (x >>= f).run s = .ok r ↔ ∃ a s', x.run s = .ok (a, s') ∧ (f a).run s' = .ok r := by
  rw [StateT.run_bind, bind_eq_ok]
  exact Prod.exists

variable {r : α × σ}

@[simp] theorem run_pure_eq_ok {a : α} :
    (pure a : StateT σ (Except ε) α).run s = .ok r ↔ r = (a, s) := by
  rw [StateT.run_pure]
  exact ⟨fun h => (Except.ok.inj h).symm, fun h => h ▸ rfl⟩

@[simp] theorem run_get_eq_ok {r : σ × σ} :
    (get : StateT σ (Except ε) σ).run s = .ok r ↔ r = (s, s) := by
  rw [StateT.run_get]
  exact ⟨fun h => (Except.ok.inj h).symm, fun h => h ▸ rfl⟩

@[simp] theorem run_modify_eq_ok {g : σ → σ} {r : PUnit × σ} :
    (modify g : StateT σ (Except ε) PUnit).run s = .ok r ↔ r = (⟨⟩, g s) := by
  rw [StateT.run_modify]
  exact ⟨fun h => (Except.ok.inj h).symm, fun h => h ▸ rfl⟩

/-- A program that throws does not succeed. -/
@[simp] theorem run_throw_eq_ok {e : ε} :
    (throw e : StateT σ (Except ε) α).run s = .ok r ↔ False := by
  simp only [iff_false]
  exact fun h => nomatch h

/-- A conditional succeeds as the branch taken does. -/
theorem run_ite_eq_ok {c : Prop} [Decidable c] {x y : StateT σ (Except ε) α} :
    (if c then x else y).run s = .ok r ↔ (c ∧ x.run s = .ok r) ∨ (¬c ∧ y.run s = .ok r) := by
  by_cases h : c <;> simp [h]

end MonCTL.StateExcept
