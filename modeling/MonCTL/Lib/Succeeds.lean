import Mathlib.Data.List.Forall2
import MonCTL.Lib.StateExcept

/-!
# When a Fallible Computation Succeeds

`Succeeds x` says that `x` does not raise. For the ways programs are put together there is
an exact condition: a sequence succeeds when its first part does and the rest does on the
value it gives, and a loop over a list when every round does. `RaisesOnly x P` bounds what `x`
may raise.
-/

namespace MonCTL

open List StateExcept

variable {ε α β : Type}

/-- A computation that does not raise. -/
def Succeeds (x : Except ε α) : Prop := ∃ a, x = .ok a

@[simp] theorem succeeds_ok (a : α) : Succeeds (.ok a : Except ε α) := ⟨a, rfl⟩

@[simp] theorem succeeds_pure (a : α) : Succeeds (pure a : Except ε α) := ⟨a, rfl⟩

@[simp] theorem not_succeeds_error (e : ε) : ¬Succeeds (.error e : Except ε α) :=
  fun ⟨_, h⟩ => nomatch h

variable {x : Except ε α}

@[simp] theorem succeeds_ite_error_iff {c : Prop} [Decidable c] {e : ε} :
    Succeeds (if c then x else .error e) ↔ c ∧ Succeeds x := by
  by_cases h : c <;> simp [h]

variable {f : α → Except ε β}

@[simp] theorem ok_bind {a : α} : (.ok a >>= f) = f a := rfl

/-- A sequence succeeds when its first part does and the rest does on its value. -/
theorem succeeds_bind_iff : Succeeds (x >>= f) ↔ ∃ a, x = .ok a ∧ Succeeds (f a) := by
  constructor
  · rintro ⟨b, h⟩
    obtain ⟨a, ha, hb⟩ := bind_eq_ok.1 h
    exact ⟨a, ha, b, hb⟩
  · rintro ⟨a, ha, b, hb⟩
    exact ⟨b, bind_eq_ok.2 ⟨a, ha, hb⟩⟩

theorem succeeds_bind_of_iff {P : Prop} (h : ∀ a, x = .ok a → (Succeeds (f a) ↔ P)) :
    Succeeds (x >>= f) ↔ Succeeds x ∧ P := by
  rw [succeeds_bind_iff]
  constructor
  · rintro ⟨a, ha, hf⟩
    exact ⟨⟨a, ha⟩, (h a ha).1 hf⟩
  · rintro ⟨⟨a, ha⟩, hp⟩
    exact ⟨a, ha, (h a ha).2 hp⟩

@[simp] theorem succeeds_bind_pure_iff {g : α → β} :
    Succeeds (x >>= fun a => pure (g a)) ↔ Succeeds x := by
  rw [succeeds_bind_of_iff (P := True) fun a _ => iff_of_true (succeeds_pure _) trivial, and_true]

/-- A change of the value returned. -/
@[simp] theorem succeeds_map_iff {f : α → β} : Succeeds (f <$> x) ↔ Succeeds x := by
  cases x with
  | error e => exact ⟨fun ⟨_, h⟩ => (nomatch h), fun ⟨_, h⟩ => (nomatch h)⟩
  | ok a => exact ⟨fun _ => ⟨a, rfl⟩, fun _ => ⟨f a, rfl⟩⟩

variable {l : List α}

/-- The values of a loop that succeeds: each is what its round gives. -/
theorem mapM_eq_ok_iff {r : List β} :
    l.mapM f = .ok r ↔ List.Forall₂ (fun a b => f a = .ok b) l r := by
  induction l generalizing r with
  | nil =>
    rw [mapM_nil]
    constructor
    · intro h
      cases h
      exact .nil
    · intro h
      cases h
      rfl
  | cons a l ih =>
    rw [mapM_cons, bind_eq_ok]
    constructor
    · rintro ⟨b, hb, h⟩
      obtain ⟨bs, hbs, hr⟩ := bind_eq_ok.1 h
      cases hr
      exact .cons hb (ih.1 hbs)
    · rintro (_ | ⟨hb, h⟩)
      exact ⟨_, hb, bind_eq_ok.2 ⟨_, ih.2 h, rfl⟩⟩

/-- What a loop that succeeds gives: the values of its rounds. -/
theorem mem_of_mapM_eq_ok {r : List β} (h : l.mapM f = .ok r)
    (b : β) : b ∈ r ↔ ∃ a ∈ l, f a = .ok b := by
  induction mapM_eq_ok_iff.1 h with
  | nil => simp
  | @cons a b' l r hab hrest ih =>
    rw [mem_cons, ih (mapM_eq_ok_iff.2 hrest)]
    constructor
    · rintro (rfl | ⟨a', ha', hb⟩)
      · exact ⟨a, mem_cons_self, hab⟩
      · exact ⟨a', mem_cons_of_mem _ ha', hb⟩
    · rintro ⟨a', ha', hb⟩
      obtain rfl | ha' := List.mem_cons.1 ha'
      · exact .inl (Except.ok.inj (hb.symm.trans hab))
      · exact .inr ⟨a', ha', hb⟩

/-- A loop succeeds when every round does. -/
theorem succeeds_mapM_iff : Succeeds (l.mapM f) ↔ ∀ a ∈ l, Succeeds (f a) := by
  induction l with
  | nil =>
    rw [mapM_nil]
    exact ⟨fun _ _ h => (nomatch h), fun _ => succeeds_pure _⟩
  | cons a l ih =>
    have hrest : ∀ b, f a = .ok b →
        (Succeeds (l.mapM f >>= fun bs => pure (b :: bs)) ↔ ∀ a' ∈ l, Succeeds (f a')) := by
      intro b _
      rw [succeeds_bind_pure_iff, ih]
    rw [mapM_cons, succeeds_bind_of_iff hrest, forall_mem_cons]

/-- A computation that raises nothing but errors of a kind. -/
def RaisesOnly (x : Except ε α) (P : ε → Prop) : Prop := ∀ e, x = .error e → P e

theorem raisesOnly_ok (a : α) (P : ε → Prop) : RaisesOnly (.ok a : Except ε α) P :=
  fun _ h => nomatch h

theorem raisesOnly_pure (a : α) (P : ε → Prop) : RaisesOnly (pure a : Except ε α) P :=
  fun _ h => nomatch h

variable {P : ε → Prop}

theorem raisesOnly_error {e : ε} (h : P e) : RaisesOnly (.error e : Except ε α) P := by
  rintro e' ⟨⟩
  exact h

/-- A sequence raises what its parts raise. -/
theorem RaisesOnly.bind
    (hx : RaisesOnly x P) (hf : ∀ a, RaisesOnly (f a) P) : RaisesOnly (x >>= f) P := by
  intro e h
  cases x with
  | error e' =>
    cases h
    exact hx e rfl
  | ok a => exact hf a e h

theorem RaisesOnly.mono {Q : ε → Prop} (h : RaisesOnly x P)
    (hpq : ∀ e, P e → Q e) : RaisesOnly x Q := fun e he => hpq e (h e he)

theorem RaisesOnly.ite {c : Prop} [Decidable c] {y : Except ε α}
    (hx : RaisesOnly x P) (hy : RaisesOnly y P) : RaisesOnly (if c then x else y) P := by
  split
  · exact hx
  · exact hy

end MonCTL
