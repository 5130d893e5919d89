import Mathlib.Order.WellFoundedSet

/-!
# Relations Without Cycles

On a finite set, a relation without cycles can be followed only so often. That gives an
induction: what holds of an element when it holds of all elements the relation leads to holds
of every element. A rank that goes down along the relation shows that it has no cycles.
-/

namespace MonCTL

variable {α : Type} {r : α → α → Prop}

/-- No element leads back to itself. -/
def Acyclic (r : α → α → Prop) : Prop := ∀ x, ¬Relation.TransGen r x x

theorem Acyclic.isStrictOrder (h : Acyclic r) :
    IsStrictOrder α fun x y => Relation.TransGen r y x where
  irrefl := h
  trans := fun _ _ _ hxy hyz => hyz.trans hxy

/-- **Induction along a relation without cycles**, over the elements of a list. -/
theorem Acyclic.induction (h : Acyclic r) {l : List α} {P : α → Prop}
    (hstep : ∀ x ∈ l, (∀ y ∈ l, r x y → P y) → P x) : ∀ x ∈ l, P x := by
  intro x hx
  have hstrict := h.isStrictOrder
  have hwf : {x | x ∈ l}.WellFoundedOn fun x y => Relation.TransGen r y x :=
    (List.finite_toSet l).wellFoundedOn
  refine hwf.induction hx fun y hy ih => hstep y hy fun z hz hyz => ?_
  exact ih z hz (.single hyz)

/-- A rank that goes down along a relation. -/
theorem acyclic_of_rank (rank : α → ℕ) (h : ∀ x y, r x y → rank y < rank x) : Acyclic r := by
  have hlt : ∀ x y, Relation.TransGen r x y → rank y < rank x := by
    intro x y hxy
    induction hxy with
    | single hxy => exact h _ _ hxy
    | tail _ hyz ih => exact (h _ _ hyz).trans ih
  exact fun x hx => (hlt x x hx).false

end MonCTL
