import Mathlib.Order.Lattice
import Mathlib.Data.List.Induction

/-!
# The Best of a List

A search that keeps an element until a later one ranks higher, and that takes none of a rank which
is not over a first one.
-/

namespace MonCTL

variable {α R : Type} [LinearOrder R] (rank : α → R) (start : R)

/-- The best element so far, and the next one. -/
def better (best : Option α) (a : α) : Option α :=
  if (best.map rank).getD start < rank a then some a else best

def bestOf (l : List α) : Option α := l.foldl (better rank start) none

theorem bestOf_concat (l : List α) (a : α) :
    bestOf rank start (l ++ [a]) = better rank start (bestOf rank start l) a := by
  rw [bestOf, List.foldl_append]
  rfl

theorem bestOf_spec (l : List α) : (∀ a ∈ bestOf rank start l, a ∈ l ∧ start < rank a) ∧
      ∀ b ∈ l, rank b ≤ ((bestOf rank start l).map rank).getD start := by
  induction l using List.reverseRecOn with
  | nil =>
    constructor
    · intro a ha
      cases ha
    · intro b hb
      cases hb
  | append_singleton l a ih =>
    obtain ⟨hmem, hle⟩ := ih
    have hstart : start ≤ ((bestOf rank start l).map rank).getD start := by
      cases hbest : bestOf rank start l with
      | none => exact le_rfl
      | some b => exact (hmem b hbest).2.le
    rw [bestOf_concat, better]
    split_ifs with hlt
    · refine ⟨?_, fun b hb => ?_⟩
      · rintro b ⟨⟩
        exact ⟨List.mem_append_right _ List.mem_cons_self, hstart.trans_lt hlt⟩
      · rcases List.mem_append.1 hb with hb | hb
        · exact (hle b hb).trans hlt.le
        · rw [List.mem_singleton.1 hb]
          exact le_rfl
    · refine ⟨fun b hb => ⟨List.mem_append_left _ (hmem b hb).1, (hmem b hb).2⟩, fun b hb => ?_⟩
      rcases List.mem_append.1 hb with hb | hb
      · exact hle b hb
      · rw [List.mem_singleton.1 hb]
        exact not_lt.1 hlt

variable {rank start} {l : List α}

theorem bestOf_eq_none_iff : bestOf rank start l = none ↔ ∀ a ∈ l, rank a ≤ start := by
  obtain ⟨hmem, hle⟩ := bestOf_spec rank start l
  constructor
  · intro h a ha
    rw [h] at hle
    exact hle a ha
  · intro h
    cases hbest : bestOf rank start l with
    | none => rfl
    | some a => exact absurd (h a (hmem a hbest).1) (not_le.2 (hmem a hbest).2)

theorem le_of_bestOf {a b : α} (h : bestOf rank start l = some a) (hb : b ∈ l) :
    rank b ≤ rank a := by
  have hle := (bestOf_spec rank start l).2 b hb
  rwa [h] at hle

end MonCTL
