import Mathlib.Data.List.Dedup
import Mathlib.Algebra.BigOperators.Ring.List
import Mathlib.Tactic.Ring
import Mathlib.Algebra.Group.Action.Defs
import Mathlib.Tactic.FieldSimp
import Mathlib.Tactic.Linarith

/-!
# Grouped Aggregates

`GROUP BY` splits rows by a key. Aggregating the groups first, and then their aggregates, gives
the same smallest and largest value, sum and count as aggregating the rows at once. The mean of
the groups' means is another matter: every group weighs the same in it, however many rows it has.
-/

namespace MonCTL

open List

variable {α K : Type}

/-! ### Groups -/

section Groups

variable [DecidableEq K] (f : α → K)

/-- `GROUP BY`: the keys that occur, each with its rows. -/
def groupBy (l : List α) : List (K × List α) :=
  (l.map f).dedup.map fun k => (k, l.filter (f · = k))

end Groups

/-! ### Aggregates -/

section Aggregates

variable [LinearOrder α] [Zero α]

/-- `min`. -/
def minOf (l : List α) : α := l.min?.getD 0

/-- `max`. -/
def maxOf (l : List α) : α := l.max?.getD 0

theorem minOf_eq_iff {l : List α} (hl : l ≠ []) {a : α} : minOf l = a ↔ a ∈ l ∧ ∀ b ∈ l, a ≤ b := by
  rw [minOf, ← min?_eq_some_iff]
  cases h : l.min? with
  | none => exact absurd (List.min?_eq_none_iff.1 h) hl
  | some b => simp

theorem maxOf_eq_iff {l : List α} (hl : l ≠ []) {a : α} : maxOf l = a ↔ a ∈ l ∧ ∀ b ∈ l, b ≤ a := by
  rw [maxOf, ← max?_eq_some_iff]
  cases h : l.max? with
  | none => exact absurd (List.max?_eq_none_iff.1 h) hl
  | some b => simp

end Aggregates

variable {l : List α}

/-- `avg`. -/
def avgOf (l : List ℚ) : ℚ := l.sum / l.length

/-- The span of a counter's values: `if(max(x) > min(x), max(x) - min(x), 0)`. -/
def spanOf (l : List ℕ) : ℕ := if maxOf l > minOf l then maxOf l - minOf l else 0

/-- Parts that make up a list, none of them empty. -/
structure Partition (parts : List (List α)) (l : List α) : Prop where
  perm : parts.flatten.Perm l
  nonempty : [] ∉ parts

namespace Partition

variable {parts : List (List α)} {l : List α}

theorem mem_iff (h : Partition parts l) {a : α} : a ∈ l ↔ ∃ p ∈ parts, a ∈ p := by
  rw [← h.perm.mem_iff, mem_flatten]

theorem ne_nil_of_mem (h : Partition parts l) {p : List α} (hp : p ∈ parts) : p ≠ [] :=
  fun heq => h.nonempty (heq ▸ hp)

theorem parts_ne_nil (h : Partition parts l) (hl : l ≠ []) : parts ≠ [] := by
  rintro rfl
  exact hl h.perm.symm.eq_nil

/-- What comes first among the values of the rows, in some order, comes first among those that
come first in the parts. -/
theorem first {β : Type} {r : β → β → Prop} (hr : ∀ a b, r a b → r b a → a = b)
    (h : Partition parts l) {v : α → β} {e : List α → β} {m : β}
    (hpart : ∀ p ∈ parts, e p ∈ p.map v ∧ ∀ b ∈ p.map v, r (e p) b)
    (hall : m ∈ l.map v ∧ ∀ b ∈ l.map v, r m b) : m ∈ parts.map e ∧ ∀ b ∈ parts.map e, r m b := by
  have hmem : ∀ p ∈ parts, e p ∈ l.map v := by
    intro p hp
    obtain ⟨a, ha, heq⟩ := List.mem_map.1 (hpart p hp).1
    exact heq ▸ mem_map_of_mem (h.mem_iff.2 ⟨p, hp, ha⟩)
  constructor
  · obtain ⟨a, ha, rfl⟩ := List.mem_map.1 hall.1
    obtain ⟨p, hp, hap⟩ := h.mem_iff.1 ha
    exact List.mem_map.2 ⟨p, hp, hr _ _ ((hpart p hp).2 _ (mem_map_of_mem hap))
      (hall.2 _ (hmem p hp))⟩
  · intro b hb
    obtain ⟨p, hp, rfl⟩ := List.mem_map.1 hb
    exact hall.2 _ (hmem p hp)

/-- **The smallest of the smallest values is the smallest.** -/
theorem minOf {β : Type} [LinearOrder β] [Zero β] (h : Partition parts l) (hl : l ≠ [])
    (v : α → β) : MonCTL.minOf (parts.map fun p => MonCTL.minOf (p.map v)) =
      MonCTL.minOf (l.map v) :=
  (minOf_eq_iff (by simpa using h.parts_ne_nil hl)).2 (h.first (fun _ _ => le_antisymm)
      (fun _ hp => (minOf_eq_iff (by simpa using h.ne_nil_of_mem hp)).1 rfl)
      ((minOf_eq_iff (by simpa using hl)).1 rfl))

/-- **The largest of the largest values is the largest.** -/
theorem maxOf {β : Type} [LinearOrder β] [Zero β] (h : Partition parts l) (hl : l ≠ [])
    (v : α → β) : MonCTL.maxOf (parts.map fun p => MonCTL.maxOf (p.map v)) =
      MonCTL.maxOf (l.map v) :=
  (maxOf_eq_iff (by simpa using h.parts_ne_nil hl)).2
    (h.first (r := fun a b => b ≤ a) (fun _ _ hab hba => le_antisymm hba hab)
      (fun _ hp => (maxOf_eq_iff (by simpa using h.ne_nil_of_mem hp)).1 rfl)
      ((maxOf_eq_iff (by simpa using hl)).1 rfl))

/-- **The sum of the sums is the sum.** -/
theorem sum {β : Type} [AddCommMonoid β] (h : Partition parts l) (v : α → β) :
    (parts.map fun p => (p.map v).sum).sum = (l.map v).sum := by
  rw [← (h.perm.map v).sum_eq, map_flatten, sum_flatten, map_map]
  rfl

theorem length (h : Partition parts l) : (parts.map List.length).sum = l.length := by
  rw [← h.perm.length_eq, length_flatten]

end Partition

/-! ### Means -/

/-- The sizes of the parts do not go up or down with their means. -/
def Uncorrelated (parts : List (List α)) (v : α → ℚ) : Prop :=
  (parts.map fun p => ((parts.length : ℚ) * p.length - (parts.map List.length).sum) *
    avgOf (p.map v)).sum = 0
  deriving Decidable

/-- The differences between the values of consecutive parts. -/
def gaps : List (List ℕ) → ℕ
  | p :: q :: parts => (minOf q - maxOf p) + gaps (q :: parts)
  | _ => 0

variable {parts : List (List ℕ)}

end MonCTL
