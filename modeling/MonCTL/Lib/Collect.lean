import Mathlib.Algebra.Order.Group.Multiset
import MonCTL.Lib.Dict

/-!
# What a Dictionary Holds

Where each value of a dictionary holds some items, the dictionary holds their sum. Removing a
key takes away what its value holds, and a write puts what the new value holds in its place; so
whatever is moved between dictionaries is neither lost nor duplicated.
-/

namespace MonCTL.Dict

open List

variable {K V β : Type} [DecidableEq K]

/-- The dictionary without a key. -/
def erase (d : Dict K V) (k : K) : Dict K V := d.filter fun e => e.1 ≠ k

theorem get?_erase (d : Dict K V) (k k' : K) :
    (d.erase k).get? k' = if k' = k then none else d.get? k' :=
  lookup_filter_ne d k k'

@[simp] theorem get?_erase_self (d : Dict K V) (k : K) : (d.erase k).get? k = none := by
  rw [get?_erase, if_pos rfl]

variable {k : K}

theorem get?_erase_ne (d : Dict K V) {k' : K} (h : k' ≠ k) : (d.erase k).get? k' = d.get? k' := by
  rw [get?_erase, if_neg h]

@[simp] theorem get?_set_self (d : Dict K V) (k : K) (v : V) : (d.set k v).get? k = some v :=
  lookup_set_self d k v

theorem get?_set_ne (d : Dict K V) {k' : K} (h : k' ≠ k) (v : V) :
    (d.set k v).get? k' = d.get? k' :=
  lookup_set_ne h d v

variable {d : Dict K V}

theorem nodup_keys_erase (h : d.keys.Nodup) (k : K) : (d.erase k).keys.Nodup :=
  h.sublist (List.filter_sublist.map _)

theorem erase_of_notMem (h : k ∉ d.keys) : d.erase k = d := by
  refine List.filter_eq_self.2 fun e he => ?_
  simpa using fun heq : e.1 = k => h (heq ▸ mem_map_of_mem he)

theorem erase_of_get?_eq_none (h : d.get? k = none) : d.erase k = d := by
  refine erase_of_notMem fun hk => ?_
  have hsome := (mem_keys_iff d k).1 hk
  rw [← get?, h] at hsome
  cases hsome

/-! ### Items -/

/-- The items that the values hold. -/
def collect (items : V → List β) (d : Dict K V) : Multiset β := d.flatMap fun e => items e.2

variable (items : V → List β)

omit [DecidableEq K] in
@[simp] theorem collect_nil : collect items ([] : Dict K V) = 0 := rfl

omit [DecidableEq K] in
@[simp] theorem collect_cons (e : K × V) (d : Dict K V) :
    collect items (e :: d) = items e.2 + collect items d := by
  rw [collect, flatMap_cons]
  rfl

/-- **An entry's items**, and the items of the others. -/
theorem collect_eq_add_erase (hnodup : d.keys.Nodup) {v : V}
    (h : d.get? k = some v) : collect items d = items v + collect items (d.erase k) := by
  induction d with
  | nil => cases h
  | cons e d ih =>
    obtain ⟨hnotMem, hnodup⟩ := List.nodup_cons.1 hnodup
    rw [get?, lookup_cons] at h
    by_cases he : k = e.1
    · rw [he, beq_self_eq_true] at h
      cases h
      have herase : erase (e :: d) k = d := by
        rw [erase, filter_cons_of_neg (by simpa using he.symm)]
        exact erase_of_notMem (he ▸ hnotMem)
      rw [herase, collect_cons]
    · rw [beq_false_of_ne he] at h
      have herase : erase (e :: d) k = e :: erase d k := by
        rw [erase, filter_cons_of_pos (by simpa using fun heq => he heq.symm), erase]
      rw [herase, collect_cons, collect_cons, ih hnodup h, add_left_comm]

/-- The items after a write: those of the new value, and those of the other keys. -/
theorem collect_set (hnodup : d.keys.Nodup) (k : K) (v : V) :
    collect items (d.set k v) = items v + collect items (d.erase k) := by
  rw [collect_eq_add_erase items (nodup_keys_set hnodup k v) (get?_set_self d k v)]
  congr 2
  induction d with
  | nil => simp [set, erase]
  | cons e d ih =>
    rw [set]
    by_cases he : e.1 = k
    · rw [if_pos he]
      simp [erase, he]
    · rw [if_neg he]
      simpa [erase, he] using ih (List.nodup_cons.1 hnodup).2

theorem collect_eq_zero (h : ∀ k v, d.get? k = some v → items v = [])
    (hnodup : d.keys.Nodup) : collect items d = 0 := by
  rw [collect, Multiset.coe_eq_zero, flatMap_eq_nil_iff]
  exact fun e he => h e.1 e.2 (lookup_eq_some_of_mem hnodup he)

end MonCTL.Dict
