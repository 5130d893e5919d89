import Mathlib.Data.List.Basic

/-!
# Insertion-Ordered Dictionaries

A dictionary keeps its entries in the order in which their keys were first written: a
write to a known key replaces the value in place, a write to a new key appends an entry.
This is the order in which the entries are iterated, so the first entry is the one whose
key was written first.

A dictionary is a plain list of pairs; `List.lookup` reads it.
-/

namespace MonCTL

open List

/-- An insertion-ordered dictionary. -/
abbrev Dict (K V : Type) := List (K × V)

namespace Dict

variable {K V : Type} [DecidableEq K]

/-- Write `v` at `k`: in place when the key is known, at the end otherwise. -/
def set : Dict K V → K → V → Dict K V
  | [], k, v => [(k, v)]
  | (k', v') :: d, k, v => if k' = k then (k, v) :: d else (k', v') :: set d k v

/-- A run of writes, in order. -/
def setAll (d : Dict K V) (writes : List (K × V)) : Dict K V :=
  writes.foldl (fun d w => d.set w.1 w.2) d

/-- Read `k`, by deciding equality also where the type of keys has a test of its own. -/
def get? (d : Dict K V) (k : K) : Option V := d.lookup k

/-- The keys, in the order in which they were first written. -/
def keys (d : Dict K V) : List K := d.map Prod.fst

@[simp] theorem setAll_nil (d : Dict K V) : d.setAll [] = d := rfl

@[simp] theorem setAll_cons (d : Dict K V) (w : K × V) (writes : List (K × V)) :
    d.setAll (w :: writes) = (d.set w.1 w.2).setAll writes := rfl

@[simp] theorem setAll_append (d : Dict K V) (ws ws' : List (K × V)) :
    d.setAll (ws ++ ws') = (d.setAll ws).setAll ws' :=
  foldl_append

/-! ### Reading after writing -/

/-- A key just written holds the value written. -/
@[simp] theorem lookup_set_self (d : Dict K V) (k : K) (v : V) : (d.set k v).lookup k = some v := by
  induction d with
  | nil => simp [set]
  | cons e d ih =>
    obtain ⟨k', v'⟩ := e
    by_cases h : k' = k
    · simp [set, h]
    · have hne : (k == k') = false := by simpa using fun hk => h hk.symm
      simp [set, h, lookup_cons, hne, ih]

variable {k : K}

/-- A write leaves every other key alone. -/
theorem lookup_set_ne {k' : K} (h : k' ≠ k) (d : Dict K V) (v : V) :
    (d.set k v).lookup k' = d.lookup k' := by
  induction d with
  | nil =>
    have hne : (k' == k) = false := by simpa using h
    simp [set, lookup_cons, hne]
  | cons e d ih =>
    obtain ⟨k₁, v₁⟩ := e
    by_cases h₁ : k₁ = k
    · have hne : (k' == k) = false := by simpa using h
      simp [set, h₁, lookup_cons, hne]
    · simp only [set, h₁, if_false, lookup_cons, ih]

/-- The two read-over-write laws in one equation. -/
theorem lookup_set (d : Dict K V) (k k' : K) (v : V) :
    (d.set k v).lookup k' = if k' = k then some v else d.lookup k' := by
  by_cases h : k' = k
  · subst h
    simp
  · rw [lookup_set_ne h, if_neg h]

/-- After a run of writes a key holds the value written to it last, or what it held
before when the run never writes it. -/
theorem lookup_setAll (writes : List (K × V)) (d : Dict K V) (k : K) :
    (d.setAll writes).lookup k = (writes.reverse.lookup k).or (d.lookup k) := by
  induction writes generalizing d with
  | nil => simp
  | cons w writes ih =>
    obtain ⟨k₁, v₁⟩ := w
    rw [setAll_cons, ih, reverse_cons, lookup_append, lookup_set, Option.or_assoc]
    by_cases hk : k = k₁
    · simp [hk]
    · have hne : (k == k₁) = false := by simpa using hk
      simp [hk, hne, lookup_cons]

variable {writes : List (K × V)}

/-- A run of writes to other keys leaves a key alone. -/
theorem lookup_setAll_of_notMem
    (h : k ∉ writes.map Prod.fst) (d : Dict K V) : (d.setAll writes).lookup k = d.lookup k := by
  induction writes generalizing d with
  | nil => rfl
  | cons w writes ih =>
    rw [map_cons, mem_cons, not_or] at h
    rw [setAll_cons, ih h.2, lookup_set_ne h.1]

variable {v : V}

/-- After a run of writes to distinct keys each of them holds what was written to it. -/
theorem lookup_setAll_of_mem (hnodup : (writes.map Prod.fst).Nodup)
    (h : (k, v) ∈ writes) (d : Dict K V) : (d.setAll writes).lookup k = some v := by
  induction writes generalizing d with
  | nil => simp at h
  | cons w writes ih =>
    rw [map_cons, nodup_cons] at hnodup
    rcases List.mem_cons.1 h with rfl | h
    · rw [setAll_cons, lookup_setAll_of_notMem hnodup.1, lookup_set_self]
    · exact ih hnodup.2 h _

theorem lookup_map_values {V' : Type} (g : V → V') (d : Dict K V) (k : K) :
    List.lookup k (d.map fun e => (e.1, g e.2)) = (d.lookup k).map g := by
  induction d with
  | nil => rfl
  | cons e d ih =>
    rw [map_cons, lookup_cons, lookup_cons, ih]
    cases k == e.1 <;> rfl

/-- Reading a dictionary without a key. -/
theorem lookup_filter_ne (d : Dict K V) (k k' : K) :
    List.lookup k' (d.filter fun e => e.1 ≠ k) = if k' = k then none else d.lookup k' := by
  induction d with
  | nil => rw [filter_nil, lookup_nil, ite_self]
  | cons e d ih =>
    by_cases he : e.1 = k
    · rw [filter_cons_of_neg (by simpa using he), ih, lookup_cons, he]
      by_cases hk : k' = k
      · rw [if_pos hk, if_pos hk]
      · rw [if_neg hk, if_neg hk, beq_false_of_ne hk]
    · rw [filter_cons_of_pos (by simpa using he), lookup_cons, ih, lookup_cons]
      by_cases hk : k' = k
      · rw [if_pos hk, if_pos hk, hk, beq_false_of_ne (Ne.symm he)]
      · rw [if_neg hk, if_neg hk]

/-- Reading a dictionary in which the entry of a key has been changed in place. -/
theorem lookup_map_at (d : Dict K V) (f : V → V) (k k' : K) :
    List.lookup k' (d.map fun e => if e.1 = k then (e.1, f e.2) else e) =
      if k' = k then (d.lookup k').map f else d.lookup k' := by
  induction d with
  | nil => rw [map_nil, lookup_nil, Option.map_none, ite_self]
  | cons e d ih =>
    rw [map_cons, lookup_cons, lookup_cons, ih]
    by_cases he : e.1 = k
    · rw [if_pos he, he]
      by_cases hk : k' = k
      · rw [if_pos hk, if_pos hk, hk, beq_self_eq_true]
        rfl
      · rw [if_neg hk, if_neg hk, beq_false_of_ne hk]
    · rw [if_neg he]
      by_cases hk : k' = k
      · rw [if_pos hk, if_pos hk, hk, beq_false_of_ne (Ne.symm he)]
      · rw [if_neg hk, if_neg hk]

theorem lookup_map_eq_find? {α : Type} (f : α → K) (g : α → V) (l : List α) (k : K) :
    (l.map fun x => (f x, g x)).lookup k = (l.find? fun x => f x = k).map g := by
  induction l with
  | nil => rfl
  | cons x l ih =>
    rw [map_cons, lookup_cons, find?_cons, ih]
    by_cases h : f x = k
    · simp [h]
    · have hne : (k == f x) = false := by simpa using fun hk => h hk.symm
      simp [h, hne]

/-- A dictionary built from a list holds, at each key, what the last element with the key
gave. -/
theorem get?_setAll_map {α : Type} (f : α → K) (g : α → V) (l : List α) (k : K) :
    get? (setAll [] (l.map fun x => (f x, g x))) k = (l.reverse.find? fun x => f x = k).map g := by
  rw [get?, lookup_setAll, ← map_reverse, lookup_map_eq_find?, lookup_nil, Option.or_none]

theorem lookup_eq_get? [inst : BEq K] [LawfulBEq K] (d : Dict K V) (k : K) :
    List.lookup k d = d.get? k := by
  have h : inst = instBEqOfDecidableEq := lawful_beq_subsingleton inst instBEqOfDecidableEq
  subst h
  rfl

theorem get?_set (d : Dict K V) (k k' : K) (v : V) :
    (d.set k v).get? k' = if k' = k then some v else d.get? k' :=
  lookup_set d k k' v

/-- Reading after a series of steps that each write one key: the steps for the key, in order. -/
theorem get?_foldl_write {α : Type} (f : Dict K V → α → Dict K V) (key : α → K)
    (g : Option V → α → Option V)
    (hf : ∀ d x k, (f d x).get? k = if k = key x then g (d.get? k) x else d.get? k) (l : List α)
    (d : Dict K V) (k : K) :
    (l.foldl f d).get? k = (l.filter fun x => key x = k).foldl g (d.get? k) := by
  induction l generalizing d with
  | nil => rfl
  | cons x l ih =>
    rw [foldl_cons, ih, hf]
    by_cases hk : key x = k
    · rw [filter_cons_of_pos (by simpa using hk), foldl_cons, if_pos hk.symm]
    · rw [filter_cons_of_neg (by simpa using hk), if_neg fun h => hk h.symm]

theorem get?_map_values (g : V → V) (d : Dict K V) (k : K) :
    get? (d.map fun e => (e.1, g e.2)) k = (d.get? k).map g :=
  lookup_map_values g d k

/-! ### Keys -/

/-- `lookup` finds exactly the keys. -/
theorem mem_keys_iff (d : Dict K V) (k : K) : k ∈ d.keys ↔ (d.lookup k).isSome := by
  induction d with
  | nil => simp [keys]
  | cons e d ih =>
    obtain ⟨k', v'⟩ := e
    by_cases h : k = k'
    · simp [keys, h]
    · have hne : (k == k') = false := by simpa using h
      rw [keys] at ih
      simp [keys, h, lookup_cons, hne, ih]

theorem lookup_setAll_isSome (writes : List (K × V)) (d : Dict K V) (k : K) :
    ((d.setAll writes).lookup k).isSome ↔ k ∈ writes.map Prod.fst ∨ (d.lookup k).isSome := by
  induction writes generalizing d with
  | nil => simp
  | cons w writes ih =>
    rw [setAll_cons, ih, lookup_set, map_cons, mem_cons]
    by_cases hk : k = w.1
    · simp [hk]
    · simp [hk]

variable {d : Dict K V}

theorem mem_set {e : K × V} (h : e ∈ d.set k v) :
    e ∈ d ∨ e = (k, v) := by
  induction d with
  | nil => exact .inr (List.mem_singleton.1 h)
  | cons e' d ih =>
    rw [set] at h
    split at h
    · rcases List.mem_cons.1 h with rfl | h
      · exact .inr rfl
      · exact .inl (mem_cons_of_mem _ h)
    · rcases List.mem_cons.1 h with rfl | h
      · exact .inl (mem_cons_self ..)
      · exact (ih h).imp_left (mem_cons_of_mem _)

/-- A write adds at most its own key. -/
theorem keys_set (d : Dict K V) (k : K) (v : V) :
    (d.set k v).keys = if k ∈ d.keys then d.keys else d.keys ++ [k] := by
  induction d with
  | nil => simp [set, keys]
  | cons e d ih =>
    obtain ⟨k', v'⟩ := e
    by_cases h : k' = k
    · simp [set, keys, h]
    · have hne : k ≠ k' := fun hk => h hk.symm
      simp only [keys] at ih
      by_cases hk : k ∈ d.map Prod.fst <;> simp only [set, h, keys, map_cons, ih,
        mem_cons, hne, hk, false_or, if_true, if_false, cons_append]

/-- Writing keeps the keys distinct. -/
theorem nodup_keys_set (h : d.keys.Nodup) (k : K) (v : V) :
    (d.set k v).keys.Nodup := by
  rw [keys_set]
  split
  · exact h
  next hk =>
    refine List.nodup_append.2 ⟨h, pairwise_singleton _ k, ?_⟩
    rintro x hx y hy rfl
    exact hk (List.mem_singleton.1 hy ▸ hx)

/-- What a lookup finds is an entry. -/
theorem mem_of_lookup {K V : Type} [BEq K] [LawfulBEq K] {d : List (K × V)} {k : K} {v : V}
    (h : d.lookup k = some v) : (k, v) ∈ d := by
  obtain ⟨before, after, rfl, -⟩ := List.lookup_eq_some_iff.1 h
  exact mem_append_right before mem_cons_self

theorem mem_of_get? (h : d.get? k = some v) : (k, v) ∈ d := mem_of_lookup h

/-- When the keys are distinct, `lookup` finds every entry. -/
theorem lookup_eq_some_of_mem (h : d.keys.Nodup)
    (hmem : (k, v) ∈ d) : d.lookup k = some v := by
  induction d with
  | nil => cases hmem
  | cons e d ih =>
    rw [keys, map_cons, nodup_cons] at h
    rcases List.mem_cons.1 hmem with rfl | hmem
    · simp
    · have hne : (k == e.1) = false := by
        simpa using fun heq : k = e.1 => h.1 (heq ▸ mem_map_of_mem hmem)
      rw [lookup_cons, hne]
      exact ih h.2 hmem

theorem set_of_notMem (h : k ∉ d.keys) (v : V) : d.set k v = d ++ [(k, v)] := by
  induction d with
  | nil => rfl
  | cons e d ih =>
    obtain ⟨k', v'⟩ := e
    rw [keys, map_cons, mem_cons, not_or] at h
    rw [set, if_neg fun hk => h.1 hk.symm, ih h.2, cons_append]

/-- Writes to new and distinct keys append their entries. -/
theorem setAll_of_nodup
    (h : (d.keys ++ writes.map Prod.fst).Nodup) : d.setAll writes = d ++ writes := by
  induction writes generalizing d with
  | nil => simp
  | cons w writes ih =>
    have hnew : w.1 ∉ d.keys := fun hmem => (List.nodup_append.1 h).2.2 _ hmem _ mem_cons_self rfl
    rw [setAll_cons, set_of_notMem hnew, ih, append_assoc, singleton_append]
    simpa [keys] using h

end Dict

end MonCTL
