import Mathlib.Data.List.Basic

/-!
# Pages of a List

A list is read in pages of a length. Parts that together are the list, of which only the last one
that is not empty may be short, are its pages.
-/

namespace MonCTL

variable {α : Type} {k p : ℕ} {l : List α}

def page (k : ℕ) (l : List α) (p : ℕ) : List α := (l.drop (p * k)).take k

theorem length_page_le : (page k l p).length ≤ k := List.length_take_le _ _

/-- The first pages. -/
theorem flatMap_page (n : ℕ) : (List.range n).flatMap (page k l) = l.take (n * k) := by
  induction n with
  | zero => simp
  | succ n ih =>
    rw [List.range_succ, List.flatMap_append, ih, List.flatMap_singleton, Nat.succ_mul,
      List.take_add]
    rfl

theorem mem_page (hk : 0 < k) {x : α} : x ∈ page k l p ↔ ∃ i, i / k = p ∧ l[i]? = some x := by
  rw [page, List.mem_iff_getElem?]
  constructor
  · rintro ⟨i, hi⟩
    rw [List.getElem?_take] at hi
    split_ifs at hi with hlt
    rw [List.getElem?_drop] at hi
    exact ⟨p * k + i, by rw [Nat.mul_comm, Nat.mul_add_div hk, Nat.div_eq_of_lt hlt]; rfl, hi⟩
  · rintro ⟨i, rfl, hi⟩
    refine ⟨i % k, ?_⟩
    rw [List.getElem?_take, if_pos (Nat.mod_lt i hk), List.getElem?_drop, Nat.div_add_mod']
    exact hi

/-- **Parts that make up a list are its pages**, if none is longer than a page and only the last one
is shorter. -/
theorem eq_page {parts : ℕ → List α} (hle : ∀ p, (parts p).length ≤ k)
    (hshort : ∀ p, (parts p).length < k → ∀ q > p, parts q = [])
    (hwhole : ∃ n, ∀ m ≥ n, (List.range m).flatMap parts = l) (p : ℕ) : parts p = page k l p := by
  obtain ⟨n, hwhole⟩ := hwhole
  have hadd : ∀ m d, (List.range (m + d)).flatMap parts =
      (List.range m).flatMap parts ++ (List.range d).flatMap fun q => parts (m + q) := fun m d => by
    rw [List.range_add, List.flatMap_append, List.flatMap_map]
  -- the first parts are full, or they are all
  have hfirst : ∀ m, (List.range m).flatMap parts = l ∧ l.length ≤ m * k ∨
      ((List.range m).flatMap parts).length = m * k := by
    intro m
    induction m with
    | zero => exact .inr (by simp)
    | succ m ih =>
      rw [List.range_succ, List.flatMap_append, List.flatMap_singleton, Nat.succ_mul]
      rcases ih with ⟨hall, hlen⟩ | hlen
      · have hnext := hwhole (m + 1 + n) (by omega)
        rw [hadd, List.range_succ, List.flatMap_append, List.flatMap_singleton, hall,
          List.append_assoc, List.append_right_eq_self, List.append_eq_nil_iff] at hnext
        exact .inl ⟨by rw [hall, hnext.1, List.append_nil], by omega⟩
      · rcases Nat.lt_or_ge (parts m).length k with hlt | hge
        · have hrest : ((List.range n).flatMap fun q => parts (m + 1 + q)) = [] :=
            List.flatMap_eq_nil_iff.2 fun q _ => hshort m hlt _ (by omega)
          have hall := hwhole (m + 1 + n) (by omega)
          rw [hadd, hrest, List.append_nil, List.range_succ, List.flatMap_append,
            List.flatMap_singleton] at hall
          refine .inl ⟨hall, ?_⟩
          rw [← hall, List.length_append, hlen]
          omega
        · refine .inr ?_
          have := hle m
          rw [List.length_append, hlen]
          omega
  have htake : ∀ m, (List.range m).flatMap parts = l.take (m * k) := by
    intro m
    rcases hfirst m with ⟨hall, hlen⟩ | hlen
    · rw [hall, List.take_of_length_le hlen]
    · rw [← hwhole (m + n) (by omega), hadd, ← hlen, List.take_left]
  have hstep := htake (p + 1)
  rw [← flatMap_page, List.range_succ, List.flatMap_append, List.flatMap_append, htake,
    ← flatMap_page, List.flatMap_singleton, List.flatMap_singleton] at hstep
  exact List.append_cancel_left hstep

end MonCTL
