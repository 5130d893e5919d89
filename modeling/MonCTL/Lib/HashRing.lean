import Mathlib.Data.List.Sort

/-!
# Hash Rings

A ring is a list of points sorted by position, each with the node that put it there. A key
belongs to the node of the first point at or after its own position, and past the last
point to the node of the first.
-/

namespace MonCTL.HashRing

open List Option

variable {α : Type}

/-- The ring of a list of points; points at one position keep their order. -/
def ofPoints (points : List (ℕ × α)) : List (ℕ × α) :=
  points.mergeSort fun p q => p.1 ≤ q.1

/-- The index of the first point at or after a position. -/
def bisectLeft (ring : List (ℕ × α)) (position : ℕ) : ℕ :=
  ring.findIdx fun p => position ≤ p.1

/-- The node a position belongs to. -/
def owner (ring : List (ℕ × α)) (position : ℕ) : Option α :=
  let idx := bisectLeft ring position
  (ring[if idx < ring.length then idx else 0]?).map Prod.snd

variable {points : List (ℕ × α)} {p : ℕ × α}

/-- Sorting keeps the points. -/
theorem mem_ofPoints : p ∈ ofPoints points ↔ p ∈ points := mem_mergeSort

variable {ring : List (ℕ × α)} {position : ℕ}

/-- The owner is a node of the ring. -/
theorem owner_mem {a : α} (h : owner ring position = some a) : a ∈ ring.map Prod.snd := by
  obtain ⟨p, hp, rfl⟩ := map_eq_some_iff.1 h
  exact mem_map_of_mem (mem_of_getElem? hp)

/-- On a ring with points every key has an owner. -/
theorem owner_eq_some_of_ne_nil (h : ring ≠ []) (position : ℕ) :
    ∃ a, owner ring position = some a := by
  have hlen := length_pos_of_ne_nil h
  have hidx : (if bisectLeft ring position < ring.length then bisectLeft ring position else 0) <
      ring.length := by
    split <;> assumption
  exact ⟨_, by simp only [owner, getElem?_eq_getElem hidx, map_some]; rfl⟩

/-! ### Insertion -/

/-- A point is put before the first one at or after its position. -/
def insertPoint (ring : List (ℕ × α)) (p : ℕ × α) : List (ℕ × α) :=
  ring.insertIdx (bisectLeft ring p.1) p

/-- Sorting by a key is stable: it commutes with leaving elements out. -/
theorem filter_mergeSort {β γ : Type} [LE γ] [DecidableLE γ]
    (htrans : ∀ {a b c : γ}, a ≤ b → b ≤ c → a ≤ c) (htotal : ∀ a b : γ, a ≤ b ∨ b ≤ a)
    (key : β → γ) (keep : β → Bool) (l : List β) :
    (l.mergeSort fun a b => key a ≤ key b).filter keep =
      (l.filter keep).mergeSort fun a b => key a ≤ key b := by
  have htrans' (a b c : β) (h : decide (key a ≤ key b) = true)
      (h' : decide (key b ≤ key c) = true) : decide (key a ≤ key c) = true :=
    decide_eq_true (htrans (of_decide_eq_true h) (of_decide_eq_true h'))
  have htotal' (a b : β) : (decide (key a ≤ key b) || decide (key b ≤ key a)) = true := by
    simpa using htotal (key a) (key b)
  induction l with
  | nil => simp
  | cons a l ih =>
    obtain ⟨l₁, l₂, hcons, hl, hbefore⟩ := mergeSort_cons htrans' htotal' a l
    rw [hcons, filter_append, filter_cons, filter_cons]
    rw [hl, filter_append] at ih
    split
    next ha =>
      obtain ⟨m₁, m₂, hcons', hm, hbefore'⟩ := mergeSort_cons htrans' htotal' a (l.filter keep)
      -- what comes before the element is the elements that are less
      have hless {k₁ k₂ : List β} (hk : ∀ b ∈ k₁, (!key a ≤ key b) = true)
          (hsorted : (k₁ ++ a :: k₂).Pairwise fun x y => decide (key x ≤ key y) = true) :
          (k₁ ++ k₂).takeWhile (fun b => !decide (key a ≤ key b)) = k₁ := by
        rw [takeWhile_append_of_pos hk, append_right_eq_self]
        cases k₂ with
        | nil => rfl
        | cons c k₂ =>
          have hle := (pairwise_cons.1 (pairwise_append.1 hsorted).2.1).1 c mem_cons_self
          rw [takeWhile_cons, hle, Bool.not_true, if_neg Bool.false_ne_true]
      have hsorted := pairwise_mergeSort htrans' htotal' (a :: l)
      have hsorted' := pairwise_mergeSort htrans' htotal' (a :: l.filter keep)
      rw [hcons] at hsorted
      rw [hcons'] at hsorted'
      have hfiltered := hsorted.filter keep
      rw [filter_append, filter_cons, if_pos ha] at hfiltered
      have hm₁ : m₁ = l₁.filter keep := by
        rw [← hless hbefore' hsorted', ← hm, ← ih,
          hless (fun b hb => hbefore b (mem_of_mem_filter hb)) hfiltered]
      rw [hcons', hm₁]
      rw [hm, hm₁] at ih
      rw [append_cancel_left ih]
    next => rw [← ih]

theorem filter_ofPoints (keep : ℕ × α → Bool) (points : List (ℕ × α)) :
    (ofPoints points).filter keep = ofPoints (points.filter keep) :=
  filter_mergeSort Nat.le_trans Nat.le_total Prod.fst keep points

/-- **Only what a node owned changes hands** when points are taken out of a ring. -/
theorem owner_filter {keep : ℕ × α → Bool} {a : α} (howner : owner ring position = some a)
    (hkeep : ∀ p ∈ ring, p.2 = a → keep p = true) : owner (ring.filter keep) position = some a := by
  have howner_eq (ring : List (ℕ × α)) : owner ring position =
      ((ring.find? fun p => position ≤ p.1).or ring.head?).map Prod.snd := by
    rw [owner, bisectLeft, find?_eq_getElem?_findIdx, head?_eq_getElem?]
    split
    next hlt => rw [getElem?_eq_getElem hlt, Option.some_or]
    next hnot => rw [getElem?_eq_none (Nat.le_of_not_lt hnot), Option.none_or]
  rw [howner_eq] at howner ⊢
  obtain ⟨p, hp, rfl⟩ := map_eq_some_iff.1 howner
  refine map_eq_some_iff.2 ⟨p, ?_, rfl⟩
  cases hfind : ring.find? fun p => position ≤ p.1 with
  | some q =>
    rw [hfind, Option.some_or, Option.some.injEq] at hp
    subst hp
    obtain ⟨hle, before, after, heq, hbefore⟩ := find?_eq_some_iff_append.1 hfind
    have hkept : keep q = true := hkeep q (heq ▸ by simp) rfl
    have hfind' : (ring.filter keep).find? (fun p => position ≤ p.1) = some q := by
      rw [heq, filter_append, filter_cons, if_pos hkept]
      exact find?_eq_some_iff_append.2
        ⟨hle, _, _, rfl, fun p hp => hbefore p (mem_of_mem_filter hp)⟩
    rw [hfind', Option.some_or]
  | none =>
    rw [hfind, Option.none_or] at hp
    have hnone : (ring.filter keep).find? (fun p => position ≤ p.1) = none :=
      find?_eq_none.2 fun q hq => find?_eq_none.1 hfind q (mem_of_mem_filter hq)
    obtain ⟨rest, rfl⟩ := head?_eq_some_iff.1 hp
    rw [hnone, Option.none_or, filter_cons, if_pos (hkeep p mem_cons_self rfl), head?_cons]

end MonCTL.HashRing
