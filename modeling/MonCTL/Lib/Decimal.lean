import Mathlib.Data.List.Basic

/-!
# Names with Numbers in Them

Names are often made by writing a number after a fixed text, or two numbers with a
separator between them. Such names are equal only when the numbers are, since a decimal
numeral determines its number and holds digits only.
-/

namespace MonCTL.Decimal

open List

/-- The numeral of a number is its decimal digits. -/
theorem toList_toString (n : ℕ) : (toString n).toList = Nat.toDigits 10 n := Nat.toList_repr

/-- A numeral determines its number. -/
theorem toList_toString_injective {m n : ℕ} (h : (toString m).toList = (toString n).toList) :
    m = n := by
  rw [toList_toString, toList_toString] at h
  have hvalue := congrArg (fun digits => Nat.ofDigitChars 10 digits 0) h
  simpa using hvalue

theorem isDigit_of_mem_toString {n : ℕ} {c : Char} (h : c ∈ (toString n).toList) :
    c.isDigit = true := by
  rw [toList_toString] at h
  exact Nat.isDigit_of_mem_toDigits (by decide) (by decide) h

/-- A separator that the first text cannot hold determines both parts. -/
theorem append_separator_inj {α : Type} {p : α → Prop} {sep : α} (hsep : ¬p sep)
    {xs xs' ys ys' : List α} (hxs : ∀ x ∈ xs, p x) (hxs' : ∀ x ∈ xs', p x)
    (h : xs ++ sep :: ys = xs' ++ sep :: ys') : xs = xs' ∧ ys = ys' := by
  induction xs generalizing xs' with
  | nil =>
    cases xs' with
    | nil => exact ⟨rfl, tail_eq_of_cons_eq h⟩
    | cons x' xs' =>
      have hhead : sep = x' := head_eq_of_cons_eq h
      exact absurd (hhead ▸ hxs' x' mem_cons_self) hsep
  | cons x xs ih =>
    cases xs' with
    | nil =>
      have hhead : x = sep := head_eq_of_cons_eq h
      exact absurd (hhead ▸ hxs x mem_cons_self) hsep
    | cons x' xs' =>
      obtain ⟨rfl, htail⟩ := List.cons_eq_cons.1 h
      obtain ⟨rfl, rfl⟩ := ih (fun y hy => hxs y (mem_cons_of_mem _ hy))
        (fun y hy => hxs' y (mem_cons_of_mem _ hy)) htail
      exact ⟨rfl, rfl⟩

end MonCTL.Decimal
