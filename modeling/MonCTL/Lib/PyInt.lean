import Mathlib.Data.List.TakeWhile
import MonCTL.Lib.Decimal
import MonCTL.Lib.PyValue

/-!
# The Integers a Text Spells

The built-in `int` of a text: white space around it, a sign, and decimal digits of any script with
single underscores between them.
-/

namespace MonCTL

open List

/-- A decimal digit of any script. -/
def isPyDigit (c : Char) : Bool := (asciiDigit c).isDigit

/-- The built-in `int`, of a text. -/
def parseInt (text : String) : Option ℤ :=
  let trimmed := ((text.toList.dropWhile isPySpace).reverse.dropWhile isPySpace).reverse
  let (negative, cs) := spanSign (trimmed.map asciiDigit)
  match spanDigits cs with
  | some (d :: ds, []) => some (if negative then -digitsValue (d :: ds) else digitsValue (d :: ds))
  | _ => none

/-! ### Numerals -/

variable {c : Char}

theorem asciiDigit_of_isDigit (h : c.isDigit = true) : asciiDigit c = c := by
  have hbounds : 48 ≤ c.toNat ∧ c.toNat ≤ 57 := by
    rw [Char.isDigit, Bool.and_eq_true, decide_eq_true_eq, decide_eq_true_eq] at h
    exact ⟨h.1, h.2⟩
  have hfind : digitBlocks.find? (fun start => start ≤ c.toNat && c.toNat < start + 10) = some 48 := by
    rw [digitBlocks, find?_cons_of_pos]
    simp only [Bool.and_eq_true, decide_eq_true_eq]
    omega
  rw [asciiDigit, hfind]
  change Char.ofNat (48 + (c.toNat - 48)) = c
  rw [Nat.add_sub_cancel' hbounds.1, Char.ofNat_toNat]

theorem isPySpace_of_isDigit (h : c.isDigit = true) : isPySpace c = false := by
  have hbounds : 48 ≤ c.toNat ∧ c.toNat ≤ 57 := by
    rw [Char.isDigit, Bool.and_eq_true, decide_eq_true_eq, decide_eq_true_eq] at h
    exact ⟨h.1, h.2⟩
  simp only [isPySpace, Bool.or_eq_false_iff, Bool.and_eq_false_iff, decide_eq_false_iff_not]
  omega

variable {cs : List Char}

theorem dropWhile_isPySpace (h : ∀ c ∈ cs, c.isDigit = true) : cs.dropWhile isPySpace = cs := by
  cases cs with
  | nil => rfl
  | cons c cs =>
    exact dropWhile_cons_of_neg (by rw [isPySpace_of_isDigit (h c mem_cons_self)]; exact Bool.false_ne_true)

theorem joinDigits_cons_of_isDigit (afterUnderscore : Bool) (h : c.isDigit = true) :
    joinDigits afterUnderscore (c :: cs) = (joinDigits false cs).map (c :: ·) := by
  have hne : c ≠ '_' := by
    rintro rfl
    cases h
  rw [joinDigits, if_neg hne]

theorem joinDigits_of_isDigit (h : ∀ c ∈ cs, c.isDigit = true) : joinDigits false cs = some cs := by
  induction cs with
  | nil => rfl
  | cons c cs ih =>
    rw [joinDigits_cons_of_isDigit false (h c mem_cons_self),
      ih fun c hc => h c (mem_cons_of_mem _ hc)]
    rfl

/-- **The numeral of a number is read back.** -/
theorem parseInt_toString (n : ℕ) : parseInt (toString n) = some (n : ℤ) := by
  have hdigits (c : Char) (hc : c ∈ (toString n).toList) : c.isDigit = true :=
    Decimal.isDigit_of_mem_toString hc
  have hvalue : digitsValue (toString n).toList = n := by
    rw [Decimal.toList_toString]
    exact Nat.ofDigitChars_toDigits (by decide) (by decide)
  have hmap : (toString n).toList.map asciiDigit = (toString n).toList := by
    conv_rhs => rw [← map_id (toString n).toList]
    exact map_congr_left fun c hc => asciiDigit_of_isDigit (hdigits c hc)
  have hne : (toString n).toList ≠ [] := by
    rw [Decimal.toList_toString]
    exact Nat.toDigits_ne_nil
  have htrim : ((((toString n).toList.dropWhile isPySpace).reverse).dropWhile isPySpace).reverse =
      (toString n).toList := by
    rw [dropWhile_isPySpace hdigits,
      dropWhile_isPySpace fun c hc => hdigits c (List.mem_reverse.1 hc), reverse_reverse]
  rw [parseInt, htrim, hmap]
  generalize (toString n).toList = cs at hdigits hvalue hne
  cases cs with
  | nil => exact absurd rfl hne
  | cons c cs =>
    have hc := hdigits c mem_cons_self
    have hsign : spanSign (c :: cs) = (false, c :: cs) := by
      have hplus : c ≠ '+' := by
        rintro rfl
        cases hc
      have hminus : c ≠ '-' := by
        rintro rfl
        cases hc
      rw [spanSign]
      · exact fun cs' hcs => hplus (List.cons.inj hcs).1
      · exact fun cs' hcs => hminus (List.cons.inj hcs).1
    have hspan : spanDigits (c :: cs) = some (c :: cs, []) := by
      have hall : (c :: cs).span (fun c => c.isDigit || c = '_') = (c :: cs, []) := by
        rw [span_eq_takeWhile_dropWhile]
        have htake : (c :: cs).takeWhile (fun c => c.isDigit || c = '_') = c :: cs :=
          List.takeWhile_eq_self_iff.2 fun d hd => by rw [hdigits d hd]; rfl
        have hdrop : (c :: cs).dropWhile (fun c => c.isDigit || c = '_') = [] :=
          List.dropWhile_eq_nil_iff.2 fun d hd => by rw [hdigits d hd]; rfl
        rw [htake, hdrop]
      have hjoin : joinDigits true (c :: cs) = some (c :: cs) := by
        rw [joinDigits_cons_of_isDigit true hc,
          joinDigits_of_isDigit fun d hd => hdigits d (mem_cons_of_mem _ hd)]
        rfl
      simp only [spanDigits, hall, if_neg hne, hjoin, Option.map_some]
    rw [hsign]
    simp only [hspan]
    rw [hvalue]
    rfl

end MonCTL
