import Mathlib.Tactic.Basic

/-!
# Validation That May Crash

A validation refuses a value with a message, or crashes on one that is not of the type it takes for
granted; what comes after the first refusal is not looked at. For each way a validation is put
together there is an exact condition for it not to crash, and one for it to accept.
-/

namespace MonCTL

open List Option

variable {ε α : Type}

/-- How a validation ends early. -/
inductive Failed (ε : Type)
  | refused (detail : String)
  | crashed (error : ε)
  deriving DecidableEq

/-- A computation that may refuse or crash. -/
abbrev Validation (ε α : Type) := Except (Failed ε) α

namespace Validation

/-! ### Checks -/

/-- A loop. A round is given the elements before its own. -/
def forEach (f : List α → α → Validation ε Unit) : List α → List α → Validation ε Unit
  | _, [] => .ok ()
  | before, x :: xs => do
      f before x
      forEach f (before ++ [x]) xs

/-! ### What a validation comes to -/

def Orderly (v : Validation ε α) : Prop := ∀ error, v ≠ .error (.crashed error)

/-- The validation does not crash iff the value **fits**, and accepts it iff it is **valid**. -/
structure Judged (v : Validation ε Unit) (Fits Valid : Prop) : Prop where
  orderly_iff : Orderly v ↔ Fits
  eq_ok_iff : v = .ok () ↔ Valid

theorem orderly_ok {a : α} : Orderly (.ok a : Validation ε α) := nofun

namespace Judged

variable {v w : Validation ε Unit} {Fits Valid Fits' Valid' : Prop} {detail : String} {error : ε}

theorem done : Judged (.ok () : Validation ε Unit) True True :=
  ⟨iff_of_true orderly_ok trivial, iff_of_true rfl trivial⟩

theorem congr (h : Judged v Fits Valid) (hfits : Fits ↔ Fits') (hvalid : Valid ↔ Valid') :
    Judged v Fits' Valid' :=
  ⟨h.orderly_iff.trans hfits, h.eq_ok_iff.trans hvalid⟩

variable {c : Prop} {f : Unit → Validation ε Unit}

variable {part : Option α}

/-- One validation after another. -/
theorem andThen (hv : Judged v Fits Valid) (h : Valid → Judged (f ()) Fits' Valid') :
    Judged (v >>= f) (Fits ∧ (Valid → Fits')) (Valid ∧ Valid') := by
  cases v with
  | ok u =>
    have hvalid : Valid := hv.eq_ok_iff.1 rfl
    have hfits : Fits := hv.orderly_iff.1 orderly_ok
    obtain ⟨horderly, hok⟩ := h hvalid
    exact ⟨horderly.trans ⟨fun h' => ⟨hfits, fun _ => h'⟩, fun h' => h'.2 hvalid⟩,
      hok.trans (and_iff_right hvalid).symm⟩
  | error e =>
    have hinvalid : ¬Valid := fun hvalid => nomatch hv.eq_ok_iff.2 hvalid
    refine ⟨?_, iff_of_false nofun fun h' => hinvalid h'.1⟩
    have hsame : Orderly (.error e >>= f) ↔ Orderly (.error e : Validation ε Unit) := Iff.rfl
    rw [hsame, hv.orderly_iff]
    exact ⟨fun hfits => ⟨hfits, fun hvalid => absurd hvalid hinvalid⟩, And.left⟩

end Judged

/-! ### Loops -/

/-- Every element is valid beside the ones before it. -/
def AllValid (V : List α → α → Prop) (xs : List α) : Prop :=
  ∀ before x after, xs = before ++ x :: after → V before x

/-- Every element that a loop reaches fits. -/
def ReachedFit (F V : List α → α → Prop) (xs : List α) : Prop :=
  ∀ before x after, xs = before ++ x :: after → AllValid V before → F before x

variable {V : List α → α → Prop} {xs : List α} {x : α}

theorem allValid_cons :
    AllValid V (x :: xs) ↔ V [] x ∧ AllValid (fun before => V (x :: before)) xs := by
  constructor
  · intro h
    refine ⟨h [] x xs rfl, fun before y after heq => h (x :: before) y after ?_⟩
    rw [heq]
    rfl
  · rintro ⟨hx, hxs⟩ before y after heq
    cases before with
    | nil =>
      cases heq
      exact hx
    | cons x' before =>
      obtain ⟨rfl, htail⟩ := List.cons.inj heq
      exact hxs before y after htail

variable {F : List α → α → Prop}

theorem reachedFit_cons : ReachedFit F V (x :: xs) ↔ F [] x ∧
      (V [] x → ReachedFit (fun before => F (x :: before)) (fun before => V (x :: before)) xs) := by
  have hnil : AllValid V [] := fun before y after heq => by cases before <;> cases heq
  constructor
  · intro h
    refine ⟨h [] x xs rfl hnil, fun hx before y after heq hbefore => ?_⟩
    refine h (x :: before) y after ?_ (allValid_cons.2 ⟨hx, hbefore⟩)
    rw [heq]
    rfl
  · rintro ⟨hx, hxs⟩ before y after heq hbefore
    cases before with
    | nil =>
      cases heq
      exact hx
    | cons x' before =>
      obtain ⟨rfl, htail⟩ := List.cons.inj heq
      obtain ⟨hvalid, hrest⟩ := allValid_cons.1 hbefore
      exact hxs hvalid before y after htail hrest

variable {f : List α → α → Validation ε Unit}

theorem Judged.forEach_append
    (h : ∀ before x, Judged (f before x) (F before x) (V before x)) (xs start : List α) :
    Judged (Validation.forEach f start xs) (ReachedFit (fun before => F (start ++ before))
      (fun before => V (start ++ before)) xs) (AllValid
      (fun before => V (start ++ before)) xs) := by
  induction xs generalizing start with
  | nil =>
    have hno : ∀ (before : List α) x after, [] ≠ before ++ x :: after := by
      intro before x after
      cases before <;> nofun
    refine Judged.done.congr (iff_of_true trivial ?_) (iff_of_true trivial ?_)
    · exact fun before x after heq => absurd heq (hno before x after)
    · exact fun before x after heq => absurd heq (hno before x after)
  | cons x xs ih =>
    refine ((h start x).andThen fun _ => ih (start ++ [x])).congr ?_ ?_
    · rw [reachedFit_cons, append_nil]
      simp only [append_assoc, singleton_append]
    · rw [allValid_cons, append_nil]
      simp only [append_assoc, singleton_append]

/-- **A loop**: it does not crash iff the elements that it reaches fit, and accepts iff all are
valid. -/
theorem Judged.forEach
    (h : ∀ before x, Judged (f before x) (F before x) (V before x)) (xs : List α) :
    Judged (Validation.forEach f [] xs) (ReachedFit F V xs) (AllValid V xs) :=
  Judged.forEach_append h xs []

end Validation

end MonCTL
