import Mathlib.Data.List.Basic

/-!
# Requests That Fail

An endpoint that turns a request down answers with a status and a text. A query for at most one row
fails when there are more, and so does a write that the database turns down.
-/

namespace MonCTL

/-- A request that is turned down, or fails. -/
structure HttpError where
  status : ℕ
  detail : String
  deriving DecidableEq

/-- What the database turns down. -/
def integrityError : HttpError := ⟨500, "IntegrityError"⟩

/-- `scalar_one_or_none()`. -/
def scalarOneOrNone {α : Type} : List α → Except HttpError (Option α)
  | [] => .ok none
  | [x] => .ok (some x)
  | _ => .error ⟨500, "Multiple rows were found when one or none was required"⟩

variable {α : Type} {l : List α} {x : α}

/-- There is no row. -/
theorem eq_nil_of_scalarOneOrNone (h : scalarOneOrNone l = .ok none) : l = [] := by
  cases l with
  | nil => rfl
  | cons y l => cases l with
    | nil => cases h
    | cons z l => cases h

/-- There is one row. -/
theorem eq_singleton_of_scalarOneOrNone (h : scalarOneOrNone l = .ok (some x)) : l = [x] := by
  cases l with
  | nil => cases h
  | cons y l => cases l with
    | nil =>
      cases h
      rfl
    | cons z l => cases h

end MonCTL
