import Mathlib.Data.Rat.Defs
import MonCTL.Lib.Dict

/-!
# JSON Values

A JSON text is identified with the value it denotes: writing a value and reading it back
gives the value. Numbers are exact.
-/

namespace MonCTL

/-- A JSON value. -/
inductive Json
  | null
  | bool (value : Bool)
  | num (value : ℚ)
  | str (value : String)
  | arr (values : List Json)
  | obj (entries : List (String × Json))

abbrev JsonObject := Dict String Json

namespace Json

/-- Whether a value counts as true. -/
def truthy : Json → Bool
  | null => false
  | bool value => value
  | num value => value ≠ 0
  | str value => value ≠ ""
  | arr values => !values.isEmpty
  | obj entries => !entries.isEmpty

/-- `value or None`. -/
def orNone (value : Json) : Json := if value.truthy then value else null

mutual
/-- Equality of values can be decided. -/
def decEq : (a b : Json) → Decidable (a = b)
  | .null, .null => isTrue rfl
  | .bool a, .bool b => decidable_of_iff (a = b) (by simp)
  | .num a, .num b => decidable_of_iff (a = b) (by simp)
  | .str a, .str b => decidable_of_iff (a = b) (by simp)
  | .arr as, .arr bs =>
    match decEqList as bs with
    | isTrue h => isTrue (h ▸ rfl)
    | isFalse h => isFalse fun heq => h (Json.arr.inj heq)
  | .obj as, .obj bs =>
    match decEqEntries as bs with
    | isTrue h => isTrue (h ▸ rfl)
    | isFalse h => isFalse fun heq => h (Json.obj.inj heq)
  | .null, .bool _ | .null, .num _ | .null, .str _ | .null, .arr _ | .null, .obj _
  | .bool _, .null | .bool _, .num _ | .bool _, .str _ | .bool _, .arr _ | .bool _, .obj _
  | .num _, .null | .num _, .bool _ | .num _, .str _ | .num _, .arr _ | .num _, .obj _
  | .str _, .null | .str _, .bool _ | .str _, .num _ | .str _, .arr _ | .str _, .obj _
  | .arr _, .null | .arr _, .bool _ | .arr _, .num _ | .arr _, .str _ | .arr _, .obj _
  | .obj _, .null | .obj _, .bool _ | .obj _, .num _ | .obj _, .str _ | .obj _, .arr _ =>
    isFalse nofun

/-- Equality of arrays can be decided. -/
def decEqList : (as bs : List Json) → Decidable (as = bs)
  | [], [] => isTrue rfl
  | [], _ :: _ => isFalse nofun
  | _ :: _, [] => isFalse nofun
  | a :: as, b :: bs =>
    match decEq a b, decEqList as bs with
    | isTrue h, isTrue hs => isTrue (h ▸ hs ▸ rfl)
    | isFalse h, _ => isFalse fun heq => h (List.cons.inj heq).1
    | _, isFalse hs => isFalse fun heq => hs (List.cons.inj heq).2

/-- Equality of entries can be decided. -/
def decEqEntries : (as bs : List (String × Json)) → Decidable (as = bs)
  | [], [] => isTrue rfl
  | [], _ :: _ => isFalse nofun
  | _ :: _, [] => isFalse nofun
  | (k, a) :: as, (k', b) :: bs =>
    match decEq a b, decEqEntries as bs with
    | isTrue h, isTrue hs =>
      if hk : k = k' then isTrue (h ▸ hs ▸ hk ▸ rfl)
      else isFalse fun heq => hk (Prod.mk.inj (List.cons.inj heq).1).1
    | isFalse h, _ => isFalse fun heq => h (Prod.mk.inj (List.cons.inj heq).1).2
    | _, isFalse hs => isFalse fun heq => hs (List.cons.inj heq).2
end

instance : DecidableEq Json := decEq

end Json

end MonCTL
