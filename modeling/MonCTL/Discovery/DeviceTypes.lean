import Mathlib.Data.List.Nodup
import Mathlib.Data.Prod.Lex
import MonCTL.Basic
import MonCTL.Lib.BestOf

/-!
# Device Types by sysObjectID

A discovered device gets the device type whose pattern is its sysObjectID or the longest prefix of
it that ends before a dot. The types are listed by descending priority, which decides between
patterns of the same length.
-/

namespace MonCTL.Discovery

open List Option

/-- `DeviceType`. -/
structure DeviceType where
  id : Uuid
  sysObjectIdPattern : String
  deviceCategoryId : Uuid
  vendor : Option String := none
  model : Option String := none
  osFamily : Option String := none
  priority : ℤ := 0

/-- `DeviceCategory`. -/
structure DeviceCategory where
  id : Uuid
  name : String

/-- `DiscoveryMatchResult`. -/
structure DiscoveryMatchResult where
  matched : Bool := true
  deviceType : DeviceType
  deviceCategory : Option DeviceCategory
  vendor : Option String
  model : Option String
  osFamily : Option String

/-- The tables that are read. -/
structure Catalogue where
  deviceTypes : List DeviceType
  deviceCategories : List DeviceCategory := []

/-- The pattern of a type is the OID, or a prefix of it that ends before a dot. -/
def Matches (sysObjectId : String) (rule : DeviceType) : Prop :=
  sysObjectId = rule.sysObjectIdPattern ∨
    (rule.sysObjectIdPattern ++ ".").toList <+: sysObjectId.toList
  deriving Decidable

/-- A round of the loop over the types. -/
def consider (sysObjectId : String) (best : Option DeviceType) (rule : DeviceType) :
    Option DeviceType :=
  let bestLen := (best.map fun t => t.sysObjectIdPattern.length).getD 0
  if Matches sysObjectId rule ∧ (bestLen < rule.sysObjectIdPattern.length ∨
      rule.sysObjectIdPattern.length = bestLen ∧ (best.map DeviceType.priority).getD 0 <
        rule.priority) then some rule
  else best

def Catalogue.result (db : Catalogue) (best : DeviceType) : DiscoveryMatchResult where
  deviceType := best
  deviceCategory := db.deviceCategories.find? (·.id = best.deviceCategoryId)
  vendor := best.vendor
  model := best.model
  osFamily := best.osFamily

/-- `_match_rule`. -/
def matchRule (db : Catalogue) (sysObjectId : String) : Option DiscoveryMatchResult :=
  let rules := db.deviceTypes.mergeSort fun t t' => t'.priority ≤ t.priority
  (rules.foldl (consider sysObjectId) none).map db.result

/-- Longer patterns rank higher, and of the same length those of higher priority. -/
def DeviceType.rank (t : DeviceType) : ℕ ×ₗ ℤ := toLex (t.sysObjectIdPattern.length, t.priority)

theorem consider_eq (sysObjectId : String) (best : Option DeviceType) (rule : DeviceType) :
    consider sysObjectId best rule = if Matches sysObjectId rule then
      better DeviceType.rank (toLex (0, 0)) best rule else best := by
  have hlt : ∀ (n : ℕ) (p : ℤ), toLex (n, p) < rule.rank ↔ n < rule.sysObjectIdPattern.length ∨
        rule.sysObjectIdPattern.length = n ∧ p < rule.priority := by
    intro n p
    rw [DeviceType.rank, Prod.Lex.toLex_lt_toLex, eq_comm (a := n)]
  cases best with
  | none => simp only [consider, better, map_none, getD_none, hlt, ite_and]
  | some t =>
    have hiff := hlt t.sysObjectIdPattern.length t.priority
    simp only [consider, better, map_some, getD_some, ite_and, ← hiff]
    rfl

theorem matchRule_eq (db : Catalogue) (sysObjectId : String) :
    (matchRule db sysObjectId).map DiscoveryMatchResult.deviceType =
      bestOf DeviceType.rank (toLex (0, 0)) ((db.deviceTypes.mergeSort
        fun t t' => t'.priority ≤ t.priority).filter (Matches sysObjectId ·)) := by
  rw [matchRule, Option.map_map, bestOf, foldl_filter]
  simp only [decide_eq_true_eq]
  rw [← funext₂ (consider_eq sysObjectId)]
  exact Option.map_id'

variable {db : Catalogue} {sysObjectId : String}

theorem mem_rules {t : DeviceType} :
    t ∈ (db.deviceTypes.mergeSort fun t t' => t'.priority ≤ t.priority).filter
      (Matches sysObjectId ·) ↔ t ∈ db.deviceTypes ∧ Matches sysObjectId t := by
  rw [mem_filter, mem_mergeSort, decide_eq_true_eq]

theorem pattern_eq_of_matches {t t' : DeviceType}
    (h : Matches sysObjectId t) (h' : Matches sysObjectId t')
    (hlen : t.sysObjectIdPattern.length = t'.sysObjectIdPattern.length) :
    t.sysObjectIdPattern = t'.sysObjectIdPattern := by
  have hprefix : ∀ {t : DeviceType}, Matches sysObjectId t →
      t.sysObjectIdPattern.toList <+: sysObjectId.toList := by
    rintro t (rfl | h)
    · exact prefix_rfl
    · rw [String.toList_append] at h
      exact (prefix_append _ _).trans h
  have hlen' : t.sysObjectIdPattern.toList.length = t'.sysObjectIdPattern.toList.length := by
    rw [String.length_toList, String.length_toList, hlen]
  exact String.toList_injective
    ((prefix_of_prefix_length_le ( hprefix h) ( hprefix h') hlen'.le).eq_of_length hlen')

theorem longest_of_found {r : DiscoveryMatchResult} (h : matchRule db sysObjectId = some r) :
    r.deviceType ∈ db.deviceTypes ∧ Matches sysObjectId r.deviceType ∧
      ∀ t ∈ db.deviceTypes, Matches sysObjectId t →
        t.sysObjectIdPattern.length ≤ r.deviceType.sysObjectIdPattern.length ∧
        (t.sysObjectIdPattern.length = r.deviceType.sysObjectIdPattern.length →
          t.priority ≤ r.deviceType.priority) := by
  have hbest := matchRule_eq db sysObjectId
  rw [h, map_some] at hbest
  obtain ⟨hmem, hmatch⟩ := mem_rules.1 ((bestOf_spec _ _ _).1 _ hbest.symm).1
  refine ⟨hmem, hmatch, fun t ht ht' => ?_⟩
  have hle := le_of_bestOf hbest.symm (mem_rules.2 ⟨ht, ht'⟩)
  rw [DeviceType.rank, DeviceType.rank, Prod.Lex.toLex_le_toLex] at hle
  omega

theorem not_found_iff :
    matchRule db sysObjectId = none ↔ ∀ t ∈ db.deviceTypes, Matches sysObjectId t →
      t.sysObjectIdPattern = "" ∧ t.priority ≤ 0 := by
  rw [← map_eq_none_iff, matchRule_eq, bestOf_eq_none_iff]
  constructor
  · intro h t ht hmatch
    have hle := h t (mem_rules.2 ⟨ht, hmatch⟩)
    rw [DeviceType.rank, Prod.Lex.toLex_le_toLex] at hle
    obtain hlt | ⟨hlen, hpriority⟩ := hle
    · exact absurd hlt (Nat.not_lt_zero _)
    · exact ⟨String.length_eq_zero_iff.1 hlen, hpriority⟩
  · intro h t ht
    obtain ⟨hmem, hmatch⟩ := mem_rules.1 ht
    obtain ⟨hpattern, hpriority⟩ := h t hmem hmatch
    rw [DeviceType.rank, Prod.Lex.toLex_le_toLex, hpattern]
    exact .inr ⟨rfl, hpriority⟩

/-- **A device gets the type with the longest pattern that matches**, and of those with the highest
priority. It gets none if no type matches but such as have an empty pattern and no positive priority.
When no two types have the same pattern, their order makes no difference. -/
theorem matchRule_longest (db : Catalogue) (sysObjectId : String) :
    (∀ r, matchRule db sysObjectId = some r →
      r.deviceType ∈ db.deviceTypes ∧ Matches sysObjectId r.deviceType ∧
        ∀ t ∈ db.deviceTypes, Matches sysObjectId t →
          t.sysObjectIdPattern.length ≤ r.deviceType.sysObjectIdPattern.length ∧
          (t.sysObjectIdPattern.length = r.deviceType.sysObjectIdPattern.length →
            t.priority ≤ r.deviceType.priority)) ∧
      (matchRule db sysObjectId = none ↔ ∀ t ∈ db.deviceTypes, Matches sysObjectId t →
        t.sysObjectIdPattern = "" ∧ t.priority ≤ 0) ∧
      ((db.deviceTypes.map DeviceType.sysObjectIdPattern).Nodup →
        ∀ deviceTypes, deviceTypes.Perm db.deviceTypes →
          matchRule { db with deviceTypes } sysObjectId = matchRule db sysObjectId) := by
  refine ⟨fun r hr => ?_, ?_, fun hnodup deviceTypes hperm => ?_⟩
  · exact longest_of_found hr
  · exact not_found_iff
  · cases hfound : matchRule db sysObjectId with
    | none => exact not_found_iff.2 fun t ht => not_found_iff.1 hfound t (hperm.mem_iff.1 ht)
    | some r =>
      cases hfound' : matchRule { db with deviceTypes } sysObjectId with
      | none =>
        have hnone : matchRule db sysObjectId = none :=
          not_found_iff.2 fun t ht => not_found_iff.1 hfound' t (hperm.mem_iff.2 ht)
        rw [hfound] at hnone
        cases hnone
      | some r' =>
        obtain ⟨hmem, hmatch, hlongest⟩ := longest_of_found hfound
        obtain ⟨hmem', hmatch', hlongest'⟩ := longest_of_found hfound'
        have hmem' := hperm.mem_iff.1 hmem'
        have hlen := Nat.le_antisymm (hlongest' _ (hperm.mem_iff.2 hmem) hmatch).1
          (hlongest _ hmem' hmatch').1
        have htype := inj_on_of_nodup_map hnodup hmem hmem'
          (pattern_eq_of_matches hmatch hmatch' hlen)
        obtain ⟨t, -, rfl⟩ := map_eq_some_iff.1 hfound
        obtain ⟨t', -, rfl⟩ := map_eq_some_iff.1 hfound'
        obtain rfl : t = t' := htype
        rfl

/-- A type with an empty pattern matches an OID with a dot in front, but is not found. -/
theorem not_found_of_empty : ¬∀ (db : Catalogue) (sysObjectId : String),
      (db.deviceTypes.map DeviceType.sysObjectIdPattern).Nodup →
        (matchRule db sysObjectId = none ↔ ∀ t ∈ db.deviceTypes, ¬Matches sysObjectId t) := by
  intro h
  have hmatch : Matches ".1.3.6" ⟨"t", "", "c", none, none, none, 0⟩ := by decide +kernel
  exact (h ⟨[⟨"t", "", "c", none, none, none, 0⟩], []⟩ ".1.3.6" (by decide)).1
    (by decide +kernel) _ mem_cons_self hmatch

end MonCTL.Discovery
