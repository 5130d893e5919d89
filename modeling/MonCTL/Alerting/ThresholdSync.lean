import Mathlib.Data.List.Induction
import MonCTL.Alerting.Definition
import MonCTL.Dsl.HavingSpec

/-!
# Threshold Variables

Every inline threshold of an alert expression becomes a variable of the app, under the name
the parser made up for it, with the number in the expression as its default. The sync runs
whenever a definition is stored. It looks at the references of all tiers of that one
definition, keeps the first of each name, and writes its number over the default the
variable had.

The variables of one app are a dictionary by name. Display names, units and descriptions,
which nothing modelled reads, are left out.
-/

namespace MonCTL.Alerting

open List Dsl

structure ThresholdVariable where
  defaultValue : ℚ
  appValue : Option ℚ
  deriving DecidableEq

/-- The threshold variables of an app, by name. -/
abbrev Variables := Dict String ThresholdVariable

/-- The references of all tiers whose expression is valid. -/
def definitionRefs (table : String) (defn : AlertDefinition) : List ThresholdRefInfo :=
  defn.tiers.flatMap fun tier =>
    match tier.text with
    | none => []
    | some e =>
      let validation := validateExpression e table none none none
      if validation.valid then validation.thresholdRefs else []

/-- What the sync does for one reference: the variables, and the warning. -/
def syncRef (vars : Variables) (ref : ThresholdRefInfo) : Variables × List String :=
  let value := ref.inlineValue.getD 0
  if ref.isNamed then
    match vars.lookup ref.name with
    | none => (vars, [s!"Threshold variable '{ref.name}' not found. "
        ++ "Create it in the Thresholds tab first."])
    | some _ => (vars, [])
  else
    match vars.lookup ref.name with
    | none => (vars.set ref.name ⟨value, none⟩, [])
    | some existing =>
      if existing.defaultValue ≠ value then
        (vars.set ref.name { existing with defaultValue := value }, [])
      else (vars, [])

/-- The loop of the sync: each reference once, by name and kind. -/
def syncRefs : List (String × Bool) → List ThresholdRefInfo → Variables → Variables × List String
  | _, [], vars => (vars, [])
  | seen, ref :: refs, vars =>
    if (ref.name, ref.isNamed) ∈ seen then syncRefs seen refs vars
    else
      let (vars', warnings) := syncRef vars ref
      let (vars'', warnings') := syncRefs ((ref.name, ref.isNamed) :: seen) refs vars'
      (vars'', warnings ++ warnings')

/-- `sync_threshold_variables`: the variables it leaves, and its warnings. -/
def syncThresholdVariables (table : String) (defn : AlertDefinition) (vars : Variables) :
    Variables × List String :=
  let refs := definitionRefs table defn
  if refs = [] then (vars, []) else syncRefs [] refs vars

/-! ### One sync -/

/-- The number of the first inline reference of a name. -/
def firstInline (name : String) (refs : List ThresholdRefInfo) : Option ℚ :=
  refs.findSome? fun ref =>
    if ref.isNamed = false ∧ ref.name = name then some (ref.inlineValue.getD 0) else none

/-- A variable with a new default, or a new variable. -/
def withDefault (value : ℚ) (var : Option ThresholdVariable) : ThresholdVariable :=
  ⟨value, var.bind ThresholdVariable.appValue⟩

theorem lookup_syncRef (vars : Variables) (ref : ThresholdRefInfo) (name : String) :
    (syncRef vars ref).1.lookup name =
      if ref.isNamed = false ∧ ref.name = name then
        some (withDefault (ref.inlineValue.getD 0) (vars.lookup name))
      else vars.lookup name := by
  unfold syncRef
  dsimp only
  cases hnamed : ref.isNamed with
  | true => cases vars.lookup ref.name <;> simp
  | false =>
    by_cases hname : ref.name = name
    · subst hname
      cases hvar : vars.lookup ref.name with
      | none => simp [withDefault]
      | some existing =>
        obtain ⟨default, appValue⟩ := existing
        by_cases hdefault : default = ref.inlineValue.getD 0
        · simp [hdefault, hvar, withDefault]
        · simp [hdefault, withDefault]
    · have hne : name ≠ ref.name := fun h => hname h.symm
      cases vars.lookup ref.name with
      | none => simp [hname, Dict.lookup_set_ne hne]
      | some existing =>
        by_cases hdefault : existing.defaultValue = ref.inlineValue.getD 0
        · simp [hname, hdefault]
        · simp [hname, hdefault, Dict.lookup_set_ne hne]

variable {seen : List (String × Bool)} {name : String}

theorem lookup_syncRefs_of_seen
    (hseen : (name, false) ∈ seen) (refs : List ThresholdRefInfo) (vars : Variables) :
    (syncRefs seen refs vars).1.lookup name = vars.lookup name := by
  induction refs generalizing seen vars with
  | nil => rfl
  | cons ref refs ih =>
    rw [syncRefs]
    split
    · exact ih hseen vars
    next hnew =>
      dsimp only
      rw [ih (mem_cons_of_mem _ hseen), lookup_syncRef, if_neg]
      rintro ⟨hnamed, rfl⟩
      exact hnew (hnamed ▸ hseen)

theorem lookup_syncRefs
    (hseen : (name, false) ∉ seen) (refs : List ThresholdRefInfo) (vars : Variables) :
    (syncRefs seen refs vars).1.lookup name =
      match firstInline name refs with
      | some value => some (withDefault value (vars.lookup name))
      | none => vars.lookup name := by
  induction refs generalizing seen vars with
  | nil => rfl
  | cons ref refs ih =>
    rw [syncRefs, firstInline, findSome?_cons]
    by_cases hname : ref.isNamed = false ∧ ref.name = name
    · obtain ⟨hnamed, rfl⟩ := hname
      rw [hnamed, if_neg hseen]
      dsimp only
      rw [lookup_syncRefs_of_seen mem_cons_self, lookup_syncRef]
      simp [hnamed]
    · rw [if_neg hname]
      split
      · exact ih hseen vars
      next hnew =>
        dsimp only
        have hseen' : (name, false) ∉ (ref.name, ref.isNamed) :: seen := by
          rw [mem_cons, not_or]
          refine ⟨fun h => ?_, hseen⟩
          rw [Prod.mk.injEq] at h
          exact hname ⟨h.2.symm, h.1.symm⟩
        rw [ih hseen', lookup_syncRef, if_neg hname]
        rfl

/-- **One sync**: a name the definition uses inline has the first number written under it,
and every other variable is as it was. -/
theorem lookup_syncThresholdVariables (table : String) (defn : AlertDefinition)
    (vars : Variables) (name : String) : (syncThresholdVariables table defn vars).1.lookup name =
      match firstInline name (definitionRefs table defn) with
      | some value => some (withDefault value (vars.lookup name))
      | none => vars.lookup name := by
  unfold syncThresholdVariables
  dsimp only
  split
  next hrefs => rw [hrefs]; rfl
  · exact lookup_syncRefs (by simp) _ _

/-! ### A series of stored definitions -/

/-- The definitions and the threshold variables of an app. -/
structure AppState where
  definitions : Dict ℕ AlertDefinition
  thresholdVars : Variables

/-- A definition is created or updated: the router validates the tiers, stores the
definition and syncs the variables, or turns the request down. -/
def AppState.put (table : String) (s : AppState) (request : ℕ × AlertDefinition) : AppState :=
  if acceptsTiers table request.2.tiers then
    { definitions := s.definitions.set request.1 request.2
      thresholdVars := (syncThresholdVariables table request.2 s.thresholdVars).1 }
  else s

/-- A series of requests on an app that has no definitions yet. -/
def AppState.run (table : String) (vars : Variables) (requests : List (ℕ × AlertDefinition)) :
    AppState :=
  requests.foldl (AppState.put table) ⟨[], vars⟩

/-- The definitions the router accepted, in order. -/
def accepted (table : String) (requests : List (ℕ × AlertDefinition)) : List AlertDefinition :=
  (requests.map Prod.snd).filter fun defn => acceptsTiers table defn.tiers

/-- The number written last under a name: by the last definition that uses the name inline,
where the first such reference counts; or the default the variable started with. -/
def settledDefault (table : String) (vars : Variables) (requests : List (ℕ × AlertDefinition))
    (name : String) : Option ℚ :=
  ((accepted table requests).reverse.findSome? fun defn =>
    firstInline name (definitionRefs table defn)).or
      ((vars.lookup name).map ThresholdVariable.defaultValue)

def NoAppValues (vars : Variables) : Prop :=
  ∀ name var, vars.lookup name = some var → var.appValue = none

theorem settledDefault_append (table : String) (vars : Variables)
    (requests : List (ℕ × AlertDefinition)) (request : ℕ × AlertDefinition) (name : String) :
    settledDefault table vars (requests ++ [request]) name =
      if acceptsTiers table request.2.tiers then
        (firstInline name (definitionRefs table request.2)).or
          (settledDefault table vars requests name)
      else settledDefault table vars requests name := by
  unfold settledDefault accepted
  rw [map_append, filter_append, reverse_append, findSome?_append]
  cases hacc : acceptsTiers table request.2.tiers with
  | true => cases h : firstInline name (definitionRefs table request.2) <;> simp [hacc, h]
  | false => simp [hacc]

variable {table : String} {vars : Variables}

/-- **The variables after a run**: no value is set for the app, and the default is the
number written last. -/
theorem lookup_run (hvars : NoAppValues vars)
    (requests : List (ℕ × AlertDefinition)) (name : String) :
    (AppState.run table vars requests).thresholdVars.lookup name =
      (settledDefault table vars requests name).map fun value => ⟨value, none⟩ := by
  induction requests using List.reverseRecOn with
  | nil =>
    rw [settledDefault]
    cases hvar : vars.lookup name with
    | none => simp [AppState.run, accepted, hvar]
    | some var =>
      have happ := hvars name var hvar
      obtain ⟨default, appValue⟩ := var
      simp only at happ
      simp [AppState.run, accepted, hvar, happ]
  | append_singleton requests request ih =>
    rw [settledDefault_append, AppState.run, foldl_append, foldl_cons, foldl_nil]
    change ((AppState.run table vars requests).put table request).thresholdVars.lookup name = _
    rw [AppState.put]
    split
    next hacc =>
      dsimp only
      rw [lookup_syncThresholdVariables, ih]
      cases firstInline name (definitionRefs table request.2) with
      | none => rfl
      | some value => cases settledDefault table vars requests name <;> rfl
    next hacc => exact ih

variable {requests : List (ℕ × AlertDefinition)} {defn : AlertDefinition}

theorem mem_accepted_of_lookup_run {id : ℕ}
    (h : (AppState.run table vars requests).definitions.lookup id = some defn) :
    defn ∈ accepted table requests := by
  induction requests using List.reverseRecOn with
  | nil => simp [AppState.run] at h
  | append_singleton requests request ih =>
    rw [AppState.run, foldl_append, foldl_cons, foldl_nil] at h
    change ((AppState.run table vars requests).put table request).definitions.lookup id = _ at h
    rw [accepted, map_append, filter_append, mem_append]
    rw [AppState.put] at h
    split at h
    next hacc =>
      rw [Dict.lookup_set] at h
      split at h
      · exact .inr (by simp [← Option.some.inj h, hacc])
      · exact .inl (ih h)
    · exact .inl (ih h)

theorem settledDefault_isSome (hdefn : defn ∈ accepted table requests) {ref : ThresholdRefInfo}
    (href : ref ∈ definitionRefs table defn) (hinline : ref.isNamed = false) (vars : Variables) :
    (settledDefault table vars requests ref.name).isSome := by
  have hfirst : (firstInline ref.name (definitionRefs table defn)).isSome := by
    rw [firstInline, findSome?_isSome_iff]
    exact ⟨ref, href, by simp [hinline]⟩
  rw [settledDefault, Option.isSome_or, Bool.or_eq_true, findSome?_isSome_iff]
  exact .inl ⟨defn, List.mem_reverse.2 hdefn, hfirst⟩

end MonCTL.Alerting
