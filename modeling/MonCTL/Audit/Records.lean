import Mathlib.Algebra.Ring.Nat
import MonCTL.Audit.Diff

/-!
# What Audit Rows Give Away

An audit row gives no secret away: what is stored under a sensitive name, at any depth, does not
show in the text. The text is of bounded length, but one that has been cut off is no JSON, and
neither is one with a float that JSON has no numeral for.
-/

namespace MonCTL.Audit

open List JsonText

/-! ### Secrets -/

mutual
/-- A value without what is stored under sensitive names. -/
def Value.mask : Value → Value
  | .dict entries => .dict (maskEntries entries)
  | .list values => .list (maskList values)
  | .tuple values => .tuple (maskList values)
  | v => v

def maskList : List Value → List Value
  | [] => []
  | v :: values => v.mask :: maskList values

def maskEntries : List (Key × Value) → List (Key × Value)
  | [] => []
  | (.other, v) :: entries => (.other, v.mask) :: maskEntries entries
  | (.str name, v) :: entries =>
    (.str name, if isSensitive name then .none else v.mask) :: maskEntries entries
end

variable {fits : Fits} {stack : List Container}

mutual
theorem coerce_mask (fits : Fits) (stack : List Container) :
    ∀ v : Value, coerce fits stack v.mask = coerce fits stack v
  | .dict entries => by rw [Value.mask, coerce, coerce, redactEntries_mask]
  | .list values => by rw [Value.mask, coerce, coerce, coerceList_mask]
  | .tuple values => by rw [Value.mask, coerce, coerce, coerceList_mask]
  | .none | .bool _ | .int _ | .float _ | .str _ | .uuid _ | .datetime _ | .bytes _ | .other _ =>
    rfl

theorem coerceList_mask (fits : Fits) (stack : List Container) :
    ∀ values : List Value, coerceList fits stack (maskList values) = coerceList fits stack values
  | [] => rfl
  | v :: values => by rw [maskList, coerceList, coerceList, coerce_mask, coerceList_mask]

theorem redactEntries_mask (fits : Fits) (stack : List Container) : ∀ entries : List (Key × Value),
      redactEntries fits stack (maskEntries entries) = redactEntries fits stack entries
  | [] => rfl
  | (.other, v) :: entries => by rw [maskEntries, redactEntries, redactEntries]
  | (.str name, v) :: entries => by
      rw [maskEntries, redactEntries, redactEntries, redactEntries_mask]
      cases isSensitive name with
      | true => rfl
      | false => simp only [Bool.false_eq_true, if_false, coerce_mask]
end

variable {data : List (Key × Value)}

/-- **Nothing of a secret shows**: values that differ only in what is stored under sensitive names
have the same text. -/
theorem toJson_eq_of_mask_eq {data' : List (Key × Value)}
    (h : maskEntries data = maskEntries data') : toJson fits data = toJson fits data' := by
  have hmask (data : List (Key × Value)) :
      redactDict fits data = coerce fits [] (.dict (maskEntries data)) := by
    rw [redactDict, ← coerce_mask, Value.mask]
  rw [toJson, toJson, hmask data, hmask data', h]

/-! ### Writing a value -/

/-- The text of a value, which is first redacted. -/
def write (fits : Fits) (stack : List Container) (v : Value) : Option (List Char) :=
  (coerce fits stack v).bind dumps

def writeList (fits : Fits) (stack : List Container) (values : List Value) :
    Option (List (List Char)) :=
  (coerceList fits stack values).bind dumpsList

def writeEntries (fits : Fits) (stack : List Container) (entries : List (Key × Value)) :
    Option (List (List Char)) :=
  (redactEntries fits stack entries).bind dumpsEntries

theorem write_dict (entries : List (Key × Value)) : write fits stack (.dict entries) =
    if fits (.dict :: stack) then (writeEntries fits (.dict :: stack) entries).map object
    else none := by
  rw [write, coerce, writeEntries]
  split
  · cases redactEntries fits (.dict :: stack) entries <;> rfl
  · rfl

theorem write_list (values : List Value) : write fits stack (.list values) =
    if fits (.list :: stack) then (writeList fits (.list :: stack) values).map array
    else none := by
  rw [write, coerce, writeList]
  split
  · cases coerceList fits (.list :: stack) values <;> rfl
  · rfl

theorem write_tuple (values : List Value) :
    write fits stack (.tuple values) = write fits stack (.list values) := by
  rw [write, write, coerce, coerce]

theorem writeList_cons (v : Value) (values : List Value) : writeList fits stack (v :: values) =
    (write fits stack v).bind fun t => (writeList fits stack values).map fun ts => t :: ts := by
  rw [writeList, writeList, write, coerceList]
  cases coerce fits stack v with
  | none => rfl
  | some p =>
    cases hvalues : coerceList fits stack values with
    | none => cases hp : dumps p <;> simp [hp]
    | some plains => rfl

/-- The text of what is stored under a name. -/
def writeField (fits : Fits) (stack : List Container) (name : String) (v : Value) :
    Option (List Char) :=
  if isSensitive name then some (quote "***") else write fits stack v

theorem writeEntries_str (name : String) (v : Value) (entries : List (Key × Value)) :
    writeEntries fits stack ((.str name, v) :: entries) =
      (writeField fits stack name v).bind fun t =>
        (writeEntries fits stack entries).map fun ts => member name t :: ts := by
  rw [writeEntries, writeEntries, writeField, redactEntries, write]
  cases isSensitive name with
  | true => cases redactEntries fits stack entries <;> rfl
  | false =>
    simp only [Bool.false_eq_true, if_false]
    cases coerce fits stack v with
    | none => rfl
    | some p =>
      cases hentries : redactEntries fits stack entries with
      | none => cases hp : dumps p <;> simp [hp]
      | some plains => rfl

/-! ### Sizes -/

/-- The size of texts with commas between them, in brackets. -/
def bracketed (sizes : List ℕ) : ℕ := sizes.sum + 2 * (sizes.length - 1) + 2

mutual
/-- **How long the text of a value is**, unless it cannot be written: secrets count as three
asterisks. -/
def Value.size (fits : Fits) (stack : List Container) : Value → Option ℕ
  | .none => some 4
  | .bool value => some (if value then 4 else 5)
  | .int value =>
    if (toString value.natAbs).length ≤ maxStrDigits then some (toString value).length else none
  | .float value => some (dumpsFloat value).length
  | .str value => some (quote value).length
  | .uuid str => some (quote str).length
  | .datetime isoformat => some (quote isoformat).length
  | .bytes length => some (quote s!"<bytes:{length}>").length
  | .dict entries =>
    if fits (.dict :: stack) then (sizeEntries fits (.dict :: stack) entries).map bracketed
    else none
  | .list values =>
    if fits (.list :: stack) then (sizeList fits (.list :: stack) values).map bracketed
    else none
  | .tuple values =>
    if fits (.list :: stack) then (sizeList fits (.list :: stack) values).map bracketed
    else none
  | .other str => str.map fun str => (quote str).length

def sizeList (fits : Fits) (stack : List Container) : List Value → Option (List ℕ)
  | [] => some []
  | v :: values =>
    (v.size fits stack).bind fun n => (sizeList fits stack values).map fun ns => n :: ns

def sizeEntries (fits : Fits) (stack : List Container) : List (Key × Value) → Option (List ℕ)
  | [] => some []
  | (.other, _) :: _ => none
  | (.str name, v) :: entries =>
    (if isSensitive name then some 5 else v.size fits stack).bind fun n =>
      (sizeEntries fits stack entries).map fun ns => ((quote name).length + 2 + n) :: ns
end

theorem length_join (ts : List (List Char)) :
    (join ts).length = (ts.map List.length).sum + 2 * (ts.length - 1) := by
  induction ts with
  | nil => rfl
  | cons t ts ih =>
    cases ts with
    | nil => simp [join]
    | cons t' ts =>
      rw [join, length_append, length_cons, length_cons, ih]
      simp only [map_cons, sum_cons, length_cons]
      omega

theorem length_array (ts : List (List Char)) : (array ts).length = bracketed (ts.map List.length) :=
    by
  rw [array, bracketed, length_cons, length_append, length_join, length_map]
  rfl

theorem length_object (ts : List (List Char)) : (object ts).length = bracketed
    (ts.map List.length) := by
  rw [object, bracketed, length_cons, length_append, length_join, length_map]
  rfl

theorem length_member (name : String) (t : List Char) :
    (member name t).length = (quote name).length + 2 + t.length := by
  rw [member, length_append, length_cons, length_cons]
  omega

mutual
theorem map_length_write (fits : Fits) (stack : List Container) :
    ∀ v : Value, (write fits stack v).map List.length = v.size fits stack
  | .none | .float _ | .str _ | .uuid _ | .datetime _ | .bytes _ => rfl
  | .bool value => by cases value <;> rfl
  | .int value => by
      rw [write, coerce, Value.size, Option.bind_some, dumps]
      split <;> rfl
  | .other str => by cases str <;> rfl
  | .dict entries => by
      rw [write_dict, Value.size, ← map_length_writeEntries]
      split
      · cases writeEntries fits (.dict :: stack) entries with
        | none => rfl
        | some ts => exact congrArg some (length_object ts)
      · rfl
  | .list values => by
      rw [write_list, Value.size, ← map_length_writeList]
      split
      · cases writeList fits (.list :: stack) values with
        | none => rfl
        | some ts => exact congrArg some (length_array ts)
      · rfl
  | .tuple values => by
      rw [write_tuple, write_list, Value.size, ← map_length_writeList]
      split
      · cases writeList fits (.list :: stack) values with
        | none => rfl
        | some ts => exact congrArg some (length_array ts)
      · rfl

theorem map_length_writeList (fits : Fits) (stack : List Container) : ∀ values : List Value,
      (writeList fits stack values).map (List.map List.length) = sizeList fits stack values
  | [] => rfl
  | v :: values => by
      rw [writeList_cons, sizeList, ← map_length_write, ← map_length_writeList]
      cases write fits stack v with
      | none => rfl
      | some t => cases writeList fits stack values <;> rfl

theorem map_length_writeEntries (fits : Fits) (stack : List Container) :
    ∀ entries : List (Key × Value),
      (writeEntries fits stack entries).map (List.map List.length) = sizeEntries fits stack entries
  | [] => rfl
  | (.other, _) :: _ => rfl
  | (.str name, v) :: entries => by
      rw [writeEntries_str, sizeEntries, ← map_length_write, ← map_length_writeEntries, writeField]
      cases isSensitive name with
      | true =>
        cases writeEntries fits stack entries with
        | none => rfl
        | some ts => exact congrArg (fun n => some (n :: ts.map List.length)) (length_member _ _)
      | false =>
        simp only [Bool.false_eq_true, if_false]
        cases write fits stack v with
        | none => rfl
        | some t =>
          cases writeEntries fits stack entries with
          | none => rfl
          | some ts => exact congrArg (fun n => some (n :: ts.map List.length)) (length_member _ _)
end

/-! ### Texts that are no JSON -/

def Stops (t : List Char) : Prop := scan .outside t = none

variable {t : List Char}

theorem Stops.not_balanced (h : Stops t) : ¬JsonText.Balanced t := fun hbalanced => by
  rw [Stops, hbalanced] at h
  cases h

theorem Stops.append (h : Stops t) (t' : List Char) : Stops (t ++ t') := by
  rw [Stops, scan_append, h]
  rfl

theorem stops_append {t' : List Char} (h : JsonText.Balanced t) (h' : Stops t') : Stops (t ++ t') :=
    by
  rw [Stops, scan_append, h]
  exact h'

theorem Stops.cons {c : Char} (hc : IsPlain c) (h : Stops t) : Stops (c :: t) :=
  stops_append (.cons hc .nil) h

/-- **A text that has been cut off is no JSON**, wherever that was. -/
theorem not_isJson_truncated (t : List Char) : ¬IsJson (t ++ truncated.toList) := by
  intro h
  have hbalanced := h.balanced
  have hstops : ∀ place : Place, scan place truncated.toList = none := by
    intro place
    cases place <;> decide
  rw [JsonText.Balanced, scan_append] at hbalanced
  cases hscan : scan .outside t with
  | none =>
    rw [hscan] at hbalanced
    cases hbalanced
  | some place =>
    rw [hscan, Option.bind_some, hstops] at hbalanced
    cases hbalanced

/-! ### Floats -/

/-- Whether JSON has a numeral for a float. -/
def Float.IsFinite : Float → Prop
  | .finite _ _ => True
  | .inf _ => False
  | .nan => False

mutual
/-- Every float in the value is finite, those in secrets apart. -/
def Value.Finite : Value → Prop
  | .float value => value.IsFinite
  | .dict entries => FiniteEntries entries
  | .list values => FiniteList values
  | .tuple values => FiniteList values
  | _ => True

def FiniteList : List Value → Prop
  | [] => True
  | v :: values => v.Finite ∧ FiniteList values

def FiniteEntries : List (Key × Value) → Prop
  | [] => True
  | (.other, v) :: entries => v.Finite ∧ FiniteEntries entries
  | (.str name, v) :: entries => (isSensitive name = false → v.Finite) ∧ FiniteEntries entries
end

/-- A text that is as JSON would have it, if `finite`, and otherwise one that the scan stops in. -/
def Written (part : Part) (finite : Prop) (t : List Char) : Prop :=
  (finite ∧ IsPart part t) ∨ (¬finite ∧ Stops t)

variable {finite : Prop}

theorem Written.of_isPart {part : Part} (hfinite : finite)
    (h : IsPart part t) : Written part finite t := .inl ⟨hfinite, h⟩

variable {ts : List (List Char)}

theorem written_join_cons {part : Part} {finites : Prop} (h : Written part finite t)
    (hs : (finites ∧ ∀ t ∈ ts, IsPart part t) ∨ (¬finites ∧ Stops (join ts))) :
    ((finite ∧ finites) ∧ ∀ t' ∈ t :: ts, IsPart part t') ∨
      (¬(finite ∧ finites) ∧ Stops (join (t :: ts))) := by
  rcases h with ⟨hfinite, ht⟩ | ⟨hinfinite, ht⟩
  · rcases hs with ⟨hfinites, hts⟩ | ⟨hinfinites, hts⟩
    · exact .inl ⟨⟨hfinite, hfinites⟩, List.forall_mem_cons.2 ⟨ht, hts⟩⟩
    · refine .inr ⟨fun hboth => hinfinites hboth.2, ?_⟩
      cases ts with
      | nil => cases hts
      | cons t' ts => exact stops_append ht.balanced (.cons (by decide) (.cons (by decide) hts))
  · refine .inr ⟨fun hboth => hinfinite hboth.1, ?_⟩
    cases ts with
    | nil => exact ht
    | cons t' ts => exact ht.append _

theorem written_array (h : (finite ∧ ∀ t ∈ ts, IsPart .value t) ∨ (¬finite ∧ Stops (join ts))) :
    Written .value finite (array ts) :=
  h.imp (And.imp_right isPart_array) (And.imp_right fun hstops =>
    .cons (by decide) (hstops.append _))

theorem written_object (h : (finite ∧ ∀ t ∈ ts, IsPart .members t) ∨ (¬finite ∧ Stops (join ts))) :
    Written .value finite (object ts) :=
  h.imp (And.imp_right isPart_object) (And.imp_right fun hstops =>
    .cons (by decide) (hstops.append _))

theorem written_member (name : String) {t : List Char}
    (h : Written .value finite t) : Written .members finite (member name t) := by
  refine h.imp (And.imp_right (isPart_member name)) (And.imp_right fun hstops => ?_)
  exact stops_append (isString_quote name).balanced (.cons (by decide) (.cons (by decide) hstops))

theorem written_quote (s : String) : Written .value True (quote s) :=
  .of_isPart trivial (.string (isString_quote s))

theorem written_float (f : Float) : Written .value f.IsFinite (dumpsFloat f) := by
  cases f with
  | finite repr hnumber => exact .of_isPart trivial (.number hnumber)
  | inf negative =>
    refine .inr ⟨id, ?_⟩
    cases negative <;> rfl
  | nan => exact .inr ⟨id, rfl⟩

mutual
/-- **What is written of a value** is JSON, if its floats are finite. -/
theorem written_write (fits : Fits) (stack : List Container) :
    ∀ (v : Value) {t : List Char}, write fits stack v = some t → Written .value v.Finite t
  | .none, _, h => by
      cases h
      exact .of_isPart trivial .null
  | .bool value, _, h => by
      cases value with
      | true =>
        cases h
        exact .of_isPart trivial .true
      | false =>
        cases h
        exact .of_isPart trivial .false
  | .int value, _, h => by
      rw [write, coerce, Option.bind_some, dumps] at h
      split at h
      · cases h
        exact .of_isPart trivial (.number (isNumber_toString value))
      · cases h
  | .float value, _, h => by
      cases h
      exact written_float value
  | .str value, _, h => by
      cases h
      exact written_quote value
  | .uuid str, _, h => by
      cases h
      exact written_quote str
  | .datetime isoformat, _, h => by
      cases h
      exact written_quote isoformat
  | .bytes length, _, h => by
      cases h
      exact written_quote _
  | .other str, _, h => by
      obtain ⟨str', -, rfl⟩ := Option.map_eq_some_iff.1 (show str.map quote = some _ from h)
      exact written_quote str'
  | .dict entries, _, h => by
      rw [write_dict] at h
      split at h
      · obtain ⟨ts, hts, rfl⟩ := Option.map_eq_some_iff.1 h
        exact written_object (written_writeEntries fits (.dict :: stack) entries hts)
      · cases h
  | .list values, _, h => by
      rw [write_list] at h
      split at h
      · obtain ⟨ts, hts, rfl⟩ := Option.map_eq_some_iff.1 h
        exact written_array (written_writeList fits (.list :: stack) values hts)
      · cases h
  | .tuple values, _, h => by
      rw [write_tuple, write_list] at h
      split at h
      · obtain ⟨ts, hts, rfl⟩ := Option.map_eq_some_iff.1 h
        exact written_array (written_writeList fits (.list :: stack) values hts)
      · cases h

theorem written_writeList (fits : Fits) (stack : List Container) :
    ∀ (values : List Value) {ts : List (List Char)}, writeList fits stack values = some ts →
      (FiniteList values ∧ ∀ t ∈ ts, IsPart .value t) ∨ (¬FiniteList values ∧ Stops (join ts))
  | [], _, h => by
      cases h
      exact .inl ⟨trivial, fun _ ht => absurd ht not_mem_nil⟩
  | v :: values, _, h => by
      rw [writeList_cons] at h
      obtain ⟨t, ht, h⟩ := Option.bind_eq_some_iff.1 h
      obtain ⟨ts, hts, rfl⟩ := Option.map_eq_some_iff.1 h
      exact written_join_cons (written_write fits stack v ht)
        (written_writeList fits stack values hts)

theorem written_writeEntries (fits : Fits) (stack : List Container) :
    ∀ (entries : List (Key × Value)) {ts : List (List Char)},
      writeEntries fits stack entries = some ts →
        (FiniteEntries entries ∧ ∀ t ∈ ts, IsPart .members t) ∨
          (¬FiniteEntries entries ∧ Stops (join ts))
  | [], _, h => by
      cases h
      exact .inl ⟨trivial, fun _ ht => absurd ht not_mem_nil⟩
  | (.other, _) :: _, _, h => by cases h
  | (.str name, v) :: entries, _, h => by
      rw [writeEntries_str] at h
      obtain ⟨t, ht, h⟩ := Option.bind_eq_some_iff.1 h
      obtain ⟨ts, hts, rfl⟩ := Option.map_eq_some_iff.1 h
      have hfield : Written .value (isSensitive name = false → v.Finite) t := by
        rw [writeField] at ht
        split at ht
        next hsensitive =>
          cases ht
          exact .of_isPart (fun hfalse => by rw [hsensitive] at hfalse; cases hfalse)
            (.string (isString_quote _))
        next hsensitive =>
          have hwritten := written_write fits stack v ht
          rwa [eq_false_of_ne_true hsensitive, forall_prop_of_true rfl]
      exact written_join_cons (written_member name hfield)
        (written_writeEntries fits stack entries hts)
end

/-! ### Rows -/

/-- What the text of an audit row should be: it is the same for all secrets, it is JSON, and its
length is bounded. -/
structure Readable (fits : Fits) (data : List (Key × Value)) : Prop where
  secret : ∀ data', maskEntries data = maskEntries data' → toJson fits data = toJson fits data'
  isJson : IsJson (toJson fits data).toList
  bounded : (toJson fits data).length ≤ maxValueStr + truncated.length

theorem toJson_of_write_none (h : write fits [] (.dict data) = none) : toJson fits data = "\x7b\x7d" := by
  rw [toJson, redactDict]
  rw [write] at h
  rw [h]

theorem toJson_of_write_some (h : write fits [] (.dict data) = some t) : (toJson fits data).toList =
      if t.length > maxValueStr then t.take maxValueStr ++ truncated.toList else t := by
  rw [toJson, redactDict]
  rw [write] at h
  rw [h]
  dsimp only
  split
  · rw [String.toList_append, String.toList_ofList]
  · rw [String.toList_ofList]

theorem length_toJson_le (fits : Fits) (data : List (Key × Value)) :
    (toJson fits data).length ≤ maxValueStr + truncated.length := by
  rw [← String.length_toList]
  cases hwrite : write fits [] (.dict data) with
  | none =>
    rw [toJson_of_write_none hwrite]
    decide
  | some t =>
    rw [toJson_of_write_some hwrite]
    split
    · rw [length_append, String.length_toList]
      exact Nat.add_le_add_right (length_take_le _ _) _
    next hshort => exact (Nat.le_of_not_gt hshort).trans (Nat.le_add_right _ _)

/-- **The rows that are as they should be**: those of values that cannot be written, and those
whose text is short enough and has no float in it that JSON has no numeral for. -/
theorem readable_iff (fits : Fits) (data : List (Key × Value)) : Readable fits data ↔
      ∀ n ∈ (Value.dict data).size fits [], n ≤ maxValueStr ∧ (Value.dict data).Finite := by
  have hreadable : Readable fits data ↔ IsJson (toJson fits data).toList :=
    ⟨fun h => h.isJson,
      fun h => ⟨fun _ hmask => toJson_eq_of_mask_eq hmask, h, length_toJson_le fits data⟩⟩
  rw [hreadable, ← map_length_write]
  cases hwrite : write fits [] (.dict data) with
  | none =>
    rw [toJson_of_write_none hwrite]
    refine iff_of_true ?_ (fun n hn => absurd hn (by simp))
    have hspace : IsSpace [] := fun _ hc => absurd hc not_mem_nil
    exact (IsPart.emptyObject hspace).toElement
  | some t =>
    rw [toJson_of_write_some hwrite]
    simp only [Option.map_some, Option.mem_some_iff, forall_eq']
    split
    next hlong =>
      refine iff_of_false (not_isJson_truncated _) fun h => absurd h.1 (Nat.not_le.2 hlong)
    next hshort =>
      rcases written_write fits [] _ hwrite with ⟨hfinite, hpart⟩ | ⟨hinfinite, hstops⟩
      · exact iff_of_true hpart.toElement ⟨Nat.le_of_not_gt hshort, hfinite⟩
      · exact iff_of_false (fun h => hstops.not_balanced h.balanced) fun h => hinfinite h.2

/-! ### A long text -/

def longText : String := String.ofList (List.replicate maxValueStr 'x')

/-- The text of a short value, with a secret in it. -/
example : toJson (fun _ => true) [(.str "name", .str "db1"), (.str "api_token", .int 5)] =
    "\x7b\"name\": \"db1\", \"api_token\": \"***\"\x7d" := by decide +kernel

/-- **A long value** is cut off. -/
theorem not_readable : ¬∀ fits data, Readable fits data := by
  intro hall
  have hsize : ∀ n ∈ (Value.dict [(.str "a", .str longText)]).size (fun _ => true) [],
      n ≤ maxValueStr := fun n hn => ((readable_iff _ _).1 (hall (fun _ => true) _) n hn).1
  have hchar : escapeChar 'x' = ['x'] := by decide
  have hquote : (quote longText).length = maxValueStr + 2 := by
    rw [quote, longText, String.toList_ofList, flatMap_replicate]
    simp [hchar]
  have hname : isSensitive "a" = false := by decide +kernel
  simp [Value.size, sizeEntries, hname, hquote, bracketed] at hsize
  omega

end MonCTL.Audit
