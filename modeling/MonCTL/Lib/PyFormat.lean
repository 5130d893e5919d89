import MonCTL.Lib.Dict
import MonCTL.Lib.PyValue

/-!
# Python Format Strings

`str.format_map` for a dictionary of texts. A template is literal text and replacement fields; a
field names a key, may go on with attributes and items, may ask for a conversion, and may have a
specification, which may have replacement fields itself. Fields are read and rendered one after
another, so an error in one comes before anything that is wrong with what follows.

A field starts at a text, but attributes lead from it to any object of the interpreter; what these
are and do is a parameter. What is done to the texts themselves is not.
-/

namespace MonCTL.PyFormat

open List Option

/-- The exceptions of formatting. -/
inductive FormatError
  | valueError
  | typeError
  | overflowError
  | attributeError
  | indexError
  | memoryError
  | other (name : String)
  deriving DecidableEq

/-! ### Reading a template -/

/-- A replacement field. -/
structure Field where
  name : List Char
  conversion : Option Char := none
  spec : List Char := []
  expands : Bool := false

/-- A part of a template. -/
inductive Markup
  | literal (text : List Char)
  | field (f : Field)

/-- The name of a field up to the character that ends it, and what follows. What stands in
brackets does not end it. -/
def splitName : Bool → List Char → Option (List Char × Char × List Char)
  | _, [] => none
  | true, c :: cs => (splitName (c ≠ ']') cs).map fun r => (c :: r.1, r.2)
  | false, c :: cs =>
    if c = '{' then none
    else if c = '}' ∨ c = ':' ∨ c = '!' then some ([], c, cs)
    else (splitName (c = '[') cs).map fun r => (c :: r.1, r.2)

/-- A specification up to the brace that ends the field, whether there is a field in it, and what
follows. -/
def splitSpec : ℕ → List Char → Option (List Char × Bool × List Char)
  | _, [] => none
  | depth, c :: cs =>
    if c = '{' then (splitSpec (depth + 1) cs).map fun r => (c :: r.1, true, r.2.2)
    else if c = '}' then
      if depth = 0 then some ([], false, cs)
      else (splitSpec (depth - 1) cs).map fun r => (c :: r.1, r.2)
    else (splitSpec depth cs).map fun r => (c :: r.1, r.2)

def specField (name : List Char) (conversion : Option Char) (cs : List Char) :
    Option (Field × List Char) :=
  (splitSpec 0 cs).map fun r => (⟨name, conversion, r.1, r.2.1⟩, r.2.2)

/-- `parse_field`: the field after an opening brace, and what follows. -/
def parseField (cs : List Char) : Option (Field × List Char) :=
  match splitName false cs with
  | none => none
  | some (name, stop, rest) =>
    if stop = '}' then some ({ name }, rest)
    else if stop = ':' then specField name none rest
    else
      match rest with
      | conversion :: '}' :: rest => some ({ name, conversion := some conversion }, rest)
      | conversion :: ':' :: rest => specField name (some conversion) rest
      | _ => none

theorem length_splitName {inBracket : Bool} {cs : List Char} {r : List Char × Char × List Char}
    (h : splitName inBracket cs = some r) : r.2.2.length < cs.length := by
  induction cs generalizing inBracket r with
  | nil => cases inBracket <;> cases h
  | cons c cs ih =>
    have hmap : ∀ {b}, (splitName b cs).map (fun r => (c :: r.1, r.2)) = some r →
        r.2.2.length < (c :: cs).length := by
      intro b hb
      obtain ⟨r', hr', rfl⟩ := map_eq_some_iff.1 hb
      exact (ih hr').trans (Nat.lt_succ_self _)
    cases inBracket with
    | true => exact hmap h
    | false =>
      rw [splitName] at h
      split_ifs at h
      · cases h
        exact Nat.lt_succ_self _
      · exact hmap h

theorem length_splitSpec {depth : ℕ} {cs : List Char} {r : List Char × Bool × List Char}
    (h : splitSpec depth cs = some r) : r.2.2.length < cs.length := by
  induction cs generalizing depth r with
  | nil => cases h
  | cons c cs ih =>
    rw [splitSpec] at h
    split_ifs at h
    · obtain ⟨r', hr', rfl⟩ := map_eq_some_iff.1 h
      exact (ih hr').trans (Nat.lt_succ_self _)
    · cases h
      exact Nat.lt_succ_self _
    · obtain ⟨r', hr', rfl⟩ := map_eq_some_iff.1 h
      exact (ih hr').trans (Nat.lt_succ_self _)
    · obtain ⟨r', hr', rfl⟩ := map_eq_some_iff.1 h
      exact (ih hr').trans (Nat.lt_succ_self _)

theorem length_parseField {cs rest : List Char} {f : Field} (h : parseField cs = some (f, rest)) :
    rest.length < cs.length := by
  rw [parseField] at h
  split at h
  · cases h
  next name stop rest' hname =>
    have hlt : rest'.length < cs.length := length_splitName hname
    have hspec : ∀ {conversion tail}, specField name conversion tail = some (f, rest) →
        tail.length ≤ rest'.length → rest.length < cs.length := by
      intro conversion tail htail hle
      obtain ⟨r, hr, heq⟩ := map_eq_some_iff.1 htail
      cases heq
      exact ((length_splitSpec hr).trans_le hle).trans hlt
    split_ifs at h
    · cases h
      exact hlt
    · exact hspec h (le_refl _)
    · split at h
      · cases h
        simp only [length_cons] at hlt
        omega
      · exact hspec h (by simp only [length_cons]; omega)
      · cases h

/-- `MarkupIterator_next`, until the template ends or something is wrong: the parts read, and
whether the template ended. -/
def markup (cs : List Char) : List Markup × Bool :=
  match _h : cs.dropWhile fun c => c ≠ '{' ∧ c ≠ '}' with
  | [] => if cs = [] then ([], true) else ([.literal cs], true)
  | [_] => ([], false)
  | c :: d :: rest =>
    let literal := cs.takeWhile fun c => c ≠ '{' ∧ c ≠ '}'
    if c = d then
      let (parts, ended) := markup rest
      (.literal (literal ++ [c]) :: parts, ended)
    else if c = '}' then ([], false)
    else
      match _hfield : parseField (d :: rest) with
      | none => ([], false)
      | some (f, rest') =>
        let (parts, ended) := markup rest'
        (.literal literal :: .field f :: parts, ended)
termination_by cs.length
decreasing_by
  · have hle := (dropWhile_suffix (l := cs) fun c => c ≠ '{' ∧ c ≠ '}').length_le
    rw [_h] at hle
    simp only [length_cons] at hle
    omega
  · have hle := (dropWhile_suffix (l := cs) fun c => c ≠ '{' ∧ c ≠ '}').length_le
    have hlt := length_parseField _hfield
    rw [_h] at hle
    simp only [length_cons] at hle hlt
    omega

/-! ### The name of a field -/

/-- What leads from one object to another. -/
inductive Access
  | attr (name : String)
  | index (n : ℕ)
  | key (name : String)

/-- `PY_SSIZE_T_MAX`. -/
def ssizeMax : ℕ := 2 ^ 63 - 1

/-- `get_integer`: a text of decimal digits, of any script. -/
def isInteger (cs : List Char) : Bool := cs ≠ [] && cs.all fun c => (asciiDigit c).isDigit

/-- The number digits of any script spell. -/
def integer (cs : List Char) : ℕ := digitsValue (cs.map asciiDigit)

/-- `FieldNameIterator_next`, until the name ends or something is wrong. -/
def accesses (cs : List Char) : List Access × Bool :=
  match cs with
  | [] => ([], true)
  | '.' :: cs =>
    let name := cs.takeWhile fun c => c ≠ '.' ∧ c ≠ '['
    if name = [] then ([], false)
    else
      let (rest, ended) := accesses (cs.dropWhile fun c => c ≠ '.' ∧ c ≠ '[')
      (.attr (String.ofList name) :: rest, ended)
  | '[' :: cs =>
    let name := cs.takeWhile (· ≠ ']')
    match _h : cs.dropWhile (· ≠ ']') with
    | [] => ([], false)
    | _ :: cs' =>
      if name = [] then ([], false)
      else if isInteger name then
        if ssizeMax < integer name then ([], false)
        else
          let (rest, ended) := accesses cs'
          (.index (integer name) :: rest, ended)
      else
        let (rest, ended) := accesses cs'
        (.key (String.ofList name) :: rest, ended)
  | _ :: _ => ([], false)
termination_by cs.length
decreasing_by
  · have hle := (dropWhile_suffix (l := cs) fun c => c ≠ '.' ∧ c ≠ '[').length_le
    simp only [length_cons]
    omega
  all_goals
    have hle := (dropWhile_suffix (l := cs) (· ≠ ']')).length_le
    rw [_h] at hle
    simp only [length_cons] at hle ⊢
    omega

/-! ### Objects -/

/-- What a field can stand for: a text, or something that attributes have led to. -/
inductive Value (Obj : Type)
  | text (s : String)
  | object (o : Obj)

/-- The objects that attributes lead to, how they are shown, and how long a text may get. -/
structure Objects (Obj : Type) where
  getattr : Value Obj → String → Except FormatError (Value Obj)
  getitem : Obj → String ⊕ ℕ → Except FormatError (Value Obj)
  repr : Value Obj → Except FormatError String
  ascii : Value Obj → Except FormatError String
  str : Obj → Except FormatError String
  format : Obj → String → Except FormatError String
  room : ℕ

section

variable {Obj : Type} (python : Objects Obj)

/-- `getattr` or an item. A text has characters, and no items under names. -/
def Objects.access : Value Obj → Access → Except FormatError (Value Obj)
  | v, .attr name => python.getattr v name
  | .text s, .index n =>
    match s.toList[n]? with
    | some c => .ok (.text (String.singleton c))
    | none => .error .indexError
  | .text _, .key _ => .error .typeError
  | .object o, .index n => python.getitem o (.inr n)
  | .object o, .key name => python.getitem o (.inl name)

/-- One access after another. -/
def Objects.follow : Value Obj → List Access → Except FormatError (Value Obj)
  | v, [] => .ok v
  | v, a :: rest => do Objects.follow (← python.access v a) rest

/-- `do_conversion`. -/
def Objects.convert (v : Value Obj) : Option Char → Except FormatError (Value Obj)
  | none => .ok v
  | some 's' =>
    match v with
    | .text s => .ok (.text s)
    | .object o => return .text (← python.str o)
  | some 'r' => return .text (← python.repr v)
  | some 'a' => return .text (← python.ascii v)
  | some _ => .error .valueError

/-! ### The specifications of texts -/

/-- What a specification asks for. -/
structure TextSpec where
  fill : Char := ' '
  align : Char := '<'
  width : ℕ := 0
  precision : Option ℕ := none

/-- `is_alignment_token`. -/
def isAlignment (c : Char) : Bool := c = '<' || c = '>' || c = '=' || c = '^'

/-- The fill character and the alignment, and what follows. -/
def specAlign : List Char → Option Char × Option Char × List Char
  | fill :: align :: cs =>
    if isAlignment align then (some fill, some align, cs)
    else if isAlignment fill then (none, some fill, align :: cs)
    else (none, none, fill :: align :: cs)
  | [c] => if isAlignment c then (none, some c, []) else (none, none, [c])
  | [] => (none, none, [])

/-- Digits and what follows; too many of them are an error. -/
def specInteger (cs : List Char) : Option (List Char × List Char) :=
  let digits := cs.takeWhile fun c => (asciiDigit c).isDigit
  if ssizeMax < integer digits then none
  else some (digits, cs.dropWhile fun c => (asciiDigit c).isDigit)

/-- A precision, if there is one, and what follows. -/
def specPrecision : List Char → Option (Option ℕ × List Char)
  | '.' :: cs =>
    match specInteger cs with
    | some (digit :: digits, rest) => some (some (integer (digit :: digits)), rest)
    | _ => none
  | cs => some (none, cs)

/-- `parse_internal_render_format_spec`, of a text: signs, separators and other types are errors,
and so is an alignment after the sign. -/
def parseSpec (cs : List Char) : Option TextSpec := do
  let (fill, align, cs) := specAlign cs
  let zero := fill = none ∧ cs.head? = some '0'
  let (width, cs) ← specInteger (if zero then cs.tail else cs)
  let (precision, cs) ← specPrecision cs
  if (cs = [] ∨ cs = ['s']) ∧ align ≠ some '=' then
    some {
      fill := if zero then '0' else fill.getD ' '
      align := align.getD '<'
      width := integer width
      precision }
  else none

/-- A text with padding. -/
def pad (spec : TextSpec) (body : List Char) : List Char :=
  let missing := spec.width - body.length
  let before := if spec.align = '>' then missing else if spec.align = '^' then missing / 2 else 0
  List.replicate before spec.fill ++ body ++ List.replicate (missing - before) spec.fill

/-- `format_string_internal`: the padding has to fit into memory. -/
def formatText (room : ℕ) (s spec : String) : Except FormatError String :=
  if spec = "" then .ok s
  else
    match parseSpec spec.toList with
    | none => .error .valueError
    | some textSpec =>
      let body := s.toList.take (textSpec.precision.getD s.length)
      if body.length < textSpec.width ∧ room < textSpec.width then .error .memoryError
      else .ok (String.ofList (pad textSpec body))

/-- `render_field`. -/
def Objects.form (v : Value Obj) (spec : String) : Except FormatError String :=
  match v with
  | .text s => formatText python.room s spec
  | .object o => python.format o spec

/-! ### Rendering -/

variable (context : Dict String String)

/-- The text under a key of a `_SafeFormatDict`: a key that is missing is put back as it was. -/
def safeGet (key : String) : String :=
  (context.get? key).getD (String.singleton '{' ++ key ++ String.singleton '}')

variable (name : List Char)

/-- The key a name starts with. -/
def firstName : List Char := name.takeWhile fun c => c ≠ '.' ∧ c ≠ '['

/-- What follows it. -/
def laterName : List Char := name.dropWhile fun c => c ≠ '.' ∧ c ≠ '['

/-- A name that starts with a key; positions are an error. -/
def Named : Prop := firstName name ≠ [] ∧ isInteger (firstName name) = false
  deriving Decidable

/-- `get_field_object`. -/
def Objects.fieldObject : Except FormatError (Value Obj) :=
  if Named name then do
    let v ← python.follow (.text (safeGet context (String.ofList (firstName name))))
      (accesses (laterName name)).1
    if (accesses (laterName name)).2 then .ok v else .error .valueError
  else .error .valueError

variable (expand : List Char → Except FormatError String)

/-- The specification of a field, with the fields in it rendered by a function. -/
def Field.specText (f : Field) :
    Except FormatError String :=
  if f.expands then expand f.spec else .ok (String.ofList f.spec)

/-- `output_markup`. -/
def Objects.renderField (f : Field) :
    Except FormatError String := do
  let v ← python.fieldObject context f.name
  let v ← python.convert v f.conversion
  let spec ← f.specText expand
  python.form v spec

def Objects.renderParts (expand : List Char → Except FormatError String) :
    List Markup → Except FormatError String
  | [] => .ok ""
  | .literal text :: rest => do
      let rendered ← Objects.renderParts expand rest
      return String.ofList text ++ rendered
  | .field f :: rest => do
      let rendered ← python.renderField context expand f
      let more ← Objects.renderParts expand rest
      return rendered ++ more

/-- `build_string`: fields may be nested as deep as this. -/
def Objects.buildString : ℕ → List Char → Except FormatError String
  | 0, _ => .error .valueError
  | depth + 1, cs => do
      let rendered ← python.renderParts context (Objects.buildString depth) (markup cs).1
      if (markup cs).2 then .ok rendered else .error .valueError

/-- `template.format_map(_SafeFormatDict(context))`. -/
def formatMap (template : String) : Except FormatError String :=
  python.buildString context 2 template.toList

/-! ### Harmless templates -/

variable (Allowed : FormatError → Prop)

/-- **No operation on behalf of a field raises anything that is not allowed**: no access, as far as
the accesses before it get; no conversion; nothing in the specification; and not the form. -/
structure HarmlessField (expand : List Char → Except FormatError String)
    (HarmlessSpec : List Char → Prop) (f : Field) : Prop where
  access : ∀ before a later v, Named f.name →
    (accesses (laterName f.name)).1 = before ++ a :: later →
    python.follow (.text (safeGet context (String.ofList (firstName f.name)))) before = .ok v →
      RaisesOnly (python.access v a) Allowed
  conversion : ∀ v, python.fieldObject context f.name = .ok v →
    RaisesOnly (python.convert v f.conversion) Allowed
  spec : ∀ v w, python.fieldObject context f.name = .ok v →
    python.convert v f.conversion = .ok w → f.expands → HarmlessSpec f.spec
  form : ∀ v w spec, python.fieldObject context f.name = .ok v →
    python.convert v f.conversion = .ok w →
    f.specText expand = .ok spec → RaisesOnly (python.form w spec) Allowed

/-- **A template is harmless** if every field is that all fields before let the rendering get to. -/
def HarmlessString : ℕ → List Char → Prop
  | 0, _ => True
  | depth + 1, cs => ∀ before f later, (markup cs).1 = before ++ .field f :: later →
      Succeeds (python.renderParts context (python.buildString context depth) before) →
      HarmlessField python context Allowed (python.buildString context depth)
        (HarmlessString depth) f

def Harmless (template : String) : Prop :=
  HarmlessString python context Allowed 2 template.toList

variable {python context Allowed}

theorem raisesOnly_bind_iff {ε α β : Type} {x : Except ε α} {f : α → Except ε β} {P : ε → Prop} :
    RaisesOnly (x >>= f) P ↔ RaisesOnly x P ∧ ∀ a, x = .ok a → RaisesOnly (f a) P := by
  cases x with
  | error e =>
    refine ⟨fun h => ⟨fun e' he' => h e' ?_, fun a ha => by cases ha⟩, fun h e' he' => ?_⟩
    · cases he'
      rfl
    · exact h.1 e' (by cases he'; rfl)
  | ok a =>
    refine ⟨fun h => ⟨raisesOnly_ok a P, ?_⟩, fun h => h.2 a rfl⟩
    intro a' ha'
    cases ha'
    exact h

theorem raisesOnly_follow_iff (v : Value Obj) (path : List Access) :
    RaisesOnly (python.follow v path) Allowed ↔ ∀ before a later w, path = before ++ a :: later →
      python.follow v before = .ok w → RaisesOnly (python.access w a) Allowed := by
  induction path generalizing v with
  | nil =>
    refine iff_of_true (raisesOnly_ok v Allowed) fun before a later w heq => ?_
    cases before <;> cases heq
  | cons a rest ih =>
    rw [Objects.follow, raisesOnly_bind_iff]
    constructor
    · rintro ⟨hfirst, hrest⟩ before a' later w heq hbefore
      cases before with
      | nil =>
        cases heq
        cases hbefore
        exact hfirst
      | cons b before =>
        cases heq
        rw [Objects.follow] at hbefore
        obtain ⟨u, hu, hw⟩ := StateExcept.bind_eq_ok.1 hbefore
        exact (ih u).1 (hrest u hu) before a' later w rfl hw
    · intro h
      refine ⟨h [] a rest v rfl rfl, fun u hu => (ih u).2 fun before a' later w heq hw => ?_⟩
      refine h (a :: before) a' later w (by rw [heq]; rfl) ?_
      rw [Objects.follow, hu]
      exact hw

theorem raisesOnly_fieldObject_iff (hvalue : Allowed .valueError) (name : List Char) :
    RaisesOnly (python.fieldObject context name) Allowed ↔ ∀ before a later v, Named name →
      (accesses (laterName name)).1 = before ++ a :: later →
      python.follow (.text (safeGet context (String.ofList (firstName name)))) before = .ok v →
        RaisesOnly (python.access v a) Allowed := by
  rw [Objects.fieldObject]
  by_cases hname : Named name
  · rw [if_pos hname, raisesOnly_bind_iff, raisesOnly_follow_iff]
    refine ⟨fun h before a later v _ => h.1 before a later v, fun h => ⟨fun before a later v =>
      h before a later v hname, fun v _ => ?_⟩⟩
    split
    · exact raisesOnly_ok v Allowed
    · exact raisesOnly_error hvalue
  · rw [if_neg hname]
    exact iff_of_true (raisesOnly_error hvalue) fun _ _ _ _ h => absurd h hname

/-- **A field** raises only what is allowed exactly if it is harmless. -/
theorem raisesOnly_renderField_iff (hvalue : Allowed .valueError)
    {expand : List Char → Except FormatError String} {HarmlessSpec : List Char → Prop}
    (hspec : ∀ cs, RaisesOnly (expand cs) Allowed ↔ HarmlessSpec cs) (f : Field) :
    RaisesOnly (python.renderField context expand f) Allowed ↔
      HarmlessField python context Allowed expand HarmlessSpec f := by
  have hexpand : RaisesOnly (f.specText expand) Allowed ↔ (f.expands → HarmlessSpec f.spec) := by
    rw [Field.specText]
    split
    next hexpands => simp only [hspec, hexpands, forall_const]
    next hexpands => exact iff_of_true (raisesOnly_ok _ Allowed) fun h => absurd h hexpands
  rw [Objects.renderField, raisesOnly_bind_iff, raisesOnly_fieldObject_iff hvalue]
  simp only [raisesOnly_bind_iff, hexpand]
  constructor
  · rintro ⟨haccess, hrest⟩
    exact ⟨haccess, fun v hv => (hrest v hv).1, fun v w hv hw => ((hrest v hv).2 w hw).1,
      fun v w spec hv hw hs => ((hrest v hv).2 w hw).2 spec hs⟩
  · rintro ⟨haccess, hconversion, hspecs, hform⟩
    exact ⟨haccess, fun v hv => ⟨hconversion v hv, fun w hw => ⟨hspecs v w hv hw,
      fun spec hs => hform v w spec hv hw hs⟩⟩⟩

theorem raisesOnly_renderParts_iff
    (parts : List Markup) :
    RaisesOnly (python.renderParts context expand parts) Allowed ↔ ∀ before f later,
      parts = before ++ .field f :: later → Succeeds (python.renderParts context expand before) →
        RaisesOnly (python.renderField context expand f) Allowed := by
  induction parts with
  | nil =>
    refine iff_of_true (raisesOnly_ok _ Allowed) fun before f later heq => ?_
    cases before <;> cases heq
  | cons part rest ih =>
    cases part with
    | literal text =>
      rw [Objects.renderParts, raisesOnly_bind_iff, ih]
      constructor
      · rintro ⟨hrest, -⟩ before f later heq hbefore
        cases before with
        | nil => cases heq
        | cons b before =>
          cases heq
          rw [Objects.renderParts, succeeds_bind_pure_iff] at hbefore
          exact hrest before f later rfl hbefore
      · intro h
        refine ⟨fun before f later heq hbefore => ?_, fun _ _ => raisesOnly_pure _ Allowed⟩
        refine h (.literal text :: before) f later (by rw [heq]; rfl) ?_
        rwa [Objects.renderParts, succeeds_bind_pure_iff]
    | field g =>
      rw [Objects.renderParts, raisesOnly_bind_iff]
      simp only [raisesOnly_bind_iff, ih]
      constructor
      · rintro ⟨hfirst, hrest⟩ before f later heq hbefore
        cases before with
        | nil =>
          cases heq
          exact hfirst
        | cons b before =>
          cases heq
          rw [Objects.renderParts, succeeds_bind_iff] at hbefore
          obtain ⟨rendered, hrendered, hmore⟩ := hbefore
          exact (hrest rendered hrendered).1 before f later rfl (succeeds_bind_pure_iff.1 hmore)
      · intro h
        refine ⟨h [] g rest rfl (succeeds_ok _), fun rendered hrendered =>
          ⟨fun before f later heq hbefore => ?_, fun _ _ => raisesOnly_pure _ Allowed⟩⟩
        refine h (.field g :: before) f later (by rw [heq]; rfl) ?_
        rw [Objects.renderParts, hrendered, ok_bind]
        exact succeeds_bind_pure_iff.2 hbefore

theorem raisesOnly_buildString_iff (hvalue : Allowed .valueError) (depth : ℕ) (cs : List Char) :
    RaisesOnly (python.buildString context depth cs) Allowed ↔
      HarmlessString python context Allowed depth cs := by
  induction depth generalizing cs with
  | zero => exact iff_of_true (raisesOnly_error hvalue) trivial
  | succ depth ih =>
    rw [Objects.buildString, HarmlessString, raisesOnly_bind_iff, raisesOnly_renderParts_iff]
    simp only [raisesOnly_renderField_iff hvalue ih]
    refine and_iff_left fun rendered _ => ?_
    split
    · exact raisesOnly_ok rendered Allowed
    · exact raisesOnly_error hvalue

/-- **A template raises only what is allowed** exactly if it is harmless, when value errors are
allowed. -/
theorem raisesOnly_formatMap_iff (hvalue : Allowed .valueError) (template : String) :
    RaisesOnly (formatMap python context template) Allowed ↔
      Harmless python context Allowed template :=
  raisesOnly_buildString_iff hvalue 2 _

end

end MonCTL.PyFormat
