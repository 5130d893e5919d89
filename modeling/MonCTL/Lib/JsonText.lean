import Mathlib.Data.Int.Notation
import MonCTL.Lib.Decimal

/-!
# JSON Texts

The grammar of JSON, and the parts of a text that a writer puts together: quoted strings, numerals,
arrays and objects.

A text can be told not to be JSON without parsing it: outside of strings JSON has no parenthesis,
none of the letters that `NaN` and `Infinity` begin with, and no point without a digit after it.
-/

namespace MonCTL.JsonText

open List

/-! ### The grammar -/

/-- White space. -/
def IsSpace (t : List Char) : Prop := ∀ c ∈ t, c = ' ' ∨ c = '\t' ∨ c = '\n' ∨ c = '\r'

def IsHex (c : Char) : Prop := c.isDigit ∨ ('a' ≤ c ∧ c ≤ 'f') ∨ ('A' ≤ c ∧ c ≤ 'F')
  deriving Decidable

/-- The characters between the quotes of a string. -/
inductive IsChars : List Char → Prop
  | nil : IsChars []
  | char {c : Char} {t : List Char} : c ≠ '"' → c ≠ '\\' → ' ' ≤ c → IsChars t → IsChars (c :: t)
  | escape {c : Char} {t : List Char} : c ∈ ['"', '\\', '/', 'b', 'f', 'n', 'r', 't'] →
      IsChars t → IsChars ('\\' :: c :: t)
  | unicode {c₁ c₂ c₃ c₄ : Char} {t : List Char} : IsHex c₁ → IsHex c₂ → IsHex c₃ → IsHex c₄ →
      IsChars t → IsChars ('\\' :: 'u' :: c₁ :: c₂ :: c₃ :: c₄ :: t)

def IsString (t : List Char) : Prop := ∃ chars, IsChars chars ∧ t = '"' :: (chars ++ ['"'])

def IsDigits (t : List Char) : Prop := t ≠ [] ∧ ∀ c ∈ t, c.isDigit = true

/-- The whole part of a number, which does not begin with a zero unless it is one. -/
def IsWhole (t : List Char) : Prop := t = ['0'] ∨ (IsDigits t ∧ t.head? ≠ some '0')

def IsFraction (t : List Char) : Prop := t = [] ∨ ∃ digits, IsDigits digits ∧ t = '.' :: digits

def IsExponent (t : List Char) : Prop :=
  t = [] ∨ ∃ e sign digits, (e = 'e' ∨ e = 'E') ∧ (sign = [] ∨ sign = ['+'] ∨ sign = ['-']) ∧
    IsDigits digits ∧ t = e :: (sign ++ digits)

def IsNumber (t : List Char) : Prop :=
  ∃ sign whole fraction exponent, (sign = [] ∨ sign = ['-']) ∧ IsWhole whole ∧
    IsFraction fraction ∧ IsExponent exponent ∧ t = sign ++ (whole ++ (fraction ++ exponent))

/-- The parts of a text: a value, a value between white space, and what is between brackets. -/
inductive Part
  | value
  | element
  | elements
  | members

/-- The texts of a part. -/
inductive IsPart : Part → List Char → Prop
  | null : IsPart .value ['n', 'u', 'l', 'l']
  | true : IsPart .value ['t', 'r', 'u', 'e']
  | false : IsPart .value ['f', 'a', 'l', 's', 'e']
  | number {t : List Char} : IsNumber t → IsPart .value t
  | string {t : List Char} : IsString t → IsPart .value t
  | emptyArray {ws : List Char} : IsSpace ws → IsPart .value ('[' :: (ws ++ [']']))
  | array {t : List Char} : IsPart .elements t → IsPart .value ('[' :: (t ++ [']']))
  | emptyObject {ws : List Char} : IsSpace ws → IsPart .value ('\x7b' :: (ws ++ ['\x7d']))
  | object {t : List Char} : IsPart .members t → IsPart .value ('\x7b' :: (t ++ ['\x7d']))
  | element {ws t ws' : List Char} : IsSpace ws → IsPart .value t → IsSpace ws' →
      IsPart .element (ws ++ (t ++ ws'))
  | lastElement {t : List Char} : IsPart .element t → IsPart .elements t
  | elements {t t' : List Char} : IsPart .element t → IsPart .elements t' →
      IsPart .elements (t ++ ',' :: t')
  | lastMember {ws k ws' t : List Char} : IsSpace ws → IsString k → IsSpace ws' →
      IsPart .element t → IsPart .members (ws ++ (k ++ (ws' ++ ':' :: t)))
  | members {t t' : List Char} : IsPart .members t → IsPart .members t' →
      IsPart .members (t ++ ',' :: t')

/-- A JSON text. -/
def IsJson (t : List Char) : Prop := IsPart .element t

/-! ### Scanning -/

/-- Where a scan is: outside of strings, after a point there, in a string, or after a backslash. -/
inductive Place
  | outside
  | point
  | string
  | escape
  deriving DecidableEq

/-- The characters that JSON does not have outside of strings, those that a scan stops at. -/
def isBarred (c : Char) : Bool := c = '(' || c = 'N' || c = 'I'

/-- Where the scan is after a character, unless it stops. -/
def Place.next : Place → Char → Option Place
  | .outside, c =>
    if c = '"' then some .string
    else if c = '.' then some .point
    else if isBarred c then none
    else some .outside
  | .point, c => if c.isDigit then some .outside else none
  | .string, c => if c = '"' then some .outside else if c = '\\' then some .escape else some .string
  | .escape, _ => some .string

/-- Where the scan is after a text, unless it stops in it. -/
def scan : Place → List Char → Option Place
  | place, [] => some place
  | place, c :: t => (place.next c).bind fun place' => scan place' t

@[simp] theorem scan_nil (place : Place) : scan place [] = some place := rfl

theorem scan_append (place : Place) (t t' : List Char) :
    scan place (t ++ t') = (scan place t).bind fun place' => scan place' t' := by
  induction t generalizing place with
  | nil => rfl
  | cons c t ih =>
    rw [cons_append, scan, scan]
    cases place.next c with
    | none => rfl
    | some place' => exact ih place'

/-- A text that is scanned from outside of strings to outside of strings. -/
def Balanced (t : List Char) : Prop := scan .outside t = some .outside
  deriving Decidable

variable {t : List Char}

theorem Balanced.append {t' : List Char} (h : Balanced t) (h' : Balanced t') : Balanced (t ++ t') :=
    by
  rw [Balanced, scan_append, h]
  exact h'

theorem Balanced.nil : Balanced [] := rfl

/-- A character that a scan goes over outside of strings. -/
def IsPlain (c : Char) : Prop := c ≠ '"' ∧ c ≠ '.' ∧ isBarred c = false
  deriving Decidable

theorem Balanced.cons {c : Char} (hc : IsPlain c) (h : Balanced t) : Balanced (c :: t) := by
  rw [Balanced, scan, Place.next, if_neg hc.1, if_neg hc.2.1, hc.2.2]
  exact h

theorem balanced_of_plain (h : ∀ c ∈ t, IsPlain c) : Balanced t := by
  induction t with
  | nil => exact .nil
  | cons c t ih =>
    exact .cons (h c List.mem_cons_self) (ih fun c' hc' => h c' (List.mem_cons_of_mem _ hc'))

theorem isPlain_of_isDigit {c : Char} (h : c.isDigit = true) : IsPlain c := by
  refine ⟨?_, ?_, ?_⟩
  · rintro rfl
    cases h
  · rintro rfl
    cases h
  · rw [isBarred]
    by_contra hbarred
    simp only [Bool.or_eq_false_iff, decide_eq_false_iff_not, not_and_or, not_not] at hbarred
    rcases hbarred with (rfl | rfl) | rfl <;> cases h

theorem balanced_of_isSpace (h : IsSpace t) : Balanced t := by
  refine balanced_of_plain fun c hc => ?_
  rcases h c hc with rfl | rfl | rfl | rfl <;> decide

theorem balanced_of_isDigits (h : IsDigits t) : Balanced t :=
  balanced_of_plain fun c hc => isPlain_of_isDigit (h.2 c hc)

theorem IsNumber.balanced (h : IsNumber t) : Balanced t := by
  obtain ⟨sign, whole, fraction, exponent, hsign, hwhole, hfraction, hexponent, rfl⟩ := h
  have hs : Balanced sign := by rcases hsign with rfl | rfl <;> decide
  have hw : Balanced whole := by
    rcases hwhole with rfl | ⟨hdigits, -⟩
    · decide
    · exact balanced_of_isDigits hdigits
  have hf : Balanced fraction := by
    rcases hfraction with rfl | ⟨digits, hdigits, rfl⟩
    · exact .nil
    · -- the point is followed by a digit
      obtain ⟨d, rest, rfl⟩ := List.exists_cons_of_ne_nil hdigits.1
      have hd : d.isDigit = true := hdigits.2 d List.mem_cons_self
      have hrest : Balanced rest := balanced_of_plain fun c hc =>
        isPlain_of_isDigit (hdigits.2 c (List.mem_cons_of_mem _ hc))
      change ((Place.point.next d).bind fun place => scan place rest) = _
      rw [Place.next, if_pos hd]
      exact hrest
  have he : Balanced exponent := by
    rcases hexponent with rfl | ⟨e, sign', digits, he, hsign', hdigits, rfl⟩
    · exact .nil
    · have hs' : Balanced sign' := by rcases hsign' with rfl | rfl | rfl <;> decide
      have hplain : IsPlain e := by rcases he with rfl | rfl <;> decide
      exact .cons hplain (hs'.append (balanced_of_isDigits hdigits))
  exact hs.append (hw.append (hf.append he))

theorem IsChars.scan (h : IsChars t) : scan .string t = some .string := by
  induction h with
  | nil => rfl
  | char hquote hback _ _ ih =>
    rw [JsonText.scan, Place.next, if_neg hquote, if_neg hback]
    exact ih
  | escape _ _ ih => exact ih
  | @unicode c₁ c₂ c₃ c₄ t h₁ h₂ h₃ h₄ _ ih =>
    have hnext {c : Char} (hc : IsHex c) : Place.string.next c = some .string := by
      have hquote : c ≠ '"' := by rintro rfl; exact absurd hc (by decide)
      have hback : c ≠ '\\' := by rintro rfl; exact absurd hc (by decide)
      rw [Place.next, if_neg hquote, if_neg hback]
    change (((Place.string.next c₁).bind fun p => ((p.next c₂).bind fun p => ((p.next c₃).bind
      fun p => ((p.next c₄).bind fun p => JsonText.scan p t))))) = _
    simp only [hnext h₁, hnext h₂, hnext h₃, hnext h₄, Option.bind_some]
    exact ih

theorem IsString.balanced (h : IsString t) : Balanced t := by
  obtain ⟨chars, hchars, rfl⟩ := h
  change JsonText.scan .string (chars ++ ['"']) = some .outside
  rw [scan_append, hchars.scan]
  rfl

/-- **A JSON text is scanned** to its end. -/
theorem IsPart.balanced {part : Part} (h : IsPart part t) : Balanced t := by
  have hbracket {c c' : Char} {t : List Char} (hc : IsPlain c) (hc' : IsPlain c')
      (ht : Balanced t) : Balanced (c :: (t ++ [c'])) := .cons hc (ht.append (.cons hc' .nil))
  induction h with
  | null => decide
  | true => decide
  | false => decide
  | number h => exact h.balanced
  | string h => exact h.balanced
  | emptyArray h => exact hbracket (by decide) (by decide) (balanced_of_isSpace h)
  | array _ ih => exact hbracket (by decide) (by decide) ih
  | emptyObject h => exact hbracket (by decide) (by decide) (balanced_of_isSpace h)
  | object _ ih => exact hbracket (by decide) (by decide) ih
  | element hws _ hws' ih =>
    exact (balanced_of_isSpace hws).append (ih.append (balanced_of_isSpace hws'))
  | lastElement _ ih => exact ih
  | elements _ _ ih ih' => exact ih.append (.cons (by decide) ih')
  | lastMember hws hk hws' _ ih =>
    exact (balanced_of_isSpace hws).append
      (hk.balanced.append ((balanced_of_isSpace hws').append (.cons (by decide) ih)))
  | members _ _ ih ih' => exact ih.append (.cons (by decide) ih')

theorem IsJson.balanced (h : IsJson t) : Balanced t := IsPart.balanced h

/-! ### Writing -/

/-- A character in a string. -/
def escapeChar (c : Char) : List Char :=
  if c = '"' then ['\\', '"']
  else if c = '\\' then ['\\', '\\']
  else if c = '\n' then ['\\', 'n']
  else if c = '\r' then ['\\', 'r']
  else if c = '\t' then ['\\', 't']
  else if c = '\x0c' then ['\\', 'f']
  else if c = '\x08' then ['\\', 'b']
  else if c < ' ' then
    ['\\', 'u', '0', '0', Nat.digitChar (c.toNat / 16), Nat.digitChar (c.toNat % 16)]
  else [c]

def quote (s : String) : List Char := '"' :: (s.toList.flatMap escapeChar ++ ['"'])

/-- Texts with a comma and a space between them. -/
def join : List (List Char) → List Char
  | [] => []
  | [t] => t
  | t :: t' :: ts => t ++ ',' :: ' ' :: join (t' :: ts)

/-- Texts in brackets. -/
def array (ts : List (List Char)) : List Char := '[' :: (join ts ++ [']'])

/-- A member of an object. -/
def member (k : String) (t : List Char) : List Char := quote k ++ ':' :: ' ' :: t

/-- Members in braces. -/
def object (ts : List (List Char)) : List Char := '\x7b' :: (join ts ++ ['\x7d'])

theorem IsChars.append {t' : List Char} (h : IsChars t) (h' : IsChars t') : IsChars (t ++ t') := by
  induction h with
  | nil => exact h'
  | char hquote hback hle _ ih => exact .char hquote hback hle ih
  | escape hc _ ih => exact .escape hc ih
  | unicode h₁ h₂ h₃ h₄ _ ih => exact .unicode h₁ h₂ h₃ h₄ ih

theorem isHex_digitChar : ∀ n < 16, IsHex (Nat.digitChar n) := by decide

theorem isChars_escapeChar (c : Char) : IsChars (escapeChar c) := by
  rw [escapeChar]
  split
  · exact .escape (by decide) .nil
  split
  · exact .escape (by decide) .nil
  split
  · exact .escape (by decide) .nil
  split
  · exact .escape (by decide) .nil
  split
  · exact .escape (by decide) .nil
  split
  · exact .escape (by decide) .nil
  split
  · exact .escape (by decide) .nil
  split
  next hlt =>
    have hnat : c.toNat < 32 := hlt
    exact .unicode (by decide) (by decide) (isHex_digitChar _ (by omega))
      (isHex_digitChar _ (by omega)) .nil
  next hquote hback _ _ _ _ _ hle => exact .char hquote hback (Char.not_lt.1 hle) .nil

theorem isString_quote (s : String) : IsString (quote s) := by
  refine ⟨_, ?_, rfl⟩
  induction s.toList with
  | nil => exact .nil
  | cons c t ih =>
    rw [List.flatMap_cons]
    exact (isChars_escapeChar c).append ih

theorem head?_toDigits_ne {n : ℕ} (hn : n ≠ 0) : (Nat.toDigits 10 n).head? ≠ some '0' := by
  induction n using Nat.strongRecOn with
  | ind n ih =>
    rw [Nat.toDigits_eq_if (by decide)]
    split
    next hlt =>
      have hdigit : ∀ n < 10, n ≠ 0 → Nat.digitChar n ≠ '0' := by decide
      simpa using hdigit n hlt hn
    next hge =>
      have hne : Nat.toDigits 10 (n / 10) ≠ [] := Nat.toDigits_ne_nil
      rw [List.head?_append_of_ne_nil _ hne]
      exact ih (n / 10) (by omega) (by omega)

theorem isWhole_toString (n : ℕ) : IsWhole (toString n).toList := by
  rw [Decimal.toList_toString]
  by_cases hn : n = 0
  · subst hn
    exact .inl rfl
  · refine .inr ⟨⟨Nat.toDigits_ne_nil, fun c hc => ?_⟩, head?_toDigits_ne hn⟩
    exact Decimal.isDigit_of_mem_toString (Decimal.toList_toString n ▸ hc)

theorem isNumber_toString (n : ℤ) : IsNumber (toString n).toList := by
  cases n with
  | ofNat n =>
    refine ⟨[], _, [], [], .inl rfl, isWhole_toString n, .inl rfl, .inl rfl, ?_⟩
    change (toString n).toList = _
    simp
  | negSucc n =>
    refine ⟨['-'], _, [], [], .inr rfl, isWhole_toString (n + 1), .inl rfl, .inl rfl, ?_⟩
    change ("-" ++ toString (n + 1)).toList = _
    simp

theorem IsPart.space {part : Part} (h : IsPart part t) (hpart : part ≠ .value) :
    IsPart part (' ' :: t) := by
  have hspace {ws : List Char} (hws : IsSpace ws) : IsSpace (' ' :: ws) := fun c hc => by
    rcases List.mem_cons.1 hc with rfl | hc
    · exact .inl rfl
    · exact hws c hc
  induction h with
  | element hws ht hws' => exact .element (hspace hws) ht hws'
  | lastElement _ ih => exact .lastElement (ih nofun)
  | elements _ h' ih => exact .elements (ih nofun) h'
  | lastMember hws hk hws' ht => exact .lastMember (hspace hws) hk hws' ht
  | members _ h' ih => exact .members (ih nofun) h'
  | _ => exact absurd rfl hpart

theorem IsPart.toElement (h : IsPart .value t) : IsPart .element t := by
  have hnil : IsSpace [] := fun _ hc => absurd hc not_mem_nil
  simpa using IsPart.element hnil h hnil

variable {ts : List (List Char)}

theorem isPart_elements (hne : ts ≠ []) (h : ∀ t ∈ ts, IsPart .value t) : IsPart .elements
    (join ts) := by
  induction ts with
  | nil => exact absurd rfl hne
  | cons t ts ih =>
    have ht := (h t mem_cons_self).toElement
    cases ts with
    | nil => exact .lastElement ht
    | cons t' ts =>
      have hrest := ih (cons_ne_nil _ _) fun t'' ht'' => h t'' (mem_cons_of_mem _ ht'')
      exact .elements ht (hrest.space nofun)

theorem isPart_array (h : ∀ t ∈ ts, IsPart .value t) : IsPart .value (array ts) := by
  by_cases hne : ts = []
  · subst hne
    exact .emptyArray (show IsSpace [] from fun _ hc => absurd hc not_mem_nil)
  · exact .array (isPart_elements hne h)

theorem isPart_member (k : String) {t : List Char} (h : IsPart .value t) :
    IsPart .members (member k t) := by
  have hnil : IsSpace [] := fun _ hc => absurd hc not_mem_nil
  exact .lastMember hnil (isString_quote k) hnil (h.toElement.space nofun)

theorem isPart_members (hne : ts ≠ []) (h : ∀ t ∈ ts, IsPart .members t) : IsPart .members
    (join ts) := by
  induction ts with
  | nil => exact absurd rfl hne
  | cons t ts ih =>
    have ht := h t mem_cons_self
    cases ts with
    | nil => exact ht
    | cons t' ts =>
      have hrest := ih (cons_ne_nil _ _) fun t'' ht'' => h t'' (mem_cons_of_mem _ ht'')
      exact .members ht (hrest.space nofun)

theorem isPart_object (h : ∀ t ∈ ts, IsPart .members t) : IsPart .value (object ts) := by
  by_cases hne : ts = []
  · subst hne
    exact .emptyObject (show IsSpace [] from fun _ hc => absurd hc not_mem_nil)
  · exact .object (isPart_members hne h)

end MonCTL.JsonText
