import Mathlib.Data.Rat.Floor
import MonCTL.Lib.Succeeds

/-!
# Loosely Typed Python Values

The values of a Python program that has decoded a JSON text without a schema, with the
built-in operations that may raise on them: `float`, `iter`, `len`, indexing, comparison and
arithmetic. Floats are exact rationals with the infinities and NaN; rounding is not
modelled, but the overflow of the conversion from `int` is.
-/

namespace MonCTL

/-! ### Floats -/

/-- A floating-point number, without rounding and with one zero. -/
inductive PyFloat
  | finite (q : ℚ)
  | inf (negative : Bool)
  | nan
  deriving DecidableEq

namespace PyFloat

/-- Whether a float counts as true. -/
def truthy (f : PyFloat) : Bool := f ≠ finite 0

/-- `f < g`; nothing compares with NaN. -/
def lt : PyFloat → PyFloat → Bool
  | finite p, finite q => p < q
  | finite _, inf negative => !negative
  | inf negative, finite _ => negative
  | inf negative, inf negative' => negative && !negative'
  | _, _ => false

/-- `f == g`. -/
def eq : PyFloat → PyFloat → Bool
  | nan, _ => false
  | f, g => f = g

/-- `f <= g`. -/
def le (f g : PyFloat) : Bool := f.lt g || f.eq g

/-- `-f`. -/
def neg : PyFloat → PyFloat
  | finite q => finite (-q)
  | inf negative => inf !negative
  | nan => nan

/-- `f + g`. -/
def add : PyFloat → PyFloat → PyFloat
  | finite p, finite q => finite (p + q)
  | inf negative, finite _ => inf negative
  | finite _, inf negative => inf negative
  | inf negative, inf negative' => if negative = negative' then inf negative else nan
  | _, _ => nan

/-- `f - g`. -/
def sub (f g : PyFloat) : PyFloat := f.add g.neg

/-- `f * g`. -/
def mul : PyFloat → PyFloat → PyFloat
  | finite p, finite q => finite (p * q)
  | inf negative, finite q => if q = 0 then nan else inf (negative ^^ decide (q < 0))
  | finite p, inf negative => if p = 0 then nan else inf (negative ^^ decide (p < 0))
  | inf negative, inf negative' => inf (negative ^^ negative')
  | _, _ => nan

/-- `f / g` for `g` other than zero. -/
def div : PyFloat → PyFloat → PyFloat
  | finite p, finite q => finite (p / q)
  | inf negative, finite q => inf (negative ^^ decide (q < 0))
  | finite _, inf _ => finite 0
  | _, _ => nan

/-- `min(f, g)`: the first, unless the second is smaller. -/
def min (f g : PyFloat) : PyFloat := if g.lt f then g else f

end PyFloat

/-- The integer nearest to a rational, the even one between two. -/
def roundHalfEven (q : ℚ) : ℤ :=
  let below := ⌊q⌋
  let rest := q - below
  if rest < 1 / 2 then below
  else if 1 / 2 < rest then below + 1
  else if below % 2 = 0 then below else below + 1

/-- `f"{f:.1f}"`. -/
def PyFloat.fixed1 : PyFloat → String
  | .finite q =>
    let tenths := (roundHalfEven (|q| * 10)).toNat
    let sign := if q < 0 then "-" else ""
    s!"{sign}{tenths / 10}.{tenths % 10}"
  | .inf negative => if negative then "-inf" else "inf"
  | .nan => "nan"

/-! ### Values -/

/-- An exception of the kinds that matter here. -/
inductive PyError
  | typeError
  | valueError
  | overflowError
  | keyError
  | unicodeEncodeError
  | databaseError
  deriving DecidableEq

/-- A value. A text with a lone surrogate, which a JSON escape can spell, is kept apart from
the others by its code points. -/
inductive PyValue
  | none
  | bool (b : Bool)
  | int (i : ℤ)
  | float (f : PyFloat)
  | str (s : String)
  | surrogates (codePoints : List ℕ)
  | list (xs : List PyValue)
  | dict (entries : List (String × PyValue))
  | datetime (microseconds : ℤ)

/-- A dictionary with text keys. -/
abbrev PyDict := List (String × PyValue)

/-- `d.get(key, default)`. -/
def PyDict.getD (d : PyDict) (key : String) (default : PyValue) : PyValue :=
  (d.lookup key).getD default

/-- An `int` or a `float`. -/
inductive PyNum
  | int (i : ℤ)
  | float (f : PyFloat)

/-- The least number that rounds to 2 ^ 1024, which no float holds. -/
@[irreducible] def floatBound : ℕ := 2 ^ 1024 - 2 ^ 970

/-- An integer that converts to a float. -/
def FitsFloat (i : ℤ) : Prop := i.natAbs < floatBound
  deriving Decidable

/-- The conversion of an `int` to a `float`. -/
def intToFloat (i : ℤ) : Except PyError PyFloat :=
  if FitsFloat i then .ok (.finite i) else .error .overflowError

namespace PyNum

/-- The exact value, for comparisons. -/
def exact : PyNum → PyFloat
  | int i => .finite i
  | float f => f

/-- The conversion to a `float`. -/
def toFloat : PyNum → Except PyError PyFloat
  | int i => intToFloat i
  | float f => .ok f

/-- `a - b`. -/
def sub : PyNum → PyNum → Except PyError PyNum
  | int i, int j => .ok (int (i - j))
  | a, b => return float ((← a.toFloat).sub (← b.toFloat))

/-- `a * b`. -/
def mul : PyNum → PyNum → Except PyError PyNum
  | int i, int j => .ok (int (i * j))
  | a, b => return float ((← a.toFloat).mul (← b.toFloat))

end PyNum

namespace PyValue

/-- A number; a `bool` is one. -/
def num? : PyValue → Option PyNum
  | bool b => some (.int (if b then 1 else 0))
  | int i => some (.int i)
  | float f => some (.float f)
  | _ => Option.none

/-- A number, or the error of an operation on something else. -/
def num (v : PyValue) : Except PyError PyNum :=
  match v.num? with
  | some n => .ok n
  | Option.none => .error .typeError

/-! ### Equality and order -/

mutual

/-- `v == w`. -/
def beq : PyValue → PyValue → Bool
  | none, none => true
  | str s, str t => s = t
  | surrogates s, surrogates t => s = t
  | datetime s, datetime t => s = t
  | list xs, list ys => listBeq xs ys
  | dict es, dict fs => es.length == fs.length && entriesIn es fs
  | v, w =>
    match v.num?, w.num? with
    | some m, some n => m.exact.eq n.exact
    | _, _ => false

/-- Equality of lists, element by element. -/
def listBeq : List PyValue → List PyValue → Bool
  | [], [] => true
  | x :: xs, y :: ys => beq x y && listBeq xs ys
  | _, _ => false

/-- Whether a dictionary has equal values under all keys of another. -/
def entriesIn : List (String × PyValue) → List (String × PyValue) → Bool
  | [], _ => true
  | (k, v) :: es, fs =>
    (match fs.lookup k with
      | some w => beq v w
      | Option.none => false) && entriesIn es fs

end

mutual

/-- `v < w`: numbers, texts and lists have an order. -/
def lt : PyValue → PyValue → Except PyError Bool
  | str s, str t => .ok (decide (s < t))
  | str s, surrogates t => .ok (decide (s.toList.map Char.toNat < t))
  | surrogates s, str t => .ok (decide (s < t.toList.map Char.toNat))
  | surrogates s, surrogates t => .ok (decide (s < t))
  | datetime s, datetime t => .ok (decide (s < t))
  | list xs, list ys => listLt xs ys
  | v, w =>
    match v.num?, w.num? with
    | some m, some n => .ok (m.exact.lt n.exact)
    | _, _ => .error .typeError

/-- Lists are compared at their first difference. -/
def listLt : List PyValue → List PyValue → Except PyError Bool
  | [], ys => .ok !ys.isEmpty
  | _ :: _, [] => .ok false
  | x :: xs, y :: ys => if beq x y then listLt xs ys else lt x y

end

/-- Whether two values are the same dictionary key. -/
def sameKey (v w : PyValue) : Bool :=
  match v, w with
  | float .nan, float .nan => true
  | _, _ => beq v w

/-- Values that can be dictionary keys. -/
def Hashable : PyValue → Prop
  | list _ => False
  | dict _ => False
  | _ => True

instance : DecidablePred Hashable
  | list _ => isFalse id
  | dict _ => isFalse id
  | none | bool _ | int _ | float _ | str _ | surrogates _ | datetime _ => isTrue trivial

/-- Whether a value counts as true. -/
def truthy : PyValue → Bool
  | none => false
  | bool b => b
  | int i => i ≠ 0
  | float f => f.truthy
  | str s => s ≠ ""
  | surrogates s => s ≠ []
  | list xs => !xs.isEmpty
  | dict es => !es.isEmpty
  | datetime _ => true

end PyValue

/-! ### The numbers a text spells -/

/-- Where the decimal digits of a script start in Unicode. -/
def digitBlocks : List ℕ :=
  [0x30, 0x660, 0x6F0, 0x7C0, 0x966, 0x9E6, 0xA66, 0xAE6, 0xB66, 0xBE6, 0xC66, 0xCE6, 0xD66, 0xDE6,
    0xE50, 0xED0, 0xF20, 0x1040, 0x1090, 0x17E0, 0x1810, 0x1946, 0x19D0, 0x1A80, 0x1A90, 0x1B50,
    0x1BB0, 0x1C40, 0x1C50, 0xA620, 0xA8D0, 0xA900, 0xA9D0, 0xA9F0, 0xAA50, 0xABF0, 0xFF10, 0x104A0,
    0x10D30, 0x11066, 0x110F0, 0x11136, 0x111D0, 0x112F0, 0x11450, 0x114D0, 0x11650, 0x116C0,
    0x11730, 0x118E0, 0x11950, 0x11C50, 0x11D50, 0x11DA0, 0x16A60, 0x16AC0, 0x16B50, 0x1D7CE,
    0x1D7D8, 0x1D7E2, 0x1D7EC, 0x1D7F6, 0x1E140, 0x1E2F0, 0x1E950, 0x1FBF0]

/-- `str.isspace` of a character. -/
def isPySpace (c : Char) : Bool :=
  let n := c.toNat
  (9 ≤ n && n ≤ 13) || (28 ≤ n && n ≤ 32) || n = 0x85 || n = 0xA0 || n = 0x1680 ||
    (0x2000 ≤ n && n ≤ 0x200A) || n = 0x2028 || n = 0x2029 || n = 0x202F || n = 0x205F || n = 0x3000

/-- A decimal digit of any script, as the ASCII one. -/
def asciiDigit (c : Char) : Char :=
  match digitBlocks.find? fun start => start ≤ c.toNat && c.toNat < start + 10 with
  | some start => Char.ofNat (0x30 + (c.toNat - start))
  | none => c

/-- Digits with single underscores between them, without these. -/
def joinDigits : Bool → List Char → Option (List Char)
  | afterUnderscore, [] => if afterUnderscore then none else some []
  | afterUnderscore, c :: cs =>
    if c = '_' then if afterUnderscore then none else joinDigits true cs
    else (joinDigits false cs).map (c :: ·)

/-- The digits at the start of a text, possibly none, and what follows. -/
def spanDigits (cs : List Char) : Option (List Char × List Char) :=
  let (digits, rest) := cs.span fun c => c.isDigit || c = '_'
  if digits = [] then some ([], rest) else (joinDigits true digits).map (·, rest)

/-- The number digits spell. -/
def digitsValue (digits : List Char) : ℕ :=
  digits.foldl (fun n c => 10 * n + (c.toNat - 0x30)) 0

/-- A sign and what follows it. -/
def spanSign : List Char → Bool × List Char
  | '+' :: cs => (false, cs)
  | '-' :: cs => (true, cs)
  | cs => (false, cs)

/-- `m * 10 ^ e`. -/
def scaleTen (m : ℕ) (e : ℤ) : ℚ := if 0 ≤ e then m * 10 ^ e.toNat else m / 10 ^ (-e).toNat

/-- The exponent of a number, zero when there is none. -/
def parseExponent : List Char → Option ℤ
  | [] => some 0
  | c :: cs =>
    if c = 'e' then
      let (negative, cs) := spanSign cs
      match spanDigits cs with
      | some (d :: ds, []) =>
        let e : ℤ := digitsValue (d :: ds)
        some (if negative then -e else e)
      | _ => none
    else none

/-- An unsigned decimal number. -/
def parseDecimal (cs : List Char) : Option ℚ := do
  let (whole, rest) ← spanDigits cs
  let (fraction, rest) ← match rest with
    | '.' :: rest => spanDigits rest
    | rest => some ([], rest)
  if whole = [] ∧ fraction = [] then none
  else
    let e ← parseExponent rest
    some (scaleTen (digitsValue (whole ++ fraction)) (e - fraction.length))

/-- The number a text spells for the built-in `float`. -/
def parseFloat (text : String) : Option PyFloat :=
  let trimmed := ((text.toList.dropWhile isPySpace).reverse.dropWhile isPySpace).reverse
  let (negative, cs) := spanSign (trimmed.map fun c => (asciiDigit c).toLower)
  if cs = "inf".toList ∨ cs = "infinity".toList then some (.inf negative)
  else if cs = "nan".toList then some .nan
  else (parseDecimal cs).map fun q => .finite (if negative then -q else q)

/-! ### Conversion and iteration -/

namespace PyValue

/-- The built-in `float`. -/
def toFloat : PyValue → Except PyError PyFloat
  | bool b => .ok (.finite (if b then 1 else 0))
  | int i => intToFloat i
  | float f => .ok f
  | str s =>
    match parseFloat s with
    | some f => .ok f
    | Option.none => .error .valueError
  | surrogates _ => .error .valueError
  | _ => .error .typeError

/-- The values `float` takes: numbers of a size it can hold, and texts that spell one. -/
def FloatConvertible : PyValue → Prop
  | bool _ => True
  | int i => FitsFloat i
  | float _ => True
  | str s => (parseFloat s).isSome
  | _ => False

instance : DecidablePred FloatConvertible
  | bool _ => isTrue trivial
  | int i => inferInstanceAs (Decidable (FitsFloat i))
  | float _ => isTrue trivial
  | str s => inferInstanceAs (Decidable ((parseFloat s).isSome = true))
  | none | surrogates _ | list _ | dict _ | datetime _ => isFalse id

/-- The character of a code point, on its own. -/
def ofCodePoint (n : ℕ) : PyValue :=
  if n.isValidChar then str (String.singleton (Char.ofNat n)) else surrogates [n]

/-- The built-in `iter`, as the list of what it gives. -/
def iter : PyValue → Except PyError (List PyValue)
  | list xs => .ok xs
  | str s => .ok (s.toList.map fun c => str (String.singleton c))
  | surrogates s => .ok (s.map ofCodePoint)
  | dict es => .ok (es.map fun e => str e.1)
  | _ => .error .typeError

/-- The values with elements: lists, texts and dictionaries. -/
def Iterable : PyValue → Prop
  | list _ => True
  | str _ => True
  | surrogates _ => True
  | dict _ => True
  | _ => False

/-- The built-in `len`. -/
def len (v : PyValue) : Except PyError ℕ := v.iter.map List.length

/-- `v[i]`. The keys of a dictionary are texts, so that an index is none of them. -/
def index (v : PyValue) (i : ℕ) : Except PyError PyValue :=
  match v with
  | dict _ => .error .keyError
  | v => do
      match (← v.iter)[i]? with
      | some x => .ok x
      | Option.none => .error .keyError

end PyValue

/-! ### Times -/

/-- `0001-01-01T00:00:00+00:00`, in microseconds. -/
def minDatetime : ℤ := -62135596800000000

/-- `10000-01-01T00:00:00+00:00`, the first time that is none. -/
def maxDatetime : ℤ := 253402300800000000

/-- A number of seconds that is a time of the years 1 to 9999 when it is rounded to
microseconds. -/
def InDatetimeRange (q : ℚ) : Prop :=
  minDatetime ≤ roundHalfEven (q * 1000000) ∧ roundHalfEven (q * 1000000) < maxDatetime
  deriving Decidable

/-- `datetime.fromtimestamp(t, tz=timezone.utc)`. -/
def fromTimestamp : PyFloat → Except PyError ℤ
  | .finite q => if InDatetimeRange q then .ok (roundHalfEven (q * 1000000)) else .error .valueError
  | .inf _ => .error .overflowError
  | .nan => .error .valueError

/-- The timestamps `fromtimestamp` takes. -/
def IsTimestamp (f : PyFloat) : Prop := ∃ q, f = .finite q ∧ InDatetimeRange q

/-! ### When the operations succeed -/

theorem two_pow_le_two_pow_sub {b m n : ℕ} (hbm : b ≤ m) (hmn : m + 1 ≤ n) :
    2 ^ b ≤ 2 ^ n - 2 ^ m := by
  refine Nat.le_sub_of_add_le ?_
  calc 2 ^ b + 2 ^ m
    _ ≤ 2 ^ m + 2 ^ m := Nat.add_le_add_right (Nat.pow_le_pow_right Nat.two_pos hbm) _
    _ = 2 ^ (m + 1) := by rw [Nat.pow_succ, Nat.mul_two]
    _ ≤ 2 ^ n := Nat.pow_le_pow_right Nat.two_pos hmn

variable {i : ℤ}

theorem fitsFloat_of_natAbs_lt {bits : ℕ} (h : i.natAbs < 2 ^ bits) (hbits : bits ≤ 970) :
    FitsFloat i := by
  unfold FitsFloat floatBound
  exact h.trans_le (two_pow_le_two_pow_sub hbits (by decide))

theorem succeeds_intToFloat_iff : Succeeds (intToFloat i) ↔ FitsFloat i := by simp [intToFloat]

namespace PyValue

variable {v : PyValue}

theorem succeeds_toFloat_iff : Succeeds v.toFloat ↔ v.FloatConvertible := by
  cases v with
  | int i => exact succeeds_intToFloat_iff
  | str s =>
    rw [toFloat, FloatConvertible]
    cases parseFloat s with
    | none => simp
    | some f => simp
  | _ => simp [toFloat, FloatConvertible]

theorem succeeds_iter_iff : Succeeds v.iter ↔ v.Iterable := by cases v <;> simp [iter, Iterable]

theorem succeeds_len_iff : Succeeds v.len ↔ v.Iterable := succeeds_map_iff.trans succeeds_iter_iff

/-- An index below the length is in a value other than a dictionary. -/
theorem succeeds_index_iff {i n : ℕ} (hlen : v.len = .ok n) (h : i < n) :
    Succeeds (v.index i) ↔ ∀ es, v ≠ dict es := by
  by_cases hdict : ∃ es, v = dict es
  · obtain ⟨es, rfl⟩ := hdict
    simp [index]
  · have hne : ∀ es, v ≠ dict es := fun es hv => hdict ⟨es, hv⟩
    obtain ⟨xs, hxs, rfl⟩ : ∃ xs, v.iter = .ok xs ∧ xs.length = n := by
      cases hiter : v.iter with
      | error e => simp [len, hiter, Except.map] at hlen
      | ok xs => exact ⟨xs, rfl, by simpa [len, hiter, Except.map] using hlen⟩
    have hindex : v.index i = .ok xs[i] := by
      unfold index
      split
      · next es => exact absurd rfl (hne es)
      · simp [hxs, List.getElem?_eq_getElem h, bind, Except.bind]
    exact iff_of_true ⟨_, hindex⟩ hne

end PyValue

/-! ### The errors the operations raise -/

mutual

variable {e : PyError}

/-- A comparison raises nothing but a type error. -/
theorem PyValue.lt_error : ∀ v w : PyValue, v.lt w = .error e → e = .typeError
  | v, w, h => by
      unfold PyValue.lt at h
      split at h
      · cases h
      · cases h
      · cases h
      · cases h
      · cases h
      · next xs ys => exact PyValue.listLt_error xs ys h
      · split at h
        · cases h
        · cases h
          rfl

theorem PyValue.listLt_error :
    ∀ xs ys : List PyValue, PyValue.listLt xs ys = .error e → e = .typeError
  | [], ys, h => by simp [PyValue.listLt] at h
  | x :: xs, [], h => by simp [PyValue.listLt] at h
  | x :: xs, y :: ys, h => by
      rw [PyValue.listLt] at h
      split at h
      · exact PyValue.listLt_error xs ys h
      · exact PyValue.lt_error x y h

end

theorem PyValue.raisesOnly_num (v : PyValue) : RaisesOnly v.num (· = .typeError) := by
  unfold PyValue.num
  split
  · exact raisesOnly_ok _ _
  · exact raisesOnly_error rfl

theorem raisesOnly_intToFloat (i : ℤ) : RaisesOnly (intToFloat i) (· = .overflowError) :=
  .ite (raisesOnly_ok _ _) (raisesOnly_error rfl)

namespace PyNum

theorem raisesOnly_toFloat (n : PyNum) : RaisesOnly n.toFloat (· = .overflowError) := by
  cases n with
  | int i => exact raisesOnly_intToFloat i
  | float f => exact raisesOnly_ok _ _

/-- Arithmetic raises nothing but an overflow. -/
theorem raisesOnly_sub (a b : PyNum) : RaisesOnly (a.sub b) (· = .overflowError) := by
  unfold sub
  split
  · exact raisesOnly_ok _ _
  · exact (raisesOnly_toFloat a).bind fun _ => (raisesOnly_toFloat b).bind fun _ =>
      raisesOnly_pure _ _

theorem raisesOnly_mul (a b : PyNum) : RaisesOnly (a.mul b) (· = .overflowError) := by
  unfold mul
  split
  · exact raisesOnly_ok _ _
  · exact (raisesOnly_toFloat a).bind fun _ => (raisesOnly_toFloat b).bind fun _ =>
      raisesOnly_pure _ _

end PyNum

/-! ### Timestamps -/

theorem succeeds_fromTimestamp_iff {f : PyFloat} : Succeeds (fromTimestamp f) ↔ IsTimestamp f := by
  cases f <;> simp [fromTimestamp, IsTimestamp]

end MonCTL
