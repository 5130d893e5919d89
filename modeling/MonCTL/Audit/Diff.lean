import Mathlib.Data.List.Infix
import Mathlib.Algebra.BigOperators.Group.List.Basic
import MonCTL.Lib.JsonText

/-!
# Values in the Audit Log

What an audit row keeps of the old and the new state of an object: the fields with sensitive names
redacted, everything written as JSON, and the text cut off when it is too long. A value that cannot
be written leaves an empty object.

An operation that raises gives `none`. How deep a value may be nested is up to the interpreter: a
nested call of the redaction goes through if its stack fits.
-/

namespace MonCTL.Audit

open JsonText

/-- A float, with the text of its `repr` if it is finite. -/
inductive Float
  | finite (repr : String) (isNumber : IsNumber repr.toList)
  | inf (negative : Bool)
  | nan

/-- The key of a dictionary. -/
inductive Key
  | str (name : String)
  | other

/-- A value of a field. Of values that are only ever printed, it is their text. -/
inductive Value
  | none
  | bool (value : Bool)
  | int (value : ℤ)
  | float (value : Float)
  | str (value : String)
  | uuid (str : String)
  /-- A date, a time, or both. -/
  | datetime (isoformat : String)
  | bytes (length : ℕ)
  | dict (entries : List (Key × Value))
  | list (values : List Value)
  | tuple (values : List Value)
  /-- Any other object, unless its `__str__` raises. -/
  | other (str : Option String)

/-- A value that the JSON writer knows, or gives to its default. -/
inductive Plain
  | null
  | bool (value : Bool)
  | int (value : ℤ)
  | float (value : Float)
  | str (value : String)
  | dict (entries : List (String × Plain))
  | list (values : List Plain)
  | other (str : Option String)

/-! ### Redaction -/

/-- `_SENSITIVE_KEYS`. -/
def sensitiveKeys : List String :=
  ["password", "password_hash", "api_key", "key_hash", "encryption_key", "jwt_secret",
    "credential_value", "secret", "token", "private_key"]

/-- The lower case of a character, as far as it has an ASCII letter in it: so do those of the
dotted I and of the Kelvin sign. -/
def lowerChar (c : Char) : List Char :=
  if c = '\u0130' then ['i', '\u0307'] else if c = '\u212a' then ['k'] else [c.toLower]

/-- `_is_sensitive`. -/
def isSensitive (fieldName : String) : Bool :=
  sensitiveKeys.any fun k => k.toList <:+: fieldName.toList.flatMap lowerChar

/-- What a call of the redaction is inside of. -/
inductive Container
  | dict
  | list

/-- Whether a stack of calls fits the interpreter's. -/
abbrev Fits := List Container → Bool

mutual
/-- `_coerce`. -/
def coerce (fits : Fits) (stack : List Container) : Value → Option Plain
  | .none => some .null
  | .bool value => some (.bool value)
  | .int value => some (.int value)
  | .float value => some (.float value)
  | .str value => some (.str value)
  | .uuid str => some (.str str)
  | .datetime isoformat => some (.str isoformat)
  | .bytes length => some (.str s!"<bytes:{length}>")
  | .dict entries =>
    if fits (.dict :: stack) then (redactEntries fits (.dict :: stack) entries).map .dict
    else none
  | .list values =>
    if fits (.list :: stack) then (coerceList fits (.list :: stack) values).map .list else none
  | .tuple values =>
    if fits (.list :: stack) then (coerceList fits (.list :: stack) values).map .list else none
  | .other str => some (.other str)

def coerceList (fits : Fits) (stack : List Container) : List Value → Option (List Plain)
  | [] => some []
  | v :: values =>
    (coerce fits stack v).bind fun p => (coerceList fits stack values).map fun plains => p :: plains

/-- The loop of `redact_dict`, in which a name that is no string has no lower case. -/
def redactEntries (fits : Fits) (stack : List Container) :
    List (Key × Value) → Option (List (String × Plain))
  | [] => some []
  | (.other, _) :: _ => none
  | (.str name, v) :: entries =>
    (if isSensitive name then some (.str "***") else coerce fits stack v).bind fun p =>
      (redactEntries fits stack entries).map fun plains => (name, p) :: plains
end

/-- `redact_dict`, of the data of an audit row. -/
def redactDict (fits : Fits) (data : List (Key × Value)) : Option Plain :=
  coerce fits [] (.dict data)

/-! ### The text -/

/-- The digits of an integer that is still written. -/
def maxStrDigits : ℕ := 4300

def dumpsFloat : Float → List Char
  | .finite repr _ => repr.toList
  | .inf false => "Infinity".toList
  | .inf true => "-Infinity".toList
  | .nan => "NaN".toList

mutual
/-- `json.dumps(…, ensure_ascii=False, default=str)`. -/
def dumps : Plain → Option (List Char)
  | .null => some "null".toList
  | .bool true => some "true".toList
  | .bool false => some "false".toList
  | .int value =>
    if (toString value.natAbs).length ≤ maxStrDigits then some (toString value).toList else none
  | .float value => some (dumpsFloat value)
  | .str value => some (quote value)
  | .dict entries => (dumpsEntries entries).map object
  | .list values => (dumpsList values).map array
  | .other str => str.map quote

def dumpsList : List Plain → Option (List (List Char))
  | [] => some []
  | p :: plains => (dumps p).bind fun t => (dumpsList plains).map fun ts => t :: ts

def dumpsEntries : List (String × Plain) → Option (List (List Char))
  | [] => some []
  | (name, p) :: entries =>
    (dumps p).bind fun t => (dumpsEntries entries).map fun ts => member name t :: ts
end

/-- `_MAX_VALUE_STR`. -/
def maxValueStr : ℕ := 8192

/-- What a text ends with that has been cut off. -/
def truncated : String := "...\"(truncated)\""

/-- `to_json`. -/
def toJson (fits : Fits) (data : List (Key × Value)) : String :=
  match (redactDict fits data).bind dumps with
  | none => "\x7b\x7d"
  | some text =>
    if text.length > maxValueStr then String.ofList (text.take maxValueStr) ++ truncated
    else String.ofList text

end MonCTL.Audit
