import MonCTL.Basic

/-!
# Parsing UUIDs

`uuid.UUID(text)` takes 32 hexadecimal digits; hyphens, surrounding braces and a URN prefix
are optional. A UUID is its canonical text.
-/

namespace MonCTL

/-- A hexadecimal digit. -/
def isHexDigit (c : Char) : Bool :=
  c.isDigit || ('a' ≤ c && c ≤ 'f') || ('A' ≤ c && c ≤ 'F')

/-- A text without a prefix, when it has it. -/
def dropPrefix (pre cs : List Char) : List Char :=
  if pre.isPrefixOf cs then cs.drop pre.length else cs

/-- A text without the braces at its ends. -/
def stripBraces (cs : List Char) : List Char :=
  let isBrace := fun c => c = '{' || c = '}'
  ((cs.dropWhile isBrace).reverse.dropWhile isBrace).reverse

/-- 32 digits in groups, in lower case. -/
def canonicalUuid (digits : List Char) : Uuid :=
  let part := fun i n => ((digits.drop i).take n).map Char.toLower
  String.ofList (part 0 8 ++ '-' :: part 8 4 ++ '-' :: part 12 4 ++ '-' :: part 16 4 ++
    '-' :: part 20 12)

/-- `uuid.UUID(text)`. -/
def parseUuid (text : String) : Option Uuid :=
  let digits := (stripBraces (dropPrefix "uuid:".toList (dropPrefix "urn:".toList
    text.toList))).filter (· ≠ '-')
  if digits.length = 32 ∧ digits.all isHexDigit then some (canonicalUuid digits) else none

end MonCTL
