import MonCTL.Lib.Checks
import MonCTL.Lib.Json
import MonCTL.Lib.PyInt

/-!
# The Schema of Packs

`validate_pack_schema` looks at a decoded JSON value before it is imported. It refuses what it
knows to be wrong, but takes the types of most values for granted.
-/

namespace MonCTL.Packs

open Validation

/-! ### Values -/

/-- What goes wrong with a value of another type. -/
inductive TypeTrouble
  | typeError
  | attributeError
  deriving DecidableEq

/-- A value that has `get`. -/
def fields? : Json → Option JsonObject
  | .obj entries => some entries
  | _ => none

def text? : Json → Option String
  | .str text => some text
  | _ => none

/-- `o.get(key)`. -/
def field (o : JsonObject) (key : String) : Json := (o.get? key).getD .null

/-- `_VALID_SEVERITIES`. -/
def validSeverities : List String := ["info", "warning", "critical", "emergency"]

/-- `_VALID_WINDOWS`. -/
def validWindows : List String := ["30s", "1m", "5m", "15m", "1h", "6h", "1d"]

-- How `str` renders a value in a message.
variable (str : Json → String)

variable (alertDef : JsonObject)

variable (value : Json)

/-- `', '.join(sorted(_VALID_UNITS))`. -/
def sortedUnits : String := "bps, bytes, count, dBm, ms, percent, pps, ratio, seconds"

variable (contents : JsonObject)

section

variable {str : Json → String}

end

/-! ### Documents -/

section

variable {str : Json → String}

end

end MonCTL.Packs
