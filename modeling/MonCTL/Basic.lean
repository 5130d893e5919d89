/-!
# Keys and Times

The types that several components share. A UUID is its text, and a time is a number of
microseconds.
-/

namespace MonCTL

/-- A UUID, as text. -/
abbrev Uuid := String

/-- A point in time. -/
abbrev Timestamp := Int

end MonCTL
