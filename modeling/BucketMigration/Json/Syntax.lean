/-!
# JSON as written

A JSON text as a tree that keeps what a reader may still care about: the digits of a numeral, the
order of members and members given twice. A string that pairs no surrogate properly stands for no
text; it is kept as `none`, since it may be skipped where nobody reads it.
-/

namespace BucketMigration

/-- A numeral by its digits. A missing fraction differs from one that is zero. -/
structure Numeral where
  negative : Bool := false
  whole : List Char
  fraction : Option (List Char) := none
  exponent : Option (Bool × List Char) := none
deriving DecidableEq, Repr, Inhabited

/-- A JSON text. The flag of an exponent tells whether it is negative. -/
inductive Json
  | null
  | bool (value : Bool)
  | number (value : Numeral)
  | string (value : Option String)
  | array (items : List Json)
  | object (members : List (Option String × Json))
deriving Repr, Inhabited

end BucketMigration
