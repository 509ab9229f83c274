import BucketMigration.Json.Number
import BucketMigration.Json.Reader

/-!
# Decoding JSON

Typed reading of values and records. A record is written as an object with named members, or as an
array of its fields in order. Members that no field is called after are skipped; a field given
twice is refused.
-/

namespace BucketMigration.Json

def nat? (bound : Nat) : Json → Option Nat
  | .number n => do
      let i ← n.int?
      if 0 ≤ i ∧ i < bound then some i.toNat else none
  | _ => none

def int32? : Json → Option Int
  | .number n => do
      let i ← n.int?
      if -Int.pow 2 31 ≤ i ∧ i < Int.pow 2 31 then some i else none
  | _ => none

def word? : Json → Option Nat :=
  nat? (Nat.pow 2 64)

def halfWord? : Json → Option Nat :=
  nat? (Nat.pow 2 32)

def float? : Json → Option Float
  | .number n => n.float?
  | _ => none

def bool? : Json → Option Bool
  | .bool b => some b
  | _ => none

def text? : Json → Option String
  | .string s => s
  | _ => none

/-- A value that may be absent, which is written `null`. -/
def nullable? {α : Type} (read? : Json → Option α) : Json → Option (Option α)
  | .null => some none
  | j => (read? j).map some

/-- The values given for the fields of a record, in the order of the fields. -/
abbrev Slots := List (Option Json)

/-- The member called `name`, if there is exactly one or none at all. -/
def member? (name : String) (members : List (Option String × Json)) : Option (Option Json) :=
  match members.filter fun m => m.1 == some name with
  | [] => some none
  | [m] => some (some m.2)
  | _ => none

/-- The slots of a record given by its members. Every member needs a readable name. -/
def named? (names : List String) (members : List (Option String × Json)) : Option Slots :=
  if members.all fun m => m.1.isSome then names.mapM fun name => member? name members else none

/-- The slots of a record given by position. -/
def positional? (names : List String) (items : List Json) : Option Slots :=
  if items.length ≤ names.length then
    some (items.map some ++ List.replicate (names.length - items.length) none)
  else none

def slots? (names : List String) : Json → Option Slots
  | .object members => named? names members
  | .array items => positional? names items
  | _ => none

/-- The slots of a record whose array form has to give every field. -/
def fullSlots? (names : List String) : Json → Option Slots
  | .array items => if items.length = names.length then positional? names items else none
  | j => slots? names j

def fieldOr {α : Type} (default : α) (read? : Json → Option α) : Option Json → Option α
  | none => some default
  | some j => read? j

def field {α : Type} (read? : Json → Option α) : Option Json → Option α
  | none => none
  | some j => read? j

end BucketMigration.Json
