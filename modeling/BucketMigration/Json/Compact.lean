import BucketMigration.Text.Numeral

/-!
# Writing JSON compactly

JSON without spaces, members in the order given. Only quotes, backslashes and control characters
are escaped.
-/

namespace BucketMigration.Json.Compact

open Text (hexPadded)

def char (c : Char) : String :=
  match c with
  | '"' => "\\\""
  | '\\' => "\\\\"
  | '\x08' => "\\b"
  | '\x0c' => "\\f"
  | '\n' => "\\n"
  | '\r' => "\\r"
  | '\t' => "\\t"
  | c => if c.toNat < 0x20 then "\\u" ++ hexPadded 4 c.toNat else c.toString

def string (s : String) : String :=
  "\"" ++ String.join (s.toList.map char) ++ "\""

def bool (b : Bool) : String :=
  if b then "true" else "false"

def option {α : Type} (write : α → String) : Option α → String
  | none => "null"
  | some a => write a

def object (members : List (String × String)) : String :=
  let member : String × String → String := fun m => string m.1 ++ ":" ++ m.2
  "\x7b" ++ ",".intercalate (members.map member) ++ "\x7d"

end BucketMigration.Json.Compact
