import BucketMigration.Text.Numeral
import BucketMigration.Text.Printable

/-!
# Quoted texts

A text between double quotes, as messages show it: quotes and backslashes are escaped, NUL, tab,
line feed and carriage return have short forms, and every other character that is not printable is
written by its code point.
-/

namespace BucketMigration.Text

/-- The code point of a character in braces, in hexadecimal. -/
def codePointEscape (c : Char) : String :=
  "\\u\x7b" ++ hex c.toNat ++ "\x7d"

/-- How one character is written inside a quoted text. -/
def quotedChar (c : Char) : String :=
  match c with
  | '"' => "\\\""
  | '\\' => "\\\\"
  | '\n' => "\\n"
  | '\r' => "\\r"
  | '\t' => "\\t"
  | '\x00' => "\\0"
  | c => if isPrintable c then c.toString else codePointEscape c

def quoted (s : String) : String :=
  "\"" ++ String.join (s.toList.map quotedChar) ++ "\""

end BucketMigration.Text
