import BucketMigration.Json.Syntax
import BucketMigration.Text.Numeral

/-!
# Reading JSON

A strict reader: no comments, no trailing commas, no leading zeros, nothing after the value but
white space. Every reading function takes a text and gives what it read with the rest of the text.
Nested values are read with a budget of one unit per level and item, which the length of the text
always covers.
-/

namespace BucketMigration.Json

open Text (hexDigit? decimalValue)

def isSpace (c : Char) : Bool :=
  c = ' ' || c = '\t' || c = '\n' || c = '\r'

def skipSpace (cs : List Char) : List Char :=
  cs.dropWhile isSpace

def expect? (word : List Char) (cs : List Char) : Option (List Char) :=
  if word.isPrefixOf cs then some (cs.drop word.length) else none

def digitRun (cs : List Char) : List Char × List Char :=
  (cs.takeWhile Char.isDigit, cs.dropWhile Char.isDigit)

def digits? (cs : List Char) : Option (List Char × List Char) :=
  match digitRun cs with
  | ([], _) => none
  | run => some run

/-- The digits before the point. A zero stands alone. -/
def whole? (cs : List Char) : Option (List Char × List Char) :=
  match cs with
  | '0' :: rest => if rest.head?.any Char.isDigit then none else some (['0'], rest)
  | _ => digits? cs

def fraction? (cs : List Char) : Option (Option (List Char) × List Char) :=
  match cs with
  | '.' :: rest => (digits? rest).map fun (run, rest) => (some run, rest)
  | _ => some (none, cs)

def exponent? (cs : List Char) : Option (Option (Bool × List Char) × List Char) :=
  match cs with
  | c :: rest =>
      if c = 'e' ∨ c = 'E' then
        match rest with
        | '-' :: rest => (digits? rest).map fun (run, rest) => (some (true, run), rest)
        | '+' :: rest => (digits? rest).map fun (run, rest) => (some (false, run), rest)
        | _ => (digits? rest).map fun (run, rest) => (some (false, run), rest)
      else some (none, cs)
  | [] => some (none, cs)

def numeral? (cs : List Char) : Option (Numeral × List Char) := do
  let (negative, cs) := match cs with
    | '-' :: rest => (true, rest)
    | _ => (false, cs)
  let (whole, cs) ← whole? cs
  let (fraction, cs) ← fraction? cs
  let (exponent, cs) ← exponent? cs
  return (⟨negative, whole, fraction, exponent⟩, cs)

def unit? : List Char → Option (Nat × List Char)
  | a :: b :: c :: d :: rest => do
      let a ← hexDigit? a
      let b ← hexDigit? b
      let c ← hexDigit? c
      let d ← hexDigit? d
      return (((a * 16 + b) * 16 + c) * 16 + d, rest)
  | _ => none

/-- A string is read as 16-bit units where it is escaped and as characters elsewhere. -/
inductive Piece
  | char (c : Char)
  | unit (n : Nat)
deriving DecidableEq, Repr

def escape? : List Char → Option (Piece × List Char)
  | '"' :: rest => some (.char '"', rest)
  | '\\' :: rest => some (.char '\\', rest)
  | '/' :: rest => some (.char '/', rest)
  | 'b' :: rest => some (.char '\x08', rest)
  | 'f' :: rest => some (.char '\x0c', rest)
  | 'n' :: rest => some (.char '\n', rest)
  | 'r' :: rest => some (.char '\r', rest)
  | 't' :: rest => some (.char '\t', rest)
  | 'u' :: rest => (unit? rest).map fun (n, rest) => (.unit n, rest)
  | _ => none

/-- The pieces of a string up to its closing quote; the opening quote has been read. -/
def pieces? : Nat → List Char → Option (List Piece × List Char)
  | 0, _ => none
  | _, [] => none
  | budget + 1, c :: rest =>
      if c = '"' then some ([], rest)
      else if c = '\\' then do
        let (piece, rest) ← escape? rest
        let (pieces, rest) ← pieces? budget rest
        return (piece :: pieces, rest)
      else if c.toNat < 0x20 then none
      else do
        let (pieces, rest) ← pieces? budget rest
        return (.char c :: pieces, rest)

def isHigh (n : Nat) : Bool :=
  0xD800 ≤ n && n < 0xDC00

def isLow (n : Nat) : Bool :=
  0xDC00 ≤ n && n < 0xE000

/-- The text of a string. Every high surrogate has to be followed by a low one, and no low one
stands alone. -/
def pieceText? : List Piece → Option (List Char)
  | [] => some []
  | .char c :: rest => (pieceText? rest).map (c :: ·)
  | .unit n :: .unit m :: rest =>
      if isHigh n then
        if isLow m then
          (pieceText? rest).map (Char.ofNat (0x10000 + (n - 0xD800) * 0x400 + (m - 0xDC00)) :: ·)
        else none
      else if isLow n then none
      else (pieceText? (.unit m :: rest)).map (Char.ofNat n :: ·)
  | .unit n :: rest =>
      if isHigh n || isLow n then none else (pieceText? rest).map (Char.ofNat n :: ·)

def string? (cs : List Char) : Option (Option String × List Char) :=
  (pieces? (cs.length + 1) cs).map fun (pieces, rest) =>
    ((pieceText? pieces).map String.ofList, rest)

mutual

def value? : Nat → List Char → Option (Json × List Char)
  | 0, _ => none
  | budget + 1, cs =>
      match skipSpace cs with
      | 'n' :: rest => (expect? ['u', 'l', 'l'] rest).map fun rest => (.null, rest)
      | 't' :: rest => (expect? ['r', 'u', 'e'] rest).map fun rest => (.bool true, rest)
      | 'f' :: rest => (expect? ['a', 'l', 's', 'e'] rest).map fun rest => (.bool false, rest)
      | '"' :: rest => (string? rest).map fun (s, rest) => (.string s, rest)
      | '[' :: rest =>
          match skipSpace rest with
          | ']' :: rest => some (.array [], rest)
          | _ => (items? budget rest).map fun (items, rest) => (.array items, rest)
      | '{' :: rest =>
          match skipSpace rest with
          | '}' :: rest => some (.object [], rest)
          | _ => (members? budget rest).map fun (members, rest) => (.object members, rest)
      | cs => (numeral? cs).map fun (n, rest) => (.number n, rest)

/-- The items of an array up to its closing bracket, at least one. -/
def items? : Nat → List Char → Option (List Json × List Char)
  | 0, _ => none
  | budget + 1, cs => do
      let (item, rest) ← value? budget cs
      match skipSpace rest with
      | ',' :: rest =>
          let (items, rest) ← items? budget rest
          return (item :: items, rest)
      | ']' :: rest => return ([item], rest)
      | _ => none

/-- The members of an object up to its closing brace, at least one. -/
def members? : Nat → List Char → Option (List (Option String × Json) × List Char)
  | 0, _ => none
  | budget + 1, cs => do
      let rest ← expect? ['"'] (skipSpace cs)
      let (name, rest) ← string? rest
      let rest ← expect? [':'] (skipSpace rest)
      let (item, rest) ← value? budget rest
      match skipSpace rest with
      | ',' :: rest =>
          let (members, rest) ← members? budget rest
          return ((name, item) :: members, rest)
      | '}' :: rest => return ([(name, item)], rest)
      | _ => none

end

/-- The value that a text holds, with nothing but white space around it. -/
def read? (text : String) : Option Json :=
  let cs := text.toList
  match value? (cs.length + 1) cs with
  | some (value, rest) => if (skipSpace rest).isEmpty then some value else none
  | none => none

end BucketMigration.Json
