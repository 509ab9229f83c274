import BucketMigration.Error
import BucketMigration.Json.Compact
import BucketMigration.Text.Blank
import BucketMigration.Text.Numeral
import BucketMigration.Text.Split
import BucketMigration.Word

/-!
# Batches

Batches of objects given by lines of the form `key|size`. The size comes after the last bar, so
a key may hold bars itself. Blank lines are ignored. A batch is read as a whole before anything is
done with it.
-/

namespace BucketMigration

namespace Batch

open Text (isBlank isBlankText splitLast trimBoth trimEnd unsigned?)

def isLineEnd (c : Char) : Bool :=
  c = '\r' || c = '\n'

def fields? (line : List Char) : Option (List Char × Nat) :=
  match splitLast '|' (trimEnd isLineEnd line) with
  | none => none
  | some (key, size) =>
      if key = [] then none
      else (unsigned? wordCount (trimBoth isBlank size)).map fun n => (key, n)

/-- The object that a line names. The error tells the line as it was given. -/
def entry (line : String) (number : Nat) : Except MigrationError ObjectDescriptor :=
  match fields? line.toList with
  | some (key, size) => .ok ⟨String.ofList key, size⟩
  | none => .error (.invalidBatchEntry number line)

/-- The objects named from line `number` on, or the first line that names none. -/
def entriesFrom (number : Nat) : List String → Except MigrationError (List ObjectDescriptor)
  | [] => .ok []
  | line :: rest =>
      if isBlankText line.toList then entriesFrom (number + 1) rest
      else
        match entry line number with
        | .error e => .error e
        | .ok d =>
            match entriesFrom (number + 1) rest with
            | .error e => .error e
            | .ok ds => .ok (d :: ds)

/-- The objects that a batch names, in order. Lines are counted from 1. -/
def entries (lines : List String) : Except MigrationError (List ObjectDescriptor) :=
  entriesFrom 1 lines

end Batch

structure BatchSummary where
  dispatched : Nat := 0
  migrated : Nat := 0
  skipped : Nat := 0
  failed : Nat := 0
deriving DecidableEq, Repr, Inhabited

namespace BatchSummary

def text (s : BatchSummary) : String :=
  s!"{s.dispatched} dispatched, {s.migrated} migrated, {s.skipped} skipped, {s.failed} failed"

def json (s : BatchSummary) : String :=
  Json.Compact.object [("dispatched", toString s.dispatched), ("migrated", toString s.migrated),
    ("skipped", toString s.skipped), ("failed", toString s.failed)]

end BatchSummary

end BucketMigration
