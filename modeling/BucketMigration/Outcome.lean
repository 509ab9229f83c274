import BucketMigration.Error
import BucketMigration.Json.Compact

/-!
# Outcomes

How the migration of one object ends, and the record of it that is handed to a consumer.
-/

namespace BucketMigration

/-- How the migration of an object succeeds. -/
inductive Outcome
  /-- The object was copied; `bytes` were written to the target. -/
  | migrated (mode : TransferMode) (bytes : Nat)
  /-- The target holds a copy at least as new as the source. -/
  | targetCurrent
deriving DecidableEq, Repr, Inhabited

/-- How the migration of an object ends. -/
abbrev Verdict := Except MigrationError Outcome

inductive TaskStatus
  | migrated
  | skipped
  | failed
deriving DecidableEq, Repr, Inhabited

/-- The group of an object that ended with a verdict. -/
def TaskStatus.ofVerdict : Verdict → TaskStatus
  | .ok (.migrated ..) => migrated
  | .ok .targetCurrent => skipped
  | .error e => if e.isSkip then skipped else failed

structure CopyResult where
  sourceKey : String
  targetKey : String
  success : Bool
  skipped : Bool
  error : Option MigrationError
  bytesCopied : Nat
  mode : Option TransferMode
deriving DecidableEq, Repr, Inhabited

namespace CopyResult

def ofVerdict (sourceKey targetKey : String) (verdict : Verdict) : CopyResult :=
  let skipped := TaskStatus.ofVerdict verdict == .skipped
  match verdict with
  | .ok (.migrated mode bytes) =>
      ⟨sourceKey, targetKey, true, skipped, none, bytes, some mode⟩
  | .ok .targetCurrent => ⟨sourceKey, targetKey, true, skipped, none, 0, none⟩
  | .error e => ⟨sourceKey, targetKey, false, skipped, some e, 0, none⟩

open Json.Compact (object string bool option)

/-- The record as JSON, for an object that took the given time. -/
def json (r : CopyResult) (seconds nanoseconds : Nat) : String :=
  object [("source_key", string r.sourceKey), ("target_key", string r.targetKey),
    ("success", bool r.success), ("skipped", bool r.skipped),
    ("error", option (fun e => string e.message) r.error),
    ("duration", object [("secs", toString seconds), ("nanos", toString nanoseconds)]),
    ("bytes_copied", toString r.bytesCopied),
    ("mode", option (fun m => string m.name) r.mode)]

end CopyResult

end BucketMigration
