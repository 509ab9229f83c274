import BucketMigration.Decimal.Rounding
import BucketMigration.Error
import BucketMigration.Json.Compact
import Std.Data.TreeMap

/-!
# Progress

The running tally of a migration, and what it reads at one moment. The tally itself is unbounded.
A reading is a record of 64-bit words, so every number is taken modulo `2 ^ 64`.
-/

namespace BucketMigration

/-- The running tally of a migration. -/
structure Progress where
  objects : Nat := 0
  bytes : Nat := 0
  migrated : Nat := 0
  skipped : Nat := 0
  landedBytes : Nat := 0
  failures : Std.TreeMap String MigrationError := {}

/-- What a tally reads at one moment. -/
structure Snapshot where
  totalObjects : Nat
  totalBytes : Nat
  migratedObjects : Nat
  skippedObjects : Nat
  completedBytes : Nat
  failedObjects : Nat
deriving DecidableEq, Repr, Inhabited

namespace Progress

def countObject (p : Progress) : Progress :=
  { p with objects := p.objects + 1 }

def addBytes (p : Progress) (size : Nat) : Progress :=
  { p with bytes := p.bytes + size }

def dispatch (p : Progress) (size : Nat) : Progress :=
  p.countObject.addBytes size

def countMigrated (p : Progress) : Progress :=
  { p with migrated := p.migrated + 1 }

def countSkipped (p : Progress) : Progress :=
  { p with skipped := p.skipped + 1 }

def land (p : Progress) (size : Nat) : Progress :=
  { p with landedBytes := p.landedBytes + size }

/-- Record the failure of an object, in place of an earlier one under the same key. -/
def fail (p : Progress) (key : String) (error : MigrationError) : Progress :=
  { p with failures := p.failures.insert key error }

def snapshot (p : Progress) : Snapshot where
  totalObjects := p.objects % Nat.pow 2 64
  totalBytes := p.bytes % Nat.pow 2 64
  migratedObjects := p.migrated % Nat.pow 2 64
  skippedObjects := p.skipped % Nat.pow 2 64
  completedBytes := p.landedBytes % Nat.pow 2 64
  failedObjects := p.failures.size % Nat.pow 2 64

end Progress

namespace Snapshot

/-- Objects that are neither migrated nor skipped nor failed. -/
def pendingObjects (s : Snapshot) : Nat :=
  s.totalObjects - (s.migratedObjects + s.skippedObjects + s.failedObjects)

/-- Arrived bytes as a percentage of all bytes; of none, all have arrived. -/
def percent (s : Snapshot) : Float :=
  if s.totalBytes = 0 then 100.0
  else (UInt64.ofNat s.completedBytes).toFloat * 100.0 / (UInt64.ofNat s.totalBytes).toFloat

def text (s : Snapshot) : String :=
  s!"{s.migratedObjects}/{s.totalObjects} objects migrated, {s.skippedObjects} skipped, "
    ++ s!"{s.failedObjects} failed; {s.completedBytes}/{s.totalBytes} bytes "
    ++ s!"({Decimal.oneDecimal s.percent}%)"

def json (s : Snapshot) : String :=
  Json.Compact.object [("total_objects", toString s.totalObjects),
    ("total_bytes", toString s.totalBytes), ("migrated_objects", toString s.migratedObjects),
    ("skipped_objects", toString s.skippedObjects),
    ("completed_bytes", toString s.completedBytes), ("failed_objects", toString s.failedObjects)]

end Snapshot

end BucketMigration
