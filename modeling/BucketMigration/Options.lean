import BucketMigration.Error
import BucketMigration.Retry

/-!
# Migration options

What a user may choose about a migration, and which choices it cannot run with.
-/

namespace BucketMigration

/-- The most keys that one listing page may hold. -/
def maxKeysPerPage : Int := 1000

structure MigrationOptions where
  concurrency : Nat := 10
  partConcurrency : Option Nat := none
  pageSize : Int := maxKeysPerPage
  skipSize : Nat := 0
  forceOverwrite : Bool := false
  multipartThreshold : Nat := minPartSize
  partSize : Nat := minPartSize
  maxPartSize : Nat := BucketMigration.maxPartSize
  maxParts : Nat := BucketMigration.maxParts
  publishTimeoutMs : Nat := 5000
  metadataRetry : RetrySettings := {}
  verbose : Bool := false
deriving BEq, Repr

namespace MigrationOptions

/-- Parts of one object copied at once: as many as objects, unless chosen. -/
def effectivePartConcurrency (options : MigrationOptions) : Nat :=
  max (options.partConcurrency.getD options.concurrency) 1

def maxObjectSize (options : MigrationOptions) : Nat :=
  Layout.maxObjectSize options.maxParts options.maxPartSize

def partSizing (options : MigrationOptions) : PartSizing :=
  ⟨options.partSize, options.maxParts, options.maxPartSize⟩

/-- How many unfinished tasks a page-driven run stops listing at. -/
def highWater (options : MigrationOptions) : Nat :=
  (max options.pageSize 1).toNat

/-- Options with a publish timeout, of which whole milliseconds are kept. -/
def withPublishTimeout (options : MigrationOptions) (microseconds : Nat) : MigrationOptions :=
  { options with publishTimeoutMs := microseconds / 1000 % Nat.pow 2 64 }

/-- The first thing that the options ask for and that cannot be done. -/
def validate (options : MigrationOptions) : Except MigrationError Unit :=
  let invalid (message : String) : Except MigrationError Unit := .error (.invalidConfig message)
  if options.concurrency = 0 then
    invalid "concurrency must be at least 1"
  else if options.partConcurrency = some 0 then
    invalid "part_concurrency must be at least 1"
  else if options.pageSize < 1 ∨ maxKeysPerPage < options.pageSize then
    invalid s!"page_size must be between 1 and {maxKeysPerPage}, got {options.pageSize}"
  else if options.multipartThreshold = 0 then
    invalid "multipart_threshold must be at least 1 byte"
  else if options.partSize = 0 ∨ options.maxPartSize < options.partSize then
    invalid s!"part_size must be between 1 and {options.maxPartSize} bytes, got {options.partSize}"
  else if options.maxParts = 0 then
    invalid "max_parts must be at least 1"
  else if options.metadataRetry.maxAttempts = 0 then
    invalid "metadata_retry.max_attempts must be at least 1"
  else .ok ()

/-- What options ask for when all of it can be done. -/
structure Valid (options : MigrationOptions) : Prop where
  concurrency : 0 < options.concurrency
  partConcurrency : options.partConcurrency ≠ some 0
  pageSize : 1 ≤ options.pageSize ∧ options.pageSize ≤ maxKeysPerPage
  multipartThreshold : 0 < options.multipartThreshold
  partSize : 0 < options.partSize ∧ options.partSize ≤ options.maxPartSize
  maxParts : 0 < options.maxParts
  attempts : 0 < options.metadataRetry.maxAttempts

theorem valid_of_validate {options : MigrationOptions} (h : options.validate = .ok ()) :
    options.Valid := by
  unfold validate at h
  split at h
  · cases h
  split at h
  · cases h
  split at h
  · cases h
  split at h
  · cases h
  split at h
  · cases h
  split at h
  · cases h
  split at h
  · cases h
  · constructor <;> first | assumption | omega

end MigrationOptions

end BucketMigration
