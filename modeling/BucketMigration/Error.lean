import BucketMigration.Layout
import BucketMigration.Storage.Error
import BucketMigration.Text.Quoted

/-!
# Migration errors

Why an object, a listing or a whole migration failed. Errors fall into three groups: the expected
skip of an object above the skip size, failures that concern one object, and fatal ones, which halt
the migration.
-/

namespace BucketMigration

/-- Why an object, a listing or a migration failed. -/
inductive MigrationError
  | sizeExceeded (key : String) (size limit : Nat)
  | skipLimitExceeded (key : String) (size limit : Nat)
  | sourceNotFound (bucket key : String)
  | metadataFetch (key : String) (attempts : Nat) (source : StorageError)
  | storage (key operation : String) (source : StorageError)
  | listing (bucket : String) (source : StorageError)
  | missingPartETag (key : String) (part : Int)
  | partPlan (key : String) (source : PartPlanError)
  | missingContinuationToken (bucket : String)
  | abortFailed (key uploadId : String) (abort : StorageError) (cause : MigrationError)
  | gateClosed (key : String)
  | halted (key : String) (cause : MigrationError)
  | taskFailed (message : String)
  | invalidBatchEntry (line : Nat) (entry : String)
  | invalidConfig (message : String)
deriving DecidableEq, Repr, Inhabited

namespace MigrationError

def message : MigrationError → String
  | sizeExceeded key size limit =>
      s!"{key} is {size} bytes, above the {limit} byte maximum object size"
  | skipLimitExceeded key size limit =>
      s!"skip limit exceeded: {key} is {size} bytes, limit is {limit}"
  | sourceNotFound bucket key => s!"source object s3://{bucket}/{key} no longer exists"
  | metadataFetch key attempts source =>
      s!"fetching metadata for {key} failed after {attempts} attempt(s): {source.message}"
  | storage key operation source => s!"{operation} failed for {key}: {source.message}"
  | listing bucket source => s!"listing s3://{bucket} failed: {source.message}"
  | missingPartETag key part => s!"part {part} of {key} was uploaded without an ETag"
  | partPlan key source => s!"cannot plan multipart copy of {key}: {source.message}"
  | missingContinuationToken bucket =>
      s!"listing of s3://{bucket} is truncated but returned no continuation token"
  | abortFailed key uploadId abort cause =>
      s!"aborting multipart upload {uploadId} for {key} failed: {abort.message}; original failure: "
        ++ cause.message
  | gateClosed key => s!"concurrency gate closed before {key} could start"
  | halted key cause => s!"{key} not started, migration halted: " ++ cause.message
  | taskFailed message => s!"migration task failed: {message}"
  | invalidBatchEntry line entry => s!"invalid batch entry on line {line}: {Text.quoted entry}"
  | invalidConfig message => s!"invalid configuration: {message}"

/-- Whether this is the expected end of an object above the skip size. -/
def isSkip : MigrationError → Bool
  | skipLimitExceeded .. => true
  | _ => false

/-- Whether the whole migration has to stop. -/
def isFatal : MigrationError → Bool
  | missingContinuationToken .. | abortFailed .. | taskFailed .. | invalidBatchEntry ..
  | invalidConfig .. => true
  | partPlan _ (.tooManyParts ..) => true
  | _ => false

def key? : MigrationError → Option String
  | sizeExceeded key .. | skipLimitExceeded key .. | sourceNotFound _ key | metadataFetch key ..
  | storage key .. | missingPartETag key _ | partPlan key _ | abortFailed key .. | halted key _
  | gateClosed key => some key
  | _ => none

/-- The texts of the errors underneath, the nearest first. What made an abort or a halt necessary
is part of its own text and not underneath. -/
def sources : MigrationError → List String
  | metadataFetch _ _ source | storage _ _ source | listing _ source => [source.message]
  | partPlan _ source => [source.message]
  | _ => []

theorem isFatal_eq_false_of_isSkip {e : MigrationError} (h : e.isSkip = true) :
    e.isFatal = false := by
  cases e <;> simp [isSkip] at h
  rfl

end MigrationError

end BucketMigration
