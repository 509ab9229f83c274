/-!
# Storage errors

Why a storage call failed. Only a network or service failure can be worth another attempt.
-/

namespace BucketMigration

inductive StorageError
  | notFound (bucket key : String)
  | accessDenied (bucket key message : String)
  | network (message : String) (retryable : Bool)
  | multipart (bucket key uploadId message : String)
  | invalidConfig (message : String)
  | other (message : String)
deriving DecidableEq, Repr, Inhabited

namespace StorageError

def message : StorageError → String
  | notFound bucket key => s!"Object not found: s3://{bucket}/{key}"
  | accessDenied bucket key message => s!"Access denied to s3://{bucket}/{key}: {message}"
  | network message _ => s!"Network error: {message}"
  | multipart bucket key uploadId message =>
      s!"Multipart upload {uploadId} for s3://{bucket}/{key}: {message}"
  | invalidConfig message => s!"Invalid configuration: {message}"
  | other message => message

/-- Whether the same call may succeed when it is made again. -/
def isRetryable : StorageError → Bool
  | network _ retryable => retryable
  | _ => false

theorem isRetryable_iff {e : StorageError} :
    e.isRetryable = true ↔ ∃ message, e = network message true := by
  cases e <;> simp [isRetryable]

end StorageError

end BucketMigration
