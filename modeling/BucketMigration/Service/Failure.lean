import BucketMigration.Storage.Error
import BucketMigration.Storage.Settings
import BucketMigration.Text.Blank

/-!
# Failures of a storage service

How the failure of a request to an S3 service becomes a storage error. A response that says that
something does not exist, or that access is denied, is told apart by its status or by the code of
the error; all else is a network error, which may be worth another attempt.
-/

namespace BucketMigration.Service

/-- Where a request failed: before it was sent, on its way, or in the service. -/
inductive FailureKind
  | construction
  | timeout
  | dispatch
  | response
  | service
deriving DecidableEq, Repr, Inhabited

/-- A failed request, with the status of the response and the code of the error as far as there
are any. -/
structure Failure where
  kind : FailureKind
  status : Option Nat := none
  code : Option String := none
deriving DecidableEq, Repr, Inhabited

def retryableCodes : List String :=
  ["InternalError", "RequestTimeout", "ServiceUnavailable", "SlowDown", "Throttling"]

namespace Failure

def knownCode (f : Failure) : Option String :=
  if f.kind = .service then f.code else none

def isRetryable (f : Failure) : Bool :=
  match f.kind with
  | .timeout | .dispatch | .response => true
  | .service =>
      (f.status.any fun s => 500 ≤ s || s == 429) || f.code.any retryableCodes.contains
  | .construction => false

end Failure

inductive ClientError
  | request (bucket key : String) (status : Option Nat) (code : Option String) (message : String)
      (retryable : Bool)
  | config (message : String)
deriving DecidableEq, Repr, Inhabited

namespace ClientError

def ofFailure (f : Failure) (bucket key message : String) : ClientError :=
  .request bucket key f.status f.knownCode message f.isRetryable

def message : ClientError → String
  | request bucket key _ _ message _ => s!"AWS SDK error for s3://{bucket}/{key}: {message}"
  | config message => s!"Configuration error: {message}"

def saysNotFound (status : Option Nat) (code : Option String) : Bool :=
  status == some 404 || code == some "NoSuchKey" || code == some "NotFound"

def saysDenied (status : Option Nat) (code : Option String) : Bool :=
  status == some 403 || code == some "AccessDenied"

def toStorageError : ClientError → StorageError
  | request bucket key status code message retryable =>
      if saysNotFound status code then .notFound bucket key
      else if saysDenied status code then .accessDenied bucket key message
      else .network message retryable
  | config message => .invalidConfig message

end ClientError

def checkSettings (settings : StorageSettings) : Except StorageError Unit :=
  if Text.isBlankText settings.region.toList then
    .error (ClientError.config "region must not be empty").toStorageError
  else .ok ()

end BucketMigration.Service
