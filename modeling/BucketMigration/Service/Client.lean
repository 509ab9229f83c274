import BucketMigration.Service.Failure
import BucketMigration.Storage.Request
import BucketMigration.Text.Numeral
import BucketMigration.Text.Split

/-!
# A client of a storage service

The eight storage calls over an S3 service. Requests are sent by a library that is taken as given: it
has an output for each or a failure. This module says what reply a call makes of that.
-/

namespace BucketMigration.Service

/-- The number of parts that the etag of an object tells: the part after the last dash, within
any double quotes. Objects written in one piece have none. -/
def partsCountOfEtag? (etag : String) : Option Nat :=
  match Text.splitLast '-' (Text.trimBoth (· == '"') etag.toList) with
  | none => none
  | some (_, count) => (Text.unsigned? (Nat.pow 2 32) count).filter (0 < ·)

/-- A time as the library tells it: in milliseconds since the epoch, when they fit in 64 bits. -/
structure Timestamp where
  millis? : Option Int
deriving DecidableEq, Repr, Inhabited

/-- Whole seconds since the epoch, cut toward it. -/
def Timestamp.epochSeconds? (t : Timestamp) : Option Int :=
  t.millis?.map (·.tdiv 1000)

structure Output where
  contents : List (Option String × Option Int) := []
  nextToken : Option String := none
  isTruncated : Option Bool := none
  contentLength : Option Int := none
  lastModified : Option Timestamp := none
  partsCount : Option Int := none
  etag : Option String := none
  uploadId : Option String := none
  /-- The bytes of the body, or why it could not be read to its end. -/
  body : Except String ByteArray := .ok .empty

def sizeOf (n : Option Int) : Nat :=
  (n.getD 0).toNat

def pageOf (o : Output) : ListPage where
  objects := o.contents.filterMap fun (key, size) => key.map fun key => ⟨key, sizeOf size⟩
  nextToken := o.nextToken
  isTruncated := o.isTruncated.getD false

/-- The service tells how many parts an object has been uploaded in, or else its etag does. -/
def metadataOf (o : Output) : ObjectMetadata where
  size := sizeOf o.contentLength
  lastModified := o.lastModified.bind Timestamp.epochSeconds?
  etag := o.etag
  partsCount :=
    match o.partsCount with
    | some n => if 0 ≤ n then some n.toNat else o.etag.bind partsCountOfEtag?
    | none => o.etag.bind partsCountOfEtag?

def replyOf (r : Request) (o : Output) : Reply :=
  match r with
  | .list .. => .ok (.page (pageOf o))
  | .head .. => .ok (.metadata (some (metadataOf o)))
  | .get bucket key _ =>
      match o.body with
      | .ok data => .ok (.content data)
      | .error e => .error (.network s!"reading body of s3://{bucket}/{key}: {e}" true)
  | .createUpload bucket key =>
      match o.uploadId with
      | some id => .ok (.uploadId id)
      | none => .error (.other s!"no upload id returned for s3://{bucket}/{key}")
  | .uploadPart .. => .ok (.etag o.etag)
  | .put .. | .completeUpload .. | .abortUpload .. => .ok .done

/-- The reply to a failed request. An object that is not there has no metadata, which is no
failure. -/
def replyOfFailure (r : Request) (f : Failure) (message : String) : Reply :=
  match r, (ClientError.ofFailure f r.bucket r.key message).toStorageError with
  | .head .., .notFound .. => .ok (.metadata none)
  | _, error => .error error

/-- The reply to a request that has an output or has failed, given the text of a failure. -/
def replyTo (r : Request) (message : Failure → String) : Except Failure Output → Reply
  | .ok output => replyOf r output
  | .error f => replyOfFailure r f (message f)

/-- A client, with the library that sends its requests. It may demand that buckets belong to an
account. -/
structure Client where
  expectedOwner : Option String := none
  send : Option String → Request → Except Failure Output
  describe : Failure → String

def Client.call (client : Client) (r : Request) : Reply :=
  replyTo r client.describe (client.send client.expectedOwner r)

end BucketMigration.Service
