import BucketMigration.Storage.Error
import BucketMigration.Storage.Object

/-!
# Requests and replies

The eight calls that a bucket answers. A program that moves objects sees a bucket only through
these: it makes a `Request` and is given a `Reply`.
-/

namespace BucketMigration

inductive Operation
  | list
  | head
  | get
  | put
  | createUpload
  | uploadPart
  | completeUpload
  | abortUpload
deriving DecidableEq, Repr, Inhabited

-- Bytes are compared as the core library does.
instance decidableEqData : DecidableEq ByteArray := ByteArray.decEq

inductive Request
  | list (bucket keyPrefix : String) (token : Option String) (maxKeys : Int)
  | head (bucket key : String)
  | get (bucket key : String) (range : Option ByteRange)
  | put (bucket key : String) (data : ByteArray)
  | createUpload (bucket key : String)
  | uploadPart (bucket key uploadId : String) (part : Int) (data : ByteArray)
  | completeUpload (bucket key uploadId : String) (parts : List CompletedPart)
  | abortUpload (bucket key uploadId : String)
deriving DecidableEq, Inhabited

inductive Answer
  | page (page : ListPage)
  | metadata (found : Option ObjectMetadata)
  | content (data : ByteArray)
  | uploadId (id : String)
  | etag (etag : Option String)
  | done
deriving DecidableEq, Inhabited

abbrev Reply := Except StorageError Answer

namespace Request

def operation : Request → Operation
  | list .. => .list
  | head .. => .head
  | get .. => .get
  | put .. => .put
  | createUpload .. => .createUpload
  | uploadPart .. => .uploadPart
  | completeUpload .. => .completeUpload
  | abortUpload .. => .abortUpload

def bucket : Request → String
  | list bucket .. | head bucket .. | get bucket .. | put bucket .. | createUpload bucket ..
  | uploadPart bucket .. | completeUpload bucket .. | abortUpload bucket .. => bucket

/-- The key that a call names; for a listing it is the key prefix. -/
def key : Request → String
  | list _ keyPrefix .. => keyPrefix
  | head _ key | get _ key .. | put _ key .. | createUpload _ key | uploadPart _ key ..
  | completeUpload _ key .. | abortUpload _ key .. => key

def part? : Request → Option Int
  | uploadPart _ _ _ part _ => some part
  | _ => none

/-- The calls that carry object bytes one way or the other. -/
def movesData : Request → Bool
  | get .. | put .. | uploadPart .. => true
  | _ => false

end Request

end BucketMigration
