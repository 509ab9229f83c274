/-!
# Connection settings

How a storage service is reached and who asks.
-/

namespace BucketMigration

structure Credentials where
  accessKeyId : String
  secretAccessKey : String
  sessionToken : Option String
deriving DecidableEq, Repr, Inhabited

/-- How a storage service is reached. Without credentials, the ones found in the environment are
used. -/
structure StorageSettings where
  region : String := "us-east-1"
  credentials : Option Credentials := none
  endpointUrl : Option String := none
  forcePathStyle : Bool := false
  expectedBucketOwner : Option String := none
deriving DecidableEq, Repr, Inhabited

end BucketMigration
