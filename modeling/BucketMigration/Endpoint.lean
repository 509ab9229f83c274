import BucketMigration.Options
import BucketMigration.Text.Front
import BucketMigration.Text.Quoted

/-!
# Endpoints

The two ends of a migration. An end is a bucket with a key prefix: on the source side it scopes
the listing, on the target side it takes the place of the source prefix in every key.
-/

namespace BucketMigration

structure Endpoint where
  bucket : String
  keyPrefix : String := ""
deriving DecidableEq, Repr, Inhabited

def Endpoint.text (e : Endpoint) : String :=
  "Endpoint \x7b bucket: " ++ Text.quoted e.bucket ++ ", prefix: " ++ Text.quoted e.keyPrefix
    ++ ", .. \x7d"

inductive Side
  | source
  | target
deriving DecidableEq, Repr, Inhabited

/-- What is fixed for a whole migration. -/
structure Setup where
  source : Endpoint
  target : Endpoint
  options : MigrationOptions := {}

/-- The key that an object has on the target side. -/
def Setup.targetKey (setup : Setup) (key : String) : String :=
  String.ofList
    (setup.target.keyPrefix.toList ++ Text.dropFront setup.source.keyPrefix.toList key.toList)

end BucketMigration
