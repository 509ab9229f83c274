/-!
# Log lines
-/

namespace BucketMigration

inductive LogLevel
  | error
  | warn
  | info
  | debug
deriving DecidableEq, Repr, Inhabited

structure LogLine where
  level : LogLevel
  text : String
deriving DecidableEq, Repr, Inhabited

end BucketMigration
