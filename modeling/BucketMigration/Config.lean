import BucketMigration.Json.Compact
import BucketMigration.Json.Decode
import BucketMigration.Options
import BucketMigration.Storage.Settings

/-!
# Configuration texts

How settings, options and object descriptors are read from JSON and written to it. Fields that are
left out take their defaults, except those that have none.
-/

namespace BucketMigration

open Json (field fieldOr nullable? slots? fullSlots? word? halfWord? int32? float? bool? text?)

/-- Credentials need both keys; the session token may be left out of an object. -/
def Credentials.ofJson? (j : Json) : Option Credentials := do
  match ← fullSlots? ["access_key_id", "secret_access_key", "session_token"] j with
  | [accessKeyId, secretAccessKey, sessionToken] =>
      return {
        accessKeyId := ← field text? accessKeyId
        secretAccessKey := ← field text? secretAccessKey
        sessionToken := ← fieldOr none (nullable? text?) sessionToken }
  | _ => none

def StorageSettings.ofJson? (j : Json) : Option StorageSettings := do
  let names :=
    ["region", "credentials", "endpoint_url", "force_path_style", "expected_bucket_owner"]
  let base : StorageSettings := {}
  match ← slots? names j with
  | [region, credentials, endpointUrl, forcePathStyle, expectedBucketOwner] =>
      return {
        region := ← fieldOr base.region text? region
        credentials :=
          ← fieldOr base.credentials (nullable? Credentials.ofJson?) credentials
        endpointUrl := ← fieldOr base.endpointUrl (nullable? text?) endpointUrl
        forcePathStyle := ← fieldOr base.forcePathStyle bool? forcePathStyle
        expectedBucketOwner :=
          ← fieldOr base.expectedBucketOwner (nullable? text?) expectedBucketOwner }
  | _ => none

def RetrySettings.ofJson? (j : Json) : Option RetrySettings := do
  let names := ["max_attempts", "initial_backoff_ms", "max_backoff_ms", "backoff_multiplier"]
  let base : RetrySettings := {}
  match ← slots? names j with
  | [maxAttempts, initialBackoffMs, maxBackoffMs, backoffMultiplier] =>
      return {
        maxAttempts := ← fieldOr base.maxAttempts halfWord? maxAttempts
        initialBackoffMs := ← fieldOr base.initialBackoffMs word? initialBackoffMs
        maxBackoffMs := ← fieldOr base.maxBackoffMs word? maxBackoffMs
        backoffMultiplier := ← fieldOr base.backoffMultiplier float? backoffMultiplier }
  | _ => none

def ObjectDescriptor.ofJson? (j : Json) : Option ObjectDescriptor := do
  match ← fullSlots? ["key", "size"] j with
  | [key, size] => return { key := ← field text? key, size := ← field word? size }
  | _ => none

def MigrationOptions.ofJson? (j : Json) : Option MigrationOptions := do
  let names :=
    ["concurrency", "part_concurrency", "page_size", "skip_size", "force_overwrite",
      "multipart_threshold", "part_size", "max_part_size", "max_parts", "publish_timeout_ms",
      "metadata_retry", "verbose"]
  let base : MigrationOptions := {}
  match ← slots? names j with
  | [concurrency, partConcurrency, pageSize, skipSize, forceOverwrite, multipartThreshold,
      partSize, maxPartSize, maxParts, publishTimeoutMs, metadataRetry, verbose] =>
      return {
        concurrency := ← fieldOr base.concurrency word? concurrency
        partConcurrency := ← fieldOr base.partConcurrency (nullable? word?) partConcurrency
        pageSize := ← fieldOr base.pageSize int32? pageSize
        skipSize := ← fieldOr base.skipSize word? skipSize
        forceOverwrite := ← fieldOr base.forceOverwrite bool? forceOverwrite
        multipartThreshold := ← fieldOr base.multipartThreshold word? multipartThreshold
        partSize := ← fieldOr base.partSize word? partSize
        maxPartSize := ← fieldOr base.maxPartSize word? maxPartSize
        maxParts := ← fieldOr base.maxParts word? maxParts
        publishTimeoutMs := ← fieldOr base.publishTimeoutMs word? publishTimeoutMs
        metadataRetry := ← fieldOr base.metadataRetry RetrySettings.ofJson? metadataRetry
        verbose := ← fieldOr base.verbose bool? verbose }
  | _ => none

namespace Config

open Json.Compact (object string bool option)

def credentials (c : Credentials) : String :=
  object [("access_key_id", string c.accessKeyId), ("secret_access_key", string c.secretAccessKey),
    ("session_token", option string c.sessionToken)]

def settings (s : StorageSettings) : String :=
  object [("region", string s.region), ("credentials", option credentials s.credentials),
    ("endpoint_url", option string s.endpointUrl), ("force_path_style", bool s.forcePathStyle),
    ("expected_bucket_owner", option string s.expectedBucketOwner)]

def descriptor (d : ObjectDescriptor) : String :=
  object [("key", string d.key), ("size", toString d.size)]

end Config

end BucketMigration
