import BucketMigration.Copy.Basic
import BucketMigration.Text.Duration

/-!
# Steps of an object copy

How a copy starts, and how it goes on when a reply comes, a pause is over or a part may start. The
size limits are looked at first, since they need no call; the source metadata is fetched with
retries; the target is asked once whether it is current. Every step tells the new state and the
effects, in order. A step that does not fit the phase has no value.
-/

namespace BucketMigration

namespace ObjectCopy

variable (setup : Setup) (c : ObjectCopy)

abbrev Next := ObjectCopy × List Effect

def note (level : LogLevel) (text : String) : Effect :=
  .log ⟨level, text⟩

def go (phase : Phase) : Next :=
  ({ c with phase }, [])

def fail (error : MigrationError) : Next :=
  c.go (.ended (.error error))

def failCall (key operation : String) (error : StorageError) : Next :=
  c.fail (.storage key operation error)

def targetKey : String :=
  setup.targetKey c.object.key

def start (object : ObjectDescriptor) : Next :=
  let options := setup.options
  let c : ObjectCopy := ⟨object, none, .describing 1⟩
  if options.maxObjectSize < object.size then
    c.fail (.sizeExceeded object.key object.size options.maxObjectSize)
  else if 0 < options.skipSize ∧ options.skipSize < object.size then
    ({ c with phase := .ended (.error
        (.skipLimitExceeded object.key object.size options.skipSize)) },
      [note .debug (s!"Skipping {object.key}: {object.size} bytes is above the "
          ++ s!"{options.skipSize} byte skip size"),
        .countSkipped])
  else (c, [])

/-- A copy that is not started, because the migration has been halted by `cause`. -/
def refuse (object : ObjectDescriptor) (cause : MigrationError) : Next :=
  (⟨object, none, .ended (.error (.halted object.key cause))⟩,
    [note .debug s!"Not starting {object.key}: migration halted"])

/-- The layout of a copy in parts. The part count of the source is used when it is known. -/
def plan? : Option (Except PartPlanError PartPlan) :=
  Layout.plan? c.object.size (c.metadata.bind ObjectMetadata.partsCount) setup.options.partSizing

/-- Move the bytes in parts. They are laid out before an upload is opened. -/
def transferInParts : Next :=
  match c.plan? setup with
  | none => c.go .overflowed
  | some (.error error) => c.fail (.partPlan c.object.key error)
  | some (.ok plan) => c.go (.opening plan)

def transfer : Next :=
  match TransferMode.ofSize c.object.size setup.options.multipartThreshold with
  | .direct => c.go .reading
  | .multipart => c.transferInParts setup

/-- The source metadata has come, or could not be had in the given attempt. -/
def described (attempt : Nat) : Except StorageError (Option ObjectMetadata) → Next
  | .ok (some metadata) =>
      let c := { c with metadata := some metadata }
      if setup.options.forceOverwrite then c.transfer setup else c.go .comparing
  | .ok none => c.fail (.sourceNotFound setup.source.bucket c.object.key)
  | .error error =>
      let settings := setup.options.metadataRetry
      if error.isRetryable ∧ attempt < settings.attempts then
        ({ c with phase := .pausing attempt },
          [note .debug (s!"head s3://{setup.source.bucket}/{c.object.key} failed "
            ++ s!"(attempt {attempt}/{settings.attempts}): {error.message}; "
            ++ s!"retrying in {Text.duration (settings.backoff attempt)}")])
      else
        match error with
        | .notFound bucket key => c.fail (.sourceNotFound bucket key)
        | error => c.fail (.metadataFetch c.object.key attempt error)

/-- Whether the target holds a copy at least as new as the source. A missing time on either side
never makes it current. -/
def isCurrent (target : Option ObjectMetadata) : Bool :=
  match target.bind ObjectMetadata.lastModified, c.metadata.bind ObjectMetadata.lastModified with
  | some copied, some modified => modified ≤ copied
  | _, _ => false

def compared : Except StorageError (Option ObjectMetadata) → Next
  | .error error => c.failCall (c.targetKey setup) "head target object" error
  | .ok target =>
      if c.isCurrent target then
        ({ c with phase := .ended (.ok .targetCurrent) },
          [note .debug s!"Skipping {c.object.key}: target is up to date", .countSkipped])
      else c.transfer setup

def read : Except StorageError ByteArray → Next
  | .error error => c.failCall c.object.key "get object" error
  | .ok data => c.go (.writing data)

def written : Except StorageError Unit → Next
  | .error error => c.failCall (c.targetKey setup) "put object" error
  | .ok () =>
      ({ c with phase := .ended (.ok (.migrated .direct c.object.size)) },
        [.land c.object.size, .countMigrated])

def abort (uploadId : String) (cause : MigrationError) : Next :=
  ({ c with phase := .aborting uploadId cause },
    [note .warn (s!"Aborting multipart upload {uploadId} for {c.targetKey setup}: "
      ++ cause.message)])

/-- Go on with a copy in parts: once every part has ended, the upload is completed, or given up
for the failure that came first, or for the first part without an etag. -/
def settle (s : Session) : Next :=
  if s.isOver then
    match s.failure? with
    | some error => c.abort setup s.uploadId error
    | none =>
        match completedParts s.uploaded with
        | .error number => c.abort setup s.uploadId (.missingPartETag (c.targetKey setup) number)
        | .ok parts => c.go (.completing s.uploadId parts)
  else c.go (.copying s)

def opened (plan : PartPlan) : Except StorageError String → Next
  | .error error => c.failCall (c.targetKey setup) "create multipart upload" error
  | .ok uploadId =>
      let (c, effects) := c.settle setup { uploadId, waiting := plan.parts }
      (c, note .debug (s!"Copying {c.object.key} in {plan.parts.length} parts of "
        ++ s!"{plan.partSize} bytes (upload {uploadId})") :: effects)

def partRead (s : Session) (p : PartCopy) : Except StorageError ByteArray → Next
  | .error error =>
      c.settle setup (s.finish p.part.number (.failed (.storage c.object.key "get part" error)))
  | .ok data => c.go (.copying (s.fill p.part.number data))

def partWritten (s : Session) (p : PartCopy) : Except StorageError (Option String) → Next
  | .error error =>
      c.settle setup
        (s.finish p.part.number (.failed (.storage (c.targetKey setup) "upload part" error)))
  | .ok etag =>
      let length := p.part.range.length
      let (c, effects) := c.settle setup (s.finish p.part.number (.uploaded etag))
      (c, .land length :: note .debug (s!"Uploaded part {p.part.number} of {c.targetKey setup} "
        ++ s!"({length} bytes)") :: effects)

def completed (uploadId : String) : Except StorageError Unit → Next
  | .error error =>
      c.abort setup uploadId (.storage (c.targetKey setup) "complete multipart upload" error)
  | .ok () =>
      ({ c with phase := .ended (.ok (.migrated .multipart c.object.size)) }, [.countMigrated])

def aborted (uploadId : String) (cause : MigrationError) : Except StorageError Unit → Next
  | .error error => c.fail (.abortFailed (c.targetKey setup) uploadId error cause)
  | .ok () => c.fail cause

end ObjectCopy

namespace Reply

def metadata? : Reply → Option (Except StorageError (Option ObjectMetadata))
  | .ok (.metadata found) => some (.ok found)
  | .ok _ => none
  | .error e => some (.error e)

def content? : Reply → Option (Except StorageError ByteArray)
  | .ok (.content data) => some (.ok data)
  | .ok _ => none
  | .error e => some (.error e)

def uploadId? : Reply → Option (Except StorageError String)
  | .ok (.uploadId id) => some (.ok id)
  | .ok _ => none
  | .error e => some (.error e)

def etag? : Reply → Option (Except StorageError (Option String))
  | .ok (.etag etag) => some (.ok etag)
  | .ok _ => none
  | .error e => some (.error e)

def done? : Reply → Option (Except StorageError Unit)
  | .ok .done => some (.ok ())
  | .ok _ => none
  | .error e => some (.error e)

def page? : Reply → Option (Except StorageError ListPage)
  | .ok (.page page) => some (.ok page)
  | .ok _ => none
  | .error e => some (.error e)

end Reply

namespace ObjectCopy

variable (setup : Setup) (c : ObjectCopy)

def resume (lane : Lane) (reply : Reply) : Option Next :=
  match lane, c.phase with
  | .whole, .describing attempt => (Reply.metadata? reply).map (c.described setup attempt)
  | .whole, .comparing => (Reply.metadata? reply).map (c.compared setup)
  | .whole, .reading => (Reply.content? reply).map c.read
  | .whole, .writing _ => (Reply.done? reply).map (c.written setup)
  | .whole, .opening plan => (Reply.uploadId? reply).map (c.opened setup plan)
  | .whole, .completing id _ => (Reply.done? reply).map (c.completed setup id)
  | .whole, .aborting id cause => (Reply.done? reply).map (c.aborted setup id cause)
  | .part number, .copying s =>
      match s.active? number with
      | none => none
      | some p =>
          match p.data with
          | none => (Reply.content? reply).map (c.partRead setup s p)
          | some _ => (Reply.etag? reply).map (c.partWritten setup s p)
  | _, _ => none

def wake : Option Next :=
  match c.phase with
  | .pausing attempt => some (c.go (.describing (attempt + 1)))
  | _ => none

/-- The next part takes its first step. It is left out when a part has failed by then. -/
def startPart : Option Next :=
  match c.phase with
  | .copying s =>
      match s.waiting with
      | [] => none
      | part :: waiting =>
          if s.active.length < setup.options.effectivePartConcurrency then
            let s := { s with waiting }
            if s.hasFailed then some (c.settle setup (s.finish part.number .leftOut))
            else some (c.go (.copying { s with active := s.active ++ [⟨part, none⟩] }))
          else none
  | _ => none

end ObjectCopy

end BucketMigration
