import BucketMigration.Endpoint
import BucketMigration.Log
import BucketMigration.Outcome
import BucketMigration.Storage.Request

/-!
# Object copies

The migration of one object as a machine that sees the world only through storage replies. A copy
is in a phase; the phase tells which calls it waits for. A copy in parts has several of them at
once, one for each part under way, so every call belongs to a lane. The machine itself, and what
it does on a reply, is in `Copy.Step`.
-/

namespace BucketMigration

structure Call where
  side : Side
  request : Request
deriving DecidableEq, Inhabited

/-- Where a reply belongs: to the object as a whole or to one of its parts. -/
inductive Lane
  | whole
  | part (number : Nat)
deriving DecidableEq, Repr, Inhabited

/-- What a copy does besides making calls. -/
inductive Effect
  | log (line : LogLine)
  | countSkipped
  | countMigrated
  | land (bytes : Nat)
deriving DecidableEq, Repr, Inhabited

/-- A part on its way. It is being read until its data has come, and written from then on. -/
structure PartCopy where
  part : PartRange
  data : Option ByteArray := none
deriving Inhabited

/-- How a part ends. A part is left out when an earlier one has failed before it starts. -/
inductive PartEnd
  | uploaded (etag : Option String)
  | leftOut
  | failed (error : MigrationError)
deriving DecidableEq, Repr, Inhabited

/-- The state of a copy in parts: those that have not started, in order, those under way, and
those that have ended, in the order in which they did. -/
structure Session where
  uploadId : String
  waiting : List PartRange
  active : List PartCopy := []
  ended : List (Nat × PartEnd) := []
deriving Inhabited

inductive Phase
  | describing (attempt : Nat)
  /-- The given attempt has failed and the next one is due later. -/
  | pausing (attempt : Nat)
  | comparing
  | reading
  | writing (data : ByteArray)
  | opening (plan : PartPlan)
  | copying (session : Session)
  | completing (uploadId : String) (parts : List CompletedPart)
  | aborting (uploadId : String) (cause : MigrationError)
  | ended (verdict : Verdict)
  /-- No layout could be computed in 64 bits. -/
  | overflowed
deriving Inhabited

/-- The migration of one object, with the metadata of the source once it is known. -/
structure ObjectCopy where
  object : ObjectDescriptor
  metadata : Option ObjectMetadata := none
  phase : Phase
deriving Inhabited

namespace PartCopy

def call (setup : Setup) (object : ObjectDescriptor) (uploadId : String) (p : PartCopy) : Call :=
  match p.data with
  | none => ⟨.source, .get setup.source.bucket object.key (some p.part.range)⟩
  | some data =>
      ⟨.target, .uploadPart setup.target.bucket (setup.targetKey object.key) uploadId
        p.part.number data⟩

end PartCopy

namespace Session

def hasFailed (s : Session) : Bool :=
  s.ended.any fun e => e.2 matches .failed _

def failure? (s : Session) : Option MigrationError :=
  s.ended.findSome? fun
    | (_, .failed error) => some error
    | _ => none

def isOver (s : Session) : Bool :=
  s.waiting.isEmpty && s.active.isEmpty

def uploaded (s : Session) : List (Nat × Option String) :=
  (s.ended.filterMap fun
    | (number, .uploaded etag) => some (number, etag)
    | _ => none).mergeSort fun a b => a.1 ≤ b.1

def active? (s : Session) (number : Nat) : Option PartCopy :=
  s.active.find? fun p => p.part.number == number

def fill (s : Session) (number : Nat) (data : ByteArray) : Session :=
  { s with active := s.active.map fun p =>
      if p.part.number = number then { p with data := some data } else p }

def finish (s : Session) (number : Nat) (how : PartEnd) : Session :=
  { s with
    active := s.active.filter fun p => p.part.number != number
    ended := s.ended ++ [(number, how)] }

end Session

/-- The parts to complete an upload with, or the first one that lacks its etag. -/
def completedParts : List (Nat × Option String) → Except Nat (List CompletedPart)
  | [] => .ok []
  | (number, some etag) :: rest => (completedParts rest).map (⟨number, etag⟩ :: ·)
  | (number, none) :: _ => .error number

namespace ObjectCopy

def call? (setup : Setup) (c : ObjectCopy) : Lane → Option Call
  | .whole =>
      let source := setup.source.bucket
      let target := setup.target.bucket
      let targetKey := setup.targetKey c.object.key
      match c.phase with
      | .describing _ => some ⟨.source, .head source c.object.key⟩
      | .comparing => some ⟨.target, .head target targetKey⟩
      | .reading => some ⟨.source, .get source c.object.key none⟩
      | .writing data => some ⟨.target, .put target targetKey data⟩
      | .opening _ => some ⟨.target, .createUpload target targetKey⟩
      | .completing id parts => some ⟨.target, .completeUpload target targetKey id parts⟩
      | .aborting id _ => some ⟨.target, .abortUpload target targetKey id⟩
      | _ => none
  | .part number =>
      match c.phase with
      | .copying s => (s.active? number).map (PartCopy.call setup c.object s.uploadId)
      | _ => none

def verdict? (c : ObjectCopy) : Option Verdict :=
  match c.phase with
  | .ended verdict => some verdict
  | _ => none

def pauseMs? (setup : Setup) (c : ObjectCopy) : Option Nat :=
  match c.phase with
  | .pausing attempt => some (setup.options.metadataRetry.backoff attempt)
  | _ => none

/-- The parts that may start at once: those that wait, as far as the part concurrency leaves
room. -/
def startableParts (setup : Setup) (c : ObjectCopy) : Nat :=
  match c.phase with
  | .copying s => min s.waiting.length (setup.options.effectivePartConcurrency - s.active.length)
  | _ => 0

end ObjectCopy

end BucketMigration
