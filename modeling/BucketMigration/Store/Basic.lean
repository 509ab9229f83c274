import BucketMigration.Store.Fault
import BucketMigration.Text.Front
import BucketMigration.Text.Numeral
import Std.Data.TreeMap

/-!
# Stores

An object store in memory. It keeps buckets and open uploads, answers the eight storage calls,
counts them, fails those that a fault applies to, and knows how many data calls are under way.

A call has two halves. `Store.enter` counts it, looks for a fault and puts a data call in flight.
`Store.finish` does the work and takes the call out of flight again. Between the two a data call
may wait for the latency of the store, and if it is given up there it is never taken out.
-/

namespace BucketMigration

structure StoredObject where
  data : ByteArray
  lastModified : Int
  etag : String
  partsCount : Option Nat

structure StoredPart where
  data : ByteArray
  etag : String

/-- An upload that was neither completed nor aborted. -/
structure UploadSession where
  bucket : String
  key : String
  parts : Std.TreeMap Int StoredPart := {}

abbrev Bucket := Std.TreeMap String StoredObject

/-- An object store. Ids and etags are taken from one counter, which is a word in a store that runs: it
starts again after `2 ^ 64` ids. A store here is meant to give out fewer. -/
structure Store where
  buckets : Std.TreeMap String Bucket := {}
  uploads : Std.TreeMap String UploadSession := {}
  faults : List Fault := []
  callLog : List Operation := []
  nextId : Nat := 0
  latencyMs : Nat := 0
  inFlight : Nat := 0
  peakInFlight : Nat := 0
  dropsTokens : Bool := false
  omitsEtags : Bool := false

namespace Store

/-- The objects of a bucket. A bucket that was never written to is empty. -/
def bucket (s : Store) (name : String) : Bucket :=
  s.buckets.getD name {}

def object? (s : Store) (bucket key : String) : Option StoredObject :=
  (s.bucket bucket)[key]?

def write (s : Store) (bucket key : String) (object : StoredObject) : Store :=
  { s with buckets := s.buckets.insert bucket ((s.bucket bucket).insert key object) }

def calls (s : Store) (operation : Operation) : Nat :=
  s.callLog.count operation

def pendingUploads (s : Store) : Nat :=
  s.uploads.size

/-- The digits of an etag, which tell the length of the data and the next id. -/
def etagDigits (s : Store) (length : Nat) : String :=
  Text.hex length ++ Text.hexPadded 8 s.nextId

def etag (s : Store) (length : Nat) : String :=
  "\"" ++ s.etagDigits length ++ "\""

def takeId (s : Store) : Store :=
  { s with nextId := s.nextId + 1 }

/-- Store an object that was written in one piece at a given time. -/
def insert (s : Store) (bucket key : String) (data : ByteArray) (time : Int) : Store :=
  s.takeId.write bucket key ⟨data, time, s.etag data.size, none⟩

/-- Let an object report that it was uploaded in `count` parts. -/
def setPartsCount (s : Store) (bucket key : String) (count : Nat) : Store :=
  match s.object? bucket key with
  | none => s
  | some object => s.write bucket key { object with partsCount := some count }

def listed (s : Store) (bucket keyPrefix : String) (token : Option String) :
    List (String × StoredObject) :=
  (s.bucket bucket).toList.filter fun (key, _) =>
    Text.hasFront keyPrefix key && token.all (· < key)

def list (s : Store) (bucket keyPrefix : String) (token : Option String) (maxKeys : Int) :
    ListPage :=
  let found := s.listed bucket keyPrefix token
  let limit := (max maxKeys 1).toNat
  let page := found.take limit
  let isTruncated := limit < found.length
  { objects := page.map fun (key, object) => ⟨key, object.data.size⟩
    nextToken :=
      if isTruncated && !s.dropsTokens then page.getLast?.map Prod.fst else none
    isTruncated }

def head (s : Store) (bucket key : String) : Option ObjectMetadata :=
  (s.object? bucket key).map fun object =>
    ⟨object.data.size, some object.lastModified, some object.etag, object.partsCount⟩

def get (s : Store) (bucket key : String) (range : Option ByteRange) :
    Except StorageError ByteArray :=
  match s.object? bucket key with
  | none => .error (.notFound bucket key)
  | some object =>
      match range with
      | none => .ok object.data
      | some range =>
          if range.fits object.data.size then .ok (range.slice object.data)
          else
            .error (.other (s!"range {range.header} not satisfiable for s3://{bucket}/{key} of "
              ++ s!"{object.data.size} bytes"))

def uploadId (s : Store) : String :=
  s!"upload-{s.nextId}"

def createUpload (s : Store) (bucket key : String) : Store :=
  { s.takeId with uploads := s.uploads.insert s.uploadId ⟨bucket, key, {}⟩ }

def unknownUpload (bucket key id : String) : StorageError :=
  .multipart bucket key id "no such upload"

/-- The open upload with an id, if it was opened for this bucket and key. -/
def session? (s : Store) (bucket key id : String) : Option UploadSession :=
  s.uploads[id]?.filter fun session => session.bucket == bucket && session.key == key

/-- Add a part to an upload, in place of an earlier one with the same number. The etag is taken
before the upload is looked up. -/
def uploadPart (s : Store) (bucket key id : String) (part : Int) (data : ByteArray) :
    Except StorageError (Option String) × Store :=
  match s.session? bucket key id with
  | none => (.error (unknownUpload bucket key id), s.takeId)
  | some session =>
      let etag := s.etag data.size
      let session := { session with parts := session.parts.insert part ⟨data, etag⟩ }
      (.ok (if s.omitsEtags then none else some etag),
        { s.takeId with uploads := s.uploads.insert id session })

def ascending : List CompletedPart → Bool
  | a :: b :: rest => a.number < b.number && ascending (b :: rest)
  | _ => true

/-- The data of the named parts, joined to `acc`. Every part has to be named with the etag of its
latest upload. -/
def assemble (session : UploadSession) (acc : ByteArray) :
    List CompletedPart → Except CompletedPart ByteArray
  | [] => .ok acc
  | part :: rest =>
      match session.parts[part.number]? with
      | some stored =>
          if stored.etag = part.etag then assemble session (acc ++ stored.data) rest
          else .error part
      | none => .error part

def completeUpload (s : Store) (now : Int) (bucket key id : String)
    (parts : List CompletedPart) : Except StorageError Unit × Store :=
  match s.session? bucket key id with
  | none => (.error (unknownUpload bucket key id), s)
  | some session =>
      if parts.isEmpty then (.error (.multipart bucket key id "no parts supplied"), s)
      else if !ascending parts then
        (.error (.multipart bucket key id "parts are not in ascending order"), s)
      else
        match assemble session .empty parts with
        | .error part =>
            (.error (.multipart bucket key id
              s!"part {part.number} was not uploaded with etag {part.etag}"), s)
        | .ok data =>
            let etag := "\"" ++ s.etagDigits data.size ++ s!"-{parts.length}\""
            let closed := { s.takeId with uploads := s.uploads.erase id }
            (.ok (), closed.write bucket key ⟨data, now, etag, some (parts.length % Nat.pow 2 32)⟩)

/-- Forget an upload. Only its id is looked at. -/
def abortUpload (s : Store) (bucket key id : String) : Except StorageError Unit × Store :=
  if id ∈ s.uploads then (.ok (), { s with uploads := s.uploads.erase id })
  else (.error (unknownUpload bucket key id), s)

def perform (s : Store) (now : Int) : Request → Reply × Store
  | .list bucket keyPrefix token maxKeys => (.ok (.page (s.list bucket keyPrefix token maxKeys)), s)
  | .head bucket key => (.ok (.metadata (s.head bucket key)), s)
  | .get bucket key range => ((s.get bucket key range).map .content, s)
  | .put bucket key data => (.ok .done, s.insert bucket key data now)
  | .createUpload bucket key => (.ok (.uploadId s.uploadId), s.createUpload bucket key)
  | .uploadPart bucket key id part data =>
      let (result, s) := s.uploadPart bucket key id part data
      (result.map .etag, s)
  | .completeUpload bucket key id parts =>
      let (result, s) := s.completeUpload now bucket key id parts
      (result.map fun _ => .done, s)
  | .abortUpload bucket key id =>
      let (result, s) := s.abortUpload bucket key id
      (result.map fun _ => .done, s)

def launch (s : Store) : Store :=
  { s with
    inFlight := s.inFlight + 1
    peakInFlight := max s.peakInFlight (s.inFlight + 1) }

def land (s : Store) : Store :=
  { s with inFlight := s.inFlight - 1 }

/-- The first half of a call. An error ends the call here. -/
def enter (s : Store) (r : Request) : Except StorageError Unit × Store :=
  let s := { s with callLog := r.operation :: s.callLog }
  match Fault.spendFirst? r s.faults with
  | some (fault, faults) => (.error (fault.error r), { s with faults })
  | none => (.ok (), if r.movesData then s.launch else s)

/-- The second half of a call. -/
def finish (s : Store) (now : Int) (r : Request) : Reply × Store :=
  let (reply, s) := s.perform now r
  (reply, if r.movesData then s.land else s)

/-- How long a call that has entered waits before it can finish. -/
def delayMs (s : Store) (r : Request) : Nat :=
  if r.movesData then s.latencyMs else 0

def call (s : Store) (now : Int) (r : Request) : Reply × Store :=
  match s.enter r with
  | (.error e, s) => (.error e, s)
  | (.ok (), s) => s.finish now r

end Store

end BucketMigration
