import BucketMigration.Proofs.Copy.Conversation
import BucketMigration.Proofs.Store.Alike
import BucketMigration.Proofs.World.Solo

/-!
# How stores serve a copy

What the stores hold while one object is copied and nothing else happens to them, and what each call
of the copy makes of it. The stores before the copy are `S₀`; no fault applies to any call.
-/

namespace BucketMigration

section States

variable (S₀ : Stores)

/-- All objects are still as they were. -/
structure Quiet (S : Stores) : Prop where
  faults : ∀ side, (S.get side).faults = []
  etags : (S.get .target).omitsEtags = false
  objects : ∀ side, (S.get side).object? = (S₀.get side).object?

structure Untouched (S : Stores) : Prop where
  quiet : Quiet S₀ S
  uploads : (S.get .target).uploads = (S₀.get .target).uploads
  nextId : (S.get .target).nextId = (S₀.get .target).nextId

/-- The upload that is opened for the copy is `own`, and all others are as they were. -/
def Upload (own : Option UploadSession) (S : Stores) : Prop :=
  ∀ id : String, (S.get .target).uploads[id]? =
    if id = (S₀.get .target).uploadId then own else (S₀.get .target).uploads[id]?

variable (setup : Setup) (object : ObjectDescriptor)

def ownUpload (parts : Std.TreeMap Int StoredPart) : UploadSession :=
  ⟨setup.target.bucket, setup.targetKey object.key, parts⟩

structure Opened (parts : Std.TreeMap Int StoredPart) (S : Stores) : Prop where
  quiet : Quiet S₀ S
  upload : Upload S₀ (some (ownUpload setup object parts)) S

structure Closed (S : Stores) : Prop where
  objects : (S.get .target).object? = (S₀.get .target).object?
  upload : Upload S₀ none S

/-- The target holds `bytes` for the object, and elsewhere what it held before. -/
def Written (bytes : ByteArray) (count : Option Nat) (S : Stores) : Prop :=
  ∃ stored : StoredObject, stored.data = bytes ∧ stored.partsCount = count ∧
    ∀ bucket key, (S.get .target).object? bucket key =
      if setup.target.bucket = bucket ∧ setup.targetKey object.key = key then some stored
      else (S₀.get .target).object? bucket key

end States

section Changes

variable {S₀ S T : Stores} {setup : Setup} {object : ObjectDescriptor}

theorem Quiet.of_alike (h : Quiet S₀ S) (hST : S.Alike T) : Quiet S₀ T where
  faults := fun side => (hST side).faults.trans (h.faults side)
  etags := (hST .target).omitsEtags.trans h.etags
  objects := fun side => (hST side).objects.trans (h.objects side)

theorem Quiet.set_target (h : Quiet S₀ S) {store : Store}
    (hobjects : store.object? = (S.get .target).object?) (hfaults : store.faults = [])
    (hetags : store.omitsEtags = false) : Quiet S₀ (S.set .target store) where
  faults := by
    intro side
    rcases S.get_set_or .target side store with ⟨hset, -⟩ | hset
    · rw [hset, hfaults]
    · rw [hset, h.faults]
  etags := by rw [Stores.get_set, hetags]
  objects := by
    intro side
    rcases S.get_set_or .target side store with ⟨hset, hget⟩ | hset
    · rw [hset, hobjects, ← hget, h.objects]
    · rw [hset, h.objects]

theorem Upload.of_uploads_eq {own : Option UploadSession} (h : Upload S₀ own S)
    (hST : (T.get .target).uploads = (S.get .target).uploads) : Upload S₀ own T := by
  intro id
  rw [hST]
  exact h id

theorem Upload.eq_of_ne {own : Option UploadSession} (h : Upload S₀ own S) {id : String}
    (hid : id ≠ (S₀.get .target).uploadId) :
    (S.get .target).uploads[id]? = (S₀.get .target).uploads[id]? := by
  rw [h, if_neg hid]

theorem upload_insert {own : UploadSession} {store : Store}
    (h : ∀ id : String, id ≠ (S₀.get .target).uploadId →
      (S.get .target).uploads[id]? = (S₀.get .target).uploads[id]?)
    (hstore : store.uploads = (S.get .target).uploads.insert (S₀.get .target).uploadId own) :
    Upload S₀ (some own) (S.set .target store) := by
  intro id
  rw [Stores.get_set, hstore, Std.TreeMap.getElem?_insert]
  by_cases hid : id = (S₀.get .target).uploadId
  · subst hid
    simp
  · rw [if_neg hid, if_neg (by simpa using Ne.symm hid), h id hid]

theorem upload_erase {store : Store}
    (h : ∀ id : String, id ≠ (S₀.get .target).uploadId →
      (S.get .target).uploads[id]? = (S₀.get .target).uploads[id]?)
    (hstore : store.uploads = (S.get .target).uploads.erase (S₀.get .target).uploadId) :
    Upload S₀ none (S.set .target store) := by
  intro id
  rw [Stores.get_set, hstore, Std.TreeMap.getElem?_erase]
  by_cases hid : id = (S₀.get .target).uploadId
  · subst hid
    simp
  · rw [if_neg hid, if_neg (by simpa using Ne.symm hid), h id hid]

theorem Untouched.of_alike (h : Untouched S₀ S) (hST : S.Alike T) : Untouched S₀ T where
  quiet := h.quiet.of_alike hST
  uploads := (hST .target).uploads.trans h.uploads
  nextId := (hST .target).nextId.trans h.nextId

theorem Opened.of_alike {parts : Std.TreeMap Int StoredPart}
    (h : Opened S₀ setup object parts S) (hST : S.Alike T) : Opened S₀ setup object parts T where
  quiet := h.quiet.of_alike hST
  upload := h.upload.of_uploads_eq (hST .target).uploads

theorem Opened.session? {parts : Std.TreeMap Int StoredPart} (h : Opened S₀ setup object parts S) :
    (S.get .target).session? setup.target.bucket (setup.targetKey object.key)
      (S₀.get .target).uploadId = some (ownUpload setup object parts) := by
  rw [Store.session?_eq_some_iff, h.upload, if_pos rfl]
  exact ⟨rfl, rfl, rfl⟩

end Changes

/-- How far a call has come that takes the stores from `before` to `after` and is answered with
`reply`. -/
inductive Serves (before after : Stores → Prop) (reply : Reply) (S : Stores) :
    Option CallState → Prop
  | due (h : before S) : Serves before after reply S none
  | entered (h : before S) : Serves before after reply S (some .entered)
  | answered (h : after S) : Serves before after reply S (some (.answered reply))

/-- The stores do what is expected of a call. -/
structure Honest (call : Call) (before after : Stores → Prop) (reply : Reply) : Prop where
  of_alike : ∀ {S T : Stores}, before S → S.Alike T → before T
  faults : ∀ {S : Stores}, before S → (S.get call.side).faults = []
  finish : ∀ {S : Stores} (now : Int), before S →
    ((S.get call.side).finish now call.request).1 = reply ∧
      after (S.set call.side ((S.get call.side).finish now call.request).2)

section Serves

variable {call : Call} {before after : Stores → Prop} {reply : Reply} {S : Stores}

theorem Stores.enter_of_faults_eq_nil (hfaults : (S.get call.side).faults = []) :
    ((S.get call.side).enter call.request).1 = .ok () ∧
      S.Alike (S.set call.side ((S.get call.side).enter call.request).2) := by
  obtain ⟨hok, halike⟩ := Store.enter_of_faults_eq_nil hfaults call.request
  exact ⟨hok, Stores.alike_set halike⟩

theorem Serves.enter (hhonest : Honest call before after reply)
    (h : Serves before after reply S none) :
    Serves before after reply (S.set call.side ((S.get call.side).enter call.request).2)
      (some (match ((S.get call.side).enter call.request).1 with
      | .error e => .answered (.error e)
      | .ok () => .entered)) := by
  cases h with
  | due h =>
    obtain ⟨hok, halike⟩ := Stores.enter_of_faults_eq_nil (hhonest.faults h)
    rw [hok]
    exact .entered (hhonest.of_alike h halike)

theorem Serves.finish (hhonest : Honest call before after reply) (now : Int)
    (h : Serves before after reply S (some .entered)) :
    Serves before after reply (S.set call.side ((S.get call.side).finish now call.request).2)
      (some (.answered ((S.get call.side).finish now call.request).1)) := by
  cases h with
  | entered h =>
    obtain ⟨hreply, hafter⟩ := hhonest.finish now h
    rw [hreply]
    exact .answered hafter

theorem Serves.deliver {given : Reply} (h : Serves before after reply S (some (.answered given))) :
    given = reply ∧ after S := by
  cases h with
  | answered h => exact ⟨rfl, h⟩

end Serves

section Calls

variable {S₀ : Stores} {setup : Setup} {object : ObjectDescriptor} {source : StoredObject}
  (hsource : (S₀.get .source).object? setup.source.bucket object.key = some source)

/-- The text of a range that goes past the end of the source. -/
def unreadable (setup : Setup) (object : ObjectDescriptor) (length : Nat) (part : PartRange) :
    StorageError :=
  .other (s!"range {part.range.header} not satisfiable for s3://{setup.source.bucket}/{object.key} of "
    ++ s!"{length} bytes")

def piece (setup : Setup) (object : ObjectDescriptor) (source : ByteArray) (part : PartRange) :
    Reply :=
  if part.range.fits source.size then .ok (.content (part.range.slice source))
  else .error (unreadable setup object source.size part)

include hsource in
theorem honest_read :
    Honest ⟨.source, .get setup.source.bucket object.key none⟩ (Untouched S₀) (Untouched S₀)
      (.ok (.content source.data)) where
  of_alike := Untouched.of_alike
  faults := fun h => h.quiet.faults _
  finish := by
    intro S now h
    rw [Store.finish_get]
    refine ⟨?_, h.of_alike (Stores.alike_set (Store.alike_land _))⟩
    simp only [Store.get, h.quiet.objects, hsource]
    rfl

theorem honest_put (data : ByteArray) :
    Honest ⟨.target, .put setup.target.bucket (setup.targetKey object.key) data⟩ (Untouched S₀)
      (fun S => Written S₀ setup object data none S ∧
        (S.get .target).uploads = (S₀.get .target).uploads) (.ok .done) where
  of_alike := Untouched.of_alike
  faults := fun h => h.quiet.faults _
  finish := by
    intro S now h
    rw [Store.finish_put]
    refine ⟨rfl, ⟨⟨data, now, (S.get .target).etag data.size, none⟩, rfl, rfl, ?_⟩, ?_⟩
    · intro bucket key
      rw [Stores.get_set, (Store.alike_land _).objects, Store.object?_insert, h.quiet.objects]
    · rw [Stores.get_set, (Store.alike_land _).uploads, Store.uploads_insert, h.uploads]

theorem honest_create :
    Honest (createCall setup object) (Untouched S₀) (Opened S₀ setup object {})
      (.ok (.uploadId (S₀.get .target).uploadId)) where
  of_alike := Untouched.of_alike
  faults := fun h => h.quiet.faults _
  finish := by
    intro S now h
    have hid : (S.get .target).uploadId = (S₀.get .target).uploadId := by
      rw [Store.uploadId, h.nextId, Store.uploadId]
    rw [createCall, Store.finish_createUpload, hid]
    refine ⟨rfl, h.quiet.set_target (Store.object?_createUpload ..) (h.quiet.faults .target)
      h.quiet.etags, upload_insert (fun id _ => by rw [h.uploads]) ?_⟩
    rw [Store.createUpload, hid]
    rfl

theorem honest_complete {parts : Std.TreeMap Int StoredPart} {ps : List CompletedPart}
    {data : ByteArray} (hne : ps ≠ []) (hascending : Store.ascending ps = true)
    (hdata : Store.assemble (ownUpload setup object parts) .empty ps = .ok data) :
    Honest (completeCall setup object (S₀.get .target).uploadId ps) (Opened S₀ setup object parts)
      (fun S => Written S₀ setup object data (some (ps.length % 2 ^ 32)) S ∧ Upload S₀ none S)
      (.ok .done) where
  of_alike := Opened.of_alike
  faults := fun h => h.quiet.faults _
  finish := by
    intro S now h
    obtain ⟨t, stored, hfinish, hbytes, hcount, hobjects, huploads⟩ :=
      Store.finish_completeUpload h.session? hne hascending hdata now
    simp only [completeCall, hfinish, true_and]
    refine ⟨⟨stored, hbytes, hcount, ?_⟩, upload_erase (fun id => h.upload.eq_of_ne) huploads⟩
    intro bucket key
    rw [Stores.get_set, hobjects, h.quiet.objects]

theorem honest_abort {parts : Std.TreeMap Int StoredPart} :
    Honest (abortCall setup object (S₀.get .target).uploadId) (Opened S₀ setup object parts)
      (Closed S₀) (.ok .done) where
  of_alike := Opened.of_alike
  faults := fun h => h.quiet.faults _
  finish := by
    intro S now h
    have hmem : (S₀.get .target).uploadId ∈ (S.get .target).uploads := by
      rw [Std.TreeMap.mem_iff_isSome_getElem?, h.upload, if_pos rfl]
      rfl
    obtain ⟨t, hfinish, hobjects, huploads⟩ := Store.finish_abortUpload hmem now
      setup.target.bucket (setup.targetKey object.key)
    simp only [abortCall, hfinish, true_and]
    refine ⟨?_, upload_erase (fun id => h.upload.eq_of_ne) huploads⟩
    rw [Stores.get_set, hobjects, h.quiet.objects]

include hsource in
/-- A part is answered with its bytes, or with an error when the source has not all of them. -/
theorem honest_getPart (part : PartRange) {parts : Std.TreeMap Int StoredPart} :
    Honest (getPartCall setup object part) (Opened S₀ setup object parts)
      (Opened S₀ setup object parts) (piece setup object source.data part) where
  of_alike := Opened.of_alike
  faults := fun h => h.quiet.faults _
  finish := by
    intro S now h
    simp only [getPartCall, Store.finish_get]
    refine ⟨?_, h.of_alike (Stores.alike_set (Store.alike_land _))⟩
    simp only [Store.get, h.quiet.objects, hsource, piece]
    split <;> rfl

theorem Opened.uploadPart {parts : Std.TreeMap Int StoredPart} {S : Stores}
    (h : Opened S₀ setup object parts S) (now : Int) (part : PartRange) (data : ByteArray) :
    let call := uploadPartCall setup object (S₀.get .target).uploadId part data
    ∃ etag, ((S.get call.side).finish now call.request).1 = .ok (.etag (some etag)) ∧
      Opened S₀ setup object (parts.insert part.number ⟨data, etag⟩)
        (S.set call.side ((S.get call.side).finish now call.request).2) := by
  obtain ⟨t, hfinish, hobjects, hfaults, hetags, huploads⟩ :=
    Store.finish_uploadPart h.session? h.quiet.etags now part.number data
  simp only [uploadPartCall, hfinish]
  exact ⟨_, rfl, h.quiet.set_target hobjects (hfaults.trans (h.quiet.faults .target)) hetags,
    upload_insert (fun id => h.upload.eq_of_ne) huploads⟩

end Calls

end BucketMigration
