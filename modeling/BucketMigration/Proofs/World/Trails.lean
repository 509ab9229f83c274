import BucketMigration.Proofs.Store.Ledger
import BucketMigration.Proofs.World.Service

/-!
# Trails of tasks

Each task of a job leaves a trail in the stores: the upload that it holds open, and the object that it
has written. A ledger says that the stores hold what they held at first and what the trails tell, and
nothing else. A call of a task is answered by what the ledger says, and changes the trail of that task
only.
-/

namespace BucketMigration

namespace Store

/-- What the work of a call leaves alone: ids are given away, and nothing else that decides about later
calls is touched. -/
structure Onward (s t : Store) : Prop where
  faults : t.faults = s.faults
  omitsEtags : t.omitsEtags = s.omitsEtags
  nextId : s.nextId ≤ t.nextId

variable {s : Store}

theorem onward_finish (s : Store) (now : Int) (r : Request) : s.Onward (s.finish now r).2 := by
  have hworked := s.worked_perform now r
  simp only [finish]
  split <;> exact ⟨hworked.faults, hworked.omitsEtags, hworked.nextId⟩

theorem exists_finish_put (s : Store) (bucket key : String) (data : ByteArray) (now : Int) :
    ∃ t stored, s.finish now (.put bucket key data) = (.ok .done, t) ∧
      stored.data = data ∧ stored.partsCount = none ∧
      (∀ b k, t.object? b k = if bucket = b ∧ key = k then some stored else s.object? b k) ∧
      t.uploads = s.uploads :=
  ⟨_, _, rfl, rfl, rfl, s.object?_insert bucket key data now, rfl⟩

theorem exists_finish_uploadPart {bucket key id : String} {session : UploadSession}
    (h : s.session? bucket key id = some session) (now part : Int) (data : ByteArray) :
    ∃ etag t, s.finish now (.uploadPart bucket key id part data) =
        (.ok (.etag (if s.omitsEtags then none else some etag)), t) ∧
      t.object? = s.object? ∧
      t.uploads = s.uploads.insert id
        { session with parts := session.parts.insert part ⟨data, etag⟩ } :=
  ⟨_, _, finish_uploadPart_known h now part data, object?_congr rfl, rfl⟩

theorem get_congr {s t : Store} {bucket key : String}
    (h : s.object? bucket key = t.object? bucket key) (range : Option ByteRange) :
    s.get bucket key range = t.get bucket key range := by
  rw [get, h, get]

theorem head_congr {s t : Store} {bucket key : String}
    (h : s.object? bucket key = t.object? bucket key) : s.head bucket key = t.head bucket key := by
  rw [head, h, head]

end Store

structure Trail where
  upload : Option (String × UploadSession) := none
  written : Option (String × StoredObject) := none

/-- The stores hold what they held at first, and what the trails of the tasks tell. In a calm no call
fails by a fault. -/
structure Ledger (S₀ : Stores) (setup : Setup) (calm : Prop) (trails : Nat → Trail)
    (writes : List Write) (S : Stores) : Prop where
  objects : Objects S₀ setup (fun t => (trails t).written) writes S
  uploads : Uploads S₀ (fun t => (trails t).upload) S
  etags : (S.get .target).omitsEtags = (S₀.get .target).omitsEtags
  faults : calm → ∀ side, (S.get side).faults = []

def Call.write? (t : Nat) (call : Call) (reply : Reply) (S : Stores) : Option Write :=
  match call.request, reply with
  | .put bucket key _, .ok _ | .completeUpload bucket key _ _, .ok _ =>
      ((S.get call.side).object? bucket key).map fun object => ⟨t, key, object⟩
  | _, _ => none

section Calls

variable (S₀ : Stores) (setup : Setup) (object : ObjectDescriptor) (trail : Trail)

/-- The calls that a task with this trail may make. -/
inductive Fits : Call → Prop
  | describe : Fits ⟨.source, .head setup.source.bucket object.key⟩
  | compare : Fits ⟨.target, .head setup.target.bucket (setup.targetKey object.key)⟩
  | read (range : Option ByteRange) : Fits ⟨.source, .get setup.source.bucket object.key range⟩
  | put (data : ByteArray) (hwritten : trail.written = none) :
      Fits ⟨.target, .put setup.target.bucket (setup.targetKey object.key) data⟩
  | create (hupload : trail.upload = none) :
      Fits ⟨.target, .createUpload setup.target.bucket (setup.targetKey object.key)⟩
  | part {id : String} {parts : Std.TreeMap Int StoredPart} (number : Int) (data : ByteArray)
      (hupload : trail.upload = some (id, ownUpload setup object parts)) :
      Fits ⟨.target, .uploadPart setup.target.bucket (setup.targetKey object.key) id number data⟩
  | complete {id : String} {parts : Std.TreeMap Int StoredPart} {ps : List CompletedPart}
      {data : ByteArray} (hupload : trail.upload = some (id, ownUpload setup object parts))
      (hwritten : trail.written = none) (hne : ps ≠ []) (hascending : Store.ascending ps = true)
      (hdata : Store.assemble (ownUpload setup object parts) .empty ps = .ok data) :
      Fits ⟨.target, .completeUpload setup.target.bucket (setup.targetKey object.key) id ps⟩
  | abort {id : String} {parts : Std.TreeMap Int StoredPart}
      (hupload : trail.upload = some (id, ownUpload setup object parts)) :
      Fits ⟨.target, .abortUpload setup.target.bucket (setup.targetKey object.key) id⟩

/-- How a store answers the call of a task, and what the trail of the task is then. A task that is
`alone` with its target key finds there what was there at first. -/
inductive Deal (alone : Prop) : Call → Reply → Trail → Prop
  | describe : Deal alone ⟨.source, .head setup.source.bucket object.key⟩
      (.ok (.metadata ((S₀.get .source).head setup.source.bucket object.key))) trail
  | compare {found : Option ObjectMetadata} (hfound : alone → trail.written = none →
        found = (S₀.get .target).head setup.target.bucket (setup.targetKey object.key)) :
      Deal alone ⟨.target, .head setup.target.bucket (setup.targetKey object.key)⟩
        (.ok (.metadata found)) trail
  | read (range : Option ByteRange) : Deal alone ⟨.source, .get setup.source.bucket object.key range⟩
      (((S₀.get .source).get setup.source.bucket object.key range).map .content) trail
  | put {data : ByteArray} {stored : StoredObject} (hdata : stored.data = data)
      (hcount : stored.partsCount = none) :
      Deal alone ⟨.target, .put setup.target.bucket (setup.targetKey object.key) data⟩ (.ok .done)
        { trail with written := some (setup.targetKey object.key, stored) }
  | create {id : String} :
      Deal alone ⟨.target, .createUpload setup.target.bucket (setup.targetKey object.key)⟩
        (.ok (.uploadId id)) { trail with upload := some (id, ownUpload setup object {}) }
  | part {id : String} {parts : Std.TreeMap Int StoredPart} {number : Int} {data : ByteArray}
      (hupload : trail.upload = some (id, ownUpload setup object parts)) (etag : String) :
      Deal alone
        ⟨.target, .uploadPart setup.target.bucket (setup.targetKey object.key) id number data⟩
        (.ok (.etag (if (S₀.get .target).omitsEtags then none else some etag)))
        { trail with upload := some (id, ownUpload setup object (parts.insert number ⟨data, etag⟩)) }
  | complete {id : String} {parts : Std.TreeMap Int StoredPart} {ps : List CompletedPart}
      {stored : StoredObject} (hupload : trail.upload = some (id, ownUpload setup object parts))
      (hdata : Store.assemble (ownUpload setup object parts) .empty ps = .ok stored.data)
      (hcount : stored.partsCount = some (ps.length % 2 ^ 32)) :
      Deal alone ⟨.target, .completeUpload setup.target.bucket (setup.targetKey object.key) id ps⟩
        (.ok .done) ⟨none, some (setup.targetKey object.key, stored)⟩
  | abort {id : String} {parts : Std.TreeMap Int StoredPart}
      (hupload : trail.upload = some (id, ownUpload setup object parts)) :
      Deal alone ⟨.target, .abortUpload setup.target.bucket (setup.targetKey object.key) id⟩
        (.ok .done) { trail with upload := none }

end Calls

section Ledger

variable {S₀ S : Stores} {setup : Setup} {calm : Prop} {trails : Nat → Trail} {writes : List Write}

theorem ledger_start (hapart : S₀.Apart setup) (hfresh : (S₀.get .target).FreshIds)
    (hfaults : calm → ∀ side, (S₀.get side).faults = []) :
    Ledger S₀ setup calm (fun _ => {}) [] S₀ :=
  ⟨objects_start hapart, uploads_start hfresh, rfl, hfaults⟩

theorem Ledger.still (h : Ledger S₀ setup calm trails writes S) {side : Side} {store : Store}
    (hstill : (S.get side).Still store) : Ledger S₀ setup calm trails writes (S.set side store) where
  objects := h.objects.still hstill.objects
  uploads := h.uploads.still hstill.uploads (Nat.le_of_eq hstill.nextId.symm)
  etags := by
    rcases S.get_set_or side .target store with ⟨hset, hget⟩ | hset
    · rw [hset, hstill.omitsEtags, ← hget, h.etags]
    · rw [hset, h.etags]
  faults := by
    intro hcalm other
    rcases S.get_set_or side other store with ⟨hset, hget⟩ | hset
    · rw [hset]
      exact hstill.faults (h.faults hcalm side)
    · rw [hset]
      exact h.faults hcalm other

theorem written_update (trails : Nat → Trail) (t : Nat) (trail : Trail) :
    (fun u => (Function.update trails t trail u).written) =
      Function.update (fun u => (trails u).written) t trail.written :=
  Function.comp_update Trail.written trails t trail

theorem upload_update (trails : Nat → Trail) (t : Nat) (trail : Trail) :
    (fun u => (Function.update trails t trail u).upload) =
      Function.update (fun u => (trails u).upload) t trail.upload :=
  Function.comp_update Trail.upload trails t trail

section Finish

variable {object : ObjectDescriptor} {t : Nat} {alone : Prop} (h : Ledger S₀ setup calm trails writes S)
include h

theorem Ledger.read {call : Call} {store : Store} {reply : Reply}
    (hstill : (S.get call.side).Still store) (hwrite : call.write? t reply (S.set call.side store) = none)
    (hdeal : Deal S₀ setup object (trails t) alone call reply (trails t)) :
    ∃ trail', Deal S₀ setup object (trails t) alone call reply trail' ∧
      Ledger S₀ setup calm (Function.update trails t trail')
        (writes ++ (call.write? t reply (S.set call.side store)).toList) (S.set call.side store) := by
  refine ⟨trails t, hdeal, ?_⟩
  rw [Function.update_eq_self, hwrite, Option.toList_none, List.append_nil]
  exact h.still hstill

theorem Ledger.head_target (hnone : (trails t).written = none)
    (halone : ∀ u x, (trails u).written = some x → u ≠ t → x.1 ≠ setup.targetKey object.key) :
    (S.get .target).head setup.target.bucket (setup.targetKey object.key) =
      (S₀.get .target).head setup.target.bucket (setup.targetKey object.key) := by
  apply Store.head_congr
  rw [h.objects.target]
  cases hlast : latest? writes (setup.targetKey object.key) with
  | none => rfl
  | some e =>
    obtain ⟨hmem, hkey⟩ := latest?_eq_some hlast
    have hsome := (h.objects.mem_writes e.task e.key e.object).mp hmem
    by_cases he : e.task = t
    · rw [he, hnone] at hsome
      cases hsome
    · exact absurd hkey (halone e.task _ hsome he)

theorem Ledger.change {store : Store} {trail' : Trail} {writes' : List Write}
    (hobjects : Objects S₀ setup (Function.update (fun u => (trails u).written) t trail'.written)
      writes' (S.set .target store))
    (huploads : Uploads S₀ (Function.update (fun u => (trails u).upload) t trail'.upload)
      (S.set .target store))
    (honward : (S.get .target).Onward store) :
    Ledger S₀ setup calm (Function.update trails t trail') writes' (S.set .target store) where
  objects := by
    rw [written_update]
    exact hobjects
  uploads := by
    rw [upload_update]
    exact huploads
  etags := by rw [Stores.get_set, honward.omitsEtags, h.etags]
  faults := by
    intro hcalm side
    rcases S.get_set_or .target side store with ⟨hset, -⟩ | hset
    · rw [hset, honward.faults, h.faults hcalm]
    · rw [hset, h.faults hcalm]

theorem Ledger.session? {id : String} {parts : Std.TreeMap Int StoredPart}
    (hupload : (trails t).upload = some (id, ownUpload setup object parts)) :
    (S.get .target).session? setup.target.bucket (setup.targetKey object.key) id =
      some (ownUpload setup object parts) :=
  (Store.session?_eq_some_iff _).mpr ⟨(h.uploads.open_held t id _ hupload).1, rfl, rfl⟩

/-- A call that fits is answered by what the ledger says, and the ledger is kept. -/
theorem Ledger.finish {call : Call} (hfits : Fits setup object (trails t) call)
    (halone : alone → ∀ u x, (trails u).written = some x → u ≠ t →
      x.1 ≠ setup.targetKey object.key) (now : Int) :
    ∃ trail', Deal S₀ setup object (trails t) alone call
        ((S.get call.side).finish now call.request).1 trail' ∧
      Ledger S₀ setup calm (Function.update trails t trail')
        (writes ++ (call.write? t ((S.get call.side).finish now call.request).1
          (S.set call.side ((S.get call.side).finish now call.request).2)).toList)
        (S.set call.side ((S.get call.side).finish now call.request).2) := by
  cases hfits with
  | describe =>
    have hdeal : Deal S₀ setup object (trails t) alone
        ⟨.source, .head setup.source.bucket object.key⟩
        (.ok (.metadata ((S.get .source).head setup.source.bucket object.key))) (trails t) := by
      rw [Store.head_congr (h.objects.source object.key)]
      exact .describe
    exact h.read (Store.Alike.refl _).still rfl hdeal
  | compare =>
    have hdeal : Deal S₀ setup object (trails t) alone
        ⟨.target, .head setup.target.bucket (setup.targetKey object.key)⟩
        (.ok (.metadata ((S.get .target).head setup.target.bucket (setup.targetKey object.key))))
        (trails t) := .compare fun ha hnone => h.head_target hnone (halone ha)
    exact h.read (Store.Alike.refl _).still rfl hdeal
  | read range =>
    have hdeal : Deal S₀ setup object (trails t) alone
        ⟨.source, .get setup.source.bucket object.key range⟩
        (((S.get .source).get setup.source.bucket object.key range).map .content) (trails t) := by
      rw [Store.get_congr (h.objects.source object.key)]
      exact .read range
    exact h.read (Store.alike_land _).still rfl hdeal
  | put data hwritten =>
    have honward := Store.onward_finish (S.get .target) now (.put setup.target.bucket
      (setup.targetKey object.key) data)
    obtain ⟨store, stored, hfinish, hdata, hcount, hobjects, huploads⟩ :=
      Store.exists_finish_put (S.get .target) setup.target.bucket (setup.targetKey object.key)
        data now
    simp only [hfinish] at honward ⊢
    refine ⟨_, .put hdata hcount, ?_⟩
    simp only [Call.write?]
    rw [Stores.get_set, hobjects, if_pos ⟨rfl, rfl⟩]
    refine h.change (h.objects.write hwritten hobjects) ?_ honward
    rw [Function.update_eq_self]
    exact h.uploads.still huploads honward.nextId
  | create hupload =>
    refine ⟨_, .create, ?_⟩
    have hwrite : ∀ S' : Stores, Call.write? t ⟨.target, .createUpload setup.target.bucket
        (setup.targetKey object.key)⟩ (.ok (.uploadId (S.get .target).uploadId)) S' = none :=
      fun _ => rfl
    simp only [Store.finish_createUpload, hwrite, Option.toList_none, List.append_nil]
    refine h.change ?_ (h.uploads.create hupload _ _) ⟨rfl, rfl, Nat.le_succ _⟩
    rw [Function.update_eq_self]
    exact h.objects.still (Store.object?_createUpload ..)
  | @part id parts number data hupload =>
    have hsession := h.session? hupload
    have honward := Store.onward_finish (S.get .target) now (.uploadPart setup.target.bucket
      (setup.targetKey object.key) id number data)
    obtain ⟨etag, store, hfinish, hobjects, huploads⟩ :=
      Store.exists_finish_uploadPart hsession now number data
    simp only [hfinish] at honward ⊢
    have hdeal : Deal S₀ setup object (trails t) alone ⟨.target, .uploadPart setup.target.bucket
        (setup.targetKey object.key) id number data⟩ _ _ := .part hupload etag
    rw [← h.etags] at hdeal
    refine ⟨_, hdeal, ?_⟩
    rw [show Call.write? t ⟨.target, .uploadPart ..⟩ _ _ = none from rfl, Option.toList_none,
      List.append_nil]
    refine h.change ?_ (h.uploads.insert hupload huploads honward.nextId) honward
    rw [Function.update_eq_self]
    exact h.objects.still hobjects
  | @complete id parts ps data hupload hwritten hne hascending hdata =>
    have hsession := h.session? hupload
    have honward := Store.onward_finish (S.get .target) now (.completeUpload setup.target.bucket
      (setup.targetKey object.key) id ps)
    obtain ⟨store, stored, hfinish, hstored, hcount, hobjects, huploads⟩ :=
      Store.finish_completeUpload hsession hne hascending hdata now
    simp only [hfinish] at honward ⊢
    refine ⟨_, .complete hupload (hdata.trans (congrArg Except.ok hstored.symm)) hcount, ?_⟩
    simp only [Call.write?]
    rw [Stores.get_set, hobjects, if_pos ⟨rfl, rfl⟩]
    exact h.change (h.objects.write hwritten hobjects)
      (h.uploads.erase hupload huploads honward.nextId) honward
  | @abort id parts hupload =>
    have honward := Store.onward_finish (S.get .target) now (.abortUpload setup.target.bucket
      (setup.targetKey object.key) id)
    obtain ⟨store, hfinish, hobjects, huploads⟩ := Store.finish_abortUpload (h.uploads.mem hupload)
      now setup.target.bucket (setup.targetKey object.key)
    simp only [hfinish] at honward ⊢
    refine ⟨_, .abort hupload, ?_⟩
    rw [show Call.write? t ⟨.target, .abortUpload ..⟩ _ _ = none from rfl, Option.toList_none,
      List.append_nil]
    refine h.change ?_ (h.uploads.erase hupload huploads honward.nextId) honward
    rw [Function.update_eq_self]
    exact h.objects.still hobjects

end Finish

end Ledger

end BucketMigration
