import BucketMigration.Store.Lemmas
import Std.Data.String.ToNat

/-!
# Stores in use

A new store that is called from anywhere, in any order. A call enters it; unless a fault ends it there
it is under way from then on, until its work is done or it is given up. Objects are put in and
settings are changed meanwhile. The work that was done is kept, each time with the store that the call
found, so that the state of a store can be told from what was done to it.
-/

namespace BucketMigration

inductive StoreSetting
  | fault (fault : Fault)
  | latency (ms : Nat)
  | dropsTokens (drops : Bool)
  | omitsEtags (omits : Bool)

def Store.configure (s : Store) : StoreSetting → Store
  | .fault fault => { s with faults := s.faults ++ [fault] }
  | .latency ms => { s with latencyMs := ms }
  | .dropsTokens drops => { s with dropsTokens := drops }
  | .omitsEtags omits => { s with omitsEtags := omits }

/-- The work of a call at some time, with the store that the call found. -/
structure StoreDeed where
  before : Store
  now : Int
  request : Request

structure UploadedPart where
  uploadId : String
  number : Int
  stored : StoredPart

namespace StoreDeed

variable (d : StoreDeed)

def reply : Reply :=
  (d.before.finish d.now d.request).1

def after : Store :=
  (d.before.finish d.now d.request).2

/-- The upload that was opened: its id, bucket and key. -/
def opened? : Option (String × String × String) :=
  match d.request, d.reply with
  | .createUpload bucket key, .ok (.uploadId id) => some (id, bucket, key)
  | _, _ => none

/-- The part that was uploaded, with the etag that was generated for it. -/
def uploaded? : Option UploadedPart :=
  match d.request, d.reply with
  | .uploadPart _ _ id number data, .ok _ => some ⟨id, number, data, d.before.etag data.size⟩
  | _, _ => none

/-- The id of the upload that was completed or aborted. -/
def closed? : Option String :=
  match d.request, d.reply with
  | .completeUpload _ _ id _, .ok _ => some id
  | .abortUpload _ _ id, .ok _ => some id
  | _, _ => none

def succeeds (operation : Operation) : Bool :=
  d.request.operation == operation && d.reply.isOk

end StoreDeed

/-- A store, the calls that are under way, and the work that was done, the latest first. -/
structure Usage where
  store : Store := {}
  underWay : List Request := []
  deeds : List StoreDeed := []

inductive UsageAction
  | enter (r : Request)
  | finish (now : Int) (r : Request)
  /-- The caller of a call does not wait for its reply any longer. -/
  | giveUp (r : Request)
  | insert (bucket key : String) (data : ByteArray) (time : Int)
  | setPartsCount (bucket key : String) (count : Nat)
  | configure (setting : StoreSetting)

namespace Usage

def act (u : Usage) : UsageAction → Option Usage
  | .enter r =>
      match u.store.enter r with
      | (.error _, store) => some { u with store }
      | (.ok (), store) => some { u with store, underWay := r :: u.underWay }
  | .finish now r =>
      if r ∈ u.underWay then
        let deed : StoreDeed := ⟨u.store, now, r⟩
        some ⟨deed.after, u.underWay.erase r, deed :: u.deeds⟩
      else none
  | .giveUp r =>
      if r ∈ u.underWay then some { u with underWay := u.underWay.erase r } else none
  | .insert bucket key data time =>
      some { u with store := u.store.insert bucket key data time }
  | .setPartsCount bucket key count =>
      some { u with store := u.store.setPartsCount bucket key count }
  | .configure setting => some { u with store := u.store.configure setting }

/-- What a new store can come to. -/
inductive Reach : Usage → Prop
  | new : Reach {}
  | step {u v : Usage} {action : UsageAction} (h : Reach u) (hact : u.act action = some v) : Reach v

theorem reach_of_foldlM {u v : Usage} (hu : Reach u) {actions : List UsageAction}
    (h : actions.foldlM act u = some v) : Reach v := by
  induction actions generalizing u with
  | nil =>
    cases h
    exact hu
  | cons action actions ih =>
    rw [List.foldlM_cons] at h
    obtain ⟨w, hact, hrest⟩ := Option.bind_eq_some_iff.mp h
    exact ih (hu.step hact) hrest

structure Event where
  before : Usage
  action : UsageAction

/-- What a new store comes to by some actions, the latest first. -/
inductive Path : List Event → Usage → Prop
  | new : Path [] {}
  | step {events : List Event} {u v : Usage} {action : UsageAction} (h : Path events u)
      (hact : u.act action = some v) : Path (⟨u, action⟩ :: events) v

def follow? (path : List Event × Usage) (action : UsageAction) : Option (List Event × Usage) :=
  (path.2.act action).map fun v => (⟨path.2, action⟩ :: path.1, v)

theorem path_of_foldlM {path next : List Event × Usage} (hpath : Path path.1 path.2)
    {actions : List UsageAction} (h : actions.foldlM follow? path = some next) :
    Path next.1 next.2 := by
  induction actions generalizing path with
  | nil =>
    cases h
    exact hpath
  | cons action actions ih =>
    rw [List.foldlM_cons] at h
    obtain ⟨via, hvia, hrest⟩ := Option.bind_eq_some_iff.mp h
    obtain ⟨v, hact, rfl⟩ := Option.map_eq_some_iff.mp hvia
    exact ih (hpath.step hact) hrest

/-- All actions but the work of a call leave uploads alone, and ids are never given back. -/
structure Aside (u v : Usage) : Prop where
  uploads : v.store.uploads = u.store.uploads
  nextId : u.store.nextId ≤ v.store.nextId
  deeds : v.deeds = u.deeds

theorem act_cases {u v : Usage} {action : UsageAction} (h : u.act action = some v) :
    u.Aside v ∨ ∃ now r, action = .finish now r ∧ r ∈ u.underWay ∧
      v = ⟨(StoreDeed.mk u.store now r).after, u.underWay.erase r, ⟨u.store, now, r⟩ :: u.deeds⟩ := by
  cases action with
  | enter r =>
    left
    have huploads := u.store.uploads_enter r
    have hid := Nat.le_of_eq (u.store.nextId_enter r).symm
    simp only [act] at h
    split at h <;> rename_i store henter <;> cases h <;> rw [henter] at huploads hid
    · exact ⟨huploads, hid, rfl⟩
    · exact ⟨huploads, hid, rfl⟩
  | finish now r =>
    right
    simp only [act] at h
    split at h
    · rename_i hmem
      cases h
      exact ⟨now, r, rfl, hmem, rfl⟩
    · cases h
  | giveUp r =>
    simp only [act] at h
    split at h
    · cases h
      exact .inl ⟨rfl, Nat.le_refl _, rfl⟩
    · cases h
  | insert bucket key data time =>
    cases h
    exact .inl ⟨rfl, Nat.le_succ _, rfl⟩
  | setPartsCount bucket key count =>
    cases h
    left
    simp only [Store.setPartsCount]
    split
    · exact ⟨rfl, Nat.le_refl _, rfl⟩
    · exact ⟨rfl, Nat.le_refl _, rfl⟩
  | configure setting =>
    cases h
    cases setting <;> exact .inl ⟨rfl, Nat.le_refl _, rfl⟩

theorem store_of_finish {u v : Usage} {now : Int} {r : Request}
    (h : u.act (.finish now r) = some v) : v.store = (StoreDeed.mk u.store now r).after := by
  simp only [act, Option.ite_none_right_eq_some, Option.some.injEq] at h
  rw [← h.2]

end Usage

namespace StoreDeed

/-- The work of a call opens an upload, adds a part to one, closes one, or leaves uploads alone. -/
inductive Change (d : StoreDeed) : Prop
  | opened {bucket key : String} (hopened : d.opened? = some (d.before.uploadId, bucket, key))
      (huploaded : d.uploaded? = none) (hclosed : d.closed? = none)
      (huploads : d.after.uploads = d.before.uploads.insert d.before.uploadId ⟨bucket, key, {}⟩)
      (hid : d.after.nextId = d.before.nextId + 1)
  | uploaded {part : UploadedPart} {session : UploadSession} (hopened : d.opened? = none)
      (huploaded : d.uploaded? = some part) (hclosed : d.closed? = none)
      (hsession : d.before.uploads[part.uploadId]? = some session)
      (huploads : d.after.uploads = d.before.uploads.insert part.uploadId
        ⟨session.bucket, session.key, session.parts.insert part.number part.stored⟩)
      (hid : d.after.nextId = d.before.nextId + 1)
  | closed {id : String} (hopened : d.opened? = none) (huploaded : d.uploaded? = none)
      (hclosed : d.closed? = some id) (hmem : id ∈ d.before.uploads)
      (huploads : d.after.uploads = d.before.uploads.erase id)
      (hid : d.before.nextId ≤ d.after.nextId)
  | none (hopened : d.opened? = none) (huploaded : d.uploaded? = none) (hclosed : d.closed? = none)
      (huploads : d.after.uploads = d.before.uploads) (hid : d.before.nextId ≤ d.after.nextId)

variable {s : Store} {now : Int}

theorem mem_of_session? {bucket key id : String} {session : UploadSession}
    (h : s.session? bucket key id = some session) : id ∈ s.uploads := by
  rw [Std.TreeMap.mem_iff_isSome_getElem?, (s.session?_eq_some_iff.mp h).1]
  rfl

theorem change_uploadPart (bucket key id : String) (part : Int) (data : ByteArray) :
    Change ⟨s, now, .uploadPart bucket key id part data⟩ := by
  cases hsession : s.session? bucket key id with
  | none =>
    have hfinish := Store.finish_uploadPart_unknown hsession now part data
    refine .none rfl ?_ rfl ?_ ?_
    · simp only [uploaded?, reply, hfinish]
    · rw [after, hfinish]
      rfl
    · rw [after, hfinish]
      exact Nat.le_succ _
  | some session =>
    have hfinish := Store.finish_uploadPart_known hsession now part data
    have huploaded : uploaded? ⟨s, now, .uploadPart bucket key id part data⟩ =
        some ⟨id, part, data, s.etag data.size⟩ := by
      simp only [uploaded?, reply, hfinish]
    refine .uploaded rfl huploaded rfl (s.session?_eq_some_iff.mp hsession).1 ?_ ?_
    · rw [after, hfinish]
      rfl
    · rw [after, hfinish]
      rfl

theorem change_completeUpload (bucket key id : String) (parts : List CompletedPart) :
    Change ⟨s, now, .completeUpload bucket key id parts⟩ := by
  rcases s.finish_completeUpload_cases now bucket key id parts with
    ⟨e, hfinish⟩ | ⟨session, data, hsession, hne, hascending, hdata⟩
  · refine .none rfl rfl ?_ ?_ ?_
    · simp only [closed?, reply, hfinish]
    · rw [after, hfinish]
    · exact Nat.le_of_eq (congrArg (Store.nextId ∘ Prod.snd) hfinish.symm)
  · have hfinish := Store.finish_completeUpload_known hsession hne hascending hdata now
    refine .closed rfl rfl ?_ (mem_of_session? hsession) ?_ ?_
    · simp only [closed?, reply, hfinish]
    · rw [after, hfinish]
      rfl
    · rw [after, hfinish]
      exact Nat.le_succ _

theorem change_abortUpload (bucket key id : String) :
    Change ⟨s, now, .abortUpload bucket key id⟩ := by
  by_cases hmem : id ∈ s.uploads
  · have hfinish := Store.finish_abortUpload_known hmem now bucket key
    refine .closed rfl rfl ?_ hmem ?_ ?_
    · simp only [closed?, reply, hfinish]
    · rw [after, hfinish]
    · exact Nat.le_of_eq (congrArg (Store.nextId ∘ Prod.snd) hfinish.symm)
  · have hfinish := Store.finish_abortUpload_unknown hmem now bucket key
    refine .none rfl rfl ?_ ?_ ?_
    · simp only [closed?, reply, hfinish]
    · rw [after, hfinish]
    · exact Nat.le_of_eq (congrArg (Store.nextId ∘ Prod.snd) hfinish.symm)

theorem change (d : StoreDeed) : d.Change := by
  rcases d with ⟨s, now, r⟩
  cases r with
  | list | head | get => exact .none rfl rfl rfl rfl (Nat.le_refl _)
  | put => exact .none rfl rfl rfl rfl (Nat.le_succ _)
  | createUpload bucket key => exact .opened rfl rfl rfl rfl rfl
  | uploadPart bucket key id part data => exact change_uploadPart ..
  | completeUpload bucket key id parts => exact change_completeUpload ..
  | abortUpload bucket key id => exact change_abortUpload ..

end StoreDeed

end BucketMigration
