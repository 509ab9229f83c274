import BucketMigration.Store.Lemmas
import BucketMigration.World.Basic
import Mathlib.Algebra.Group.Nat.Defs

/-!
# Stores that hold the same

Much of what a call does to a store is bookkeeping: it counts the call and the data under way.
Stores that differ only there are alike. Without a fault the first half of a call, and all of a
read, leave a store alike.
-/

namespace BucketMigration

namespace Store

/-- The same objects and uploads, the same faults, and the same ids to come. -/
structure Alike (s t : Store) : Prop where
  objects : t.object? = s.object?
  uploads : t.uploads = s.uploads
  faults : t.faults = s.faults
  omitsEtags : t.omitsEtags = s.omitsEtags
  nextId : t.nextId = s.nextId

theorem Alike.refl (s : Store) : s.Alike s := ⟨rfl, rfl, rfl, rfl, rfl⟩

theorem alike_land (s : Store) : s.Alike s.land := ⟨object?_congr rfl, rfl, rfl, rfl, rfl⟩

variable {s : Store}

theorem enter_of_faults_eq_nil (h : s.faults = []) (r : Request) :
    (s.enter r).1 = .ok () ∧ s.Alike (s.enter r).2 := by
  unfold enter
  simp only [h, Fault.spendFirst?, true_and]
  cases r.movesData
  · exact ⟨object?_congr rfl, rfl, h.symm, rfl, rfl⟩
  · exact ⟨object?_congr rfl, rfl, h.symm, rfl, rfl⟩

theorem finish_get (now : Int) (bucket key : String) (range : Option ByteRange) :
    s.finish now (.get bucket key range) = ((s.get bucket key range).map .content, s.land) := rfl

theorem finish_put (now : Int) (bucket key : String) (data : ByteArray) :
    s.finish now (.put bucket key data) = (.ok .done, (s.insert bucket key data now).land) := rfl

theorem finish_createUpload (now : Int) (bucket key : String) :
    s.finish now (.createUpload bucket key) =
      (.ok (.uploadId s.uploadId), s.createUpload bucket key) := rfl

theorem finish_uploadPart {bucket key id : String} {session : UploadSession}
    (h : s.session? bucket key id = some session) (homits : s.omitsEtags = false) (now part : Int)
    (data : ByteArray) :
    ∃ t, s.finish now (.uploadPart bucket key id part data) =
        (.ok (.etag (some (s.etag data.size))), t) ∧
      t.object? = s.object? ∧ t.faults = s.faults ∧ t.omitsEtags = false ∧
      t.uploads = s.uploads.insert id
        { session with parts := session.parts.insert part ⟨data, s.etag data.size⟩ } := by
  have hfinish := finish_uploadPart_known h now part data
  rw [homits] at hfinish
  exact ⟨_, hfinish, object?_congr rfl, rfl, homits, rfl⟩

theorem finish_completeUpload {bucket key id : String} {session : UploadSession}
    (h : s.session? bucket key id = some session) {parts : List CompletedPart} (hne : parts ≠ [])
    (hascending : ascending parts = true) {data : ByteArray}
    (hdata : assemble session .empty parts = .ok data) (now : Int) :
    ∃ t object, s.finish now (.completeUpload bucket key id parts) = (.ok .done, t) ∧
      object.data = data ∧ object.partsCount = some (parts.length % 2 ^ 32) ∧
      (∀ b k, t.object? b k = if bucket = b ∧ key = k then some object else s.object? b k) ∧
      t.uploads = s.uploads.erase id := by
  refine ⟨_, s.completedObject now parts data,
    finish_completeUpload_known h hne hascending hdata now, rfl, rfl, ?_, rfl⟩
  intro b k
  rw [object?_write]
  rfl

theorem finish_abortUpload {id : String} (h : id ∈ s.uploads) (now : Int) (bucket key : String) :
    ∃ t, s.finish now (.abortUpload bucket key id) = (.ok .done, t) ∧ t.object? = s.object? ∧
      t.uploads = s.uploads.erase id :=
  ⟨_, finish_abortUpload_known h now bucket key, object?_congr rfl, rfl⟩

end Store

namespace Stores

theorem get_set_or (S : Stores) (side other : Side) (store : Store) :
    (S.set side store).get other = store ∧ S.get other = S.get side ∨
      (S.set side store).get other = S.get other := by
  cases S with
  | shared s => exact .inl ⟨rfl, rfl⟩
  | separate s t =>
    cases side <;> cases other
    · exact .inl ⟨rfl, rfl⟩
    · exact .inr rfl
    · exact .inr rfl
    · exact .inl ⟨rfl, rfl⟩

def Alike (S T : Stores) : Prop :=
  ∀ side, (S.get side).Alike (T.get side)

theorem alike_set {S : Stores} {side : Side} {store : Store} (h : (S.get side).Alike store) :
    S.Alike (S.set side store) := by
  intro other
  rcases S.get_set_or side other store with ⟨hset, hget⟩ | hset
  · rw [hset, hget]
    exact h
  · rw [hset]
    exact .refl _

end Stores

end BucketMigration
