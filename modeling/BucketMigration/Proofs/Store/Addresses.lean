import BucketMigration.Proofs.Store.Sessions

/-!
# The address of an upload

An upload is opened for a bucket and a key. A call that adds a part to it or completes it has to name
them again: under another address it is refused as if there were no such upload, and nothing changes.
A call that aborts it is refused only when no upload with its id is open. Else it forgets the upload,
whatever bucket and key it names.
-/

namespace BucketMigration

def Request.uploadId? : Request → Option String
  | uploadPart _ _ id .. | completeUpload _ _ id _ | abortUpload _ _ id => some id
  | _ => none

namespace StoreDeed

/-- A call was refused since there is no such upload. No upload and no object has changed. -/
structure Refused (d : StoreDeed) (id : String) : Prop where
  reply : d.reply = .error (.multipart d.request.bucket d.request.key id "no such upload")
  uploads : d.after.uploads = d.before.uploads
  objects : d.after.object? = d.before.object?

/-- An upload was forgotten. No other upload and no object has changed. -/
structure Forgot (d : StoreDeed) (id : String) : Prop where
  reply : d.reply = .ok .done
  uploads : d.after.uploads = d.before.uploads.erase id
  objects : d.after.object? = d.before.object?

variable {s : Store} {bucket key id : String}

theorem refused_uploadPart (h : s.session? bucket key id = none) (now part : Int)
    (data : ByteArray) : Refused ⟨s, now, .uploadPart bucket key id part data⟩ id := by
  have hfinish := Store.finish_uploadPart_unknown h now part data
  exact ⟨congrArg Prod.fst hfinish, congrArg (Store.uploads ∘ Prod.snd) hfinish,
    congrArg (Store.object? ∘ Prod.snd) hfinish⟩

theorem refused_completeUpload (h : s.session? bucket key id = none) (now : Int)
    (parts : List CompletedPart) : Refused ⟨s, now, .completeUpload bucket key id parts⟩ id := by
  have hfinish := Store.finish_completeUpload_unknown h now parts
  exact ⟨congrArg Prod.fst hfinish, congrArg (Store.uploads ∘ Prod.snd) hfinish,
    congrArg (Store.object? ∘ Prod.snd) hfinish⟩

theorem refused_abortUpload (h : id ∉ s.uploads) (now : Int) (bucket key : String) :
    Refused ⟨s, now, .abortUpload bucket key id⟩ id := by
  have hfinish := Store.finish_abortUpload_unknown h now bucket key
  exact ⟨congrArg Prod.fst hfinish, congrArg (Store.uploads ∘ Prod.snd) hfinish,
    congrArg (Store.object? ∘ Prod.snd) hfinish⟩

theorem forgot_abortUpload (h : id ∈ s.uploads) (now : Int) (bucket key : String) :
    Forgot ⟨s, now, .abortUpload bucket key id⟩ id := by
  have hfinish := Store.finish_abortUpload_known h now bucket key
  exact ⟨congrArg Prod.fst hfinish, congrArg (Store.uploads ∘ Prod.snd) hfinish,
    congrArg (Store.object? ∘ Prod.snd) hfinish⟩

end StoreDeed

namespace Usage

variable {u v : Usage}

theorem Recorded.session?_eq_none_iff (h : u.Recorded) {bucket key id : String} :
    u.store.session? bucket key id = none ↔ ¬StaysOpen u.deeds bucket key id := by
  rw [← h.uploads.open_iff, Option.eq_none_iff_forall_ne_some]
  simp only [ne_eq, Store.session?_eq_some_iff]
  constructor
  · rintro hnone ⟨parts, hparts⟩
    exact hnone _ ⟨hparts, rfl, rfl⟩
  · rintro hnot ⟨b, k, parts⟩ ⟨hsession, rfl, rfl⟩
    exact hnot ⟨parts, hsession⟩

theorem Recorded.mem_uploads_iff (h : u.Recorded) {id : String} :
    id ∈ u.store.uploads ↔ ∃ bucket key, StaysOpen u.deeds bucket key id := by
  simp only [← h.uploads.open_iff, Std.TreeMap.mem_iff_isSome_getElem?, Option.isSome_iff_exists]
  constructor
  · rintro ⟨⟨b, k, parts⟩, hsession⟩
    exact ⟨b, k, parts, hsession⟩
  · rintro ⟨b, k, parts, hsession⟩
    exact ⟨⟨b, k, parts⟩, hsession⟩

/-- A call that names an upload which is not open for its bucket and key is refused, unless it aborts
an upload that is open for another bucket or key: that one is forgotten. -/
theorem stray_call_refused_unless_abort (hu : Reach u) {now : Int} {r : Request} {id : String}
    (hid : r.uploadId? = some id) (hact : u.act (.finish now r) = some v)
    (hstray : ¬StaysOpen u.deeds r.bucket r.key id) :
    v.store = (StoreDeed.mk u.store now r).after ∧
      (r.operation ≠ .abortUpload ∨ (∀ bucket key, ¬StaysOpen u.deeds bucket key id) →
        StoreDeed.Refused ⟨u.store, now, r⟩ id) ∧
      (r.operation = .abortUpload → ∀ bucket key, StaysOpen u.deeds bucket key id →
        StoreDeed.Forgot ⟨u.store, now, r⟩ id) := by
  have hrecorded := hu.recorded
  have hnone := hrecorded.session?_eq_none_iff.mpr hstray
  refine ⟨store_of_finish hact, ?_⟩
  cases r with
  | list | head | get | put | createUpload => cases hid
  | uploadPart bucket key id part data =>
    cases hid
    exact ⟨fun _ => StoreDeed.refused_uploadPart hnone now part data, nofun⟩
  | completeUpload bucket key id parts =>
    cases hid
    exact ⟨fun _ => StoreDeed.refused_completeUpload hnone now parts, nofun⟩
  | abortUpload bucket key id =>
    cases hid
    constructor
    · rintro (hnot | hclosed)
      · exact absurd rfl hnot
      · refine StoreDeed.refused_abortUpload ?_ now bucket key
        rw [hrecorded.mem_uploads_iff]
        rintro ⟨b, k, hopen⟩
        exact hclosed b k hopen
    · intro _ b k hopen
      exact StoreDeed.forgot_abortUpload (hrecorded.mem_uploads_iff.mpr ⟨b, k, hopen⟩) now bucket key

/-- An upload is open. A part is on its way to it and it is being aborted, both for another bucket. -/
def strayCalls : List UsageAction :=
  [.enter (.createUpload "bucket" "key"), .finish 0 (.createUpload "bucket" "key"),
    .enter (.uploadPart "other" "key" "upload-0" 1 "part".toUTF8),
    .enter (.abortUpload "other" "key" "upload-0")]

theorem stray_call_refused_unless_abort_part :
    ∃ u v : Usage, strayCalls.foldlM act {} = some u ∧
      (Request.uploadPart "other" "key" "upload-0" 1 "part".toUTF8).uploadId? = some "upload-0" ∧
      u.act (.finish 0 (.uploadPart "other" "key" "upload-0" 1 "part".toUTF8)) = some v ∧
      ¬StaysOpen u.deeds "other" "key" "upload-0" ∧
      v.store = (StoreDeed.mk u.store 0
        (.uploadPart "other" "key" "upload-0" 1 "part".toUTF8)).after ∧
      StoreDeed.Refused ⟨u.store, 0, .uploadPart "other" "key" "upload-0" 1 "part".toUTF8⟩
        "upload-0" := by
  have hrun : (strayCalls.foldlM act {}).any (fun u : Usage =>
      (u.store.session? "other" "key" "upload-0").isNone &&
        (u.act (.finish 0 (.uploadPart "other" "key" "upload-0" 1 "part".toUTF8))).isSome) = true := by
    decide +kernel
  simp only [Option.any_eq_true, Bool.and_eq_true, Option.isNone_iff_eq_none,
    Option.isSome_iff_exists] at hrun
  obtain ⟨u, hu, hnone, v, hact⟩ := hrun
  have hreach := reach_of_foldlM .new hu
  have hstray := hreach.recorded.session?_eq_none_iff.mp hnone
  have hcall := stray_call_refused_unless_abort hreach rfl hact hstray
  exact ⟨u, v, hu, rfl, hact, hstray, hcall.1, hcall.2.1 (.inl (by decide))⟩

/-- An upload is lost to a call for another bucket. -/
theorem stray_abort_forgets_upload :
    ∃ u v : Usage, Reach u ∧ u.act (.finish 0 (.abortUpload "other" "key" "upload-0")) = some v ∧
      StaysOpen u.deeds "bucket" "key" "upload-0" ∧
      ¬StaysOpen u.deeds "other" "key" "upload-0" ∧
      (StoreDeed.mk u.store 0 (.abortUpload "other" "key" "upload-0")).reply.isOk = true ∧
      u.store.pendingUploads = 1 ∧ v.store.pendingUploads = 0 := by
  have hrun : (strayCalls.foldlM act {}).any (fun u : Usage =>
      (u.store.session? "bucket" "key" "upload-0").isSome &&
        (u.store.session? "other" "key" "upload-0").isNone &&
        (StoreDeed.mk u.store 0 (.abortUpload "other" "key" "upload-0")).reply.isOk &&
        u.store.pendingUploads = 1 &&
        (u.act (.finish 0 (.abortUpload "other" "key" "upload-0"))).any
          fun v : Usage => v.store.pendingUploads = 0) = true := by
    decide +kernel
  simp only [Option.any_eq_true, Bool.and_eq_true, Option.isNone_iff_eq_none, decide_eq_true_eq]
    at hrun
  obtain ⟨u, hu, ⟨⟨⟨hsome, hnone⟩, hok⟩, hbefore⟩, v, hact, hafter⟩ := hrun
  have hrecorded := (reach_of_foldlM .new hu).recorded
  refine ⟨u, v, reach_of_foldlM .new hu, hact, ?_, hrecorded.session?_eq_none_iff.mp hnone, hok,
    hbefore, hafter⟩
  by_contra hclosed
  rw [hrecorded.session?_eq_none_iff.mpr hclosed] at hsome
  cases hsome

end Usage

end BucketMigration
