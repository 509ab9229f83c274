import BucketMigration.Proofs.Store.Assembly
import BucketMigration.Proofs.Store.Etags
import BucketMigration.Proofs.Store.Ledger
import BucketMigration.Proofs.Store.Usage
import Mathlib.Data.List.Perm.Subperm

/-!
# Upload sessions

What a store holds of its uploads can be told from the work that was done on it. An upload is open from
the call that opened it to the one that completed or aborted it; a part of it is the latest one that it
was given under that number; and an etag belongs to one upload of one part alone, as long as ids are
below `2 ^ 32`. So the work done before decides whether an upload can be completed, and to what.
-/

namespace BucketMigration

/-- The parts that were uploaded, the latest first. -/
def uploadedParts (deeds : List StoreDeed) : List UploadedPart :=
  deeds.filterMap StoreDeed.uploaded?

/-- The latest part that an upload was given under a number. -/
def latestPart? (deeds : List StoreDeed) (id : String) (number : Int) : Option StoredPart :=
  ((uploadedParts deeds).find? fun p => p.uploadId == id && p.number == number).map
    UploadedPart.stored

/-- An upload was opened for a bucket and key under an id, and has not been closed since. -/
def StaysOpen (deeds : List StoreDeed) (bucket key id : String) : Prop :=
  ∃ since d earlier, deeds = since ++ d :: earlier ∧ d.opened? = some (id, bucket, key) ∧
    ∀ e ∈ since, e.closed? ≠ some id

section Histories

variable {d : StoreDeed} {deeds : List StoreDeed} {bucket key id : String}

theorem uploadedParts_cons_of_none (h : d.uploaded? = none) :
    uploadedParts (d :: deeds) = uploadedParts deeds :=
  List.filterMap_cons_none h

theorem uploadedParts_cons_of_some {part : UploadedPart} (h : d.uploaded? = some part) :
    uploadedParts (d :: deeds) = part :: uploadedParts deeds :=
  List.filterMap_cons_some h

theorem latestPart?_cons_of_none (h : d.uploaded? = none) (id : String) (n : Int) :
    latestPart? (d :: deeds) id n = latestPart? deeds id n := by
  rw [latestPart?, uploadedParts_cons_of_none h, latestPart?]

theorem latestPart?_cons_of_some {part : UploadedPart} (h : d.uploaded? = some part) (id : String)
    (n : Int) :
    latestPart? (d :: deeds) id n =
      if part.uploadId = id ∧ part.number = n then some part.stored else latestPart? deeds id n := by
  rw [latestPart?, uploadedParts_cons_of_some h, List.find?_cons, latestPart?]
  by_cases hpart : part.uploadId = id ∧ part.number = n
  · simp [hpart]
  · rw [if_neg hpart]
    have hfalse : (part.uploadId == id && part.number == n) = false := by
      simpa using hpart
    rw [hfalse]

theorem exists_of_latestPart?_eq_some {n : Int} {stored : StoredPart}
    (h : latestPart? deeds id n = some stored) :
    ∃ p ∈ uploadedParts deeds, p.uploadId = id ∧ p.number = n ∧ p.stored = stored := by
  obtain ⟨p, hfind, rfl⟩ := Option.map_eq_some_iff.mp h
  have hp := List.find?_some hfind
  simp only [Bool.and_eq_true, beq_iff_eq] at hp
  exact ⟨p, List.mem_of_find?_eq_some hfind, hp.1, hp.2, rfl⟩

theorem latestPart?_eq_none {n : Int} (h : ∀ p ∈ uploadedParts deeds, p.uploadId ≠ id) :
    latestPart? deeds id n = none := by
  rw [latestPart?, Option.map_eq_none_iff, List.find?_eq_none]
  intro p hp
  simp [h p hp]

theorem staysOpen_cons :
    StaysOpen (d :: deeds) bucket key id ↔
      d.opened? = some (id, bucket, key) ∨ d.closed? ≠ some id ∧ StaysOpen deeds bucket key id := by
  constructor
  · rintro ⟨since, e, earlier, heq, hopened, hsince⟩
    cases since with
    | nil =>
      obtain ⟨rfl, rfl⟩ := List.cons.inj heq
      exact .inl hopened
    | cons x since =>
      obtain ⟨rfl, rfl⟩ := List.cons.inj heq
      obtain ⟨hx, hsince⟩ := List.forall_mem_cons.mp hsince
      exact .inr ⟨hx, since, e, earlier, rfl, hopened, hsince⟩
  · rintro (hopened | ⟨hclosed, since, e, earlier, rfl, hopened, hsince⟩)
    · exact ⟨[], d, deeds, rfl, hopened, by simp⟩
    · exact ⟨d :: since, e, earlier, rfl, hopened, List.forall_mem_cons.mpr ⟨hclosed, hsince⟩⟩

end Histories

/-- The uploads that a store has open are those that the work done has left open, with the latest parts. -/
structure OpenUploads (deeds : List StoreDeed) (uploads : Std.TreeMap String UploadSession) : Prop where
  open_iff : ∀ bucket key id,
    (∃ parts, uploads[id]? = some ⟨bucket, key, parts⟩) ↔ StaysOpen deeds bucket key id
  parts_eq : ∀ id session, uploads[id]? = some session →
    ∀ n, session.parts[n]? = latestPart? deeds id n

namespace OpenUploads

variable {deeds : List StoreDeed} {uploads : Std.TreeMap String UploadSession} {d : StoreDeed}

theorem new : OpenUploads [] {} where
  open_iff := by
    intro bucket key id
    simp [StaysOpen]
  parts_eq := by simp

theorem same (h : OpenUploads deeds uploads) (hopened : d.opened? = none)
    (huploaded : d.uploaded? = none) (hclosed : d.closed? = none) :
    OpenUploads (d :: deeds) uploads where
  open_iff := by
    intro bucket key id
    rw [h.open_iff, staysOpen_cons, hopened, hclosed]
    simp
  parts_eq := by
    intro id session hsession n
    rw [latestPart?_cons_of_none huploaded]
    exact h.parts_eq id session hsession n

theorem opened (h : OpenUploads deeds uploads) {bucket key id : String} (hnew : id ∉ uploads)
    (hunused : ∀ p ∈ uploadedParts deeds, p.uploadId ≠ id)
    (hopened : d.opened? = some (id, bucket, key)) (huploaded : d.uploaded? = none)
    (hclosed : d.closed? = none) :
    OpenUploads (d :: deeds) (uploads.insert id ⟨bucket, key, {}⟩) where
  open_iff := by
    intro b k other
    rw [staysOpen_cons, hopened, hclosed, Std.TreeMap.getElem?_insert]
    by_cases hid : id = other
    · subst hid
      have hnot : ¬StaysOpen deeds b k id := by
        rw [← h.open_iff]
        rintro ⟨parts, hparts⟩
        rw [Std.TreeMap.getElem?_eq_none hnew] at hparts
        cases hparts
      simp [hnot]
    · simp only [Std.compare_eq_iff_eq, hid, if_false, h.open_iff]
      simp [hid]
  parts_eq := by
    intro other session hsession n
    rw [latestPart?_cons_of_none huploaded]
    rw [Std.TreeMap.getElem?_insert] at hsession
    by_cases hid : id = other
    · subst hid
      simp only [Std.compare_self, if_true, Option.some.injEq] at hsession
      rw [← hsession, latestPart?_eq_none hunused]
      exact Std.TreeMap.getElem?_emptyc
    · simp only [Std.compare_eq_iff_eq, hid, if_false] at hsession
      exact h.parts_eq other session hsession n

theorem uploaded (h : OpenUploads deeds uploads) {part : UploadedPart} {session : UploadSession}
    (hopened : d.opened? = none) (huploaded : d.uploaded? = some part) (hclosed : d.closed? = none)
    (hsession : uploads[part.uploadId]? = some session) :
    OpenUploads (d :: deeds) (uploads.insert part.uploadId
      ⟨session.bucket, session.key, session.parts.insert part.number part.stored⟩) where
  open_iff := by
    intro bucket key id
    rw [staysOpen_cons, hopened, hclosed, Std.TreeMap.getElem?_insert, ← h.open_iff]
    by_cases hid : part.uploadId = id
    · subst hid
      rcases session with ⟨b, k, parts⟩
      simp [hsession]
    · simp [hid]
  parts_eq := by
    intro id other hother n
    rw [latestPart?_cons_of_some huploaded]
    rw [Std.TreeMap.getElem?_insert] at hother
    by_cases hid : part.uploadId = id
    · subst hid
      simp only [Std.compare_self, if_true, Option.some.injEq] at hother
      rw [← hother, Std.TreeMap.getElem?_insert, h.parts_eq _ session hsession n]
      simp
    · simp only [Std.compare_eq_iff_eq, hid, if_false] at hother
      rw [if_neg (fun hpart => hid hpart.1)]
      exact h.parts_eq id other hother n

theorem closed (h : OpenUploads deeds uploads) {id : String} (hopened : d.opened? = none)
    (huploaded : d.uploaded? = none) (hclosed : d.closed? = some id) :
    OpenUploads (d :: deeds) (uploads.erase id) where
  open_iff := by
    intro bucket key other
    rw [staysOpen_cons, hopened, hclosed, Std.TreeMap.getElem?_erase, ← h.open_iff]
    by_cases hid : id = other
    · simp [hid]
    · simp [hid]
  parts_eq := by
    intro other session hsession n
    rw [latestPart?_cons_of_none huploaded]
    rw [Std.TreeMap.getElem?_erase] at hsession
    split at hsession
    · cases hsession
    · exact h.parts_eq other session hsession n

end OpenUploads

theorem StoreDeed.etag_of_uploaded? {d : StoreDeed} {part : UploadedPart}
    (h : d.uploaded? = some part) : part.stored.etag = d.before.etag part.stored.data.size := by
  unfold StoreDeed.uploaded? at h
  split at h
  · cases h
    rfl
  · cases h

/-- Ids are given away in order. No upload has had an id that is still to come, and every etag was made
from an id of its own. -/
structure IdsTaken (deeds : List StoreDeed) (next : Nat) : Prop where
  unused : ∀ p ∈ uploadedParts deeds, ∀ n, next ≤ n → p.uploadId ≠ s!"upload-{n}"
  taken : ∀ d ∈ deeds, d.uploaded? ≠ none → d.before.nextId < next
  ordered : deeds.Pairwise fun d earlier =>
    earlier.uploaded? ≠ none → earlier.before.nextId < d.before.nextId
  few : (uploadedParts deeds).length ≤ next

namespace IdsTaken

variable {deeds : List StoreDeed} {next : Nat} {d : StoreDeed}

theorem new : IdsTaken [] 0 :=
  ⟨by simp [uploadedParts], by simp, .nil, Nat.le_refl _⟩

theorem mono (h : IdsTaken deeds next) {next' : Nat} (hle : next ≤ next') : IdsTaken deeds next' where
  unused := fun p hp n hn => h.unused p hp n (Nat.le_trans hle hn)
  taken := fun d hd hsome => Nat.lt_of_lt_of_le (h.taken d hd hsome) hle
  ordered := h.ordered
  few := Nat.le_trans h.few hle

theorem other (h : IdsTaken deeds d.before.nextId) (huploaded : d.uploaded? = none) :
    IdsTaken (d :: deeds) d.before.nextId where
  unused := by
    rw [uploadedParts_cons_of_none huploaded]
    exact h.unused
  taken := by
    intro e he hsome
    rcases List.mem_cons.mp he with rfl | he
    · exact absurd huploaded hsome
    · exact h.taken e he hsome
  ordered := List.pairwise_cons.mpr ⟨h.taken, h.ordered⟩
  few := by
    rw [uploadedParts_cons_of_none huploaded]
    exact h.few

theorem uploaded (h : IdsTaken deeds d.before.nextId) {part : UploadedPart}
    (huploaded : d.uploaded? = some part) (hmem : part.uploadId ∈ d.before.uploads)
    (hfresh : d.before.FreshIds) : IdsTaken (d :: deeds) (d.before.nextId + 1) where
  unused := by
    rw [uploadedParts_cons_of_some huploaded]
    intro p hp n hn
    rcases List.mem_cons.mp hp with rfl | hp
    · rintro heq
      exact hfresh n (Nat.le_of_succ_le hn) (heq ▸ hmem)
    · exact h.unused p hp n (Nat.le_of_succ_le hn)
  taken := by
    intro e he hsome
    rcases List.mem_cons.mp he with rfl | he
    · exact Nat.lt_succ_self _
    · exact Nat.lt_succ_of_lt (h.taken e he hsome)
  ordered := List.pairwise_cons.mpr ⟨h.taken, h.ordered⟩
  few := by
    rw [uploadedParts_cons_of_some huploaded, List.length_cons]
    exact Nat.succ_le_succ h.few

theorem nodup_etags (h : IdsTaken deeds next) (hnext : next ≤ 2 ^ 32) :
    ((uploadedParts deeds).map fun p => p.stored.etag).Nodup := by
  rw [List.Nodup, List.pairwise_map, uploadedParts, List.pairwise_filterMap]
  refine h.ordered.imp_of_mem ?_
  intro d e hd he hlt p hp q hq heq
  have hearlier := hlt (by simp [hq])
  rw [StoreDeed.etag_of_uploaded? hp, StoreDeed.etag_of_uploaded? hq] at heq
  have hd' := h.taken d hd (by simp [hp])
  have heq' := Store.nextId_eq_of_etag_eq (by omega) (by omega) heq
  omega

end IdsTaken

section Counts

variable (d : StoreDeed) (deeds : List StoreDeed)

theorem StoreDeed.succeeds_createUpload : d.succeeds .createUpload = d.opened?.isSome := by
  rcases d with ⟨s, now, r⟩
  cases r <;> rfl

theorem StoreDeed.succeeds_closing :
    (d.succeeds .completeUpload).toNat + (d.succeeds .abortUpload).toNat =
      d.closed?.isSome.toNat := by
  rcases d with ⟨s, now, r⟩
  cases r with
  | completeUpload bucket key id parts =>
    rw [succeeds, succeeds, closed?]
    cases reply ⟨s, now, .completeUpload bucket key id parts⟩ <;> rfl
  | abortUpload bucket key id =>
    rw [succeeds, succeeds, closed?]
    cases reply ⟨s, now, .abortUpload bucket key id⟩ <;> rfl
  | _ => rfl

theorem countP_succeeds_closing :
    deeds.countP (fun d => d.succeeds .completeUpload) +
        deeds.countP (fun d => d.succeeds .abortUpload) =
      deeds.countP fun d => d.closed?.isSome := by
  induction deeds with
  | nil => rfl
  | cons d deeds ih =>
    have hd := d.succeeds_closing
    simp only [List.countP_cons]
    cases hcomplete : d.succeeds .completeUpload <;> cases habort : d.succeeds .abortUpload <;>
      cases hclosed : d.closed?.isSome <;> simp [hcomplete, habort, hclosed] at hd ⊢ <;> omega

end Counts

theorem size_erase_of_mem {uploads : Std.TreeMap String UploadSession} {id : String}
    (h : id ∈ uploads) : (uploads.erase id).size + 1 = uploads.size := by
  have hcontains := Std.TreeMap.mem_iff_contains.mp h
  have hempty := Std.TreeMap.isEmpty_eq_false_of_contains hcontains
  rw [Std.TreeMap.isEmpty_eq_size_eq_zero, beq_eq_false_iff_ne] at hempty
  rw [Std.TreeMap.size_erase, if_pos hcontains]
  omega

namespace StoreDeed.Change

variable {d : StoreDeed} {deeds : List StoreDeed}

theorem idsTaken (hchange : d.Change) (h : IdsTaken deeds d.before.nextId)
    (hfresh : d.before.FreshIds) : IdsTaken (d :: deeds) d.after.nextId := by
  cases hchange with
  | opened _ huploaded _ _ hid => exact (h.other huploaded).mono (by omega)
  | uploaded _ huploaded _ hsession _ hid =>
    rw [hid]
    exact h.uploaded huploaded
      (Std.TreeMap.mem_iff_isSome_getElem?.mpr (Option.isSome_of_eq_some hsession)) hfresh
  | closed _ huploaded _ _ _ hid => exact (h.other huploaded).mono hid
  | none _ huploaded _ _ hid => exact (h.other huploaded).mono hid

theorem openUploads (hchange : d.Change) (h : OpenUploads deeds d.before.uploads)
    (hids : IdsTaken deeds d.before.nextId) (hfresh : d.before.FreshIds) :
    OpenUploads (d :: deeds) d.after.uploads := by
  cases hchange with
  | opened hopened huploaded hclosed huploads _ =>
    rw [huploads]
    exact h.opened hfresh.not_mem (fun p hp => hids.unused p hp _ (Nat.le_refl _)) hopened huploaded
      hclosed
  | uploaded hopened huploaded hclosed hsession huploads _ =>
    rw [huploads]
    exact h.uploaded hopened huploaded hclosed hsession
  | closed hopened huploaded hclosed _ huploads _ =>
    rw [huploads]
    exact h.closed hopened huploaded hclosed
  | none hopened huploaded hclosed huploads _ =>
    rw [huploads]
    exact h.same hopened huploaded hclosed

theorem pending (hchange : d.Change) (hfresh : d.before.FreshIds)
    (h : d.before.uploads.size + deeds.countP (fun d => d.closed?.isSome) =
      deeds.countP fun d => d.opened?.isSome) :
    d.after.uploads.size + (d :: deeds).countP (fun d => d.closed?.isSome) =
      (d :: deeds).countP fun d => d.opened?.isSome := by
  simp only [List.countP_cons]
  cases hchange with
  | opened hopened _ hclosed huploads _ =>
    have hnew : d.before.uploads.contains d.before.uploadId = false :=
      Bool.eq_false_iff.mpr fun h => hfresh.not_mem (Std.TreeMap.mem_iff_contains.mpr h)
    rw [huploads, hopened, hclosed, Std.TreeMap.size_insert, hnew]
    simp only [Option.isSome_none, Option.isSome_some, if_true, Bool.false_eq_true, if_false]
    omega
  | uploaded hopened _ hclosed hsession huploads _ =>
    have hold := Std.TreeMap.mem_iff_contains.mp
      (Std.TreeMap.mem_iff_isSome_getElem?.mpr (Option.isSome_of_eq_some hsession))
    rw [huploads, hopened, hclosed, Std.TreeMap.size_insert, hold]
    exact h
  | closed hopened _ hclosed hmem huploads _ =>
    have hsize := size_erase_of_mem hmem
    rw [huploads, hopened, hclosed]
    simp only [Option.isSome_none, Option.isSome_some, if_true, Bool.false_eq_true, if_false]
    omega
  | none hopened _ hclosed huploads _ =>
    rw [huploads, hopened, hclosed]
    exact h

end StoreDeed.Change

namespace Usage

/-- The work that was done tells which uploads are open, with which parts. -/
structure Recorded (u : Usage) : Prop where
  fresh : u.store.FreshIds
  ids : IdsTaken u.deeds u.store.nextId
  uploads : OpenUploads u.deeds u.store.uploads
  pending : u.store.uploads.size + u.deeds.countP (fun d => d.closed?.isSome) =
    u.deeds.countP fun d => d.opened?.isSome

variable {u v : Usage}

theorem recorded_new : Recorded {} where
  fresh := Store.freshIds_of_uploads_empty rfl
  ids := .new
  uploads := .new
  pending := rfl

theorem Recorded.aside (h : u.Recorded) (haside : u.Aside v) : v.Recorded where
  fresh := h.fresh.of_subset haside.nextId fun id hmem => haside.uploads ▸ hmem
  ids := by
    rw [haside.deeds]
    exact h.ids.mono haside.nextId
  uploads := by
    rw [haside.deeds, haside.uploads]
    exact h.uploads
  pending := by
    rw [haside.deeds, haside.uploads]
    exact h.pending

theorem Recorded.deed (h : u.Recorded) (now : Int) (r : Request) (underWay : List Request) :
    Recorded ⟨(StoreDeed.mk u.store now r).after, underWay, ⟨u.store, now, r⟩ :: u.deeds⟩ where
  fresh := h.fresh.finish now r
  ids := (StoreDeed.mk u.store now r).change.idsTaken h.ids h.fresh
  uploads := (StoreDeed.mk u.store now r).change.openUploads h.uploads h.ids h.fresh
  pending := (StoreDeed.mk u.store now r).change.pending h.fresh h.pending

theorem Reach.recorded (hu : Reach u) : u.Recorded := by
  induction hu with
  | new => exact recorded_new
  | step _ hact ih =>
    rcases act_cases hact with haside | ⟨now, r, -, -, rfl⟩
    · exact ih.aside haside
    · exact ih.deed now r _

end Usage

/-- An upload can be completed to some parts: it is open for the bucket and key, and the parts are named
in order, each with the etag of the latest upload of it. -/
structure Completable (deeds : List StoreDeed) (bucket key id : String) (parts : List CompletedPart) :
    Prop where
  staysOpen : StaysOpen deeds bucket key id
  nonempty : parts ≠ []
  pairwise : (parts.map CompletedPart.number).Pairwise (· < ·)
  latest : ∀ p ∈ parts, ∃ stored,
    latestPart? deeds id p.number = some stored ∧ stored.etag = p.etag

namespace Completable

variable {deeds : List StoreDeed} {bucket key id : String} {parts : List CompletedPart}

/-- The etag of a part is that of no other part, of no other upload, and of no earlier upload of it. -/
theorem eq_latest (h : Completable deeds bucket key id parts)
    (hnodup : ((uploadedParts deeds).map fun p => p.stored.etag).Nodup) {p : CompletedPart}
    (hp : p ∈ parts) {q : UploadedPart} (hq : q ∈ uploadedParts deeds)
    (hetag : q.stored.etag = p.etag) :
    q.uploadId = id ∧ q.number = p.number ∧ latestPart? deeds id p.number = some q.stored := by
  obtain ⟨stored, hlatest, hstored⟩ := h.latest p hp
  obtain ⟨q', hq', hid, hnumber, rfl⟩ := exists_of_latestPart?_eq_some hlatest
  obtain rfl : q = q' := List.inj_on_of_nodup_map hnodup hq hq' (hetag.trans hstored.symm)
  exact ⟨hid, hnumber, hlatest⟩

theorem length_le (h : Completable deeds bucket key id parts) :
    parts.length ≤ (uploadedParts deeds).length := by
  have hsubset : parts.map CompletedPart.number ⊆ (uploadedParts deeds).map UploadedPart.number := by
    intro n hn
    obtain ⟨p, hp, rfl⟩ := List.mem_map.mp hn
    obtain ⟨stored, hlatest, -⟩ := h.latest p hp
    obtain ⟨q, hq, -, hnumber, -⟩ := exists_of_latestPart?_eq_some hlatest
    exact List.mem_map.mpr ⟨q, hq, hnumber⟩
  have hnodup : (parts.map CompletedPart.number).Nodup := h.pairwise.imp Int.ne_of_lt
  simpa using (List.subperm_of_subset hnodup hsubset).length_le

end Completable

/-- What is left of an upload when it was completed. -/
structure Completed (before after : Store) (deeds : List StoreDeed) (bucket key id : String)
    (parts : List CompletedPart) : Prop where
  object : ∃ object, after.object? bucket key = some object ∧
    object.data = Store.joined .empty (parts.filterMap fun p => latestPart? deeds id p.number) ∧
    object.partsCount = some parts.length
  session : after.uploads[id]? = none
  objects : ∀ b k, (b, k) ≠ (bucket, key) → after.object? b k = before.object? b k
  sessions : ∀ other, other ≠ id → after.uploads[other]? = before.uploads[other]?

/-- What a call that completes an upload comes to, told from the work that was done before it. -/
structure Completion (deeds : List StoreDeed) (d : StoreDeed) (bucket key id : String)
    (parts : List CompletedPart) : Prop where
  succeeds_iff : d.reply = .ok .done ↔ Completable deeds bucket key id parts
  own : d.reply = .ok .done → ∀ p ∈ parts, ∀ q ∈ uploadedParts deeds, q.stored.etag = p.etag →
    q.uploadId = id ∧ q.number = p.number ∧ latestPart? deeds id p.number = some q.stored
  completed : d.reply = .ok .done → Completed d.before d.after deeds bucket key id parts
  refused : d.reply ≠ .ok .done → d.after = d.before

namespace Usage

variable {u : Usage} {bucket key id : String} {parts : List CompletedPart}

theorem Recorded.completable_iff (h : u.Recorded) :
    Completable u.deeds bucket key id parts ↔
      ∃ session data, u.store.session? bucket key id = some session ∧ parts ≠ [] ∧
        Store.ascending parts = true ∧ Store.assemble session .empty parts = .ok data := by
  simp only [Store.ascending_iff, Store.assemble_eq_ok_iff, Store.session?_eq_some_iff]
  constructor
  · rintro ⟨hopen, hne, hpairwise, hlatest⟩
    obtain ⟨stored, hsession⟩ := (h.uploads.open_iff bucket key id).mpr hopen
    simp only [← h.uploads.parts_eq id _ hsession] at hlatest
    exact ⟨_, _, ⟨hsession, rfl, rfl⟩, hne, hpairwise, hlatest, rfl⟩
  · rintro ⟨⟨b, k, stored⟩, data, ⟨hsession, rfl, rfl⟩, hne, hpairwise, hlatest, -⟩
    simp only [h.uploads.parts_eq id _ hsession] at hlatest
    exact ⟨(h.uploads.open_iff b k id).mp ⟨stored, hsession⟩, hne, hpairwise, hlatest⟩

theorem Recorded.completed (h : u.Recorded) (hnext : u.store.nextId < 2 ^ 32) (now : Int)
    (hcompletable : Completable u.deeds bucket key id parts) :
    (StoreDeed.mk u.store now (.completeUpload bucket key id parts)).reply = .ok .done ∧
      Completed u.store (StoreDeed.mk u.store now (.completeUpload bucket key id parts)).after
        u.deeds bucket key id parts := by
  obtain ⟨session, data, hsession, hne, hascending, hdata⟩ := h.completable_iff.mp hcompletable
  have hfinish := Store.finish_completeUpload_known hsession hne hascending hdata now
  have hobjects := Store.object?_write
    { u.store.takeId with uploads := u.store.uploads.erase id } bucket key
    (u.store.completedObject now parts data)
  have hparts := h.uploads.parts_eq id session (u.store.session?_eq_some_iff.mp hsession).1
  have hlength : parts.length < 2 ^ 32 := by
    have := hcompletable.length_le
    have := h.ids.few
    omega
  simp only [StoreDeed.reply, StoreDeed.after, hfinish]
  refine ⟨trivial, ⟨?_, ?_, ?_, ?_⟩⟩
  · refine ⟨_, (hobjects bucket key).trans (if_pos ⟨rfl, rfl⟩), ?_, ?_⟩
    · simp only [← hparts]
      exact (Store.assemble_eq_ok_iff.mp hdata).2
    · exact congrArg some (Nat.mod_eq_of_lt hlength)
  · exact Std.TreeMap.getElem?_erase_self
  · intro b k hother
    rw [hobjects b k, if_neg (fun h => hother (Prod.ext h.1.symm h.2.symm))]
    exact congrFun (congrFun (Store.object?_congr rfl) b) k
  · intro other hother
    rw [Store.uploads_write, Std.TreeMap.getElem?_erase, if_neg]
    simpa using Ne.symm hother

theorem Recorded.completion (h : u.Recorded) (hnext : u.store.nextId < 2 ^ 32) (now : Int)
    (bucket key id : String) (parts : List CompletedPart) :
    Completion u.deeds ⟨u.store, now, .completeUpload bucket key id parts⟩ bucket key id parts := by
  have hnodup := h.ids.nodup_etags (Nat.le_of_lt hnext)
  rcases u.store.finish_completeUpload_cases now bucket key id parts with ⟨e, hfinish⟩ | hcompletable
  · have hreply : (StoreDeed.mk u.store now (.completeUpload bucket key id parts)).reply ≠
        .ok .done := by
      simp [StoreDeed.reply, hfinish]
    refine ⟨⟨fun hdone => absurd hdone hreply, fun hcompletable => ?_⟩,
      fun hdone => absurd hdone hreply, fun hdone => absurd hdone hreply, fun _ => ?_⟩
    · exact (h.completed hnext now hcompletable).1
    · rw [StoreDeed.after, hfinish]
  · have hcompletable := h.completable_iff.mpr hcompletable
    obtain ⟨hreply, hcompleted⟩ := h.completed hnext now hcompletable
    exact ⟨⟨fun _ => hcompletable, fun _ => hreply⟩,
      fun _ p hp q hq hetag => hcompletable.eq_latest hnodup hp hq hetag,
      fun _ => hcompleted, fun hfailed => absurd hreply hfailed⟩

/-- A store in use keeps to the work that was done: the uploads that are pending are those that were
opened and neither completed nor aborted, no two parts were given the same etag, and a call that
completes an upload succeeds exactly when the latest parts of an open one are named, whose data it puts
together. -/
theorem uploads_follow_deeds (hu : Reach u) :
    u.store.pendingUploads + u.deeds.countP (fun d => d.succeeds .completeUpload) +
        u.deeds.countP (fun d => d.succeeds .abortUpload) =
      u.deeds.countP (fun d => d.succeeds .createUpload) ∧
    (u.store.nextId < 2 ^ 32 →
      ((uploadedParts u.deeds).map fun p => p.stored.etag).Nodup ∧
      ∀ {now bucket key id parts v},
        u.act (.finish now (.completeUpload bucket key id parts)) = some v →
        v.store = (StoreDeed.mk u.store now (.completeUpload bucket key id parts)).after ∧
        Completion u.deeds ⟨u.store, now, .completeUpload bucket key id parts⟩ bucket key id parts) := by
  have hrecorded := hu.recorded
  constructor
  · rw [Nat.add_assoc, countP_succeeds_closing]
    simp only [StoreDeed.succeeds_createUpload]
    exact hrecorded.pending
  · intro hnext
    refine ⟨hrecorded.ids.nodup_etags (Nat.le_of_lt hnext), ?_⟩
    intro now bucket key id parts v hact
    exact ⟨store_of_finish hact, hrecorded.completion hnext now bucket key id parts⟩

/-- Two uploads for one key at a time. The first one is given its part twice and is being completed. -/
def twoUploads : List UsageAction :=
  ([.createUpload "bucket" "key", .createUpload "bucket" "key",
    .uploadPart "bucket" "key" "upload-0" 1 "old".toUTF8,
    .uploadPart "bucket" "key" "upload-1" 1 "other".toUTF8,
    .uploadPart "bucket" "key" "upload-0" 1 "new".toUTF8].flatMap
      fun r => [UsageAction.enter r, UsageAction.finish 0 r]) ++
    [UsageAction.enter (.completeUpload "bucket" "key" "upload-0" [⟨1, "\"300000004\""⟩])]

theorem uploads_follow_deeds_two_uploads :
    ∃ u v : Usage, twoUploads.foldlM act {} = some u ∧ u.store.nextId < 2 ^ 32 ∧
      u.act (.finish 9 (.completeUpload "bucket" "key" "upload-0" [⟨1, "\"300000004\""⟩])) = some v ∧
      (v.store.object? "bucket" "key").map StoredObject.data = some "new".toUTF8 ∧
      u.store.pendingUploads + u.deeds.countP (fun d => d.succeeds .completeUpload) +
          u.deeds.countP (fun d => d.succeeds .abortUpload) =
        u.deeds.countP (fun d => d.succeeds .createUpload) ∧
      ((uploadedParts u.deeds).map fun p => p.stored.etag).Nodup ∧
      Completion u.deeds
        ⟨u.store, 9, .completeUpload "bucket" "key" "upload-0" [⟨1, "\"300000004\""⟩]⟩ "bucket" "key"
        "upload-0" [⟨1, "\"300000004\""⟩] := by
  have hrun : (twoUploads.foldlM act {}).any (fun u : Usage => u.store.nextId < 2 ^ 32 &&
      (u.act (.finish 9 (.completeUpload "bucket" "key" "upload-0" [⟨1, "\"300000004\""⟩]))).any
        fun v : Usage =>
          (v.store.object? "bucket" "key").map StoredObject.data = some "new".toUTF8) = true := by
    decide +kernel
  simp only [Option.any_eq_true, Bool.and_eq_true, decide_eq_true_eq] at hrun
  obtain ⟨u, hu, hnext, v, hact, hobject⟩ := hrun
  obtain ⟨hcounts, hcomplete⟩ := uploads_follow_deeds (reach_of_foldlM .new hu)
  obtain ⟨hnodup, hcomplete⟩ := hcomplete hnext
  exact ⟨u, v, hu, hnext, hact, hobject, hcounts, hnodup, (hcomplete hact).2⟩

end Usage

end BucketMigration
