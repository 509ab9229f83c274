import BucketMigration.Proofs.Store.Assembly
import BucketMigration.Proofs.World.Service

/-!
# The pieces of a copy in parts

While a copy in parts goes on, its open upload holds exactly the parts whose upload has been worked
on, each with its own piece of the source. When all parts have ended, the upload holds the whole
object, or some part lies past the end of the source.
-/

namespace BucketMigration

section PartAt

variable (setup : Setup) (object : ObjectDescriptor) (source : ByteArray) (part : PartRange)

/-- How far a part has come: its stage, its call, and what the open upload holds of it. -/
inductive PartAt : PartStatus → Option CallState → Option StoredPart → Prop
  | waiting : PartAt .waiting none none
  | reading : PartAt (.active none) none none
  | readEntered : PartAt (.active none) (some .entered) none
  | readAnswered : PartAt (.active none) (some (.answered (piece setup object source part))) none
  | writing (hfits : part.range.fits source.size = true) :
      PartAt (.active (some (part.range.slice source))) none none
  | writeEntered (hfits : part.range.fits source.size = true) :
      PartAt (.active (some (part.range.slice source))) (some .entered) none
  | writeAnswered (hfits : part.range.fits source.size = true) (etag : String) :
      PartAt (.active (some (part.range.slice source))) (some (.answered (.ok (.etag (some etag)))))
        (some ⟨part.range.slice source, etag⟩)
  | uploaded (hfits : part.range.fits source.size = true) (etag : String) :
      PartAt (.ended (.uploaded (some etag))) none (some ⟨part.range.slice source, etag⟩)
  | leftOut : PartAt (.ended .leftOut) none none
  | failed (hfits : part.range.fits source.size = false) :
      PartAt (.ended (.failed (.storage object.key "get part"
        (unreadable setup object source.size part)))) none none

variable {setup object source part}

theorem piece_eq_error {e : StorageError} (h : piece setup object source part = .error e) :
    part.range.fits source.size = false ∧ e = unreadable setup object source.size part := by
  unfold piece at h
  split at h
  · cases h
  · rename_i hfits
    cases h
    exact ⟨Bool.eq_false_iff.mpr hfits, rfl⟩

theorem piece_eq_content {data : ByteArray}
    (h : piece setup object source part = .ok (.content data)) :
    part.range.fits source.size = true ∧ data = part.range.slice source := by
  unfold piece at h
  split at h
  · rename_i hfits
    cases h
    exact ⟨hfits, rfl⟩
  · cases h

theorem PartAt.read_eq {reply : Reply} {own : Option StoredPart}
    (h : PartAt setup object source part (.active none) (some (.answered reply)) own) :
    piece setup object source part = reply ∧ own = none := by
  cases h
  exact ⟨rfl, rfl⟩

end PartAt

theorem Session.Keeps.assemble_of_outcome {plan : PartPlan} {s : Session} {size : Nat}
    (h : s.Keeps plan.parts) (hcovers : Layout.Covers size plan) (hover : s.isOver = true)
    {targetKey : String} {ps : List CompletedPart} (hps : s.outcome targetKey = .ok ps)
    {source : ByteArray} {session : UploadSession}
    (hstored : ∀ part ∈ plan.parts, ∀ etag, (part.number, .uploaded (some etag)) ∈ s.ended →
      part.range.fits source.size = true ∧
        session.parts[(part.number : Int)]? = some ⟨part.range.slice source, etag⟩) :
    size ≤ source.size ∧ ps.length = plan.parts.length ∧ Store.ascending ps = true ∧
      Store.assemble session .empty ps = .ok (source.extract 0 size) := by
  have hn := hcovers.nodup_number
  obtain ⟨hnumbers, huploaded⟩ := h.outcome_eq_ok hcovers.pairwise_number hover hps
  have hpiece : ∀ p ∈ ps, ∀ part ∈ plan.parts, p.number = (part.number : Nat) →
      part.range.fits source.size = true ∧
        session.parts[p.number]? = some ⟨part.range.slice source, p.etag⟩ := by
    intro p hp part hpart hnumber
    obtain ⟨part', hpart', hnumber', hended⟩ := huploaded p hp
    have heq : part' = part := by
      apply List.inj_on_of_nodup_map hn hpart' hpart
      rw [hnumber] at hnumber'
      exact (Int.ofNat_inj.mp hnumber').symm
    rw [hnumber]
    exact hstored part hpart _ (heq ▸ hended)
  refine ⟨?_, ?_, ?_, ?_⟩
  · rw [← Layout.forall_fits_iff hcovers.size_pos hcovers.partSize_pos, ← hcovers.parts_eq]
    intro part hpart
    have hin : (part.number : Int) ∈ ps.map CompletedPart.number := by
      rw [hnumbers]
      exact List.mem_map.mpr ⟨part, hpart, rfl⟩
    obtain ⟨p, hp, hnumber⟩ := List.mem_map.mp hin
    exact (hpiece p hp part hpart hnumber).1
  · simpa using congrArg List.length hnumbers
  · rw [Store.ascending_iff, hnumbers, List.pairwise_map]
    exact (List.pairwise_map.mp hcovers.pairwise_number).imp Int.ofNat_lt.mpr
  · apply Store.assemble_layout hcovers.size_pos hcovers.partSize_pos source _
    · rw [hnumbers, hcovers.parts_eq]
    · rw [← hcovers.parts_eq]
      intro p hp part hpart hnumber
      exact (hpiece p hp part hpart hnumber).2

/-- A session whose parts are copied from `source`. -/
structure SessionAt (S₀ : Stores) (setup : Setup) (object : ObjectDescriptor) (source : ByteArray)
    (parts : List PartRange) (s : Session) (stored : Std.TreeMap Int StoredPart) (S : Stores)
    (states : Lane → Option CallState) : Prop where
  keeps : s.Keeps parts
  id : s.uploadId = (S₀.get .target).uploadId
  opened : Opened S₀ setup object stored S
  whole : states .whole = none
  part : ∀ part ∈ parts, PartAt setup object source part (s.status part.number)
    (states (.part part.number)) stored[(part.number : Int)]?

namespace SessionAt

variable {S₀ : Stores} {setup : Setup} {object : ObjectDescriptor} {source : ByteArray}
  {parts : List PartRange} {s : Session} {stored : Std.TreeMap Int StoredPart} {S : Stores}
  {states : Lane → Option CallState}

theorem new (h : Opened S₀ setup object {} S) (hwhole : states .whole = none)
    (hidle : ∀ n, states (.part n) = none) :
    SessionAt S₀ setup object source parts
      { uploadId := (S₀.get .target).uploadId, waiting := parts } {} S states where
  keeps := .new _
  id := rfl
  opened := h
  whole := hwhole
  part := by
    intro part _
    rw [hidle, Std.TreeMap.getElem?_emptyc]
    exact .waiting

theorem extend (h : SessionAt S₀ setup object source parts s stored S states) {s' : Session}
    {stored' : Std.TreeMap Int StoredPart} {S' : Stores} {states' : Lane → Option CallState}
    {part : PartRange} (hn : (parts.map PartRange.number).Nodup) (hpart : part ∈ parts)
    (hkeeps : s'.Keeps parts) (hid : s'.uploadId = s.uploadId)
    (hopened : Opened S₀ setup object stored' S')
    (hstatus : ∀ m, m ≠ part.number → s'.status m = s.status m)
    (hstates : ∀ lane, lane ≠ .part part.number → states' lane = states lane)
    (hstored : ∀ m : Nat, m ≠ part.number → stored'[(m : Int)]? = stored[(m : Int)]?)
    (hat : PartAt setup object source part (s'.status part.number) (states' (.part part.number))
      stored'[(part.number : Int)]?) :
    SessionAt S₀ setup object source parts s' stored' S' states' where
  keeps := hkeeps
  id := hid.trans h.id
  opened := hopened
  whole := (hstates .whole Lane.noConfusion).trans h.whole
  part := by
    intro q hq
    by_cases hnumber : q.number = part.number
    · obtain rfl := List.inj_on_of_nodup_map hn hq hpart hnumber
      exact hat
    · rw [hstatus _ hnumber, hstates _ (by simpa using hnumber), hstored _ hnumber]
      exact h.part q hq

section Events

variable (h : SessionAt S₀ setup object source parts s stored S states)
  (hn : (parts.map PartRange.number).Nodup) {p : PartCopy} (hp : s.active? p.part.number = some p)
include h hp

theorem mem_parts : p.part ∈ parts :=
  h.keeps.active p (Session.active?_eq_some hp).1

theorem partAt : PartAt setup object source p.part (.active p.data)
    (states (.part p.part.number)) stored[(p.part.number : Int)]? := by
  rw [← Session.status_of_active? hp]
  exact h.part p.part (h.mem_parts hp)

include hn

theorem enter (hfree : states (.part p.part.number) = none) :
    SessionAt S₀ setup object source parts s stored
      (S.set (p.call setup object s.uploadId).side
        ((S.get (p.call setup object s.uploadId).side).enter
          (p.call setup object s.uploadId).request).2)
      (Function.update states (.part p.part.number)
        (some (match ((S.get (p.call setup object s.uploadId).side).enter
          (p.call setup object s.uploadId).request).1 with
        | .error e => .answered (.error e)
        | .ok () => .entered))) := by
  obtain ⟨hok, halike⟩ := Stores.enter_of_faults_eq_nil
    (h.opened.quiet.faults (p.call setup object s.uploadId).side)
  have hat := h.partAt hp
  refine h.extend hn (h.mem_parts hp) h.keeps rfl (h.opened.of_alike halike) (fun _ _ => rfl) ?_
    (fun _ _ => rfl) ?_
  · intro lane hlane
    rw [Function.update_of_ne hlane]
  · rw [Function.update_self, hok, Session.status_of_active? hp]
    rw [hfree] at hat
    generalize p.data = data at hat
    generalize stored[(p.part.number : Int)]? = own at hat
    cases hat with
    | reading => exact .readEntered
    | writing hfits => exact .writeEntered hfits

theorem finish {stored₀ : StoredObject} (hstored₀ : stored₀.data = source)
    (hsource : (S₀.get .source).object? setup.source.bucket object.key = some stored₀) (now : Int)
    (hentered : states (.part p.part.number) = some .entered) :
    ∃ stored', SessionAt S₀ setup object source parts s stored'
      (S.set (p.call setup object s.uploadId).side
        ((S.get (p.call setup object s.uploadId).side).finish now
          (p.call setup object s.uploadId).request).2)
      (Function.update states (.part p.part.number)
        (some (.answered ((S.get (p.call setup object s.uploadId).side).finish now
          (p.call setup object s.uploadId).request).1))) := by
  subst hstored₀
  have hpart := h.mem_parts hp
  have hstates : ∀ state lane, lane ≠ .part p.part.number →
      Function.update states (.part p.part.number) state lane = states lane :=
    fun state lane hlane => Function.update_of_ne hlane ..
  have hat := h.partAt hp
  rw [hentered] at hat
  generalize hdata : p.data = data at hat
  generalize hown : stored[(p.part.number : Int)]? = own at hat
  cases hat with
  | readEntered =>
    obtain ⟨hreply, hopened⟩ := (honest_getPart hsource p.part).finish now h.opened
    rw [PartCopy.call_of_data_eq_none hdata, hreply]
    refine ⟨stored, h.extend hn hpart h.keeps rfl hopened (fun _ _ => rfl) (hstates _)
      (fun _ _ => rfl) ?_⟩
    rw [Function.update_self, Session.status_of_active? hp, hdata, hown]
    exact .readAnswered
  | writeEntered hfits =>
    rw [PartCopy.call_of_data_eq_some hdata, h.id]
    obtain ⟨etag, hreply, hopened⟩ :=
      h.opened.uploadPart now p.part (p.part.range.slice stored₀.data)
    refine ⟨_, h.extend hn hpart h.keeps rfl hopened (fun _ _ => rfl) (hstates _) ?_ ?_⟩
    · intro m hm
      have hne : ¬compare (p.part.number : Int) m = .eq := by
        rw [Std.compare_eq_iff_eq, Int.ofNat_inj]
        exact Ne.symm hm
      rw [Std.TreeMap.getElem?_insert, if_neg hne]
    · rw [Function.update_self, Session.status_of_active? hp, hdata, hreply,
        Std.TreeMap.getElem?_insert_self]
      exact .writeAnswered hfits etag

theorem ended {how : PartEnd} (hhow : how ≠ .leftOut)
    (hat : PartAt setup object source p.part (.ended how) none stored[(p.part.number : Int)]?) :
    SessionAt S₀ setup object source parts (s.finish p.part.number how) stored S
      (Function.update states (.part p.part.number) none) := by
  have hstatus := Session.status_finish how (h.keeps.not_mem_ended hn hp)
  refine h.extend hn (h.mem_parts hp) (h.keeps.finish hn hp hhow) rfl h.opened ?_
    (fun lane hlane => Function.update_of_ne hlane ..) (fun _ _ => rfl) ?_
  · intro m hm
    rw [hstatus, if_neg hm]
  · rw [Function.update_self, hstatus, if_pos rfl]
    exact hat

theorem filled (hfits : p.part.range.fits source.size = true)
    (hown : stored[(p.part.number : Int)]? = none) :
    SessionAt S₀ setup object source parts (s.fill p.part.number (p.part.range.slice source)) stored S
      (Function.update states (.part p.part.number) none) := by
  have hstatus := Session.status_fill (p.part.range.slice source) hp
  refine h.extend hn (h.mem_parts hp) (h.keeps.fill _ _) rfl h.opened ?_
    (fun lane hlane => Function.update_of_ne hlane ..) (fun _ _ => rfl) ?_
  · intro m hm
    rw [hstatus, if_neg hm]
  · rw [Function.update_self, hstatus, if_pos rfl, hown]
    exact .writing hfits

end Events

theorem deliver (h : SessionAt S₀ setup object source parts s stored S states)
    (hn : (parts.map PartRange.number).Nodup) {c : ObjectCopy} (hobject : c.object = object)
    (hphase : c.phase = .copying s) {lane : Lane} {reply : Reply} {next : ObjectCopy.Next}
    (hanswered : states lane = some (.answered reply)) (hnext : c.resume setup lane reply = some next) :
    ∃ s', next.1 = (c.settle setup s').1 ∧
      SessionAt S₀ setup object source parts s' stored S (Function.update states lane none) := by
  subst hobject
  obtain ⟨p, hp, rfl, hcases⟩ := ObjectCopy.resume_copying hphase hnext
  have hat := h.partAt hp
  rw [hanswered] at hat
  generalize hown : stored[(p.part.number : Int)]? = own at hat
  rcases hcases with ⟨hdata, e, rfl, rfl⟩ | ⟨hdata, data, rfl, rfl⟩ |
      ⟨data, hdata, e, rfl, rfl⟩ | ⟨data, hdata, etag, rfl, rfl⟩
  · rw [hdata] at hat
    obtain ⟨hpiece, rfl⟩ := hat.read_eq
    obtain ⟨hfits, rfl⟩ := piece_eq_error hpiece
    refine ⟨_, rfl, h.ended hn hp (by simp) ?_⟩
    rw [hown]
    exact .failed hfits
  · rw [hdata] at hat
    obtain ⟨hpiece, rfl⟩ := hat.read_eq
    obtain ⟨hfits, rfl⟩ := piece_eq_content hpiece
    refine ⟨_, ?_, h.filled hn hp hfits hown⟩
    rw [c.settle_fill setup hp]
    rfl
  · rw [hdata] at hat
    cases hat
  · rw [hdata] at hat
    refine ⟨s.finish p.part.number (.uploaded etag), rfl, h.ended hn hp (by simp) ?_⟩
    rw [hown]
    cases hat with
    | writeAnswered hfits etag => exact .uploaded hfits etag

theorem startPart (h : SessionAt S₀ setup object source parts s stored S states)
    (hn : (parts.map PartRange.number).Nodup) {c : ObjectCopy} (hphase : c.phase = .copying s)
    {next : ObjectCopy.Next} (hnext : c.startPart setup = some next) :
    ∃ s', next.1 = (c.settle setup s').1 ∧
      SessionAt S₀ setup object source parts s' stored S states := by
  obtain ⟨s₁, part, waiting, hphase₁, hw, -, hcases⟩ := ObjectCopy.startPart_eq_some hnext
  obtain rfl : s = s₁ := by
    rw [hphase, Phase.copying.injEq] at hphase₁
    exact hphase₁
  have hmem : part ∈ s.waiting := hw ▸ List.mem_cons_self
  have hpart := h.keeps.waiting_subset hmem
  have hnot := h.keeps.not_mem_begun hn hmem
  have hat := h.part part hpart
  rw [Session.status_eq_waiting_iff.mpr hnot] at hat
  rcases hcases with ⟨hfailed, rfl⟩ | ⟨-, rfl⟩
  · have hstatus := Session.status_leaveOut waiting hnot
    refine ⟨s.leaveOut part waiting, rfl, h.extend hn hpart (h.keeps.leaveOut hn hw hfailed) rfl
      h.opened ?_ (fun _ _ => rfl) (fun _ _ => rfl) ?_⟩
    · intro m hm
      rw [hstatus, if_neg hm]
    · rw [hstatus, if_pos rfl]
      generalize stored[(part.number : Int)]? = own at hat
      generalize states (.part part.number) = state at hat
      cases hat
      exact .leftOut
  · have hstatus := Session.status_begin waiting fun hactive =>
      hnot (List.mem_append_left _ hactive)
    refine ⟨s.begin part waiting, ?_, h.extend hn hpart (h.keeps.begin hw) rfl h.opened ?_
      (fun _ _ => rfl) (fun _ _ => rfl) ?_⟩
    · rw [c.settle_of_isOver_eq_false setup (by simp [Session.isOver, Session.begin])]
      rfl
    · intro m hm
      rw [hstatus, if_neg hm]
    · rw [hstatus, if_pos rfl]
      generalize stored[(part.number : Int)]? = own at hat
      generalize states (.part part.number) = state at hat
      cases hat
      exact .reading

theorem partAt_of_ended (h : SessionAt S₀ setup object source parts s stored S states)
    (hn : (parts.map PartRange.number).Nodup) {part : PartRange} (hpart : part ∈ parts)
    {how : PartEnd} (hended : (part.number, how) ∈ s.ended) :
    PartAt setup object source part (.ended how) (states (.part part.number))
      stored[(part.number : Int)]? := by
  rw [← Session.status_of_mem_ended (h.keeps.nodup hn) hended]
  exact h.part part hpart

theorem stored_of_uploaded (h : SessionAt S₀ setup object source parts s stored S states)
    (hn : (parts.map PartRange.number).Nodup) {part : PartRange} (hpart : part ∈ parts)
    {etag : String} (hended : (part.number, .uploaded (some etag)) ∈ s.ended) :
    part.range.fits source.size = true ∧
      stored[(part.number : Int)]? = some ⟨part.range.slice source, etag⟩ := by
  have hat := h.partAt_of_ended hn hpart hended
  generalize stored[(part.number : Int)]? = own at hat
  generalize states (.part part.number) = state at hat
  cases hat with
  | uploaded hfits etag => exact ⟨hfits, rfl⟩

variable {plan : PartPlan}

theorem outcome_eq_ok (h : SessionAt S₀ setup object source plan.parts s stored S states)
    (hcovers : Layout.Covers object.size plan) (hover : s.isOver = true) {ps : List CompletedPart}
    (hps : s.outcome (setup.targetKey object.key) = .ok ps) :
    object.size ≤ source.size ∧ ps.length = plan.parts.length ∧ Store.ascending ps = true ∧
      Store.assemble (ownUpload setup object stored) .empty ps =
        .ok (source.extract 0 object.size) :=
  h.keeps.assemble_of_outcome hcovers hover hps fun _ hpart _ hended =>
    h.stored_of_uploaded hcovers.nodup_number hpart hended

theorem outcome_eq_error (h : SessionAt S₀ setup object source plan.parts s stored S states)
    (hcovers : Layout.Covers object.size plan) {cause : MigrationError}
    (hcause : s.outcome (setup.targetKey object.key) = .error cause) :
    source.size < object.size ∧ ∃ part ∈ plan.parts,
      cause = .storage object.key "get part" (unreadable setup object source.size part) := by
  have hn := hcovers.nodup_number
  rcases Session.outcome_eq_error hcause with hfailure | ⟨-, n, hended, -⟩
  · obtain ⟨⟨n, how⟩, hended, hhow⟩ := List.exists_of_findSome?_eq_some hfailure
    obtain ⟨part, hpart, rfl⟩ :=
      h.keeps.exists_of_mem_begun (Session.mem_begun_of_mem_ended hended)
    have hat := h.partAt_of_ended hn hpart hended
    generalize stored[(part.number : Int)]? = own at hat
    generalize states (.part part.number) = state at hat
    cases hat with
    | uploaded | leftOut => cases hhow
    | failed hfits =>
      cases hhow
      refine ⟨?_, part, hpart, rfl⟩
      by_contra hle
      have hall := (Layout.forall_fits_iff hcovers.size_pos hcovers.partSize_pos source.size).mpr
        (Nat.le_of_not_lt hle)
      rw [hall part (hcovers.parts_eq ▸ hpart)] at hfits
      cases hfits
  · obtain ⟨part, hpart, rfl⟩ :=
      h.keeps.exists_of_mem_begun (Session.mem_begun_of_mem_ended hended)
    have hat := h.partAt_of_ended hn hpart hended
    generalize stored[(part.number : Int)]? = own at hat
    generalize states (.part part.number) = state at hat
    cases hat

end SessionAt

end BucketMigration
