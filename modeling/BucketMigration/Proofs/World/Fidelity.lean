import BucketMigration.Proofs.World.OnePiece
import BucketMigration.Proofs.World.Pieces

/-!
# What a copy leaves in the stores

An object that is copied while nothing else happens to the stores comes to the target byte for byte,
in one piece or in parts, however the calls of its parts overtake each other. When the source has
fewer bytes than were listed, a copy in parts fails and leaves nothing behind.
-/

namespace BucketMigration

section InParts

variable (S₀ : Stores) (setup : Setup) (object : ObjectDescriptor) (source : StoredObject)
  (plan : PartPlan)

/-- The target holds the listed bytes of the object, as made of all parts, and the upload is over. -/
def CopiedInParts (S : Stores) : Prop :=
  Written S₀ setup object (source.data.extract 0 object.size) (some plan.parts.length) S ∧
    Upload S₀ none S

/-- A part has asked for bytes that the source does not have. -/
def Shortfall (cause : MigrationError) : Prop :=
  ∃ part ∈ plan.parts, cause =
    .storage object.key "get part" (unreadable setup object source.data.size part)

inductive InParts : Phase → Stores → (Lane → Option CallState) → Prop
  | opening {S : Stores} {states : Lane → Option CallState}
      (h : Serves (Untouched S₀) (Opened S₀ setup object {})
        (.ok (.uploadId (S₀.get .target).uploadId)) S (states .whole))
      (hidle : ∀ n, states (.part n) = none) : InParts (.opening plan) S states
  | copying {S : Stores} {states : Lane → Option CallState} {s : Session}
      {stored : Std.TreeMap Int StoredPart}
      (h : SessionAt S₀ setup object source.data plan.parts s stored S states)
      (hover : s.isOver = false) : InParts (.copying s) S states
  | completing {S : Stores} {states : Lane → Option CallState} {ps : List CompletedPart}
      {stored : Std.TreeMap Int StoredPart} (hsize : object.size ≤ source.data.size)
      (hhonest : Honest (completeCall setup object (S₀.get .target).uploadId ps)
        (Opened S₀ setup object stored) (CopiedInParts S₀ setup object source plan) (.ok .done))
      (h : Serves (Opened S₀ setup object stored) (CopiedInParts S₀ setup object source plan)
        (.ok .done) S (states .whole)) :
      InParts (.completing (S₀.get .target).uploadId ps) S states
  | copied {S : Stores} {states : Lane → Option CallState} (hsize : object.size ≤ source.data.size)
      (h : CopiedInParts S₀ setup object source plan S) :
      InParts (.ended (.ok (.migrated .multipart object.size))) S states
  | aborting {S : Stores} {states : Lane → Option CallState} {cause : MigrationError}
      {stored : Std.TreeMap Int StoredPart} (hsize : source.data.size < object.size)
      (hcause : Shortfall setup object source plan cause)
      (h : Serves (Opened S₀ setup object stored) (Closed S₀) (.ok .done) S (states .whole)) :
      InParts (.aborting (S₀.get .target).uploadId cause) S states
  | aborted {S : Stores} {states : Lane → Option CallState} {cause : MigrationError}
      (hsize : source.data.size < object.size) (hcause : Shortfall setup object source plan cause)
      (h : Closed S₀ S) : InParts (.ended (.error cause)) S states

end InParts

section InParts

variable {S₀ : Stores} {setup : Setup} {object : ObjectDescriptor} {source : StoredObject}
  {plan : PartPlan} {a b : Solo}

theorem SessionAt.settle {s : Session} {stored : Std.TreeMap Int StoredPart} {S : Stores}
    {states : Lane → Option CallState} {c : ObjectCopy}
    (h : SessionAt S₀ setup object source.data plan.parts s stored S states)
    (hcovers : Layout.Covers object.size plan) (hobject : c.object = object) :
    (c.settle setup s).1.object = object ∧
      InParts S₀ setup object source plan (c.settle setup s).1.phase S states := by
  subst hobject
  cases hover : s.isOver with
  | false =>
    rw [c.settle_of_isOver_eq_false setup hover]
    exact ⟨rfl, .copying h hover⟩
  | true =>
    cases houtcome : s.outcome (c.targetKey setup) with
    | error cause =>
      obtain ⟨hsize, hcause⟩ := h.outcome_eq_error hcovers houtcome
      rw [c.settle_of_outcome_eq_error setup hover houtcome]
      refine ⟨rfl, ?_⟩
      have hserves : Serves (Opened S₀ setup c.object stored) (Closed S₀) (.ok .done) S
          (states .whole) := h.whole ▸ .due h.opened
      simp only [ObjectCopy.abort, h.id]
      exact .aborting hsize hcause hserves
    | ok ps =>
      obtain ⟨hsize, hlength, hascending, hdata⟩ := h.outcome_eq_ok hcovers hover houtcome
      rw [c.settle_of_outcome_eq_ok setup hover houtcome]
      refine ⟨rfl, ?_⟩
      simp only [ObjectCopy.go, h.id]
      have hpos : 0 < plan.parts.length := by
        rw [hcovers.parts_eq, Layout.length_parts]
        exact Layout.partCount_pos ..
      have hlt : plan.parts.length % 2 ^ 32 = plan.parts.length := by
        have hcount := hcovers.count_lt
        rw [hcovers.parts_eq, Layout.length_parts]
        exact Nat.mod_eq_of_lt (Nat.lt_trans hcount (by decide))
      have hhonest : Honest (completeCall setup c.object (S₀.get .target).uploadId ps)
          (Opened S₀ setup c.object stored) (CopiedInParts S₀ setup c.object source plan)
          (.ok .done) := by
        have hcomplete := @honest_complete S₀ setup c.object stored ps _
          (List.length_pos_iff.mp (hlength ▸ hpos)) hascending hdata
        rwa [hlength, hlt] at hcomplete
      exact .completing hsize hhonest (h.whole ▸ .due h.opened)

theorem InParts.step
    (hsource : (S₀.get .source).object? setup.source.bucket object.key = some source)
    (hcovers : Layout.Covers object.size plan) (hobject : a.copy.object = object)
    (h : InParts S₀ setup object source plan a.copy.phase a.stores a.states)
    (hstep : Solo.Step setup a b) :
    b.copy.object = object ∧
      InParts S₀ setup object source plan b.copy.phase b.stores b.states := by
  have hn := hcovers.nodup_number
  subst hobject
  generalize hphase : a.copy.phase = phase at h
  generalize hstates : a.states = states at h
  cases h with
  | opening h hidle =>
    subst hstates
    obtain ⟨hparts, ⟨hcopy, h⟩ | ⟨next, hnext, hcopy, hafter, hwhole⟩⟩ :=
      h.step honest_create (ObjectCopy.asks_opening hphase) hstep
    · rw [hcopy, hphase]
      exact ⟨rfl, .opening h fun n => (hparts n).trans (hidle n)⟩
    · rcases (ObjectCopy.resume_opening hphase hnext).2 with ⟨e, he, -⟩ | ⟨id, hid, rfl⟩
      · cases he
      · cases hid
        rw [hcopy]
        exact (SessionAt.new hafter hwhole fun n => (hparts n).trans (hidle n)).settle hcovers rfl
  | @copying _ _ s stored h hover =>
    subst hstates
    cases hstep with
    | enter hcall hfree =>
      obtain ⟨p, hp, rfl, rfl⟩ := ObjectCopy.call?_copying hphase hcall
      refine ⟨rfl, ?_⟩
      rw [hphase]
      exact .copying (h.enter hn hp hfree) hover
    | finish now hcall hentered =>
      obtain ⟨p, hp, rfl, rfl⟩ := ObjectCopy.call?_copying hphase hcall
      obtain ⟨stored', h'⟩ := h.finish hn hp rfl hsource now hentered
      refine ⟨rfl, ?_⟩
      rw [hphase]
      exact .copying h' hover
    | deliver hanswered hnext =>
      obtain ⟨s', heq, h'⟩ := h.deliver hn rfl hphase hanswered hnext
      rw [heq]
      exact h'.settle hcovers rfl
    | startPart hnext =>
      obtain ⟨s', heq, h'⟩ := h.startPart hn hphase hnext
      rw [heq]
      exact h'.settle hcovers rfl
    | wake hnext => simp [ObjectCopy.wake, hphase] at hnext
  | completing hsize hhonest h =>
    subst hstates
    rcases (h.step hhonest (ObjectCopy.asks_completing hphase) hstep).2 with
      ⟨hcopy, h⟩ | ⟨next, hnext, hcopy, hafter, -⟩
    · rw [hcopy, hphase]
      exact ⟨rfl, .completing hsize hhonest h⟩
    · rcases (ObjectCopy.resume_completing hphase hnext).2 with ⟨e, he, -⟩ | ⟨-, rfl⟩
      · cases he
      · rw [hcopy]
        exact ⟨rfl, .copied hsize hafter⟩
  | aborting hsize hcause h =>
    subst hstates
    rcases (h.step honest_abort (ObjectCopy.asks_aborting hphase) hstep).2 with
      ⟨hcopy, h⟩ | ⟨next, hnext, hcopy, hafter, -⟩
    · rw [hcopy, hphase]
      exact ⟨rfl, .aborting hsize hcause h⟩
    · rcases (ObjectCopy.resume_aborting hphase hnext).2 with ⟨e, he, -⟩ | ⟨-, rfl⟩
      · cases he
      · rw [hcopy]
        exact ⟨rfl, .aborted hsize hcause hafter⟩
  | copied | aborted =>
    have hend := hstep.verdict?_eq_none
    simp [ObjectCopy.verdict?, hphase] at hend

theorem SessionAt.exists_step {s : Session} {stored : Std.TreeMap Int StoredPart}
    {parts : List PartRange}
    (h : SessionAt S₀ setup object source.data parts s stored a.stores a.states)
    (hphase : a.copy.phase = .copying s) {p : PartCopy} (hp : s.active? p.part.number = some p) :
    ∃ b, Solo.Step setup a b := by
  have hcall := a.copy.call?_part setup hphase hp
  have hat := h.partAt hp
  generalize hstate : a.states (.part p.part.number) = state at hat
  generalize hdata : p.data = data at hat
  generalize stored[(p.part.number : Int)]? = own at hat
  cases hat with
  | reading | writing => exact ⟨_, .enter hcall hstate⟩
  | readEntered | writeEntered => exact ⟨_, .finish 0 hcall hstate⟩
  | readAnswered =>
    have hnext : ∃ next, a.copy.resume setup (.part p.part.number)
        (piece setup object source.data p.part) = some next := by
      unfold piece
      split <;> simp [ObjectCopy.resume, hphase, hp, hdata, Reply.content?]
    obtain ⟨next, hnext⟩ := hnext
    exact ⟨_, .deliver hstate hnext⟩
  | writeAnswered hfits etag =>
    have hnext : ∃ next, a.copy.resume setup (.part p.part.number) (.ok (.etag (some etag))) =
        some next := by
      simp [ObjectCopy.resume, hphase, hp, hdata, Reply.etag?]
    obtain ⟨next, hnext⟩ := hnext
    exact ⟨_, .deliver hstate hnext⟩

theorem InParts.exists_step
    (h : InParts S₀ setup object source plan a.copy.phase a.stores a.states)
    (hend : a.copy.verdict? = none) : ∃ b, Solo.Step setup a b := by
  generalize hphase : a.copy.phase = phase at h
  generalize hstates : a.states = states at h
  cases h with
  | opening h hidle =>
    subst hstates
    exact h.exists_step (ObjectCopy.asks_opening hphase)
      (by simp [ObjectCopy.resume, hphase, Reply.uploadId?])
  | completing _ _ h =>
    subst hstates
    exact h.exists_step (ObjectCopy.asks_completing hphase)
      (by simp [ObjectCopy.resume, hphase, Reply.done?])
  | aborting _ _ h =>
    subst hstates
    exact h.exists_step (ObjectCopy.asks_aborting hphase)
      (by simp [ObjectCopy.resume, hphase, Reply.done?])
  | @copying _ _ s stored h hover =>
    subst hstates
    rcases Session.active_or_waiting hover with ⟨p, hp⟩ | ⟨hactive, part, waiting, hw⟩
    · exact h.exists_step hphase hp
    · obtain ⟨next, hnext⟩ := a.copy.exists_startPart setup hphase hactive hw
      exact ⟨_, .startPart hnext⟩
  | copied | aborted => simp [ObjectCopy.verdict?, hphase] at hend

theorem InParts.keeps (h : InParts S₀ setup object source plan a.copy.phase a.stores a.states)
    (hcovers : Layout.Covers object.size plan) :
    ∀ s, a.copy.phase = .copying s → s.begun.Nodup := by
  intro s hphase
  rw [hphase] at h
  cases h with
  | copying h _ => exact h.keeps.nodup hcovers.nodup_number

/-- A copy in parts ends, and then the stores are as described. -/
theorem InParts.inevitable
    (hsource : (S₀.get .source).object? setup.source.bucket object.key = some source)
    (hcovers : Layout.Covers object.size plan) (hobject : a.copy.object = object)
    (h : InParts S₀ setup object source plan a.copy.phase a.stores a.states) :
    Inevitable (Solo.Step setup) (fun b => b.copy.verdict? ≠ none ∧
      InParts S₀ setup object source plan b.copy.phase b.stores b.states) a := by
  refine Inevitable.of_measure (fun a => a.copy.object = object ∧
    InParts S₀ setup object source plan a.copy.phase a.stores a.states)
    (fun a => a.copy.remaining 3 (Solo.left a.states) setup) ?_ ?_ ⟨hobject, h⟩
  · rintro x y ⟨hobject, h⟩ hstep
    exact ⟨h.step hsource hcovers hobject hstep, hstep.remaining_lt (h.keeps hcovers)⟩
  · rintro x ⟨-, h⟩ hend
    by_cases hverdict : x.copy.verdict? = none
    · exact h.exists_step hverdict
    · exact absurd ⟨hverdict, h⟩ hend

end InParts

theorem OnePiece.inevitable {S₀ : Stores} {setup : Setup} {object : ObjectDescriptor}
    {source : StoredObject} {a : Solo}
    (hsource : (S₀.get .source).object? setup.source.bucket object.key = some source)
    (hobject : a.copy.object = object)
    (h : OnePiece S₀ setup object source a.copy.phase a.stores (a.states .whole)) :
    Inevitable (Solo.Step setup) (fun b => b.copy.verdict? ≠ none ∧
      OnePiece S₀ setup object source b.copy.phase b.stores (b.states .whole)) a := by
  refine Inevitable.of_measure (fun a => a.copy.object = object ∧
    OnePiece S₀ setup object source a.copy.phase a.stores (a.states .whole))
    (fun a => a.copy.remaining 3 (Solo.left a.states) setup) ?_ ?_ ⟨hobject, h⟩
  · rintro x y ⟨hobject, h⟩ hstep
    refine ⟨h.step hsource hobject hstep, hstep.remaining_lt ?_⟩
    intro s hphase
    rw [hphase] at h
    cases h
  · rintro x ⟨hobject, h⟩ hend
    by_cases hverdict : x.copy.verdict? = none
    · exact h.exists_step hobject hverdict
    · exact absurd ⟨hverdict, h⟩ hend

/-- The verdict on the object that is migrated on its own, once there is one. -/
def World.soloVerdict? (w : World) : Option Verdict :=
  w.solo.bind ObjectCopy.verdict?

theorem World.soloVerdict?_of_solo? {w : World} {a : Solo} (h : w.solo? = some a) :
    w.soloVerdict? = a.copy.verdict? ∧ w.stores = a.stores := by
  obtain ⟨copy, hcopy, rfl⟩ := solo?_eq_some_iff.mp h
  rw [soloVerdict?, hcopy]
  exact ⟨rfl, rfl⟩

/-- The bytes of an object come to the target. From where the bytes are to be moved, with nothing
else going on at the stores and no fault, the copy comes to its end whatever the order and the time
of its calls. In one piece it leaves all bytes of the source under the target key; in parts it
leaves as many as were listed, and no upload, or it fails for a part past the end of the source
and leaves everything as it was. -/
theorem transfer_fidelity (w : World) (c : ObjectCopy) (source : StoredObject)
    (hsolo : w.solo = some (c.transfer w.job.setup).1)
    (hidle : ∀ lane, w.callState? (.solo lane) = none)
    (hfaults : ∀ side, (w.stores.get side).faults = [])
    (hetags : (w.stores.get .target).omitsEtags = false)
    (hsource : (w.stores.get .source).object? w.job.setup.source.bucket c.object.key =
      some source) :
    (c.object.size < w.job.setup.options.multipartThreshold →
      Inevitable World.SoloStep (fun v =>
        v.soloVerdict? = some (.ok (.migrated .direct c.object.size)) ∧
        Written w.stores w.job.setup c.object source.data none v.stores ∧
        (v.stores.get .target).uploads = (w.stores.get .target).uploads) w) ∧
    (w.job.setup.options.multipartThreshold ≤ c.object.size →
      ∀ plan, c.plan? w.job.setup = some (.ok plan) →
        (c.object.size ≤ source.data.size →
          Inevitable World.SoloStep (fun v =>
            v.soloVerdict? = some (.ok (.migrated .multipart c.object.size)) ∧
            Written w.stores w.job.setup c.object (source.data.extract 0 c.object.size)
              (some plan.parts.length) v.stores ∧
            Upload w.stores none v.stores ∧
            (c.object.size = source.data.size →
              Written w.stores w.job.setup c.object source.data (some plan.parts.length)
                v.stores)) w) ∧
        (source.data.size < c.object.size →
          Inevitable World.SoloStep (fun v =>
            (∃ part ∈ plan.parts, v.soloVerdict? = some (.error (.storage c.object.key "get part"
              (unreadable w.job.setup c.object source.data.size part)))) ∧
            (v.stores.get .target).object? = (w.stores.get .target).object? ∧
            Upload w.stores none v.stores) w)) := by
  have huntouched : Untouched w.stores w.stores := ⟨⟨hfaults, hetags, fun _ => rfl⟩, rfl, rfl⟩
  have hview : w.solo? = some
      ⟨(c.transfer w.job.setup).1, w.stores, fun lane => w.callState? (.solo lane)⟩ :=
    World.solo?_eq_some_iff.mpr ⟨_, hsolo, rfl⟩
  constructor
  · intro hsize
    have hmode : TransferMode.ofSize c.object.size w.job.setup.options.multipartThreshold =
        .direct := if_neg (Nat.not_le.mpr hsize)
    have hstart : OnePiece w.stores w.job.setup c.object source (c.transfer w.job.setup).1.phase
        w.stores (w.callState? (.solo .whole)) := by
      simp only [ObjectCopy.transfer, hmode, ObjectCopy.go, hidle]
      exact .reading (.due huntouched)
    have hobject : (c.transfer w.job.setup).1.object = c.object := by
      simp only [ObjectCopy.transfer, hmode, ObjectCopy.go]
    apply (World.inevitable_soloStep (OnePiece.inevitable hsource hobject hstart) hview).mono
    rintro v ⟨b, hb, hend, h⟩
    obtain ⟨hverdict, hstores⟩ := World.soloVerdict?_of_solo? hb
    rw [hverdict, hstores]
    generalize hphase : b.copy.phase = phase at h
    cases h with
    | copied h => exact ⟨by simp [ObjectCopy.verdict?, hphase], h.1, h.2⟩
    | reading | writing => simp [ObjectCopy.verdict?, hphase] at hend
  · intro hsize plan hplan
    have hcovers := Layout.plan?_eq_ok hplan
    have hmode := TransferMode.ofSize_eq_multipart_iff.mpr hsize
    have hstart : InParts w.stores w.job.setup c.object source plan
        (c.transfer w.job.setup).1.phase w.stores (fun lane => w.callState? (.solo lane)) := by
      simp only [ObjectCopy.transfer, hmode, ObjectCopy.transferInParts, hplan, ObjectCopy.go]
      exact .opening (hidle .whole ▸ .due huntouched) fun n => hidle (.part n)
    have hobject : (c.transfer w.job.setup).1.object = c.object := by
      simp only [ObjectCopy.transfer, hmode, ObjectCopy.transferInParts, hplan, ObjectCopy.go]
    have hends := World.inevitable_soloStep
      (InParts.inevitable hsource hcovers hobject hstart) hview
    refine ⟨fun hle => hends.mono ?_, fun hlt => hends.mono ?_⟩
    · rintro v ⟨b, hb, hend, h⟩
      obtain ⟨hverdict, hstores⟩ := World.soloVerdict?_of_solo? hb
      rw [hverdict, hstores]
      generalize hphase : b.copy.phase = phase at h
      cases h with
      | copied _ h =>
        refine ⟨by simp [ObjectCopy.verdict?, hphase], h.1, h.2, ?_⟩
        intro heq
        have hwritten := h.1
        rwa [heq, ByteArray.extract_zero_size] at hwritten
      | aborted hlt => exact absurd hle (Nat.not_le.mpr hlt)
      | opening | copying | completing | aborting => simp [ObjectCopy.verdict?, hphase] at hend
    · rintro v ⟨b, hb, hend, h⟩
      obtain ⟨hverdict, hstores⟩ := World.soloVerdict?_of_solo? hb
      rw [hverdict, hstores]
      generalize hphase : b.copy.phase = phase at h
      cases h with
      | copied hle _ => exact absurd hle (Nat.not_le.mpr hlt)
      | aborted _ hcause h =>
        obtain ⟨part, hpart, rfl⟩ := hcause
        exact ⟨⟨part, hpart, by simp [ObjectCopy.verdict?, hphase]⟩, h.objects, h.upload⟩
      | opening | copying | completing | aborting => simp [ObjectCopy.verdict?, hphase] at hend

/-- Bytes that need a second part of one mebibyte at most. -/
def twoPieces : ByteArray := ⟨Array.replicate mib 1 ++ #[2, 3]⟩

theorem size_twoPieces : twoPieces.size = mib + 2 := by
  simp [twoPieces, ByteArray.size]

theorem transfer_fidelity_two_parts :
    let setup : Setup :=
      { source := { bucket := "from" }
        target := { bucket := "to" }
        options := { multipartThreshold := 1, partSize := mib } }
    let c : ObjectCopy := ⟨⟨"key", mib + 2⟩, none, .comparing⟩
    let w : World :=
      { job := { setup, freeSlots := 1 }
        stores := .separate (({} : Store).write "from" "key" ⟨twoPieces, 0, "", none⟩) {}
        now := 0
        solo := some (c.transfer setup).1 }
    Inevitable World.SoloStep (fun v =>
      v.soloVerdict? = some (.ok (.migrated .multipart (mib + 2))) ∧
      Written w.stores setup c.object twoPieces (some 2) v.stores ∧
      Upload w.stores none v.stores) w := by
  intro setup c w
  have hplan : c.plan? setup =
      some (.ok ⟨mib, [⟨1, 0, mib - 1⟩, ⟨2, mib, mib + 1⟩]⟩) := by
    decide +kernel
  have hsource : (w.stores.get .source).object? "from" "key" =
      some ⟨twoPieces, 0, "", none⟩ := Store.object?_write ..
  have hfaults : ∀ side, (w.stores.get side).faults = [] := by
    intro side
    cases side <;> rfl
  have hends := (transfer_fidelity w c _ rfl (fun _ => rfl) hfaults rfl hsource).2
    (by decide) _ hplan
  have hsize := size_twoPieces.symm
  exact (hends.1 hsize.le).mono fun v h => ⟨h.1, h.2.2.2 hsize, h.2.2.1⟩

end BucketMigration
