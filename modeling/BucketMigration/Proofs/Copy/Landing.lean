import BucketMigration.Proofs.Copy.Advance
import BucketMigration.Proofs.Job.Accounting
import Mathlib.Algebra.Order.BigOperators.Group.List
import Mathlib.Data.List.Perm.Subperm

/-!
# The bytes that a copy lands

A copy in one piece lands all bytes of its object when they have been written, and it has ended then.
A copy in parts lands the bytes of each part when the part has been uploaded. The parts are those of
one layout, each of them is uploaded once, and an upload is only completed when all of them were.
-/

namespace BucketMigration

/-- The errors that a copy in parts may end with after its upload was opened. -/
def MigrationError.isOfParts : MigrationError → Bool
  | storage .. | missingPartETag .. | abortFailed .. => true
  | _ => false

def MigrationError.isHalted : MigrationError → Bool
  | halted .. => true
  | _ => false

/-- A layout of an object that is large enough to be copied in parts. -/
structure Planned (setup : Setup) (object : ObjectDescriptor) (plan : PartPlan) : Prop where
  mode : TransferMode.ofSize object.size setup.options.multipartThreshold = .multipart
  covers : Layout.Covers object.size plan

/-- Some parts of a layout, each of them once. -/
def PartsOf (setup : Setup) (object : ObjectDescriptor) (parts : List PartRange) : Prop :=
  (parts.map PartRange.number).Nodup ∧ ∃ plan, Planned setup object plan ∧ parts ⊆ plan.parts

def AllParts (setup : Setup) (object : ObjectDescriptor) (parts : List PartRange) : Prop :=
  ∃ plan, Planned setup object plan ∧ parts.Perm plan.parts

def byteCount (parts : List PartRange) : Nat :=
  (parts.map fun part => part.range.length).sum

section Parts

variable {setup : Setup} {object : ObjectDescriptor} {parts : List PartRange} {plan : PartPlan}

theorem Planned.byteCount_eq (h : Planned setup object plan) : byteCount plan.parts = object.size := by
  rw [byteCount, h.covers.parts_eq]
  exact Layout.sum_length_parts h.covers.size_pos h.covers.partSize_pos

theorem AllParts.byteCount_eq (h : AllParts setup object parts) : byteCount parts = object.size := by
  obtain ⟨plan, hplan, hperm⟩ := h
  rw [← hplan.byteCount_eq]
  exact (hperm.map _).sum_eq

theorem AllParts.partsOf (h : AllParts setup object parts) : PartsOf setup object parts := by
  obtain ⟨plan, hplan, hperm⟩ := h
  refine ⟨?_, plan, hplan, hperm.subset⟩
  exact ((hperm.map _).nodup_iff).mpr hplan.covers.nodup_number

theorem PartsOf.byteCount_le (h : PartsOf setup object parts) : byteCount parts ≤ object.size := by
  obtain ⟨hnodup, plan, hplan, hsub⟩ := h
  obtain ⟨chosen, hperm, hsublist⟩ := List.subperm_of_subset hnodup.of_map hsub
  rw [← hplan.byteCount_eq]
  calc byteCount parts = byteCount chosen := ((hperm.map _).sum_eq).symm
    _ ≤ byteCount plan.parts := (hsublist.map _).sum_le_sum fun _ _ => Nat.zero_le _

theorem perm_of_numbers (hplan : Planned setup object plan) (hsub : parts ⊆ plan.parts)
    (hperm : (parts.map PartRange.number).Perm (plan.parts.map PartRange.number)) :
    parts.Perm plan.parts := by
  have hn := hplan.covers.nodup_number
  rw [List.perm_ext_iff_of_nodup (hperm.nodup_iff.mpr hn).of_map hn.of_map]
  intro part
  refine ⟨fun hpart => hsub hpart, fun hpart => ?_⟩
  obtain ⟨other, hother, heq⟩ := List.mem_map.mp (hperm.mem_iff.mpr (List.mem_map_of_mem hpart))
  rwa [List.inj_on_of_nodup_map hn (hsub hother) hpart heq] at hother

end Parts

namespace Session

variable {s : Session} {n : Nat}

/-- The numbers of the parts that have been uploaded, in the order in which they were. -/
def landed (s : Session) : List Nat :=
  (s.ended.filter fun e => e.2 matches .uploaded _).map Prod.fst

theorem landed_finish_of_ne (s : Session) (n : Nat) {how : PartEnd}
    (h : ∀ etag, how ≠ .uploaded etag) : (s.finish n how).landed = s.landed := by
  unfold landed finish
  rw [List.filter_append, List.map_append]
  cases how with
  | uploaded etag => exact absurd rfl (h etag)
  | leftOut | failed => exact List.append_nil _

theorem landed_finish_uploaded (s : Session) (n : Nat) (etag : Option String) :
    (s.finish n (.uploaded etag)).landed = s.landed ++ [n] := by
  unfold landed finish
  rw [List.filter_append, List.map_append]
  rfl

/-- A part is uploaded once. -/
theorem nodup_landed (hs : s.begun.Nodup) : s.landed.Nodup :=
  (List.filter_sublist.map Prod.fst).nodup (List.nodup_append.mp hs).2.1

theorem perm_landed (s : Session) : (s.uploaded.map Prod.fst).Perm s.landed := by
  unfold uploaded landed
  refine ((List.mergeSort_perm ..).map Prod.fst).trans (.of_eq ?_)
  induction s.ended with
  | nil => rfl
  | cons e ended ih =>
    obtain ⟨n, how⟩ := e
    cases how with
    | uploaded etag => exact congrArg (n :: ·) ih
    | leftOut | failed => exact ih

end Session

section Landed

variable (setup : Setup) (object : ObjectDescriptor) (opened : Bool) (up : List PartRange)

def Unopened : Prop :=
  opened = false ∧ up = []

/-- The parts of a session that have been uploaded are `up`. -/
structure Session.Lands (s : Session) (plan : PartPlan) : Prop where
  planned : Planned setup object plan
  keeps : s.Keeps plan.parts
  subset : up ⊆ plan.parts
  numbers : up.map PartRange.number = s.landed
  blames : ∀ n e, (n, .failed e) ∈ s.ended → e.isOfParts = true

def LandedAtEnd : Verdict → Prop
  | .ok (.migrated .direct _) | .ok .targetCurrent => Unopened opened up
  | .ok (.migrated .multipart _) => opened = true ∧ AllParts setup object up
  | .error e =>
      Unopened opened up ∨ (opened = true ∧ PartsOf setup object up ∧ e.isOfParts = true)

/-- An upload was opened or not, and the parts `up` have been uploaded. -/
def Phase.Landed : Phase → Prop
  | .opening plan => Unopened opened up ∧ Planned setup object plan
  | .copying s => opened = true ∧ ∃ plan, s.Lands setup object up plan
  | .completing .. => opened = true ∧ AllParts setup object up
  | .aborting _ cause => opened = true ∧ PartsOf setup object up ∧ cause.isOfParts = true
  | .ended v => LandedAtEnd setup object opened up v
  | _ => Unopened opened up

end Landed

def bytesLanded (opened : Bool) (up : List PartRange) (size : Nat) (outcome : Option Verdict) : Nat :=
  if opened then byteCount up
  else
    match outcome with
    | some (.ok (.migrated ..)) => size
    | _ => 0

section

variable {setup : Setup} {object : ObjectDescriptor} {opened : Bool} {up : List PartRange}
  {c : ObjectCopy} {s : Session} {plan : PartPlan} {lane : Lane} {reply : Reply}
  {next : ObjectCopy.Next}

theorem Session.Lands.nodup_number (h : s.Lands setup object up plan) :
    (up.map PartRange.number).Nodup := by
  rw [h.numbers]
  exact Session.nodup_landed (h.keeps.nodup h.planned.covers.nodup_number)

theorem Session.Lands.partsOf (h : s.Lands setup object up plan) : PartsOf setup object up :=
  ⟨h.nodup_number, plan, h.planned, h.subset⟩

theorem Session.Lands.finish (h : s.Lands setup object up plan) {n : Nat} {p : PartCopy}
    (hp : s.active? n = some p) {e : MigrationError} (he : e.isOfParts = true) :
    (s.finish n (.failed e)).Lands setup object up plan where
  planned := h.planned
  keeps := h.keeps.finish h.planned.covers.nodup_number hp (by simp)
  subset := h.subset
  numbers := h.numbers.trans (s.landed_finish_of_ne n (by simp)).symm
  blames := by
    intro m e' hm
    rcases List.mem_append.mp hm with hold | hnew
    · exact h.blames m e' hold
    · simp only [List.mem_singleton, Prod.mk.injEq, PartEnd.failed.injEq] at hnew
      rw [hnew.2]
      exact he

theorem Session.Lands.upload (h : s.Lands setup object up plan) {p : PartCopy}
    (hp : s.active? p.part.number = some p) (etag : Option String) :
    (s.finish p.part.number (.uploaded etag)).Lands setup object (up ++ [p.part]) plan where
  planned := h.planned
  keeps := h.keeps.finish h.planned.covers.nodup_number hp (by simp)
  subset := by
    intro part hpart
    rcases List.mem_append.mp hpart with hold | hnew
    · exact h.subset hold
    · rw [List.mem_singleton.mp hnew]
      exact h.keeps.active p (Session.active?_eq_some hp).1
  numbers := by rw [List.map_append, h.numbers, s.landed_finish_uploaded]; rfl
  blames := by
    intro m e hm
    rcases List.mem_append.mp hm with hold | hnew
    · exact h.blames m e hold
    · simp at hnew

theorem Session.Lands.fill (h : s.Lands setup object up plan) (n : Nat) (data : ByteArray) :
    (s.fill n data).Lands setup object up plan :=
  ⟨h.planned, h.keeps.fill n data, h.subset, h.numbers, h.blames⟩

theorem Session.Lands.begin (h : s.Lands setup object up plan) {part : PartRange}
    {waiting : List PartRange} (hw : s.waiting = part :: waiting) :
    (s.begin part waiting).Lands setup object up plan :=
  ⟨h.planned, h.keeps.begin hw, h.subset, h.numbers, h.blames⟩

theorem Session.Lands.leaveOut (h : s.Lands setup object up plan) {part : PartRange}
    {waiting : List PartRange} (hw : s.waiting = part :: waiting) (hfailed : s.hasFailed = true) :
    (s.leaveOut part waiting).Lands setup object up plan where
  planned := h.planned
  keeps := h.keeps.leaveOut h.planned.covers.nodup_number hw hfailed
  subset := h.subset
  numbers := by
    rw [h.numbers, Session.leaveOut, Session.landed_finish_of_ne _ _ (by simp)]
    rfl
  blames := by
    intro m e hm
    rcases List.mem_append.mp hm with hold | hnew
    · exact h.blames m e hold
    · simp at hnew

theorem bytesLanded_opened (up : List PartRange) (size : Nat) (outcome : Option Verdict) :
    bytesLanded true up size outcome = byteCount up := rfl

namespace ObjectCopy

/-- A step after which `up'` have been uploaded. It lands what has come to that. -/
structure Lands (setup : Setup) (object : ObjectDescriptor) (opened : Bool) (up : List PartRange)
    (opened' : Bool) (up' : List PartRange) (next : Next) : Prop where
  phase : next.1.phase.Landed setup object opened' up'
  bytes : (next.2.map Effect.landed).sum + bytesLanded opened up object.size none =
    bytesLanded opened' up' object.size next.1.verdict?

/-- The part that a reply tells to have been uploaded. -/
def uploads? (c : ObjectCopy) : Lane → Reply → Option PartRange
  | .part n, .ok (.etag _) =>
      match c.phase with
      | .copying s => (s.active? n).bind fun p => p.data.map fun _ => p.part
      | _ => none
  | _, _ => none

/-- Whether a reply tells that an upload was opened. -/
def opensUpload : Lane → Reply → Bool
  | .whole, .ok (.uploadId _) => true
  | _, _ => false

theorem Lands.cons {opened' : Bool} {up' : List PartRange}
    (h : Lands setup object opened up opened' up' next) {e : Effect} (he : e.landed = 0) :
    Lands setup object opened up opened' up' (next.1, e :: next.2) := by
  refine ⟨h.phase, ?_⟩
  rw [List.map_cons, List.sum_cons, he, Nat.zero_add]
  exact h.bytes

theorem lands_go {phase : Phase} (hphase : phase.Landed setup object opened up)
    (hgoes : ∀ v, phase ≠ .ended v) : Lands setup object opened up opened up (c.go phase) := by
  refine ⟨hphase, ?_⟩
  have hnone : (c.go phase).1.verdict? = none := by
    cases phase with
    | ended v => exact absurd rfl (hgoes v)
    | _ => rfl
  rw [hnone]
  exact Nat.zero_add _

theorem lands_fail {e : MigrationError} (h : LandedAtEnd setup object opened up (.error e)) :
    Lands setup object opened up opened up (c.fail e) := by
  refine ⟨h, ?_⟩
  cases opened <;> exact Nat.zero_add _

theorem lands_failCall (key operation : String) (e : StorageError) :
    Lands setup object false [] false [] (c.failCall key operation e) :=
  lands_fail (.inl ⟨rfl, rfl⟩)

theorem lands_transfer (hobject : c.object = object) :
    Lands setup object false [] false [] (c.transfer setup) := by
  subst hobject
  unfold transfer
  split
  · exact lands_go ⟨rfl, rfl⟩ (by simp)
  · rename_i hmode
    unfold transferInParts
    split
    · exact lands_go ⟨rfl, rfl⟩ (by simp)
    · exact lands_fail (.inl ⟨rfl, rfl⟩)
    · rename_i plan hplan
      exact lands_go ⟨⟨rfl, rfl⟩, hmode, Layout.plan?_eq_ok hplan⟩ (by simp)

theorem lands_described (hobject : c.object = object) (attempt : Nat)
    (result : Except StorageError (Option ObjectMetadata)) :
    Lands setup object false [] false [] (c.described setup attempt result) := by
  unfold described
  split
  · dsimp only
    split
    · exact lands_transfer hobject
    · exact lands_go ⟨rfl, rfl⟩ (by simp)
  · exact lands_fail (.inl ⟨rfl, rfl⟩)
  · dsimp only
    split
    · have hgo : Lands setup object false [] false [] (c.go (.pausing attempt)) :=
        lands_go ⟨rfl, rfl⟩ (by simp)
      exact hgo.cons rfl
    · split <;> exact lands_fail (.inl ⟨rfl, rfl⟩)

theorem lands_compared (hobject : c.object = object)
    (result : Except StorageError (Option ObjectMetadata)) :
    Lands setup object false [] false [] (c.compared setup result) := by
  unfold compared
  split
  · exact lands_failCall ..
  · split
    · exact ⟨⟨rfl, rfl⟩, rfl⟩
    · exact lands_transfer hobject

theorem lands_abort {id : String} {cause : MigrationError} (hup : PartsOf setup object up)
    (hcause : cause.isOfParts = true) :
    Lands setup object true up true up (c.abort setup id cause) := by
  have hgo : Lands setup object true up true up (c.go (.aborting id cause)) :=
    lands_go ⟨rfl, hup, hcause⟩ (by simp)
  exact hgo.cons rfl

theorem allParts_of_outcome {targetKey : String} {ps : List CompletedPart}
    (h : s.Lands setup object up plan) (hover : s.isOver = true)
    (houtcome : s.outcome targetKey = .ok ps) : AllParts setup object up := by
  unfold Session.outcome at houtcome
  split at houtcome
  · cases houtcome
  · rename_i hfailure
    refine ⟨plan, h.planned, perm_of_numbers h.planned h.subset ?_⟩
    rw [h.numbers, ← h.keeps.map_fst_uploaded h.planned.covers.pairwise_number hover hfailure]
    exact s.perm_landed.symm

theorem lands_settle (h : s.Lands setup object up plan) :
    Lands setup object true up true up (c.settle setup s) := by
  cases hover : s.isOver with
  | false =>
    rw [c.settle_of_isOver_eq_false setup hover]
    exact lands_go ⟨rfl, plan, h⟩ (by simp)
  | true =>
    cases houtcome : s.outcome (c.targetKey setup) with
    | ok ps =>
      rw [c.settle_of_outcome_eq_ok setup hover houtcome]
      exact lands_go ⟨rfl, allParts_of_outcome h hover houtcome⟩ (by simp)
    | error cause =>
      rw [c.settle_of_outcome_eq_error setup hover houtcome]
      apply lands_abort h.partsOf
      rcases Session.outcome_eq_error houtcome with hfailure | ⟨-, n, -, rfl⟩
      · obtain ⟨⟨n, how⟩, hended, hhow⟩ := List.exists_of_findSome?_eq_some hfailure
        cases how with
        | failed e =>
          cases hhow
          exact h.blames n _ hended
        | uploaded | leftOut => cases hhow
      · rfl

theorem opensUpload_eq_false (hnext : c.resume setup lane reply = some next)
    (hphase : ∀ plan, c.phase ≠ .opening plan) : opensUpload lane reply = false := by
  cases lane with
  | part n => rfl
  | whole =>
    unfold resume at hnext
    unfold opensUpload
    split
    · split at hnext <;> simp_all [Reply.metadata?, Reply.content?, Reply.done?]
    · rfl

theorem uploads?_eq_none (c : ObjectCopy) (hphase : ∀ s, c.phase ≠ .copying s) :
    c.uploads? lane reply = none := by
  unfold uploads?
  split
  · split
    · rename_i s hs
      exact absurd hs (hphase s)
    · rfl
  · rfl

theorem lands_copying (hphase : c.phase = .copying s) (hc : s.Lands setup object up plan)
    (h : c.resume setup lane reply = some next) :
    Lands setup object true up true (up ++ (c.uploads? lane reply).toList) next := by
  obtain ⟨p, hp, rfl, hcases⟩ := resume_copying hphase h
  have hnone : c.uploads? (.part p.part.number) reply = none →
      up ++ (c.uploads? (.part p.part.number) reply).toList = up := by
    intro hnone
    rw [hnone, Option.toList_none, List.append_nil]
  rcases hcases with ⟨-, e, rfl, rfl⟩ | ⟨-, data, rfl, rfl⟩ | ⟨data, -, e, rfl, rfl⟩ |
    ⟨data, hdata, etag, rfl, rfl⟩
  · rw [hnone rfl]
    exact lands_settle (hc.finish hp rfl)
  · rw [hnone rfl]
    exact lands_go ⟨rfl, plan, hc.fill p.part.number data⟩ (by simp)
  · rw [hnone rfl]
    exact lands_settle (hc.finish hp rfl)
  · have huploads : c.uploads? (.part p.part.number) (.ok (.etag etag)) = some p.part := by
      simp only [uploads?, hphase, hp, Option.bind_some, hdata, Option.map_some]
    rw [huploads, Option.toList_some]
    have hsettle : Lands setup object true (up ++ [p.part]) true (up ++ [p.part])
        (c.settle setup (s.finish p.part.number (.uploaded etag))) :=
      lands_settle (hc.upload hp etag)
    refine ⟨hsettle.phase, ?_⟩
    have hbytes := hsettle.bytes
    rw [bytesLanded_opened, bytesLanded_opened, byteCount, List.map_append, List.sum_append] at hbytes
    rw [bytesLanded_opened, bytesLanded_opened, byteCount, byteCount, List.map_append, List.sum_append]
    simp only [partWritten, List.map_cons, List.map_nil, List.sum_cons, List.sum_nil, Effect.landed,
      note] at hbytes ⊢
    omega

theorem lands_opening (hphase : c.phase = .opening plan) (hplan : Planned setup object plan)
    (h : c.resume setup lane reply = some next) :
    Lands setup object false [] (opensUpload lane reply) [] next := by
  obtain ⟨rfl, ⟨e, rfl, rfl⟩ | ⟨id, rfl, rfl⟩⟩ := resume_opening hphase h
  · exact lands_failCall ..
  · have hnew : Session.Lands setup object [] { uploadId := id, waiting := plan.parts } plan :=
      ⟨hplan, .new id, List.nil_subset _, rfl, by simp⟩
    have hsettle := lands_settle (c := c) hnew
    have hopened : Lands setup object true [] true [] (c.opened setup plan (.ok id)) := hsettle.cons rfl
    exact ⟨hopened.phase, hopened.bytes⟩

/-- A reply lands what it tells to have come to the target. -/
theorem lands_resume (hobject : c.object = object) (hc : c.phase.Landed setup object opened up)
    (h : c.resume setup lane reply = some next) :
    Lands setup object opened up (opened || opensUpload lane reply)
      (up ++ (c.uploads? lane reply).toList) next := by
  have hstill : (∀ plan, c.phase ≠ .opening plan) → (∀ s, c.phase ≠ .copying s) →
      Lands setup object opened up opened up next → Lands setup object opened up
        (opened || opensUpload lane reply) (up ++ (c.uploads? lane reply).toList) next := by
    intro hopening hcopying hlands
    rw [opensUpload_eq_false h hopening, uploads?_eq_none c hcopying, Bool.or_false,
      Option.toList_none, List.append_nil]
    exact hlands
  cases hphase : c.phase with
  | copying s =>
    rw [hphase] at hc
    obtain ⟨rfl, plan, hs⟩ := hc
    exact lands_copying hphase hs h
  | opening plan =>
    rw [hphase] at hc
    obtain ⟨⟨rfl, rfl⟩, hplan⟩ := hc
    rw [uploads?_eq_none c (by simp [hphase])]
    exact lands_opening hphase hplan h
  | describing attempt =>
    rw [hphase] at hc
    obtain ⟨rfl, rfl⟩ := hc
    obtain ⟨-, result, -, rfl⟩ := resume_describing hphase h
    exact hstill (by simp [hphase]) (by simp [hphase]) (lands_described hobject attempt result)
  | comparing =>
    rw [hphase] at hc
    obtain ⟨rfl, rfl⟩ := hc
    obtain ⟨-, result, -, rfl⟩ := resume_comparing hphase h
    exact hstill (by simp [hphase]) (by simp [hphase]) (lands_compared hobject result)
  | reading =>
    rw [hphase] at hc
    obtain ⟨rfl, rfl⟩ := hc
    apply hstill (by simp [hphase]) (by simp [hphase])
    obtain ⟨-, ⟨e, -, rfl⟩ | ⟨data, -, rfl⟩⟩ := resume_reading hphase h
    · exact lands_failCall ..
    · exact lands_go ⟨rfl, rfl⟩ (by simp)
  | writing data =>
    rw [hphase] at hc
    obtain ⟨rfl, rfl⟩ := hc
    apply hstill (by simp [hphase]) (by simp [hphase])
    obtain ⟨-, ⟨e, -, rfl⟩ | ⟨-, rfl⟩⟩ := resume_writing hphase h
    · exact lands_failCall ..
    · exact ⟨⟨rfl, rfl⟩, congrArg ObjectDescriptor.size hobject⟩
  | completing id ps =>
    rw [hphase] at hc
    obtain ⟨rfl, hall⟩ := hc
    apply hstill (by simp [hphase]) (by simp [hphase])
    obtain ⟨-, ⟨e, -, rfl⟩ | ⟨-, rfl⟩⟩ := resume_completing hphase h
    · exact lands_abort hall.partsOf rfl
    · exact ⟨⟨rfl, hall⟩, Nat.zero_add _⟩
  | aborting id cause =>
    rw [hphase] at hc
    obtain ⟨rfl, hup, hcause⟩ := hc
    apply hstill (by simp [hphase]) (by simp [hphase])
    obtain ⟨-, ⟨e, -, rfl⟩ | ⟨-, rfl⟩⟩ := resume_aborting hphase h
    · exact lands_fail (.inr ⟨rfl, hup, rfl⟩)
    · exact lands_fail (.inr ⟨rfl, hup, hcause⟩)
  | pausing | ended | overflowed =>
    unfold resume at h
    rw [hphase] at h
    cases lane <;> cases h

theorem lands_wake (hc : c.phase.Landed setup object opened up) (h : c.wake = some next) :
    Lands setup object opened up opened up next := by
  unfold wake at h
  split at h
  · rename_i attempt hphase
    cases h
    rw [hphase] at hc
    exact lands_go hc (by simp)
  · cases h

theorem lands_startPart (hc : c.phase.Landed setup object opened up)
    (h : c.startPart setup = some next) : Lands setup object opened up opened up next := by
  obtain ⟨s, part, waiting, hphase, hw, -, hcases⟩ := startPart_eq_some h
  rw [hphase] at hc
  obtain ⟨rfl, plan, hs⟩ := hc
  rcases hcases with ⟨hfailed, rfl⟩ | ⟨-, rfl⟩
  · exact lands_settle (hs.leaveOut hw hfailed)
  · exact lands_go ⟨rfl, plan, hs.begin hw⟩ (by simp)

theorem lands_start (setup : Setup) (object : ObjectDescriptor) :
    Lands setup object false [] false [] (start setup object) := by
  unfold start
  dsimp only
  split
  · exact lands_fail (.inl ⟨rfl, rfl⟩)
  · split
    · exact ⟨.inl ⟨rfl, rfl⟩, rfl⟩
    · exact ⟨⟨rfl, rfl⟩, rfl⟩

theorem lands_refuse (setup : Setup) (object : ObjectDescriptor) (cause : MigrationError) :
    Lands setup object false [] false [] (refuse object cause) :=
  ⟨.inl ⟨rfl, rfl⟩, rfl⟩

theorem unopened_or_partsOf (hc : c.phase.Landed setup object opened up) (hnone : c.verdict? = none) :
    Unopened opened up ∨ (opened = true ∧ PartsOf setup object up) := by
  cases hphase : c.phase with
  | ended v =>
    rw [verdict?_of_ended hphase] at hnone
    cases hnone
  | copying s =>
    rw [hphase] at hc
    obtain ⟨hopened, plan, hs⟩ := hc
    exact .inr ⟨hopened, hs.partsOf⟩
  | completing id ps =>
    rw [hphase] at hc
    exact .inr ⟨hc.1, hc.2.partsOf⟩
  | aborting id cause =>
    rw [hphase] at hc
    exact .inr ⟨hc.1, hc.2.1⟩
  | opening plan =>
    rw [hphase] at hc
    exact .inl hc.1
  | describing | pausing | comparing | reading | writing | overflowed =>
    rw [hphase] at hc
    exact .inl hc

end ObjectCopy

end

end BucketMigration
