import BucketMigration.Proofs.Copy.Protocol
import BucketMigration.Proofs.Copy.Verdict

/-!
# Transfers

How the bytes of an object are moved, once it is decided that they are: in one piece, read once and
then written once, or in parts. `TransferStory` tells what has happened in a transfer by its phase, and
`Transfer` says which calls it makes and what it ends with.
-/

namespace BucketMigration

open Conversation (calls laneEvents)

/-- A call about the object as a whole and the reply to it, with what was before. -/
def exchange (call : Call) (reply : Reply) (before : List CopyEvent) : List CopyEvent :=
  .answered .whole call reply :: .called .whole call :: before

/-- The size of an object that travels in parts, or the reason why it cannot. -/
def partPlan? (setup : Setup) (object : ObjectDescriptor) (metadata : ObjectMetadata) :
    Option (Except PartPlanError PartPlan) :=
  Layout.plan? object.size metadata.partsCount setup.options.partSizing

def transferMode (setup : Setup) (object : ObjectDescriptor) : TransferMode :=
  if setup.options.multipartThreshold ≤ object.size then .multipart else .direct

namespace Conversation

variable {setup : Setup} {v w : Conversation}

theorem Step.verdict?_eq_none (h : Step setup v w) : v.copy.verdict? = none := by
  unfold ObjectCopy.verdict?
  split
  · rename_i verdict hphase
    cases h with
    | call hcall _ => simp [ObjectCopy.call?_ended hphase] at hcall
    | answer _ hcall _ => simp [ObjectCopy.call?_ended hphase] at hcall
    | startPart hcopying _ _ => simp [hphase] at hcopying
    | wake hnext => simp [ObjectCopy.wake, hphase] at hnext
  · rfl

theorem Step.of_asks {call : Call} {before : List CopyEvent} (hasks : v.copy.Asks setup call)
    (hdue : Due call v.pending v.events before) (h : Step setup v w) :
    (w.copy = v.copy ∧ Due call w.pending w.events before) ∨
      ∃ reply next, v.copy.resume setup .whole reply = some next ∧
        w = ⟨next.1, [], exchange call reply before⟩ := by
  cases h with
  | @call lane called hcall hfree =>
    cases lane with
    | part n => simp [ObjectCopy.call?_part_of_ne hasks.phase_ne] at hcall
    | whole =>
      obtain rfl : call = called := Option.some.inj (hasks.call?.symm.trans hcall)
      exact .inl ⟨rfl, hdue.called hfree⟩
  | @answer lane called reply next hpending hcall hnext =>
    cases lane with
    | part n => simp [ObjectCopy.call?_part_of_ne hasks.phase_ne] at hcall
    | whole =>
      obtain rfl : call = called := Option.some.inj (hasks.call?.symm.trans hcall)
      obtain ⟨hpending', hevents⟩ := hdue.of_mem hpending
      refine .inr ⟨reply, next, hnext, ?_⟩
      rw [hpending', hevents]
      rfl
  | startPart hphase _ _ => exact absurd hphase (hasks.phase_ne _)
  | wake hnext => simp [hasks.wake] at hnext

end Conversation

section Story

variable (setup : Setup) (object : ObjectDescriptor)

/-- The events of a copy in one piece, the newest first, by its phase. -/
inductive WholeStory : Phase → List Lane → List CopyEvent → Prop
  | reading {pending : List Lane} {events : List CopyEvent}
      (hdue : Due (getCall setup object) pending events []) : WholeStory .reading pending events
  | unread (e : StorageError) :
      WholeStory (.ended (.error (.storage object.key "get object" e))) []
        (exchange (getCall setup object) (.error e) [])
  | writing (data : ByteArray) {pending : List Lane} {events : List CopyEvent}
      (hdue : Due (putCall setup object data) pending events
        (exchange (getCall setup object) (.ok (.content data)) [])) :
      WholeStory (.writing data) pending events
  | unwritten (data : ByteArray) (e : StorageError) :
      WholeStory (.ended (.error (.storage (setup.targetKey object.key) "put object" e))) []
        (exchange (putCall setup object data) (.error e)
          (exchange (getCall setup object) (.ok (.content data)) []))
  | written (data : ByteArray) :
      WholeStory (.ended (.ok (.migrated .direct object.size))) []
        (exchange (putCall setup object data) (.ok .done)
          (exchange (getCall setup object) (.ok (.content data)) []))

/-- The events of a transfer, the newest first, by its phase. -/
inductive TransferStory (metadata : ObjectMetadata) : Phase → List Lane → List CopyEvent → Prop
  | whole (hmode : transferMode setup object = .direct) {phase : Phase} {pending : List Lane}
      {events : List CopyEvent} (h : WholeStory setup object phase pending events) :
      TransferStory metadata phase pending events
  | parts (hmode : transferMode setup object = .multipart) {plan : PartPlan}
      (hplan : partPlan? setup object metadata = some (.ok plan)) {phase : Phase}
      {pending : List Lane} {events : List CopyEvent}
      (h : Chronicle setup object plan phase pending events) :
      TransferStory metadata phase pending events
  | unplanned (hmode : transferMode setup object = .multipart) {e : PartPlanError}
      (hplan : partPlan? setup object metadata = some (.error e)) :
      TransferStory metadata (.ended (.error (.partPlan object.key e))) [] []
  | overflowed (hmode : transferMode setup object = .multipart)
      (hplan : partPlan? setup object metadata = none) : TransferStory metadata .overflowed [] []

end Story

section Step

variable {setup : Setup} {object : ObjectDescriptor} {metadata : ObjectMetadata}
  {v w : Conversation}

theorem WholeStory.step (hobject : v.copy.object = object)
    (h : WholeStory setup object v.copy.phase v.pending v.events)
    (hstep : Conversation.Step setup v w) :
    w.copy.object = object ∧ WholeStory setup object w.copy.phase w.pending w.events := by
  subst hobject
  have hnone := hstep.verdict?_eq_none
  generalize hphase : v.copy.phase = phase at h
  generalize hpending : v.pending = pending at h
  generalize hevents : v.events = events at h
  cases h with
  | reading hdue =>
    subst hpending hevents
    rcases hstep.of_asks (ObjectCopy.asks_reading hphase) hdue with
      ⟨hcopy, hdue⟩ | ⟨reply, next, hnext, rfl⟩
    · rw [hcopy, hphase]
      exact ⟨rfl, .reading hdue⟩
    · rcases (ObjectCopy.resume_reading hphase hnext).2 with ⟨e, rfl, rfl⟩ | ⟨data, rfl, rfl⟩
      · exact ⟨rfl, .unread e⟩
      · exact ⟨rfl, .writing data (.inl ⟨rfl, rfl⟩)⟩
  | writing data hdue =>
    subst hpending hevents
    rcases hstep.of_asks (ObjectCopy.asks_writing hphase) hdue with
      ⟨hcopy, hdue⟩ | ⟨reply, next, hnext, rfl⟩
    · rw [hcopy, hphase]
      exact ⟨rfl, .writing data hdue⟩
    · rcases (ObjectCopy.resume_writing hphase hnext).2 with ⟨e, rfl, rfl⟩ | ⟨rfl, rfl⟩
      · exact ⟨rfl, .unwritten data e⟩
      · exact ⟨rfl, .written data⟩
  | unread | unwritten | written => simp [ObjectCopy.verdict?, hphase] at hnone

theorem TransferStory.step (hobject : v.copy.object = object)
    (h : TransferStory setup object metadata v.copy.phase v.pending v.events)
    (hstep : Conversation.Step setup v w) :
    w.copy.object = object ∧
      TransferStory setup object metadata w.copy.phase w.pending w.events := by
  have hnone := hstep.verdict?_eq_none
  generalize hphase : v.copy.phase = phase at h
  generalize hpending : v.pending = pending at h
  generalize hevents : v.events = events at h
  cases h with
  | whole hmode h =>
    subst hphase hpending hevents
    obtain ⟨hobject, h⟩ := h.step hobject hstep
    exact ⟨hobject, .whole hmode h⟩
  | parts hmode hplan h =>
    subst hphase hpending hevents
    obtain ⟨hobject, h⟩ := Told.step (Layout.plan?_eq_ok hplan).nodup_number ⟨hobject, h⟩ hstep
    exact ⟨hobject, .parts hmode hplan h⟩
  | unplanned => simp [ObjectCopy.verdict?, hphase] at hnone
  | overflowed =>
    cases hstep with
    | call hcall _ => simp [ObjectCopy.call?_overflowed hphase] at hcall
    | answer _ hcall _ => simp [ObjectCopy.call?_overflowed hphase] at hcall
    | startPart hcopying _ _ => simp [hphase] at hcopying
    | wake hnext => simp [ObjectCopy.wake, hphase] at hnext

theorem transferStory_transfer {c : ObjectCopy} (hobject : c.object = object)
    (hmetadata : c.metadata = some metadata) :
    TransferStory setup object metadata (c.transfer setup).1.phase [] [] := by
  subst hobject
  have hplan : c.plan? setup = partPlan? setup c.object metadata := by
    simp only [ObjectCopy.plan?, hmetadata, Option.bind_some, partPlan?]
  have hmode : transferMode setup c.object =
      .ofSize c.object.size setup.options.multipartThreshold := rfl
  unfold ObjectCopy.transfer
  rw [← hmode]
  cases hdirect : transferMode setup c.object with
  | direct => exact .whole hdirect (.reading (.inl ⟨rfl, rfl⟩))
  | multipart =>
    dsimp only
    unfold ObjectCopy.transferInParts
    rw [hplan]
    split
    · exact .overflowed hdirect ‹_›
    · exact .unplanned hdirect ‹_›
    · exact .parts hdirect ‹_› (.opening (.inl ⟨rfl, rfl⟩))

end Step

section Spec

variable (setup : Setup) (object : ObjectDescriptor)

/-- What a copy in one piece does: the object is read once and then written once, if at all, with what
was read. -/
structure WholeProtocol (events : List CopyEvent) : Prop where
  lanes : ∀ e ∈ events, e.lane = .whole
  calls : calls events .whole = [] ∨ calls events .whole = [getCall setup object] ∨ ∃ data,
    .answered .whole (getCall setup object) (.ok (.content data)) ∈ events ∧
    calls events .whole = [getCall setup object, putCall setup object data]

/-- Whether a transfer has succeeded, or else what it has failed with. -/
inductive TransferResult (metadata : ObjectMetadata) (events : List CopyEvent) :
    TransferMode → Except MigrationError Unit → Prop
  | written {data : ByteArray}
      (hdone : .answered .whole (putCall setup object data) (.ok .done) ∈ events) :
      TransferResult metadata events .direct (.ok ())
  | unread {e : StorageError} (hfailed : .answered .whole (getCall setup object) (.error e) ∈ events) :
      TransferResult metadata events .direct (.error (.storage object.key "get object" e))
  | unwritten {data : ByteArray} {e : StorageError}
      (hfailed : .answered .whole (putCall setup object data) (.error e) ∈ events) :
      TransferResult metadata events .direct
        (.error (.storage (setup.targetKey object.key) "put object" e))
  | completed {id : String} {ps : List CompletedPart}
      (hdone : .answered .whole (completeCall setup object id ps) (.ok .done) ∈ events) :
      TransferResult metadata events .multipart (.ok ())
  | unplanned {e : PartPlanError} (hplan : partPlan? setup object metadata = some (.error e)) :
      TransferResult metadata events .multipart (.error (.partPlan object.key e))
  | unopened {e : StorageError}
      (hfailed : .answered .whole (createCall setup object) (.error e) ∈ events) :
      TransferResult metadata events .multipart
        (.error (.storage (setup.targetKey object.key) "create multipart upload" e))
  | aborted {plan : PartPlan} {id : String} {cause : MigrationError}
      (hcause : Cause setup object plan id events cause)
      (hdone : .answered .whole (abortCall setup object id) (.ok .done) ∈ events) :
      TransferResult metadata events .multipart (.error cause)
  | orphaned {plan : PartPlan} {id : String} {cause : MigrationError} {e : StorageError}
      (hcause : Cause setup object plan id events cause)
      (hfailed : .answered .whole (abortCall setup object id) (.error e) ∈ events) :
      TransferResult metadata events .multipart
        (.error (.abortFailed (setup.targetKey object.key) id e cause))

/-- One transfer, of which everything that has happened in a conversation is part. -/
structure Transfer (metadata : ObjectMetadata) (v : Conversation) : Prop where
  whole : object.size < setup.options.multipartThreshold → WholeProtocol setup object v.events
  parts : setup.options.multipartThreshold ≤ object.size →
    ∀ plan, partPlan? setup object metadata = some (.ok plan) → SessionProtocol setup object plan v
  /-- An object that cannot be laid out is not touched. -/
  unplanned : setup.options.multipartThreshold ≤ object.size →
    (∀ plan, partPlan? setup object metadata ≠ some (.ok plan)) → v.events = []
  /-- The copy ends with the result of the transfer. -/
  ends : ∀ verdict, v.copy.verdict? = some verdict →
    ∃ result, TransferResult setup object metadata v.events (transferMode setup object) result ∧
      verdict = result.map fun _ => .migrated (transferMode setup object) object.size
  succeeds : TransferResult setup object metadata v.events (transferMode setup object) (.ok ()) →
    v.copy.verdict? = some (.ok (.migrated (transferMode setup object) object.size))
  overflowed : v.copy.phase = .overflowed →
    setup.options.multipartThreshold ≤ object.size ∧ partPlan? setup object metadata = none

end Spec

section Spec

variable {setup : Setup} {object : ObjectDescriptor} {metadata : ObjectMetadata} {plan : PartPlan}

theorem WholeStory.protocol {phase : Phase} {pending : List Lane} {events : List CopyEvent}
    (h : WholeStory setup object phase pending events) : WholeProtocol setup object events := by
  cases h with
  | reading hdue =>
    rcases hdue with ⟨-, rfl⟩ | ⟨-, rfl⟩
    · exact ⟨by simp, .inl rfl⟩
    · exact ⟨by simp [CopyEvent.lane], .inr (.inl (by simp [calls]))⟩
  | unread e => exact ⟨by simp [exchange, CopyEvent.lane], .inr (.inl (by simp [exchange, calls]))⟩
  | writing data hdue =>
    rcases hdue with ⟨-, rfl⟩ | ⟨-, rfl⟩
    · exact ⟨by simp [exchange, CopyEvent.lane], .inr (.inl (by simp [exchange, calls]))⟩
    · exact ⟨by simp [exchange, CopyEvent.lane],
        .inr (.inr ⟨data, by simp [exchange], by simp [exchange, calls]⟩)⟩
  | unwritten data | written data =>
    exact ⟨by simp [exchange, CopyEvent.lane],
      .inr (.inr ⟨data, by simp [exchange], by simp [exchange, calls]⟩)⟩

theorem WholeStory.ends {verdict : Verdict} {pending : List Lane} {events : List CopyEvent}
    (h : WholeStory setup object (.ended verdict) pending events) :
    ∃ result, TransferResult setup object metadata events .direct result ∧
      verdict = result.map fun _ => .migrated .direct object.size := by
  cases h with
  | unread e => exact ⟨_, .unread List.mem_cons_self, rfl⟩
  | unwritten data e => exact ⟨_, .unwritten List.mem_cons_self, rfl⟩
  | written data => exact ⟨_, .written List.mem_cons_self, rfl⟩

theorem WholeStory.phase_eq {phase : Phase} {pending : List Lane} {events : List CopyEvent}
    (h : WholeStory setup object phase pending events) {data : ByteArray}
    (hdone : .answered .whole (putCall setup object data) (.ok .done) ∈ events) :
    phase = .ended (.ok (.migrated .direct object.size)) := by
  cases h with
  | written => rfl
  | reading hdue => rcases hdue with ⟨-, rfl⟩ | ⟨-, rfl⟩ <;> simp at hdone
  | unread => simp [exchange, getCall, putCall] at hdone
  | writing _ hdue =>
    rcases hdue with ⟨-, rfl⟩ | ⟨-, rfl⟩ <;> simp [exchange, getCall, putCall] at hdone
  | unwritten => simp [exchange, getCall, putCall] at hdone

theorem Resolution.transferResult {id : String} {events : List CopyEvent} {verdict : Verdict}
    (h : Resolution setup object plan id events verdict) :
    ∃ result, TransferResult setup object metadata events .multipart result ∧
      verdict = result.map fun _ => .migrated .multipart object.size := by
  cases h with
  | completed hdone _ => exact ⟨_, .completed hdone, rfl⟩
  | aborted hcause hdone => exact ⟨_, .aborted hcause hdone, rfl⟩
  | orphaned hcause hfailed => exact ⟨_, .orphaned hcause hfailed, rfl⟩

theorem SessionHistory.not_mem_completed {s : Session} {pending : List Lane}
    {body : List CopyEvent} (h : SessionHistory setup object plan.parts s pending body) (id : String)
    (ps : List CompletedPart) :
    .answered .whole (completeCall setup object id ps) (.ok .done) ∉
      body ++ openedEvents setup object s.uploadId := by
  rw [List.mem_append, not_or]
  refine ⟨fun hmem => h.lane_ne_whole _ hmem rfl, ?_⟩
  simp [openedEvents, completeCall, createCall]

theorem Blame.not_mem_completed {s : Session} {since : List CopyEvent} {cause : MigrationError}
    (h : Blame setup object s since cause) (id : String) (ps : List CompletedPart) :
    .answered .whole (completeCall setup object id ps) (.ok .done) ∉ since := by
  cases h <;> simp

theorem Chronicle.phase_eq {phase : Phase} {pending : List Lane} {events : List CopyEvent}
    (h : Chronicle setup object plan phase pending events) {id : String} {ps : List CompletedPart}
    (hdone : .answered .whole (completeCall setup object id ps) (.ok .done) ∈ events) :
    phase = .ended (.ok (.migrated .multipart object.size)) := by
  cases h with
  | completed => rfl
  | opening hdue => rcases hdue with ⟨-, rfl⟩ | ⟨-, rfl⟩ <;> simp at hdone
  | unopened => simp at hdone
  | copying h => exact absurd hdone (h.not_mem_completed id ps)
  | completing h _ _ hdue =>
    rcases hdue with ⟨-, rfl⟩ | ⟨-, rfl⟩
    · exact absurd hdone (h.not_mem_completed id ps)
    · exact absurd (List.mem_of_ne_of_mem (by simp) hdone) (h.not_mem_completed id ps)
  | aborting h _ hblame hdue =>
    have hsince := List.not_mem_append (hblame.not_mem_completed id ps) (h.not_mem_completed id ps)
    rcases hdue with ⟨-, rfl⟩ | ⟨-, rfl⟩
    · exact absurd hdone hsince
    · exact absurd (List.mem_of_ne_of_mem (by simp) hdone) hsince
  | aborted h _ hblame | orphaned h _ hblame =>
    have hsince := List.not_mem_append (hblame.not_mem_completed id ps) (h.not_mem_completed id ps)
    have hdone := List.mem_of_ne_of_mem (by simp [completeCall, abortCall]) hdone
    exact absurd (List.mem_of_ne_of_mem (by simp) hdone) hsince

theorem transferMode_eq_direct_iff :
    transferMode setup object = .direct ↔ object.size < setup.options.multipartThreshold := by
  rw [transferMode]
  split <;> simp <;> omega

theorem transferMode_eq_multipart_iff :
    transferMode setup object = .multipart ↔ setup.options.multipartThreshold ≤ object.size :=
  TransferMode.ofSize_eq_multipart_iff

theorem WholeStory.transfer {v : Conversation} (hmode : transferMode setup object = .direct)
    (h : WholeStory setup object v.copy.phase v.pending v.events) :
    Transfer setup object metadata v := by
  have hsize := transferMode_eq_direct_iff.mp hmode
  refine ⟨fun _ => h.protocol, fun hle => absurd hle (by omega), fun hle => absurd hle (by omega),
    ?_, ?_, ?_⟩
  · intro verdict hverdict
    rw [hmode]
    rw [ObjectCopy.phase_of_verdict? hverdict] at h
    exact h.ends
  · intro hresult
    rw [hmode] at hresult ⊢
    cases hresult with
    | written hdone => exact ObjectCopy.verdict?_of_ended (h.phase_eq hdone)
  · intro hflow
    rw [hflow] at h
    cases h

theorem Chronicle.transfer {v : Conversation} (hobject : v.copy.object = object)
    (hmode : transferMode setup object = .multipart)
    (hplan : partPlan? setup object metadata = some (.ok plan))
    (h : Chronicle setup object plan v.copy.phase v.pending v.events) :
    Transfer setup object metadata v := by
  have hsize := transferMode_eq_multipart_iff.mp hmode
  have hcovers := Layout.plan?_eq_ok hplan
  refine ⟨fun hlt => absurd hlt (by omega), ?_, fun _ hnone => absurd hplan (hnone plan), ?_, ?_, ?_⟩
  · intro _ plan' hplan'
    obtain rfl : plan = plan' := by
      rw [hplan] at hplan'
      exact Except.ok.inj (Option.some.inj hplan')
    exact Told.protocol ⟨hobject, h⟩ hcovers.map_number
  · intro verdict hverdict
    rw [hmode]
    rw [ObjectCopy.phase_of_verdict? hverdict] at h
    rcases h.ends hcovers.nodup_number with ⟨e, hfailed, rfl⟩ | ⟨id, -, hresolution⟩
    · exact ⟨_, .unopened hfailed, rfl⟩
    · exact hresolution.transferResult
  · intro hresult
    rw [hmode] at hresult ⊢
    cases hresult with
    | completed hdone => exact ObjectCopy.verdict?_of_ended (h.phase_eq hdone)
  · intro hflow
    rw [hflow] at h
    cases h

theorem Transfer.of_not_planned {v : Conversation} (hmode : transferMode setup object = .multipart)
    (hnone : ∀ plan, partPlan? setup object metadata ≠ some (.ok plan)) (hevents : v.events = [])
    (hends : ∀ verdict, v.copy.verdict? = some verdict →
      ∃ e, partPlan? setup object metadata = some (.error e) ∧
        verdict = .error (.partPlan object.key e))
    (hflow : v.copy.phase = .overflowed → partPlan? setup object metadata = none) :
    Transfer setup object metadata v := by
  have hsize := transferMode_eq_multipart_iff.mp hmode
  refine ⟨fun hlt => absurd hlt (by omega), fun _ plan hplan => absurd hplan (hnone plan),
    fun _ _ => hevents, ?_, ?_, fun hphase => ⟨hsize, hflow hphase⟩⟩
  · intro verdict hverdict
    obtain ⟨e, hplan, rfl⟩ := hends verdict hverdict
    rw [hmode]
    exact ⟨_, .unplanned hplan, rfl⟩
  · intro hresult
    rw [hmode, hevents] at hresult
    cases hresult with
    | completed hdone => cases hdone

theorem TransferStory.transfer {v : Conversation} (hobject : v.copy.object = object)
    (h : TransferStory setup object metadata v.copy.phase v.pending v.events) :
    Transfer setup object metadata v := by
  generalize hphase : v.copy.phase = phase at h
  generalize hpending : v.pending = pending at h
  generalize hevents : v.events = events at h
  cases h with
  | whole hmode h =>
    subst hphase hpending hevents
    exact h.transfer hmode
  | parts hmode hplan h =>
    subst hphase hpending hevents
    exact h.transfer hobject hmode hplan
  | unplanned hmode hplan =>
    refine .of_not_planned hmode (by simp [hplan]) hevents ?_ (by simp [hphase])
    intro verdict hverdict
    rw [ObjectCopy.verdict?_of_ended hphase] at hverdict
    exact ⟨_, hplan, (Option.some.inj hverdict).symm⟩
  | overflowed hmode hplan =>
    refine .of_not_planned hmode (by simp [hplan]) hevents ?_ (fun _ => hplan)
    intro verdict hverdict
    simp [ObjectCopy.verdict?, hphase] at hverdict

def MigrationError.IsTransfer : MigrationError → Prop
  | storage .. | missingPartETag .. | partPlan .. | abortFailed .. => True
  | _ => False

theorem Cause.isTransfer {id : String} {events : List CopyEvent} {cause : MigrationError}
    (h : Cause setup object plan id events cause) : cause.IsTransfer := by
  cases h with
  | failed hfirst =>
    obtain ⟨e, -, hfailure⟩ := List.exists_of_findSome?_eq_some hfirst
    unfold CopyEvent.failure? at hfailure
    split at hfailure
    · cases hfailure
      trivial
    · cases hfailure
  | unnamed | incomplete => trivial

theorem TransferResult.isTransfer {events : List CopyEvent} {mode : TransferMode}
    {e : MigrationError} (h : TransferResult setup object metadata events mode (.error e)) :
    e.IsTransfer := by
  cases h with
  | aborted hcause _ => exact hcause.isTransfer
  | _ => trivial

theorem Transfer.isTransfer {v : Conversation} (h : Transfer setup object metadata v)
    {e : MigrationError} (hverdict : v.copy.verdict? = some (.error e)) : e.IsTransfer := by
  obtain ⟨result, hresult, heq⟩ := h.ends _ hverdict
  cases result with
  | ok => cases heq
  | error e' =>
    cases heq
    exact hresult.isTransfer

theorem Transfer.outcome_eq {v : Conversation} (h : Transfer setup object metadata v)
    {outcome : Outcome} (hverdict : v.copy.verdict? = some (.ok outcome)) :
    outcome = .migrated (transferMode setup object) object.size := by
  obtain ⟨result, -, heq⟩ := h.ends _ hverdict
  cases result with
  | ok => exact Except.ok.inj heq
  | error => cases heq

def CopyEvent.IsHead : CopyEvent → Prop
  | .called _ call | .answered _ call _ => call.request.operation = .head
  | .begun _ => False

theorem PartStory.not_isHead {id : String} {part : PartRange} {status : PartStatus} {busy : Prop}
    {events : List CopyEvent} (h : PartStory setup object id part status busy events) :
    ∀ e ∈ events, ¬e.IsHead := by
  cases h <;> simp [CopyEvent.IsHead, getPartCall, uploadPartCall, Request.operation]

theorem SessionHistory.not_isHead {s : Session} {pending : List Lane} {body : List CopyEvent}
    (h : SessionHistory setup object plan.parts s pending body) : ∀ e ∈ body, ¬e.IsHead := by
  intro e he
  obtain ⟨part, hpart, hlane⟩ := h.lanes e he
  exact (h.story part hpart).not_isHead e (List.mem_filter.mpr ⟨he, by simpa using hlane⟩)

theorem Attempt.not_isHead {s : Session} {events : List CopyEvent}
    (h : Attempt setup object s events) : ∀ e ∈ events, ¬e.IsHead := by
  cases h <;> simp [CopyEvent.IsHead, completeCall, Request.operation]

theorem Retreat.not_isHead {s : Session} {events : List CopyEvent}
    (h : Retreat setup object s events) : ∀ e ∈ events, ¬e.IsHead := by
  cases h <;> simp [CopyEvent.IsHead, abortCall, Request.operation]

theorem Outline.not_isHead {events : List CopyEvent} (h : Outline setup object plan events) :
    ∀ e ∈ events, ¬e.IsHead := by
  cases h with
  | empty | asked | refused => simp [CopyEvent.IsHead, createCall, Request.operation]
  | session h hattempt hretreat =>
    intro e he
    simp only [List.mem_append] at he
    rcases he with he | he | he | he
    · exact hretreat.not_isHead e he
    · exact hattempt.not_isHead e he
    · exact h.not_isHead e he
    · simp only [openedEvents, List.mem_cons, List.not_mem_nil, or_false] at he
      rcases he with rfl | rfl <;> simp [CopyEvent.IsHead, createCall, Request.operation]

theorem WholeStory.not_isHead {phase : Phase} {pending : List Lane} {events : List CopyEvent}
    (h : WholeStory setup object phase pending events) : ∀ e ∈ events, ¬e.IsHead := by
  cases h with
  | reading hdue =>
    rcases hdue with ⟨-, rfl⟩ | ⟨-, rfl⟩ <;> simp [CopyEvent.IsHead, getCall, Request.operation]
  | writing _ hdue =>
    rcases hdue with ⟨-, rfl⟩ | ⟨-, rfl⟩ <;>
      simp [exchange, CopyEvent.IsHead, getCall, putCall, Request.operation]
  | unread | unwritten | written =>
    simp [exchange, CopyEvent.IsHead, getCall, putCall, Request.operation]

theorem TransferStory.not_isHead {phase : Phase} {pending : List Lane} {events : List CopyEvent}
    (h : TransferStory setup object metadata phase pending events) : ∀ e ∈ events, ¬e.IsHead := by
  cases h with
  | whole _ h => exact h.not_isHead
  | parts _ _ h => exact h.outline.not_isHead
  | unplanned | overflowed => simp

end Spec

end BucketMigration
