import BucketMigration.Proofs.Copy.Replies
import BucketMigration.Proofs.Copy.Session
import Mathlib.Logic.Relation

/-!
# Conversations of a copy with storage

A copy makes the call of a lane, some time later it gets the reply, and meanwhile other lanes go on
in any order. A conversation keeps what has happened, so that it can be told which calls a copy has
made, with which replies, and before or after what. Replies are arbitrary. For a copy in parts, the
history of every part is fixed by how far the part has come. In all other phases there is one call to
be answered.
-/

namespace BucketMigration

inductive CopyEvent
  | called (lane : Lane) (call : Call)
  | answered (lane : Lane) (call : Call) (reply : Reply)
  /-- The first step of a part. -/
  | begun (part : Nat)

namespace CopyEvent

def lane : CopyEvent → Lane
  | called lane _ | answered lane _ _ => lane
  | begun part => .part part

/-- The error that a failed call of a part is taken for. -/
def failure? : CopyEvent → Option MigrationError
  | answered (.part _) call (.error e) =>
      some (.storage call.request.key
        (match call.request with
        | .get .. => "get part"
        | _ => "upload part") e)
  | _ => none

end CopyEvent

/-- A copy, the lanes whose call has been made and not been answered, and what has happened so far,
the newest first. -/
structure Conversation where
  copy : ObjectCopy
  pending : List Lane := []
  events : List CopyEvent := []

namespace Conversation

/-- Some lane goes on: it makes its call, gets its reply, or is the lane of a part that starts. -/
inductive Step (setup : Setup) : Conversation → Conversation → Prop
  | call {v : Conversation} {lane : Lane} {call : Call} (hcall : v.copy.call? setup lane = some call)
      (hfree : lane ∉ v.pending) :
      Step setup v ⟨v.copy, lane :: v.pending, .called lane call :: v.events⟩
  | answer {v : Conversation} {lane : Lane} {call : Call} {reply : Reply} {next : ObjectCopy.Next}
      (hpending : lane ∈ v.pending) (hcall : v.copy.call? setup lane = some call)
      (hnext : v.copy.resume setup lane reply = some next) :
      Step setup v ⟨next.1, v.pending.erase lane, .answered lane call reply :: v.events⟩
  | startPart {v : Conversation} {s : Session} {part : PartRange} {waiting : List PartRange}
      {next : ObjectCopy.Next} (hphase : v.copy.phase = .copying s)
      (hwaiting : s.waiting = part :: waiting) (hnext : v.copy.startPart setup = some next) :
      Step setup v ⟨next.1, v.pending, .begun part.number :: v.events⟩
  | wake {v : Conversation} {next : ObjectCopy.Next} (hnext : v.copy.wake = some next) :
      Step setup v ⟨next.1, v.pending, v.events⟩

/-- Conversations that can come about from `start`, in any order of the lanes. -/
abbrev Reach (setup : Setup) : Conversation → Conversation → Prop :=
  Relation.ReflTransGen (Step setup)

/-- The calls of a lane, in the order in which they were made. -/
def calls (events : List CopyEvent) (lane : Lane) : List Call :=
  events.reverse.filterMap fun
    | .called l call => if l = lane then some call else none
    | _ => none

def laneEvents (lane : Lane) (events : List CopyEvent) : List CopyEvent :=
  events.filter fun e => e.lane = lane

theorem laneEvents_cons_self {lane : Lane} {e : CopyEvent} (h : e.lane = lane)
    (events : List CopyEvent) : laneEvents lane (e :: events) = e :: laneEvents lane events := by
  simp [laneEvents, h]

theorem laneEvents_cons_of_ne {lane : Lane} {e : CopyEvent} (h : e.lane ≠ lane)
    (events : List CopyEvent) : laneEvents lane (e :: events) = laneEvents lane events := by
  simp [laneEvents, h]

theorem laneEvents_append (lane : Lane) (xs ys : List CopyEvent) :
    laneEvents lane (xs ++ ys) = laneEvents lane xs ++ laneEvents lane ys :=
  List.filter_append ..

theorem laneEvents_eq_nil {lane : Lane} {events : List CopyEvent}
    (h : ∀ e ∈ events, e.lane ≠ lane) : laneEvents lane events = [] := by
  simpa [laneEvents] using h

theorem mem_of_mem_laneEvents {lane : Lane} {events : List CopyEvent} {e : CopyEvent}
    (h : e ∈ laneEvents lane events) : e ∈ events :=
  List.mem_of_mem_filter h

theorem calls_append (lane : Lane) (xs ys : List CopyEvent) :
    calls (xs ++ ys) lane = calls ys lane ++ calls xs lane := by
  simp only [calls, List.reverse_append, List.filterMap_append]

theorem calls_laneEvents (lane : Lane) (events : List CopyEvent) :
    calls (laneEvents lane events) lane = calls events lane := by
  unfold calls laneEvents
  rw [← List.filter_reverse, List.filterMap_filter]
  congr 1
  funext e
  cases e with
  | called l call => by_cases h : l = lane <;> simp [CopyEvent.lane, h]
  | answered l call reply => simp
  | begun n => simp

end Conversation

section Calls

variable (setup : Setup) (object : ObjectDescriptor)

def headSourceCall : Call :=
  ⟨.source, .head setup.source.bucket object.key⟩

def headTargetCall : Call :=
  ⟨.target, .head setup.target.bucket (setup.targetKey object.key)⟩

def getCall : Call :=
  ⟨.source, .get setup.source.bucket object.key none⟩

def putCall (data : ByteArray) : Call :=
  ⟨.target, .put setup.target.bucket (setup.targetKey object.key) data⟩

def createCall : Call :=
  ⟨.target, .createUpload setup.target.bucket (setup.targetKey object.key)⟩

def getPartCall (part : PartRange) : Call :=
  ⟨.source, .get setup.source.bucket object.key (some part.range)⟩

def uploadPartCall (id : String) (part : PartRange) (data : ByteArray) : Call :=
  ⟨.target, .uploadPart setup.target.bucket (setup.targetKey object.key) id part.number data⟩

def completeCall (id : String) (parts : List CompletedPart) : Call :=
  ⟨.target, .completeUpload setup.target.bucket (setup.targetKey object.key) id parts⟩

def abortCall (id : String) : Call :=
  ⟨.target, .abortUpload setup.target.bucket (setup.targetKey object.key) id⟩

end Calls

namespace PartCopy

variable {setup : Setup} {object : ObjectDescriptor} {id : String} {p : PartCopy}

theorem call_of_data_eq_none (h : p.data = none) :
    p.call setup object id = getPartCall setup object p.part := by
  simp only [call, h, getPartCall]

theorem call_of_data_eq_some {data : ByteArray} (h : p.data = some data) :
    p.call setup object id = uploadPartCall setup object id p.part data := by
  simp only [call, h, uploadPartCall]

end PartCopy

namespace ObjectCopy

variable {setup : Setup} {c : ObjectCopy} {lane : Lane} {call : Call}

theorem call?_opening {plan : PartPlan} (hphase : c.phase = .opening plan)
    (h : c.call? setup lane = some call) : lane = .whole ∧ call = createCall setup c.object := by
  cases lane with
  | whole =>
    simp only [call?, hphase, Option.some.injEq] at h
    exact ⟨rfl, h.symm⟩
  | part n => simp [call?, hphase] at h

theorem call?_completing {id : String} {parts : List CompletedPart}
    (hphase : c.phase = .completing id parts) (h : c.call? setup lane = some call) :
    lane = .whole ∧ call = completeCall setup c.object id parts := by
  cases lane with
  | whole =>
    simp only [call?, hphase, Option.some.injEq] at h
    exact ⟨rfl, h.symm⟩
  | part n => simp [call?, hphase] at h

theorem call?_aborting {id : String} {cause : MigrationError}
    (hphase : c.phase = .aborting id cause) (h : c.call? setup lane = some call) :
    lane = .whole ∧ call = abortCall setup c.object id := by
  cases lane with
  | whole =>
    simp only [call?, hphase, Option.some.injEq] at h
    exact ⟨rfl, h.symm⟩
  | part n => simp [call?, hphase] at h

end ObjectCopy

namespace ObjectCopy

variable {setup : Setup} {c : ObjectCopy}

structure Asks (setup : Setup) (c : ObjectCopy) (call : Call) : Prop where
  call? : c.call? setup .whole = some call
  phase_ne : ∀ s, c.phase ≠ .copying s
  wake : c.wake = none

theorem call?_part_of_ne (h : ∀ s, c.phase ≠ .copying s) (n : Nat) :
    c.call? setup (.part n) = none := by
  cases hphase : c.phase with
  | copying s => exact absurd hphase (h s)
  | _ => simp [ObjectCopy.call?, hphase]

theorem resume_part_of_ne (h : ∀ s, c.phase ≠ .copying s) (n : Nat) (reply : Reply) :
    c.resume setup (.part n) reply = none := by
  cases hphase : c.phase with
  | copying s => exact absurd hphase (h s)
  | _ => simp [resume, hphase]

theorem startPart_of_ne (h : ∀ s, c.phase ≠ .copying s) : c.startPart setup = none := by
  unfold startPart
  split
  · rename_i s hphase
    exact absurd hphase (h s)
  · rfl

theorem asks_describing {attempt : Nat} (hphase : c.phase = .describing attempt) :
    c.Asks setup (headSourceCall setup c.object) :=
  ⟨by simp [ObjectCopy.call?, hphase, headSourceCall], by simp [hphase],
    by simp [ObjectCopy.wake, hphase]⟩

theorem asks_comparing (hphase : c.phase = .comparing) :
    c.Asks setup (headTargetCall setup c.object) :=
  ⟨by simp [ObjectCopy.call?, hphase, headTargetCall], by simp [hphase],
    by simp [ObjectCopy.wake, hphase]⟩

theorem asks_reading (hphase : c.phase = .reading) : c.Asks setup (getCall setup c.object) :=
  ⟨by simp [ObjectCopy.call?, hphase, getCall], by simp [hphase], by simp [ObjectCopy.wake, hphase]⟩

theorem asks_writing {data : ByteArray} (hphase : c.phase = .writing data) :
    c.Asks setup (putCall setup c.object data) :=
  ⟨by simp [ObjectCopy.call?, hphase, putCall], by simp [hphase], by simp [ObjectCopy.wake, hphase]⟩

theorem asks_opening {plan : PartPlan} (hphase : c.phase = .opening plan) :
    c.Asks setup (createCall setup c.object) :=
  ⟨by simp [ObjectCopy.call?, hphase, createCall], by simp [hphase],
    by simp [ObjectCopy.wake, hphase]⟩

theorem asks_completing {id : String} {ps : List CompletedPart}
    (hphase : c.phase = .completing id ps) : c.Asks setup (completeCall setup c.object id ps) :=
  ⟨by simp [ObjectCopy.call?, hphase, completeCall], by simp [hphase],
    by simp [ObjectCopy.wake, hphase]⟩

theorem asks_aborting {id : String} {cause : MigrationError}
    (hphase : c.phase = .aborting id cause) : c.Asks setup (abortCall setup c.object id) :=
  ⟨by simp [ObjectCopy.call?, hphase, abortCall], by simp [hphase],
    by simp [ObjectCopy.wake, hphase]⟩

end ObjectCopy

section PartStory

variable (setup : Setup) (object : ObjectDescriptor) (id : String) (part : PartRange)

/-- The events of a part, the newest first, by how far it has come and whether a call of it is
under way. -/
inductive PartStory : PartStatus → Prop → List CopyEvent → Prop
  | waiting {busy : Prop} (h : ¬busy) : PartStory .waiting busy []
  | reading {busy : Prop} (h : ¬busy) : PartStory (.active none) busy [.begun part.number]
  | readCalled {busy : Prop} (h : busy) : PartStory (.active none) busy
      [.called (.part part.number) (getPartCall setup object part), .begun part.number]
  | writing {busy : Prop} (h : ¬busy) (data : ByteArray) : PartStory (.active (some data)) busy
      [.answered (.part part.number) (getPartCall setup object part) (.ok (.content data)),
        .called (.part part.number) (getPartCall setup object part), .begun part.number]
  | writeCalled {busy : Prop} (h : busy) (data : ByteArray) : PartStory (.active (some data)) busy
      [.called (.part part.number) (uploadPartCall setup object id part data),
        .answered (.part part.number) (getPartCall setup object part) (.ok (.content data)),
        .called (.part part.number) (getPartCall setup object part), .begun part.number]
  | leftOut {busy : Prop} (h : ¬busy) : PartStory (.ended .leftOut) busy [.begun part.number]
  | unread {busy : Prop} (h : ¬busy) (e : StorageError) :
      PartStory (.ended (.failed (.storage object.key "get part" e))) busy
      [.answered (.part part.number) (getPartCall setup object part) (.error e),
        .called (.part part.number) (getPartCall setup object part), .begun part.number]
  | unwritten {busy : Prop} (h : ¬busy) (data : ByteArray) (e : StorageError) :
      PartStory (.ended (.failed (.storage (setup.targetKey object.key) "upload part" e))) busy
      [.answered (.part part.number) (uploadPartCall setup object id part data) (.error e),
        .called (.part part.number) (uploadPartCall setup object id part data),
        .answered (.part part.number) (getPartCall setup object part) (.ok (.content data)),
        .called (.part part.number) (getPartCall setup object part), .begun part.number]
  | uploaded {busy : Prop} (h : ¬busy) (data : ByteArray) (etag : Option String) :
      PartStory (.ended (.uploaded etag)) busy
      [.answered (.part part.number) (uploadPartCall setup object id part data) (.ok (.etag etag)),
        .called (.part part.number) (uploadPartCall setup object id part data),
        .answered (.part part.number) (getPartCall setup object part) (.ok (.content data)),
        .called (.part part.number) (getPartCall setup object part), .begun part.number]

end PartStory

end BucketMigration
