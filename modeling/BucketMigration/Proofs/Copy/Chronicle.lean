import BucketMigration.Proofs.Copy.Conversation

/-!
# The history of a copy in parts

What has happened in a conversation is fixed by the phase of its copy: an upload was opened, its
parts went through their stages in some order, and the upload is completed or given up. While parts
are under way this is `SessionHistory`; `Chronicle` adds what comes before and after. Every step of
a conversation keeps it.
-/

namespace BucketMigration

def PartEnd.failure? : PartEnd → Option MigrationError
  | .failed error => some error
  | _ => none

open Conversation (laneEvents)

/-- What has happened since an upload was opened, `body` being the newest first: the story of every
part, and failures in the order in which they came. A part that started after a failure was left
out. -/
structure SessionHistory (setup : Setup) (object : ObjectDescriptor) (parts : List PartRange)
    (s : Session) (pending : List Lane) (body : List CopyEvent) : Prop where
  keeps : s.Keeps parts
  story : ∀ part ∈ parts, PartStory setup object s.uploadId part (s.status part.number)
    (.part part.number ∈ pending) (laneEvents (.part part.number) body)
  lanes : ∀ e ∈ body, ∃ part ∈ parts, e.lane = .part part.number
  owners : ∀ lane ∈ pending, ∃ part ∈ parts, lane = .part part.number
  nodup : pending.Nodup
  failures : s.ended.filterMap (fun e => e.2.failure?) = body.reverse.filterMap CopyEvent.failure?
  late : ∀ n earlier, .begun n :: earlier <:+ body → (∃ e ∈ earlier, e.failure? ≠ none) →
    (n, .leftOut) ∈ s.ended

namespace SessionHistory

variable {setup : Setup} {object : ObjectDescriptor} {parts : List PartRange} {s : Session}
  {pending : List Lane} {body : List CopyEvent}

theorem failure?_eq (s : Session) :
    s.failure? = (s.ended.filterMap fun e => e.2.failure?).head? := by
  rw [List.head?_filterMap, Session.failure?]
  congr 1
  funext e
  rcases e with ⟨n, how⟩
  cases how <;> rfl

theorem failure?_eq_findSome? (h : SessionHistory setup object parts s pending body) :
    s.failure? = body.reverse.findSome? CopyEvent.failure? := by
  rw [failure?_eq, h.failures, List.head?_filterMap]

theorem hasFailed_iff (h : SessionHistory setup object parts s pending body) :
    s.hasFailed = true ↔ ∃ e ∈ body, e.failure? ≠ none := by
  constructor
  · intro hfailed
    by_contra hnone
    push Not at hnone
    have hfind : s.failure? = none := by
      rw [h.failure?_eq_findSome?, List.findSome?_eq_none_iff]
      exact fun e he => hnone e (List.mem_reverse.mp he)
    rw [Session.failure?_eq_none_iff.mp hfind] at hfailed
    cases hfailed
  · rintro ⟨e, he, hne⟩
    by_contra hfailed
    have hfind := Session.failure?_eq_none_iff.mpr (Bool.eq_false_iff.mpr hfailed)
    rw [h.failure?_eq_findSome?, List.findSome?_eq_none_iff] at hfind
    exact hne (hfind e (List.mem_reverse.mpr he))

theorem new (setup : Setup) (object : ObjectDescriptor) (parts : List PartRange) (id : String) :
    SessionHistory setup object parts { uploadId := id, waiting := parts } [] [] where
  keeps := .new id
  story := by
    intro part _
    exact .waiting (by simp)
  lanes := by simp
  owners := by simp
  nodup := .nil
  failures := rfl
  late := by
    intro n earlier h
    cases List.suffix_nil.mp h

theorem extend (h : SessionHistory setup object parts s pending body) {s' : Session}
    {pending' : List Lane} {e : CopyEvent} {part : PartRange}
    (hn : (parts.map PartRange.number).Nodup) (hpart : part ∈ parts)
    (hlane : e.lane = .part part.number) (hkeeps : s'.Keeps parts)
    (hid : s'.uploadId = s.uploadId)
    (hstatus : ∀ m, m ≠ part.number → s'.status m = s.status m)
    (hpending : ∀ lane, lane ≠ .part part.number → (lane ∈ pending' ↔ lane ∈ pending))
    (hnodup : pending'.Nodup)
    (hstory : PartStory setup object s.uploadId part (s'.status part.number)
      (.part part.number ∈ pending') (e :: laneEvents (.part part.number) body))
    (hfailures : s'.ended.filterMap (fun e => e.2.failure?) =
      s.ended.filterMap (fun e => e.2.failure?) ++ e.failure?.toList)
    (hended : ∀ a ∈ s.ended, a ∈ s'.ended)
    (hlate : ∀ n, e = .begun n → s.hasFailed = true → (n, .leftOut) ∈ s'.ended) :
    SessionHistory setup object parts s' pending' (e :: body) where
  keeps := hkeeps
  story := by
    intro q hq
    rw [hid]
    by_cases hnumber : q.number = part.number
    · have hqp : q = part := List.inj_on_of_nodup_map hn hq hpart hnumber
      subst hqp
      rw [Conversation.laneEvents_cons_self hlane]
      exact hstory
    · have hne : Lane.part q.number ≠ .part part.number := by
        simpa using hnumber
      rw [Conversation.laneEvents_cons_of_ne (hlane ▸ hne.symm), hstatus _ hnumber,
        hpending _ hne]
      exact h.story q hq
  lanes := by
    intro a ha
    rcases List.mem_cons.mp ha with rfl | ha
    · exact ⟨part, hpart, hlane⟩
    · exact h.lanes a ha
  owners := by
    intro lane hl
    by_cases heq : lane = .part part.number
    · exact ⟨part, hpart, heq⟩
    · exact h.owners lane ((hpending lane heq).mp hl)
  nodup := hnodup
  failures := by
    rw [hfailures, h.failures, List.reverse_cons, List.filterMap_append]
    congr 1
  late := by
    intro n earlier hsuffix hearlier
    rcases List.suffix_cons_iff.mp hsuffix with heq | hsuffix
    · obtain ⟨rfl, rfl⟩ := List.cons.inj heq
      exact hlate n rfl (h.hasFailed_iff.mpr hearlier)
    · exact hended _ (h.late n earlier hsuffix hearlier)

theorem mem_parts (h : SessionHistory setup object parts s pending body) {p : PartCopy}
    (hp : s.active? p.part.number = some p) : p.part ∈ parts :=
  h.keeps.active p (Session.active?_eq_some hp).1

theorem exists_answered (h : SessionHistory setup object parts s pending body)
    (hn : (parts.map PartRange.number).Nodup) {part : PartRange} (hpart : part ∈ parts)
    {etag : Option String} (hended : (part.number, .uploaded etag) ∈ s.ended) :
    ∃ data, .answered (.part part.number) (uploadPartCall setup object s.uploadId part data)
      (.ok (.etag etag)) ∈ body := by
  have hstory := h.story part hpart
  rw [Session.status_of_mem_ended (h.keeps.nodup hn) hended] at hstory
  generalize hes : laneEvents (.part part.number) body = es at hstory
  cases hstory with
  | uploaded _ data =>
    exact ⟨data, Conversation.mem_of_mem_laneEvents (hes ▸ List.mem_cons_self)⟩

section Events

variable (h : SessionHistory setup object parts s pending body)
  (hn : (parts.map PartRange.number).Nodup)
include h

theorem laneEvents_of_reading {p : PartCopy} (hp : s.active? p.part.number = some p)
    (hbusy : .part p.part.number ∈ pending) (hdata : p.data = none) :
    laneEvents (.part p.part.number) body =
      [.called (.part p.part.number) (getPartCall setup object p.part), .begun p.part.number] := by
  have hstory := h.story p.part (h.mem_parts hp)
  rw [Session.status_of_active? hp, hdata] at hstory
  generalize laneEvents (.part p.part.number) body = es at hstory
  cases hstory with
  | reading hidle => exact absurd hbusy hidle
  | readCalled _ => rfl

theorem laneEvents_of_writing {p : PartCopy} (hp : s.active? p.part.number = some p)
    (hbusy : .part p.part.number ∈ pending) {data : ByteArray} (hdata : p.data = some data) :
    laneEvents (.part p.part.number) body =
      [.called (.part p.part.number) (uploadPartCall setup object s.uploadId p.part data),
        .answered (.part p.part.number) (getPartCall setup object p.part) (.ok (.content data)),
        .called (.part p.part.number) (getPartCall setup object p.part),
        .begun p.part.number] := by
  have hstory := h.story p.part (h.mem_parts hp)
  rw [Session.status_of_active? hp, hdata] at hstory
  generalize laneEvents (.part p.part.number) body = es at hstory
  cases hstory with
  | writing hidle => exact absurd hbusy hidle
  | writeCalled _ => rfl

include hn

theorem call {p : PartCopy} (hp : s.active? p.part.number = some p)
    (hfree : .part p.part.number ∉ pending) :
    SessionHistory setup object parts s (.part p.part.number :: pending)
      (.called (.part p.part.number) (p.call setup object s.uploadId) :: body) := by
  have hpart := h.mem_parts hp
  have hstory := h.story p.part hpart
  have hstatus := Session.status_of_active? hp
  refine h.extend hn hpart rfl h.keeps rfl (fun _ _ => rfl) ?_ (h.nodup.cons hfree) ?_
    (by simp [CopyEvent.failure?]) (fun _ ha => ha) (fun _ he => by cases he)
  · intro lane hne
    simp [hne]
  · rw [hstatus] at hstory ⊢
    rcases p with ⟨part, _ | data⟩
    · generalize laneEvents (.part part.number) body = es at hstory
      cases hstory with
      | reading _ => exact .readCalled List.mem_cons_self
      | readCalled hbusy => exact absurd hbusy hfree
    · generalize laneEvents (.part part.number) body = es at hstory
      cases hstory with
      | writing _ => exact .writeCalled List.mem_cons_self data
      | writeCalled hbusy => exact absurd hbusy hfree

theorem fill {p : PartCopy} (hp : s.active? p.part.number = some p) (hdata : p.data = none)
    (hbusy : .part p.part.number ∈ pending) (data : ByteArray) :
    SessionHistory setup object parts (s.fill p.part.number data)
      (pending.erase (.part p.part.number))
      (.answered (.part p.part.number) (getPartCall setup object p.part) (.ok (.content data)) ::
        body) := by
  have hstatus := Session.status_fill data hp
  refine h.extend hn (h.mem_parts hp) rfl (h.keeps.fill _ data) rfl ?_
    (fun lane hne => List.mem_erase_of_ne hne) (h.nodup.erase _) ?_
    (by simp [CopyEvent.failure?, Session.fill]) (fun _ ha => ha) (fun _ he => by cases he)
  · intro m hm
    rw [hstatus, if_neg hm]
  · rw [hstatus, if_pos rfl, h.laneEvents_of_reading hp hbusy hdata]
    exact .writing h.nodup.not_mem_erase data

theorem finish {p : PartCopy} (hp : s.active? p.part.number = some p) {call : Call} {reply : Reply}
    {how : PartEnd} (hhow : how ≠ .leftOut)
    (hfailure : (CopyEvent.answered (.part p.part.number) call reply).failure? = how.failure?)
    (hstory : PartStory setup object s.uploadId p.part (.ended how)
      (.part p.part.number ∈ pending.erase (.part p.part.number))
      (.answered (.part p.part.number) call reply :: laneEvents (.part p.part.number) body)) :
    SessionHistory setup object parts (s.finish p.part.number how)
      (pending.erase (.part p.part.number))
      (.answered (.part p.part.number) call reply :: body) := by
  have hstatus := Session.status_finish how (h.keeps.not_mem_ended hn hp)
  refine h.extend hn (h.mem_parts hp) rfl (h.keeps.finish hn hp hhow) rfl ?_
    (fun lane hne => List.mem_erase_of_ne hne) (h.nodup.erase _) ?_ ?_ ?_ (fun _ he => by cases he)
  · intro m hm
    rw [hstatus, if_neg hm]
  · rw [hstatus, if_pos rfl]
    exact hstory
  · rw [hfailure]
    simp only [Session.finish, List.filterMap_append]
    cases how <;> rfl
  · intro a ha
    exact List.mem_append_left _ ha

theorem begin {part : PartRange} {waiting : List PartRange} (hw : s.waiting = part :: waiting)
    (hfailed : s.hasFailed = false) :
    SessionHistory setup object parts (s.begin part waiting) pending (.begun part.number :: body) := by
  have hmem : part ∈ s.waiting := hw ▸ List.mem_cons_self
  have hpart := h.keeps.waiting_subset hmem
  have hnot := h.keeps.not_mem_begun hn hmem
  have hstatus := Session.status_begin waiting fun hactive => hnot (List.mem_append_left _ hactive)
  refine h.extend hn hpart rfl (h.keeps.begin hw) rfl ?_ (fun _ _ => Iff.rfl) h.nodup ?_
    (by simp [CopyEvent.failure?, Session.begin]) (fun _ ha => ha) ?_
  · intro m hm
    rw [hstatus, if_neg hm]
  · have hstory := h.story part hpart
    rw [Session.status_eq_waiting_iff.mpr hnot] at hstory
    rw [hstatus, if_pos rfl]
    generalize laneEvents (.part part.number) body = es at hstory
    cases hstory with
    | waiting hidle => exact .reading hidle
  · intro n _ hyes
    rw [hfailed] at hyes
    cases hyes

theorem leaveOut {part : PartRange} {waiting : List PartRange} (hw : s.waiting = part :: waiting)
    (hfailed : s.hasFailed = true) :
    SessionHistory setup object parts (s.leaveOut part waiting) pending
      (.begun part.number :: body) := by
  have hmem : part ∈ s.waiting := hw ▸ List.mem_cons_self
  have hpart := h.keeps.waiting_subset hmem
  have hnot := h.keeps.not_mem_begun hn hmem
  have hstatus := Session.status_leaveOut waiting hnot
  refine h.extend hn hpart rfl (h.keeps.leaveOut hn hw hfailed) rfl ?_ (fun _ _ => Iff.rfl) h.nodup
    ?_ (by simp [CopyEvent.failure?, Session.leaveOut, Session.finish, PartEnd.failure?]) ?_ ?_
  · intro m hm
    rw [hstatus, if_neg hm]
  · have hstory := h.story part hpart
    rw [Session.status_eq_waiting_iff.mpr hnot] at hstory
    rw [hstatus, if_pos rfl]
    generalize laneEvents (.part part.number) body = es at hstory
    cases hstory with
    | waiting hidle => exact .leftOut hidle
  · intro a ha
    exact List.mem_append_left _ ha
  · intro n hbegun _
    cases hbegun
    exact List.mem_append_right _ List.mem_cons_self

end Events

theorem pending_eq_nil (h : SessionHistory setup object parts s pending body)
    (hover : s.isOver = true) : pending = [] := by
  simp only [Session.isOver, Bool.and_eq_true, List.isEmpty_iff] at hover
  obtain ⟨hwaiting, hactive⟩ := hover
  apply List.eq_nil_iff_forall_not_mem.mpr
  intro lane hlane
  obtain ⟨part, hpart, rfl⟩ := h.owners lane hlane
  have hstory := h.story part hpart
  cases hs : s.status part.number with
  | waiting =>
    have hmem := h.keeps.mem_waiting hpart hs
    rw [hwaiting] at hmem
    cases hmem
  | active data =>
    obtain ⟨p, hp, -⟩ := Session.active?_of_status hs
    have hmem := (Session.active?_eq_some hp).1
    rw [hactive] at hmem
    cases hmem
  | ended how =>
    rw [hs] at hstory
    generalize laneEvents (.part part.number) body = es at hstory
    cases hstory <;> contradiction

end SessionHistory

section Chronicle

variable (setup : Setup) (object : ObjectDescriptor) (parts : List PartRange)

def openedEvents (id : String) : List CopyEvent :=
  [.answered .whole (createCall setup object) (.ok (.uploadId id)),
    .called .whole (createCall setup object)]

/-- The call of an object as a whole is due, or it is under way. -/
def Due (call : Call) (pending : List Lane) (events before : List CopyEvent) : Prop :=
  (pending = [] ∧ events = before) ∨ (pending = [.whole] ∧ events = .called .whole call :: before)

/-- Why an upload is given up, and what has happened since its last part ended. -/
inductive Blame (s : Session) : List CopyEvent → MigrationError → Prop
  | parts {cause : MigrationError} (h : s.outcome (setup.targetKey object.key) = .error cause) :
      Blame s [] cause
  | completion {ps : List CompletedPart} (h : s.outcome (setup.targetKey object.key) = .ok ps)
      (e : StorageError) :
      Blame s
        [.answered .whole (completeCall setup object s.uploadId ps) (.error e),
          .called .whole (completeCall setup object s.uploadId ps)]
        (.storage (setup.targetKey object.key) "complete multipart upload" e)

/-- The events of a copy in parts, the newest first, by its phase. -/
inductive Chronicle (plan : PartPlan) : Phase → List Lane → List CopyEvent → Prop
  | opening {pending : List Lane} {events : List CopyEvent}
      (hdue : Due (createCall setup object) pending events []) :
      Chronicle plan (.opening plan) pending events
  | unopened (e : StorageError) :
      Chronicle plan
        (.ended (.error (.storage (setup.targetKey object.key) "create multipart upload" e))) []
        [.answered .whole (createCall setup object) (.error e),
          .called .whole (createCall setup object)]
  | copying {s : Session} {pending : List Lane} {body : List CopyEvent}
      (h : SessionHistory setup object plan.parts s pending body) (hover : s.isOver = false) :
      Chronicle plan (.copying s) pending (body ++ openedEvents setup object s.uploadId)
  | completing {s : Session} {body : List CopyEvent} {ps : List CompletedPart}
      {pending : List Lane} {events : List CopyEvent}
      (h : SessionHistory setup object plan.parts s [] body) (hover : s.isOver = true)
      (hps : s.outcome (setup.targetKey object.key) = .ok ps)
      (hdue : Due (completeCall setup object s.uploadId ps) pending events
        (body ++ openedEvents setup object s.uploadId)) :
      Chronicle plan (.completing s.uploadId ps) pending events
  | completed {s : Session} {body : List CopyEvent} {ps : List CompletedPart}
      (h : SessionHistory setup object plan.parts s [] body) (hover : s.isOver = true)
      (hps : s.outcome (setup.targetKey object.key) = .ok ps) :
      Chronicle plan (.ended (.ok (.migrated .multipart object.size))) []
        (.answered .whole (completeCall setup object s.uploadId ps) (.ok .done) ::
          .called .whole (completeCall setup object s.uploadId ps) ::
          (body ++ openedEvents setup object s.uploadId))
  | aborting {s : Session} {body since : List CopyEvent} {cause : MigrationError}
      {pending : List Lane} {events : List CopyEvent}
      (h : SessionHistory setup object plan.parts s [] body) (hover : s.isOver = true)
      (hblame : Blame setup object s since cause)
      (hdue : Due (abortCall setup object s.uploadId) pending events
        (since ++ (body ++ openedEvents setup object s.uploadId))) :
      Chronicle plan (.aborting s.uploadId cause) pending events
  | aborted {s : Session} {body since : List CopyEvent} {cause : MigrationError}
      (h : SessionHistory setup object plan.parts s [] body) (hover : s.isOver = true)
      (hblame : Blame setup object s since cause) :
      Chronicle plan (.ended (.error cause)) []
        (.answered .whole (abortCall setup object s.uploadId) (.ok .done) ::
          .called .whole (abortCall setup object s.uploadId) ::
          (since ++ (body ++ openedEvents setup object s.uploadId)))
  | orphaned {s : Session} {body since : List CopyEvent} {cause : MigrationError}
      (h : SessionHistory setup object plan.parts s [] body) (hover : s.isOver = true)
      (hblame : Blame setup object s since cause) (e : StorageError) :
      Chronicle plan
        (.ended (.error (.abortFailed (setup.targetKey object.key) s.uploadId e cause))) []
        (.answered .whole (abortCall setup object s.uploadId) (.error e) ::
          .called .whole (abortCall setup object s.uploadId) ::
          (since ++ (body ++ openedEvents setup object s.uploadId)))

/-- A conversation about an object that goes as laid out. -/
structure Told (plan : PartPlan) (v : Conversation) : Prop where
  about : v.copy.object = object
  chronicle : Chronicle setup object plan v.copy.phase v.pending v.events

end Chronicle

section Step

variable {setup : Setup} {object : ObjectDescriptor} {plan : PartPlan} {c : ObjectCopy}
  {v w : Conversation}

theorem Due.called {call : Call} {pending : List Lane} {events before : List CopyEvent}
    (h : Due call pending events before) (hfree : .whole ∉ pending) :
    Due call (.whole :: pending) (.called .whole call :: events) before := by
  rcases h with ⟨rfl, rfl⟩ | ⟨rfl, -⟩
  · exact .inr ⟨rfl, rfl⟩
  · exact absurd List.mem_cons_self hfree

theorem Due.of_mem {call : Call} {pending : List Lane} {events before : List CopyEvent}
    (h : Due call pending events before) (hbusy : .whole ∈ pending) :
    pending = [.whole] ∧ events = .called .whole call :: before := by
  rcases h with ⟨rfl, -⟩ | h
  · cases hbusy
  · exact h

theorem SessionHistory.settle {s : Session} {pending : List Lane} {body : List CopyEvent}
    (h : SessionHistory setup object plan.parts s pending body) (hobject : c.object = object) :
    Told setup object plan ⟨(c.settle setup s).1, pending,
      body ++ openedEvents setup object s.uploadId⟩ := by
  subst hobject
  cases hover : s.isOver with
  | false =>
    rw [c.settle_of_isOver_eq_false setup hover]
    exact ⟨rfl, .copying h hover⟩
  | true =>
    have hpending := h.pending_eq_nil hover
    subst hpending
    cases houtcome : s.outcome (c.targetKey setup) with
    | error cause =>
      rw [c.settle_of_outcome_eq_error setup hover houtcome]
      exact ⟨rfl, .aborting h hover (.parts houtcome) (.inl ⟨rfl, rfl⟩)⟩
    | ok ps =>
      rw [c.settle_of_outcome_eq_ok setup hover houtcome]
      exact ⟨rfl, .completing h hover houtcome (.inl ⟨rfl, rfl⟩)⟩

theorem Told.call {lane : Lane} {call : Call} (hn : (plan.parts.map PartRange.number).Nodup)
    (h : Told setup object plan v) (hcall : v.copy.call? setup lane = some call)
    (hfree : lane ∉ v.pending) :
    Told setup object plan ⟨v.copy, lane :: v.pending, .called lane call :: v.events⟩ := by
  obtain ⟨rfl, h⟩ := h
  refine ⟨rfl, ?_⟩
  dsimp only
  generalize hphase : v.copy.phase = phase at h ⊢
  generalize v.events = events at h ⊢
  generalize v.pending = pending at h hfree ⊢
  cases h with
  | opening hdue =>
    obtain ⟨rfl, rfl⟩ := ObjectCopy.call?_opening hphase hcall
    exact .opening (hdue.called hfree)
  | copying h hover =>
    obtain ⟨p, hp, rfl, rfl⟩ := ObjectCopy.call?_copying hphase hcall
    exact .copying (h.call hn hp hfree) hover
  | completing h hover hps hdue =>
    obtain ⟨rfl, rfl⟩ := ObjectCopy.call?_completing hphase hcall
    exact .completing h hover hps (hdue.called hfree)
  | aborting h hover hblame hdue =>
    obtain ⟨rfl, rfl⟩ := ObjectCopy.call?_aborting hphase hcall
    exact .aborting h hover hblame (hdue.called hfree)
  | unopened | completed | aborted | orphaned =>
    rw [ObjectCopy.call?_ended hphase] at hcall
    cases hcall

theorem SessionHistory.answer {s : Session} {pending : List Lane} {body : List CopyEvent}
    {lane : Lane} {call : Call} {reply : Reply} {next : ObjectCopy.Next}
    (h : SessionHistory setup object plan.parts s pending body)
    (hn : (plan.parts.map PartRange.number).Nodup) (hobject : c.object = object)
    (hphase : c.phase = .copying s) (hbusy : lane ∈ pending)
    (hcall : c.call? setup lane = some call) (hnext : c.resume setup lane reply = some next) :
    ∃ s', s'.uploadId = s.uploadId ∧ next.1 = (c.settle setup s').1 ∧
      SessionHistory setup object plan.parts s' (pending.erase lane)
        (.answered lane call reply :: body) := by
  subst hobject
  obtain ⟨p, hp, rfl, hreply⟩ := ObjectCopy.resume_copying hphase hnext
  obtain ⟨q, hq, hlane, rfl⟩ := ObjectCopy.call?_copying hphase hcall
  have hqp : q = p := by
    have hnumber : p.part.number = q.part.number := by simpa using hlane
    rw [← hnumber, hp, Option.some.injEq] at hq
    exact hq.symm
  subst hqp
  have hidle : .part q.part.number ∉ pending.erase (.part q.part.number) :=
    h.nodup.not_mem_erase
  rcases hreply with ⟨hdata, e, rfl, rfl⟩ | ⟨hdata, data, rfl, rfl⟩ |
      ⟨data, hdata, e, rfl, rfl⟩ | ⟨data, hdata, etag, rfl, rfl⟩
  · rw [PartCopy.call_of_data_eq_none hdata]
    refine ⟨s.finish q.part.number _, rfl, rfl, h.finish hn hp (by simp) rfl ?_⟩
    rw [h.laneEvents_of_reading hp hbusy hdata]
    exact .unread hidle e
  · rw [PartCopy.call_of_data_eq_none hdata]
    refine ⟨s.fill q.part.number data, rfl, ?_, h.fill hn hp hdata hbusy data⟩
    rw [c.settle_fill setup hp]
    rfl
  · rw [PartCopy.call_of_data_eq_some hdata]
    refine ⟨s.finish q.part.number _, rfl, rfl, h.finish hn hp (by simp) rfl ?_⟩
    rw [h.laneEvents_of_writing hp hbusy hdata]
    exact .unwritten hidle data e
  · rw [PartCopy.call_of_data_eq_some hdata]
    refine ⟨s.finish q.part.number (.uploaded etag), rfl, rfl, h.finish hn hp (by simp) rfl ?_⟩
    rw [h.laneEvents_of_writing hp hbusy hdata]
    exact .uploaded hidle data etag

theorem Told.answer {lane : Lane} {call : Call} {reply : Reply} {next : ObjectCopy.Next}
    (hn : (plan.parts.map PartRange.number).Nodup) (h : Told setup object plan v)
    (hbusy : lane ∈ v.pending) (hcall : v.copy.call? setup lane = some call)
    (hnext : v.copy.resume setup lane reply = some next) :
    Told setup object plan
      ⟨next.1, v.pending.erase lane, .answered lane call reply :: v.events⟩ := by
  obtain ⟨rfl, h⟩ := h
  generalize hphase : v.copy.phase = phase at h
  generalize v.events = events at h ⊢
  generalize v.pending = pending at h hbusy ⊢
  cases h with
  | opening hdue =>
    obtain ⟨rfl, rfl⟩ := ObjectCopy.call?_opening hphase hcall
    obtain ⟨rfl, rfl⟩ := hdue.of_mem hbusy
    rcases (ObjectCopy.resume_opening hphase hnext).2 with ⟨e, rfl, rfl⟩ | ⟨id, rfl, rfl⟩
    · exact ⟨rfl, .unopened e⟩
    · exact (SessionHistory.new setup v.copy.object plan.parts id).settle rfl
  | copying h hover =>
    obtain ⟨s', hid, heq, h'⟩ := h.answer hn rfl hphase hbusy hcall hnext
    rw [heq, ← hid]
    exact h'.settle rfl
  | @completing s body ps pending events h hover hps hdue =>
    obtain ⟨rfl, rfl⟩ := ObjectCopy.call?_completing hphase hcall
    obtain ⟨rfl, rfl⟩ := hdue.of_mem hbusy
    rcases (ObjectCopy.resume_completing hphase hnext).2 with ⟨e, rfl, rfl⟩ | ⟨rfl, rfl⟩
    · exact ⟨rfl, .aborting h hover (.completion hps e) (.inl ⟨rfl, rfl⟩)⟩
    · exact ⟨rfl, .completed h hover hps⟩
  | aborting h hover hblame hdue =>
    obtain ⟨rfl, rfl⟩ := ObjectCopy.call?_aborting hphase hcall
    obtain ⟨rfl, rfl⟩ := hdue.of_mem hbusy
    rcases (ObjectCopy.resume_aborting hphase hnext).2 with ⟨e, rfl, rfl⟩ | ⟨rfl, rfl⟩
    · exact ⟨rfl, .orphaned h hover hblame e⟩
    · exact ⟨rfl, .aborted h hover hblame⟩
  | unopened | completed | aborted | orphaned =>
    rw [ObjectCopy.call?_ended hphase] at hcall
    cases hcall

theorem Told.startPart {s : Session} {part : PartRange} {waiting : List PartRange}
    {next : ObjectCopy.Next} (hn : (plan.parts.map PartRange.number).Nodup)
    (h : Told setup object plan v) (hphase : v.copy.phase = .copying s)
    (hw : s.waiting = part :: waiting) (hnext : v.copy.startPart setup = some next) :
    Told setup object plan ⟨next.1, v.pending, .begun part.number :: v.events⟩ := by
  obtain ⟨rfl, h⟩ := h
  rw [hphase] at h
  generalize v.events = events at h ⊢
  generalize v.pending = pending at h ⊢
  cases h with
  | copying h hover =>
    obtain ⟨s', part', waiting', hphase', hw', -, hcases⟩ := ObjectCopy.startPart_eq_some hnext
    rw [hphase, Phase.copying.injEq] at hphase'
    subst hphase'
    rw [hw, List.cons.injEq] at hw'
    obtain ⟨rfl, rfl⟩ := hw'
    rcases hcases with ⟨hfailed, rfl⟩ | ⟨hfailed, rfl⟩
    · exact (h.leaveOut hn hw hfailed).settle rfl
    · refine ⟨rfl, .copying (h.begin hn hw hfailed) ?_⟩
      simp [Session.isOver, Session.begin]

theorem Told.step (hn : (plan.parts.map PartRange.number).Nodup) (h : Told setup object plan v)
    (hstep : Conversation.Step setup v w) : Told setup object plan w := by
  cases hstep with
  | call hcall hfree => exact h.call hn hcall hfree
  | answer hpending hcall hnext => exact h.answer hn hpending hcall hnext
  | startPart hphase hwaiting hnext => exact h.startPart hn hphase hwaiting hnext
  | wake hnext =>
    have hchronicle := h.chronicle
    unfold ObjectCopy.wake at hnext
    split at hnext
    · rename_i attempt hphase
      rw [hphase] at hchronicle
      cases hchronicle
    · cases hnext

theorem Told.reach (hn : (plan.parts.map PartRange.number).Nodup) (h : Told setup object plan v)
    (hreach : Conversation.Reach setup v w) : Told setup object plan w := by
  induction hreach with
  | refl => exact h
  | tail _ hstep ih => exact ih.step hn hstep

end Step

end BucketMigration
