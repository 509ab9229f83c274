import BucketMigration.Proofs.Copy.Chronicle
import BucketMigration.Proofs.Copy.Remaining
import BucketMigration.Proofs.Inevitable

/-!
# The protocol of an upload session

Which calls a copy in parts makes, whatever the replies and in whatever order its parts go on: an
upload is opened once; every part is read and uploaded at most once; the upload is completed with all
parts, or given up once. `SessionProtocol` says this of one conversation.
-/

namespace BucketMigration

open Conversation (calls laneEvents)

section Protocol

variable (setup : Setup) (object : ObjectDescriptor) (plan : PartPlan)

/-- An upload is completed with all parts of the layout, in ascending order from 1, and each has the
etag that its own upload had returned by then. -/
structure Complete (id : String) (ps : List CompletedPart) (before : List CopyEvent) : Prop where
  opened : .answered .whole (createCall setup object) (.ok (.uploadId id)) ∈ before
  numbers : ps.map CompletedPart.number =
    (List.range' 1 plan.parts.length).map fun n : Nat => (n : Int)
  uploaded : ∀ p ∈ ps, ∃ part ∈ plan.parts, p.number = (part.number : Nat) ∧ ∃ data,
    .answered (.part part.number) (uploadPartCall setup object id part data)
      (.ok (.etag (some p.etag))) ∈ before

/-- Why an upload is given up: for the failure of a part that came first, for a part without an
etag when none has failed, or because it could not be completed. The calls about the object as a
whole tell which. -/
inductive Cause (id : String) (events : List CopyEvent) : MigrationError → Prop
  | failed {e : MigrationError} (hfirst : events.reverse.findSome? CopyEvent.failure? = some e)
      (hcalls : calls events .whole = [createCall setup object, abortCall setup object id]) :
      Cause id events e
  | unnamed {part : PartRange} {data : ByteArray} (hpart : part ∈ plan.parts)
      (hnone : events.reverse.findSome? CopyEvent.failure? = none)
      (hetag : .answered (.part part.number) (uploadPartCall setup object id part data)
        (.ok (.etag none)) ∈ events)
      (hcalls : calls events .whole = [createCall setup object, abortCall setup object id]) :
      Cause id events (.missingPartETag (setup.targetKey object.key) part.number)
  | incomplete {ps : List CompletedPart} {e : StorageError}
      (hfailed : .answered .whole (completeCall setup object id ps) (.error e) ∈ events)
      (hcalls : calls events .whole =
        [createCall setup object, completeCall setup object id ps, abortCall setup object id]) :
      Cause id events
        (.storage (setup.targetKey object.key) "complete multipart upload" e)

/-- How a copy ends whose upload was opened: completed, and then never given up, or given up once. -/
inductive Resolution (id : String) (events : List CopyEvent) : Verdict → Prop
  | completed {ps : List CompletedPart}
      (hdone : .answered .whole (completeCall setup object id ps) (.ok .done) ∈ events)
      (hcalls : calls events .whole =
        [createCall setup object, completeCall setup object id ps]) :
      Resolution id events (.ok (.migrated .multipart object.size))
  | aborted {cause : MigrationError} (hcause : Cause setup object plan id events cause)
      (hdone : .answered .whole (abortCall setup object id) (.ok .done) ∈ events) :
      Resolution id events (.error cause)
  | orphaned {cause : MigrationError} {e : StorageError}
      (hcause : Cause setup object plan id events cause)
      (hfailed : .answered .whole (abortCall setup object id) (.error e) ∈ events) :
      Resolution id events (.error (.abortFailed (setup.targetKey object.key) id e cause))

/-- What a copy with a layout does in a conversation with storage. -/
structure SessionProtocol (v : Conversation) : Prop where
  /-- The upload is opened before anything else, and only once. -/
  creates : v.events = [] ∨ ∃ since, v.events = since ++ [.called .whole (createCall setup object)] ∧
    ∀ lane, .called lane (createCall setup object) ∉ since
  /-- Nothing follows when it cannot be opened. -/
  refused : ∀ e, .answered .whole (createCall setup object) (.error e) ∈ v.events →
    v.events = [.answered .whole (createCall setup object) (.error e),
      .called .whole (createCall setup object)]
  /-- Calls are about the object as a whole or about a part of the layout. -/
  lanes : ∀ lane call, .called lane call ∈ v.events →
    lane = .whole ∨ ∃ part ∈ plan.parts, lane = .part part.number
  /-- About the object as a whole there are at most these calls, in this order. -/
  whole : ∃ id ps, (calls v.events .whole).Sublist
    [createCall setup object, completeCall setup object id ps, abortCall setup object id]
  /-- A part is read once and then uploaded once, if at all, with what was read. -/
  parts : ∀ part ∈ plan.parts, calls v.events (.part part.number) = [] ∨
    calls v.events (.part part.number) = [getPartCall setup object part] ∨ ∃ id data,
      .answered .whole (createCall setup object) (.ok (.uploadId id)) ∈ v.events ∧
      .answered (.part part.number) (getPartCall setup object part) (.ok (.content data))
        ∈ v.events ∧
      calls v.events (.part part.number) =
        [getPartCall setup object part, uploadPartCall setup object id part data]
  /-- A part that starts after a call of a part has failed makes no call. -/
  late : ∀ n earlier, .begun n :: earlier <:+ v.events →
    (∃ m call e, .answered (.part m) call (.error e) ∈ earlier) → calls v.events (.part n) = []
  /-- An upload is completed only with all parts. -/
  completes : ∀ id ps earlier, .called .whole (completeCall setup object id ps) :: earlier <:+ v.events →
    Complete setup object plan id ps earlier
  /-- The copy ends with the reply that no upload can be opened, or with its one upload completed
  or given up. -/
  ends : ∀ verdict, v.copy.verdict? = some verdict →
    (∃ e, .answered .whole (createCall setup object) (.error e) ∈ v.events ∧
      verdict = .error (.storage (setup.targetKey object.key) "create multipart upload" e)) ∨
    ∃ id, (∀ other, .answered .whole (createCall setup object) (.ok (.uploadId other)) ∈ v.events ↔
        other = id) ∧
      Resolution setup object plan id v.events verdict

end Protocol

section Outline

variable (setup : Setup) (object : ObjectDescriptor)

inductive Attempt (s : Session) : List CopyEvent → Prop
  | none : Attempt s []
  | called {ps : List CompletedPart} (hover : s.isOver = true)
      (hps : s.outcome (setup.targetKey object.key) = .ok ps) :
      Attempt s [.called .whole (completeCall setup object s.uploadId ps)]
  | answered {ps : List CompletedPart} (hover : s.isOver = true)
      (hps : s.outcome (setup.targetKey object.key) = .ok ps) (reply : Reply) :
      Attempt s [.answered .whole (completeCall setup object s.uploadId ps) reply,
        .called .whole (completeCall setup object s.uploadId ps)]

inductive Retreat (s : Session) : List CopyEvent → Prop
  | none : Retreat s []
  | called : Retreat s [.called .whole (abortCall setup object s.uploadId)]
  | answered (reply : Reply) : Retreat s
      [.answered .whole (abortCall setup object s.uploadId) reply,
        .called .whole (abortCall setup object s.uploadId)]

/-- The events of a copy in parts, without regard to how far it has come. -/
inductive Outline (plan : PartPlan) : List CopyEvent → Prop
  | empty : Outline plan []
  | asked : Outline plan [.called .whole (createCall setup object)]
  | refused (e : StorageError) : Outline plan
      [.answered .whole (createCall setup object) (.error e),
        .called .whole (createCall setup object)]
  | session {s : Session} {pending : List Lane} {body attempt retreat : List CopyEvent}
      (h : SessionHistory setup object plan.parts s pending body)
      (hattempt : Attempt setup object s attempt) (hretreat : Retreat setup object s retreat) :
      Outline plan (retreat ++ (attempt ++ (body ++ openedEvents setup object s.uploadId)))

end Outline

section

variable {setup : Setup} {object : ObjectDescriptor} {plan : PartPlan} {s : Session}

theorem Blame.attempt {since : List CopyEvent} {cause : MigrationError} (hover : s.isOver = true)
    (h : Blame setup object s since cause) : Attempt setup object s since := by
  cases h with
  | parts _ => exact .none
  | completion hps e => exact .answered hover hps (.error e)

theorem Chronicle.outline {phase : Phase} {pending : List Lane} {events : List CopyEvent}
    (h : Chronicle setup object plan phase pending events) : Outline setup object plan events := by
  cases h with
  | opening hdue =>
    rcases hdue with ⟨-, rfl⟩ | ⟨-, rfl⟩
    · exact .empty
    · exact .asked
  | unopened e => exact .refused e
  | copying h hover => exact .session h .none .none
  | completing h hover hps hdue =>
    rcases hdue with ⟨-, rfl⟩ | ⟨-, rfl⟩
    · exact .session h .none .none
    · exact .session h (.called hover hps) .none
  | completed h hover hps => exact .session h (.answered hover hps (.ok .done)) .none
  | aborting h hover hblame hdue =>
    rcases hdue with ⟨-, rfl⟩ | ⟨-, rfl⟩
    · exact .session h (hblame.attempt hover) .none
    · exact .session h (hblame.attempt hover) .called
  | aborted h hover hblame => exact .session h (hblame.attempt hover) (.answered (.ok .done))
  | orphaned h hover hblame e => exact .session h (hblame.attempt hover) (.answered (.error e))

theorem Attempt.lane_eq {events : List CopyEvent} (h : Attempt setup object s events) :
    ∀ e ∈ events, e.lane = .whole := by
  cases h <;> simp [CopyEvent.lane]

theorem Retreat.lane_eq {events : List CopyEvent} (h : Retreat setup object s events) :
    ∀ e ∈ events, e.lane = .whole := by
  cases h <;> simp [CopyEvent.lane]

theorem lane_of_mem_openedEvents {id : String} :
    ∀ e ∈ openedEvents setup object id, e.lane = .whole := by
  simp [openedEvents, CopyEvent.lane]

theorem SessionHistory.lane_ne_whole {pending : List Lane} {body : List CopyEvent}
    (h : SessionHistory setup object plan.parts s pending body) : ∀ e ∈ body, e.lane ≠ .whole := by
  intro e he
  obtain ⟨part, -, hlane⟩ := h.lanes e he
  rw [hlane]
  exact Lane.noConfusion

theorem laneEvents_part_session {attempt retreat : List CopyEvent}
    (hattempt : Attempt setup object s attempt) (hretreat : Retreat setup object s retreat)
    (body : List CopyEvent) (n : Nat) :
    laneEvents (.part n) (retreat ++ (attempt ++ (body ++ openedEvents setup object s.uploadId))) =
      laneEvents (.part n) body := by
  have hne : ∀ {es : List CopyEvent}, (∀ e ∈ es, e.lane = .whole) →
      laneEvents (.part n) es = [] := by
    intro es hes
    apply Conversation.laneEvents_eq_nil
    intro e he
    rw [hes e he]
    exact Lane.noConfusion
  simp only [Conversation.laneEvents_append, hne hretreat.lane_eq, hne hattempt.lane_eq,
    hne lane_of_mem_openedEvents, List.nil_append, List.append_nil]

theorem Outline.story {events : List CopyEvent} (h : Outline setup object plan events) :
    ∀ part ∈ plan.parts, laneEvents (.part part.number) events = [] ∨
      ∃ id status busy,
        .answered .whole (createCall setup object) (.ok (.uploadId id)) ∈ events ∧
        PartStory setup object id part status busy (laneEvents (.part part.number) events) := by
  intro part hpart
  cases h with
  | empty | asked | refused => exact .inl rfl
  | @session s pending body attempt retreat h hattempt hretreat =>
    refine .inr ⟨s.uploadId, s.status part.number, .part part.number ∈ pending, ?_, ?_⟩
    · simp [openedEvents]
    · rw [laneEvents_part_session hattempt hretreat]
      exact h.story part hpart

theorem PartStory.calls_eq {id : String} {part : PartRange} {status : PartStatus} {busy : Prop}
    {events : List CopyEvent} (h : PartStory setup object id part status busy events) :
    calls events (.part part.number) = [] ∨
      calls events (.part part.number) = [getPartCall setup object part] ∨ ∃ data,
        .answered (.part part.number) (getPartCall setup object part) (.ok (.content data))
          ∈ events ∧
        calls events (.part part.number) =
          [getPartCall setup object part, uploadPartCall setup object id part data] := by
  cases h with
  | waiting | reading | leftOut => exact .inl (by simp [calls])
  | readCalled | unread => exact .inr (.inl (by simp [calls]))
  | writing _ data => exact .inr (.inl (by simp [calls]))
  | writeCalled _ data | unwritten _ data | uploaded _ data =>
    exact .inr (.inr ⟨data, by simp, by simp [calls]⟩)

theorem mem_calls {lane : Lane} {call : Call} {events : List CopyEvent}
    (h : .called lane call ∈ events) : call ∈ calls events lane := by
  simp only [calls, List.mem_filterMap, List.mem_reverse]
  exact ⟨_, h, by simp⟩

theorem Outline.part_calls {events : List CopyEvent} (h : Outline setup object plan events) :
    ∀ part ∈ plan.parts, calls events (.part part.number) = [] ∨
      calls events (.part part.number) = [getPartCall setup object part] ∨ ∃ id data,
        .answered .whole (createCall setup object) (.ok (.uploadId id)) ∈ events ∧
        .answered (.part part.number) (getPartCall setup object part) (.ok (.content data))
          ∈ events ∧
        calls events (.part part.number) =
          [getPartCall setup object part, uploadPartCall setup object id part data] := by
  intro part hpart
  rw [← Conversation.calls_laneEvents]
  rcases h.story part hpart with hnil | ⟨id, status, busy, hopened, hstory⟩
  · rw [hnil]
    exact .inl rfl
  · rcases hstory.calls_eq with hcalls | hcalls | ⟨data, hread, hcalls⟩
    · exact .inl hcalls
    · exact .inr (.inl hcalls)
    · exact .inr (.inr
        ⟨id, data, hopened, Conversation.mem_of_mem_laneEvents hread, hcalls⟩)

theorem Outline.lane_of_mem {events : List CopyEvent} (h : Outline setup object plan events)
    {e : CopyEvent} (he : e ∈ events) :
    e.lane = .whole ∨ ∃ part ∈ plan.parts, e.lane = .part part.number := by
  cases h with
  | empty => cases he
  | asked | refused =>
    simp only [List.mem_cons, List.not_mem_nil, or_false] at he
    rcases he with rfl | rfl <;> exact .inl rfl
  | session h hattempt hretreat =>
    rcases List.mem_append.mp he with he | he
    · exact .inl (hretreat.lane_eq e he)
    · rcases List.mem_append.mp he with he | he
      · exact .inl (hattempt.lane_eq e he)
      · rcases List.mem_append.mp he with he | he
        · exact .inr (h.lanes e he)
        · exact .inl (lane_of_mem_openedEvents e he)

theorem SessionHistory.whole_calls {pending : List Lane} {body : List CopyEvent}
    (h : SessionHistory setup object plan.parts s pending body) (attempt retreat : List CopyEvent) :
    calls (retreat ++ (attempt ++ (body ++ openedEvents setup object s.uploadId))) .whole =
      createCall setup object :: (calls attempt .whole ++ calls retreat .whole) := by
  have hbody : calls body .whole = [] := by
    rw [← Conversation.calls_laneEvents, Conversation.laneEvents_eq_nil h.lane_ne_whole]
    rfl
  simp only [Conversation.calls_append, hbody, List.append_nil, List.append_assoc]
  simp [calls, openedEvents]

theorem Outline.whole_calls {events : List CopyEvent} (h : Outline setup object plan events) :
    ∃ id ps, (calls events .whole).Sublist
      [createCall setup object, completeCall setup object id ps, abortCall setup object id] := by
  cases h with
  | empty => exact ⟨"", [], List.nil_sublist _⟩
  | asked | refused => exact ⟨"", [], by simp [calls]⟩
  | @session s pending body attempt retreat h hattempt hretreat =>
    have hback : (calls retreat .whole).Sublist [abortCall setup object s.uploadId] := by
      cases hretreat <;> simp [calls]
    have htry : ∃ ps, (calls attempt .whole).Sublist
        [completeCall setup object s.uploadId ps] := by
      cases hattempt with
      | none => exact ⟨[], List.nil_sublist _⟩
      | @called ps _ _ => exact ⟨ps, by simp [calls]⟩
      | @answered ps _ _ _ => exact ⟨ps, by simp [calls]⟩
    obtain ⟨ps, htry⟩ := htry
    refine ⟨s.uploadId, ps, ?_⟩
    rw [h.whole_calls]
    exact (htry.append hback).cons_cons _

theorem Outline.creates {events : List CopyEvent} (h : Outline setup object plan events) :
    events = [] ∨ ∃ since, events = since ++ [.called .whole (createCall setup object)] ∧
      ∀ lane, .called lane (createCall setup object) ∉ since := by
  cases h with
  | empty => exact .inl rfl
  | asked => exact .inr ⟨[], rfl, by simp⟩
  | refused e => exact .inr ⟨[_], rfl, by simp⟩
  | @session s pending body attempt retreat h hattempt hretreat =>
    refine .inr ⟨retreat ++ (attempt ++ (body ++
      [.answered .whole (createCall setup object) (.ok (.uploadId s.uploadId))])), ?_, ?_⟩
    · simp only [openedEvents, List.append_assoc, List.singleton_append]
    · intro lane hmem
      simp only [List.mem_append, List.mem_singleton, reduceCtorEq, or_false] at hmem
      rcases hmem with hmem | hmem | hmem
      · cases hretreat <;> simp [createCall, abortCall] at hmem
      · cases hattempt <;> simp [createCall, completeCall] at hmem
      · obtain ⟨part, hpart, hlane⟩ := h.lanes _ hmem
        simp only [CopyEvent.lane] at hlane
        subst hlane
        have hcall := mem_calls hmem
        rw [← Conversation.calls_laneEvents] at hcall
        rcases (h.story part hpart).calls_eq with hcalls | hcalls | ⟨data, -, hcalls⟩ <;>
          simp [hcalls, createCall, getPartCall, uploadPartCall] at hcall

theorem suffix_of_not_mem {α : Type} {a : α} {before xs ys : List α} (h : a :: before <:+ xs ++ ys)
    (ha : a ∉ xs) : a :: before <:+ ys := by
  rcases List.suffix_or_suffix_of_suffix h (List.suffix_append xs ys) with hys | hys
  · exact hys
  · rcases List.suffix_cons_iff.mp hys with heq | ⟨mid, rfl⟩
    · exact heq ▸ List.suffix_rfl
    · rw [← List.cons_append, List.suffix_append_inj_of_length_eq rfl] at h
      exact absurd (h.1.subset List.mem_cons_self) ha

theorem exists_suffix_of_not_mem {α : Type} {a : α} {before xs ys : List α}
    (h : a :: before <:+ xs ++ ys) (ha : a ∉ ys) : ∃ mid, before = mid ++ ys ∧ a :: mid <:+ xs := by
  rcases List.suffix_or_suffix_of_suffix h (List.suffix_append xs ys) with hys | hys
  · exact absurd (hys.subset List.mem_cons_self) ha
  · rcases List.suffix_cons_iff.mp hys with heq | ⟨mid, rfl⟩
    · exact absurd (heq ▸ List.mem_cons_self) ha
    · rw [← List.cons_append, List.suffix_append_inj_of_length_eq rfl] at h
      exact ⟨mid, rfl, h.1⟩

theorem Outline.late {events earlier : List CopyEvent} (h : Outline setup object plan events)
    (hn : (plan.parts.map PartRange.number).Nodup) {n : Nat} (hbegun : .begun n :: earlier <:+ events)
    (hfailed : ∃ m call e, .answered (.part m) call (.error e) ∈ earlier) :
    calls events (.part n) = [] := by
  cases h with
  | empty => cases List.suffix_nil.mp hbegun
  | asked | refused => exact absurd (hbegun.subset List.mem_cons_self) (by simp)
  | @session s pending body attempt retreat h hattempt hretreat =>
    have hwhole : ∀ {es : List CopyEvent}, (∀ e ∈ es, e.lane = .whole) → .begun n ∉ es :=
      fun hes hmem => Lane.noConfusion (hes _ hmem)
    have hbody := suffix_of_not_mem hbegun (hwhole hretreat.lane_eq)
    replace hbody := suffix_of_not_mem hbody (hwhole hattempt.lane_eq)
    obtain ⟨mid, rfl, hmid⟩ := exists_suffix_of_not_mem hbody (hwhole lane_of_mem_openedEvents)
    have hout : (n, .leftOut) ∈ s.ended := by
      apply h.late n mid hmid
      obtain ⟨m, call, e, hmem⟩ := hfailed
      rcases List.mem_append.mp hmem with hmem | hmem
      · exact ⟨_, hmem, by simp [CopyEvent.failure?]⟩
      · exact Lane.noConfusion (lane_of_mem_openedEvents _ hmem)
    obtain ⟨part, hpart, rfl⟩ :=
      h.keeps.exists_of_mem_begun (Session.mem_begun_of_mem_ended hout)
    have hstory := h.story part hpart
    rw [Session.status_of_mem_ended (h.keeps.nodup hn) hout] at hstory
    rw [← Conversation.calls_laneEvents, laneEvents_part_session hattempt hretreat]
    generalize laneEvents (.part part.number) body = es at hstory
    cases hstory with
    | leftOut _ => rfl

theorem SessionHistory.complete {pending : List Lane} {body : List CopyEvent}
    (h : SessionHistory setup object plan.parts s pending body)
    (hnumbers : plan.parts.map PartRange.number = List.range' 1 plan.parts.length)
    (hover : s.isOver = true) {ps : List CompletedPart}
    (hps : s.outcome (setup.targetKey object.key) = .ok ps) :
    Complete setup object plan s.uploadId ps (body ++ openedEvents setup object s.uploadId) := by
  have hascending : (plan.parts.map PartRange.number).Pairwise (· < ·) := by
    rw [hnumbers]
    exact List.pairwise_lt_range'
  have hn : (plan.parts.map PartRange.number).Nodup := hascending.imp Nat.ne_of_lt
  obtain ⟨hmap, hmem⟩ := h.keeps.outcome_eq_ok hascending hover hps
  refine ⟨by simp [openedEvents], ?_, ?_⟩
  · rw [hmap, ← hnumbers, List.map_map]
    rfl
  · intro p hp
    obtain ⟨part, hpart, hnumber, hended⟩ := hmem p hp
    obtain ⟨data, hanswered⟩ := h.exists_answered hn hpart hended
    exact ⟨part, hpart, hnumber, data, List.mem_append_left _ hanswered⟩

theorem Attempt.of_called {attempt mid : List CopyEvent} (h : Attempt setup object s attempt)
    {id : String} {ps : List CompletedPart}
    (hmid : .called .whole (completeCall setup object id ps) :: mid <:+ attempt) :
    mid = [] ∧ id = s.uploadId ∧ s.isOver = true ∧
      s.outcome (setup.targetKey object.key) = .ok ps := by
  -- the call is the first event of every attempt
  have hsingle : ∀ {qs : List CompletedPart}, .called .whole (completeCall setup object id ps) :: mid <:+
      [.called .whole (completeCall setup object s.uploadId qs)] →
      mid = [] ∧ id = s.uploadId ∧ ps = qs := by
    intro qs hsuffix
    rcases List.suffix_cons_iff.mp hsuffix with heq | hnil
    · simp only [List.cons.injEq, CopyEvent.called.injEq, completeCall, Call.mk.injEq,
        Request.completeUpload.injEq, true_and] at heq
      exact ⟨heq.2, heq.1⟩
    · cases List.suffix_nil.mp hnil
  cases h with
  | none => cases List.suffix_nil.mp hmid
  | called hover hps =>
    obtain ⟨hnil, hid, rfl⟩ := hsingle hmid
    exact ⟨hnil, hid, hover, hps⟩
  | answered hover hps reply =>
    rcases List.suffix_cons_iff.mp hmid with heq | hmid
    · cases heq
    · obtain ⟨hnil, hid, rfl⟩ := hsingle hmid
      exact ⟨hnil, hid, hover, hps⟩

theorem Outline.complete {events earlier : List CopyEvent} (h : Outline setup object plan events)
    (hnumbers : plan.parts.map PartRange.number = List.range' 1 plan.parts.length) {id : String}
    {ps : List CompletedPart}
    (hcalled : .called .whole (completeCall setup object id ps) :: earlier <:+ events) :
    Complete setup object plan id ps earlier := by
  cases h with
  | empty => cases List.suffix_nil.mp hcalled
  | asked | refused =>
    exact absurd (hcalled.subset List.mem_cons_self) (by simp [completeCall, createCall])
  | @session s pending body attempt retreat h hattempt hretreat =>
    have hback : .called .whole (completeCall setup object id ps) ∉ retreat := by
      cases hretreat <;> simp [completeCall, abortCall]
    have hbody : .called .whole (completeCall setup object id ps) ∉
        body ++ openedEvents setup object s.uploadId := by
      simp only [List.mem_append, not_or]
      refine ⟨fun hmem => h.lane_ne_whole _ hmem rfl, ?_⟩
      simp [openedEvents, completeCall, createCall]
    obtain ⟨mid, rfl, hmid⟩ := exists_suffix_of_not_mem (suffix_of_not_mem hcalled hback) hbody
    obtain ⟨rfl, rfl, hover, hps⟩ := hattempt.of_called hmid
    exact h.complete hnumbers hover hps

theorem SessionHistory.findSome?_failure? {pending : List Lane}
    {body attempt retreat : List CopyEvent}
    (h : SessionHistory setup object plan.parts s pending body)
    (hattempt : Attempt setup object s attempt) (hretreat : Retreat setup object s retreat) :
    (retreat ++ (attempt ++ (body ++ openedEvents setup object s.uploadId))).reverse.findSome?
      CopyEvent.failure? = s.failure? := by
  have hnone : ∀ {es : List CopyEvent}, (∀ e ∈ es, e.lane = .whole) →
      es.reverse.findSome? CopyEvent.failure? = none := by
    intro es hes
    rw [List.findSome?_eq_none_iff]
    intro e he
    have hlane := hes e (List.mem_reverse.mp he)
    cases e with
    | answered lane call reply =>
      simp only [CopyEvent.lane] at hlane
      subst hlane
      rfl
    | called _ _ | begun _ => rfl
  simp only [List.reverse_append, List.findSome?_append, hnone hretreat.lane_eq,
    hnone hattempt.lane_eq, hnone lane_of_mem_openedEvents, Option.none_or, Option.or_none]
  exact h.failure?_eq_findSome?.symm

theorem Blame.cause {since body : List CopyEvent} {cause : MigrationError}
    (hblame : Blame setup object s since cause) (hover : s.isOver = true)
    (h : SessionHistory setup object plan.parts s [] body)
    (hn : (plan.parts.map PartRange.number).Nodup) (reply : Reply) :
    Cause setup object plan s.uploadId
      (.answered .whole (abortCall setup object s.uploadId) reply ::
        .called .whole (abortCall setup object s.uploadId) ::
        (since ++ (body ++ openedEvents setup object s.uploadId))) cause := by
  have hfind := h.findSome?_failure? (hblame.attempt hover) (.answered reply)
  have hcalls := h.whole_calls since
    [.answered .whole (abortCall setup object s.uploadId) reply,
      .called .whole (abortCall setup object s.uploadId)]
  cases hblame with
  | parts houtcome =>
    rcases Session.outcome_eq_error houtcome with hfailure | ⟨hnone, n, hended, rfl⟩
    · exact .failed (hfind.trans hfailure) hcalls
    · obtain ⟨part, hpart, rfl⟩ :=
        h.keeps.exists_of_mem_begun (Session.mem_begun_of_mem_ended hended)
      obtain ⟨data, hanswered⟩ := h.exists_answered hn hpart hended
      have hetag := List.mem_append_left (openedEvents setup object s.uploadId) hanswered
      exact .unnamed hpart (hfind.trans hnone)
        (List.mem_cons_of_mem _ (List.mem_cons_of_mem _ hetag)) hcalls
  | completion hps e => exact .incomplete (by simp) hcalls

theorem Outline.eq_of_refused {events : List CopyEvent} (h : Outline setup object plan events)
    {e : StorageError} (he : .answered .whole (createCall setup object) (.error e) ∈ events) :
    events = [.answered .whole (createCall setup object) (.error e),
      .called .whole (createCall setup object)] := by
  cases h with
  | empty | asked => simp at he
  | refused e' =>
    simp only [List.mem_cons, CopyEvent.answered.injEq, Except.error.injEq, true_and, reduceCtorEq,
      List.not_mem_nil, or_false] at he
    rw [he]
  | @session s pending body attempt retreat h hattempt hretreat =>
    simp only [List.mem_append] at he
    rcases he with he | he | he | he
    · cases hretreat <;> simp [createCall, abortCall] at he
    · cases hattempt <;> simp [createCall, completeCall] at he
    · exact absurd rfl (h.lane_ne_whole _ he)
    · simp [openedEvents] at he

theorem SessionHistory.opened_iff {pending : List Lane} {body attempt retreat : List CopyEvent}
    (h : SessionHistory setup object plan.parts s pending body)
    (hattempt : Attempt setup object s attempt) (hretreat : Retreat setup object s retreat)
    (id : String) :
    .answered .whole (createCall setup object) (.ok (.uploadId id)) ∈
      retreat ++ (attempt ++ (body ++ openedEvents setup object s.uploadId)) ↔ id = s.uploadId := by
  constructor
  · intro hid
    simp only [List.mem_append] at hid
    rcases hid with hid | hid | hid | hid
    · cases hretreat <;> simp [createCall, abortCall] at hid
    · cases hattempt <;> simp [createCall, completeCall] at hid
    · exact absurd rfl (h.lane_ne_whole _ hid)
    · simpa [openedEvents] using hid
  · rintro rfl
    simp [openedEvents]

theorem Chronicle.ends {verdict : Verdict} {pending : List Lane} {events : List CopyEvent}
    (h : Chronicle setup object plan (.ended verdict) pending events)
    (hn : (plan.parts.map PartRange.number).Nodup) :
    (∃ e, .answered .whole (createCall setup object) (.error e) ∈ events ∧
      verdict = .error (.storage (setup.targetKey object.key) "create multipart upload" e)) ∨
    ∃ id, (∀ other, .answered .whole (createCall setup object) (.ok (.uploadId other)) ∈ events ↔
        other = id) ∧
      Resolution setup object plan id events verdict := by
  cases h with
  | unopened e => exact .inl ⟨e, by simp, rfl⟩
  | @completed s body ps h hover hps =>
    have hattempt := Attempt.answered hover hps (.ok .done)
    have hcalls := h.whole_calls
      [.answered .whole (completeCall setup object s.uploadId ps) (.ok .done),
        .called .whole (completeCall setup object s.uploadId ps)] []
    exact .inr ⟨s.uploadId, h.opened_iff hattempt .none, .completed List.mem_cons_self hcalls⟩
  | aborted h hover hblame =>
    refine .inr ⟨_, h.opened_iff (hblame.attempt hover) (.answered (.ok .done)), ?_⟩
    exact .aborted (hblame.cause hover h hn (.ok .done)) List.mem_cons_self
  | orphaned h hover hblame e =>
    refine .inr ⟨_, h.opened_iff (hblame.attempt hover) (.answered (.error e)), ?_⟩
    exact .orphaned (hblame.cause hover h hn (.error e)) List.mem_cons_self

theorem Told.protocol {v : Conversation} (h : Told setup object plan v)
    (hnumbers : plan.parts.map PartRange.number = List.range' 1 plan.parts.length) :
    SessionProtocol setup object plan v := by
  have hn : (plan.parts.map PartRange.number).Nodup := hnumbers ▸ List.nodup_range'
  have houtline := h.chronicle.outline
  refine ⟨houtline.creates, fun e => houtline.eq_of_refused, ?_, houtline.whole_calls,
    houtline.part_calls, fun n earlier => houtline.late hn,
    fun id ps earlier => houtline.complete hnumbers, ?_⟩
  · intro lane call hcalled
    exact houtline.lane_of_mem hcalled
  · intro verdict hverdict
    have hchronicle := h.chronicle
    unfold ObjectCopy.verdict? at hverdict
    split at hverdict
    · rename_i hphase
      cases hverdict
      rw [hphase] at hchronicle
      exact hchronicle.ends hn
    · cases hverdict

end

namespace Conversation

variable {setup : Setup} {object : ObjectDescriptor} {plan : PartPlan} {v w : Conversation}

/-- The steps that are left of the call of a lane: it is made, and it is answered. -/
def left (v : Conversation) (lane : Lane) : Nat :=
  if lane ∈ v.pending then 1 else 2

theorem left_le_two (v : Conversation) (lane : Lane) : v.left lane ≤ 2 := by
  unfold left
  split <;> omega

theorem Step.remaining_lt (hstep : Step setup v w)
    (hkeeps : ∀ s, v.copy.phase = .copying s → s.begun.Nodup) :
    w.copy.remaining 2 w.left setup < v.copy.remaining 2 v.left setup := by
  cases hstep with
  | @call lane call hcall hfree =>
    refine ObjectCopy.remaining_lt_of_left ?_ hcall ?_
    · intro l
      simp only [left, List.mem_cons]
      split <;> split <;> simp_all
    · simp [left, hfree]
  | @answer lane call reply next hpending hcall hnext =>
    refine ObjectCopy.remaining_resume_lt hkeeps ?_ ?_ (left_le_two _) hnext
    · simp [left, hpending]
    · intro l hl
      simp only [left, List.mem_erase_of_ne hl]
  | startPart _ _ hnext => exact ObjectCopy.remaining_startPart_lt v.left_le_two hnext
  | wake hnext => exact ObjectCopy.remaining_wake_lt (v.left_le_two _) hnext

theorem exists_step_of_call? {lane : Lane} {call : Call}
    (hcall : v.copy.call? setup lane = some call) : ∃ w, Step setup v w := by
  by_cases hfree : lane ∈ v.pending
  · obtain ⟨next, hnext⟩ := ObjectCopy.exists_resume_error hcall (.other "")
    exact ⟨_, .answer hfree hcall hnext⟩
  · exact ⟨_, .call hcall hfree⟩

theorem exists_step_of_copying {s : Session} (hphase : v.copy.phase = .copying s)
    (hover : s.isOver = false) : ∃ w, Step setup v w := by
  rcases Session.active_or_waiting hover with ⟨p, hp⟩ | ⟨hactive, part, waiting, hw⟩
  · exact exists_step_of_call? (v.copy.call?_part setup hphase hp)
  · obtain ⟨next, hnext⟩ := v.copy.exists_startPart setup hphase hactive hw
    exact ⟨_, .startPart hphase hw hnext⟩

end Conversation

section

variable {setup : Setup} {object : ObjectDescriptor} {plan : PartPlan} {v : Conversation}

theorem Told.exists_step (h : Told setup object plan v) (hnone : v.copy.verdict? = none) :
    ∃ w, Conversation.Step setup v w := by
  have hchronicle := h.chronicle
  have hwhole : v.copy.call? setup .whole ≠ none → ∃ w, Conversation.Step setup v w := by
    intro hcall
    obtain ⟨call, hcall⟩ := Option.ne_none_iff_exists'.mp hcall
    exact Conversation.exists_step_of_call? hcall
  generalize hphase : v.copy.phase = phase at hchronicle
  generalize v.events = events, v.pending = pending at hchronicle
  cases hchronicle with
  | opening | completing | aborting =>
    exact hwhole (by simp [ObjectCopy.call?, hphase])
  | copying _ hover => exact Conversation.exists_step_of_copying hphase hover
  | unopened | completed | aborted | orphaned => simp [ObjectCopy.verdict?, hphase] at hnone

/-- However the calls are answered and the lanes take turns, the copy ends. -/
theorem Told.inevitable (h : Told setup object plan v)
    (hn : (plan.parts.map PartRange.number).Nodup) :
    Inevitable (Conversation.Step setup) (fun w => ∃ verdict, w.copy.verdict? = some verdict) v := by
  refine Inevitable.of_measure (Told setup object plan)
    (fun w => w.copy.remaining 2 w.left setup) ?_ ?_ h
  · intro w x hw hstep
    refine ⟨hw.step hn hstep, hstep.remaining_lt ?_⟩
    intro s hphase
    have hchronicle := hw.chronicle
    rw [hphase] at hchronicle
    generalize w.events = events at hchronicle
    cases hchronicle with
    | copying hhistory _ => exact hhistory.keeps.nodup hn
  · intro w hw hend
    exact hw.exists_step (Option.eq_none_iff_forall_ne_some.mpr fun verdict hverdict =>
      hend ⟨verdict, hverdict⟩)

end

theorem Conversation.eq_of_reach {setup : Setup} {v w : Conversation}
    (hcall : ∀ lane, v.copy.call? setup lane = none) (hphase : ∀ s, v.copy.phase ≠ .copying s)
    (hwake : v.copy.wake = none) (h : Conversation.Reach setup v w) : w = v := by
  rcases Relation.ReflTransGen.cases_head h with heq | ⟨x, hstep, -⟩
  · exact heq.symm
  · cases hstep with
    | call hsome _ => simp [hcall] at hsome
    | answer _ hsome _ => simp [hcall] at hsome
    | startPart hcopying _ _ => exact absurd hcopying (hphase _)
    | wake hsome => simp [hwake] at hsome

/-- The protocol of a copy in parts. A copy that cannot be laid out makes no call at all. Otherwise it
keeps to the protocol of an upload session at every moment, whatever the replies are and however
its parts take turns, and it comes to an end. -/
theorem transferInParts_protocol (setup : Setup) (c : ObjectCopy) :
    match c.plan? setup with
    | none => ∀ v, Conversation.Reach setup ⟨(c.transferInParts setup).1, [], []⟩ v → v.events = []
    | some (.error e) =>
        ∀ v, Conversation.Reach setup ⟨(c.transferInParts setup).1, [], []⟩ v →
          v.events = [] ∧ v.copy.verdict? = some (.error (.partPlan c.object.key e))
    | some (.ok plan) =>
        (∀ v, Conversation.Reach setup ⟨(c.transferInParts setup).1, [], []⟩ v →
          SessionProtocol setup c.object plan v) ∧
        Inevitable (Conversation.Step setup) (fun v => ∃ verdict, v.copy.verdict? = some verdict)
          ⟨(c.transferInParts setup).1, [], []⟩ := by
  split
  · rename_i hplan
    intro v hreach
    have hphase : (c.transferInParts setup).1.phase = .overflowed := by
      simp only [ObjectCopy.transferInParts, hplan, ObjectCopy.go]
    rw [Conversation.eq_of_reach (fun _ => ObjectCopy.call?_overflowed hphase)
      (by simp [hphase]) (by simp [ObjectCopy.wake, hphase]) hreach]
  · rename_i e hplan
    intro v hreach
    have hphase : (c.transferInParts setup).1.phase =
        .ended (.error (.partPlan c.object.key e)) := by
      simp only [ObjectCopy.transferInParts, hplan, ObjectCopy.fail, ObjectCopy.go]
    rw [Conversation.eq_of_reach (fun _ => ObjectCopy.call?_ended hphase)
      (by simp [hphase]) (by simp [ObjectCopy.wake, hphase]) hreach]
    exact ⟨rfl, by simp only [ObjectCopy.verdict?, hphase]⟩
  · rename_i plan hplan
    have hcovers := Layout.plan?_eq_ok hplan
    have hn := hcovers.nodup_number
    have hstart : Told setup c.object plan ⟨(c.transferInParts setup).1, [], []⟩ := by
      simp only [ObjectCopy.transferInParts, hplan]
      exact ⟨rfl, .opening (.inl ⟨rfl, rfl⟩)⟩
    exact ⟨fun v hreach => (hstart.reach hn hreach).protocol hcovers.map_number,
      hstart.inevitable hn⟩

end BucketMigration
