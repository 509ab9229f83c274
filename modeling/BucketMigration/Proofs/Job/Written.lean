import BucketMigration.Proofs.Copy.Written
import BucketMigration.Proofs.Job.Bytes

/-!
# Bytes that are reported and bytes that are written

Beside its parts a history tells what each task has written and read, and what it has added to the
bytes that have landed. Over stores the two agree at every moment, but for an object that was copied
in one piece: it reports the size that it was listed with, and has written what was read.
-/

namespace BucketMigration

/-- What a task has written. A task that has panicked has not written an object in one piece. -/
def TaskStage.Wrote (object : ObjectDescriptor) (up : List PartRange) (contents : List ByteArray)
    (written : Nat) : TaskStage → Prop
  | queued | granted => contents = [] ∧ written = 0
  | running c => c.phase.Wrote object up contents written
  | released v | publishing v | placed v | finished v => WroteAtEnd object up contents written v
  | panicked _ => written = byteCount up

namespace Job

namespace Event

def exchange? (t : Nat) (e : Event) : Option Exchange :=
  match e.action with
  | .reply u lane reply =>
      if u = t then (e.before.taskCall? t lane).map fun call => ⟨call, reply⟩ else none
  | _ => none

def exchanges (events : List Event) (t : Nat) : List Exchange :=
  events.filterMap (exchange? t)

/-- The data of the objects that a task has read in one piece. -/
def contents (events : List Event) (t : Nat) : List ByteArray :=
  (exchanges events t).filterMap Exchange.content?

/-- The bytes that a task has passed to writes that were answered with success. -/
def bytesWritten (events : List Event) (t : Nat) : Nat :=
  ((exchanges events t).map Exchange.written).sum

/-- What an action of a task adds to the bytes that have landed. -/
def lands (t : Nat) (e : Event) : Int :=
  if e.action.task? = some t then
    match e.before.act e.action with
    | some u => u.job.progress.landedBytes - e.before.progress.landedBytes
    | none => 0
  else 0

/-- What a task has added to the bytes that have landed. -/
def bytesAdded (events : List Event) (t : Nat) : Int :=
  events.foldl (fun added e => added + e.lands t) 0

/-- If a task is told a reply, then a store may have given it. -/
def Served (e : Event) : Prop :=
  ∀ t lane reply, e.action = .reply t lane reply → ∀ call, e.before.taskCall? t lane = some call →
    call.request.StoreReply reply

variable {events : List Event} {e : Event} {t : Nat} {job : Job}

theorem contents_snoc (events : List Event) (e : Event) (t : Nat) :
    contents (events ++ [e]) t = contents events t ++ ((e.exchange? t).bind Exchange.content?).toList := by
  rw [contents, exchanges, filterMap_snoc, List.filterMap_append]
  congr 1
  cases hx : e.exchange? t with
  | none => rfl
  | some x => cases hc : x.content? <;> simp [hc]

theorem bytesWritten_snoc (events : List Event) (e : Event) (t : Nat) :
    bytesWritten (events ++ [e]) t = bytesWritten events t + ((e.exchange? t).map Exchange.written).getD 0 := by
  rw [bytesWritten, exchanges, filterMap_snoc, List.map_append, List.sum_append]
  congr 1
  cases hx : e.exchange? t with
  | none => rfl
  | some x => simp

theorem bytesAdded_snoc (events : List Event) (e : Event) (t : Nat) :
    bytesAdded (events ++ [e]) t = bytesAdded events t + e.lands t := by
  rw [bytesAdded, List.foldl_append]
  rfl

theorem exchange?_of_ne (h : e.action.task? ≠ some t) : e.exchange? t = none := by
  unfold exchange?
  split
  · rename_i u lane reply haction
    rw [haction] at h
    rw [if_neg fun heq => h (congrArg some heq)]
  · rfl

theorem exchange?_reply {c : ObjectCopy} (ht : job.stage? t = some (.running c)) {lane : Lane}
    {call : Call} (hcall : c.call? job.setup lane = some call) (reply : Reply) :
    exchange? t ⟨job, .reply t lane reply⟩ = some ⟨call, reply⟩ := by
  simp only [exchange?, if_pos, taskCall?, ht, hcall, Option.map_some]

theorem exchange?_of_action (t : Nat) (h : ∀ u lane reply, e.action ≠ .reply u lane reply) :
    e.exchange? t = none := by
  unfold exchange?
  split
  · rename_i hreply
    exact absurd hreply (h _ _ _)
  · rfl

theorem exchange?_of_stage {stage : TaskStage} (ht : e.before.stage? t = some stage)
    (hstage : ∀ c, stage ≠ .running c) : e.exchange? t = none := by
  have hnone : ∀ lane, e.before.taskCall? t lane = none := by
    intro lane
    unfold taskCall?
    split
    · rename_i c hrunning
      rw [ht] at hrunning
      exact absurd (Option.some.inj hrunning) (hstage c)
    · rfl
  unfold exchange?
  split
  · rw [hnone, Option.map_none, ite_self]
  · rfl

end Event

open Event

/-- What happens one after the other from `start` on, while the tally may also be changed by others. -/
inductive History (start : Job) : List Event → Job → Prop
  | start : History start [] start
  | step {events : List Event} {job : Job} {action : JobAction} {u : Transition}
      (h : History start events job) (hact : job.act action = some u) :
      History start (events ++ [⟨job, action⟩]) u.job
  | retally {events : List Event} {job : Job} (h : History start events job) (progress : Progress) :
      History start events { job with progress }

structure Records (setup : Setup) (object : ObjectDescriptor) (events : List Event) (t : Nat)
    (stage : TaskStage) : Prop where
  landed : stage.Landed setup object (opened events t) (uploaded events t)
  wrote : stage.Wrote object (uploaded events t) (contents events t) (bytesWritten events t)
  added : bytesAdded events t =
    bytesLanded (opened events t) (uploaded events t) object.size stage.outcome?

/-- Each task is as its history says, and those to come have none. -/
structure Recorded (setup : Setup) (events : List Event) (job : Job) : Prop where
  setup_eq : job.setup = setup
  tasks : ∀ (t : Nat) (task : Task), job.tasks[t]? = some task →
    Records setup task.object events t task.stage
  fresh : ∀ (object : ObjectDescriptor) (t : Nat), job.tasks.length ≤ t →
    Records setup object events t .queued

variable {job next start : Job} {setup : Setup} {results : Option ResultQueue}
  {object : ObjectDescriptor} {stage stage' : TaskStage} {events : List Event} {action : JobAction}
  {e : Event} {t : Nat}

theorem Records.other (h : Records setup object events t stage) (hother : e.action.task? ≠ some t) :
    Records setup object (events ++ [e]) t stage := by
  have hopened : opened (events ++ [e]) t = opened events t := by
    rw [opened_snoc, opens_of_ne hother, Bool.or_false]
  have huploaded : uploaded (events ++ [e]) t = uploaded events t := by
    rw [uploaded_snoc, uploads?_of_ne hother, Option.toList_none, List.append_nil]
  have hcontents : contents (events ++ [e]) t = contents events t := by
    rw [contents_snoc, exchange?_of_ne hother, Option.bind_none, Option.toList_none, List.append_nil]
  have hwritten : bytesWritten (events ++ [e]) t = bytesWritten events t := by
    rw [bytesWritten_snoc, exchange?_of_ne hother]
    rfl
  have hadded : bytesAdded (events ++ [e]) t = bytesAdded events t := by
    rw [bytesAdded_snoc, lands, if_neg hother, Int.add_zero]
  constructor
  · rw [hopened, huploaded]
    exact h.landed
  · rw [huploaded, hcontents, hwritten]
    exact h.wrote
  · rw [hadded, hopened, huploaded]
    exact h.added

theorem wroteAtEnd_of_outcome {up : List PartRange} {read : List ByteArray} {written : Nat}
    {v : Verdict} (h : stage.Wrote object up read written) (houtcome : stage.outcome? = some v) :
    WroteAtEnd object up read written v := by
  cases stage with
  | running c =>
    rw [TaskStage.Wrote, ObjectCopy.phase_of_verdict? houtcome] at h
    exact h
  | released | publishing | placed | finished =>
    cases houtcome
    exact h
  | queued | granted | panicked => cases houtcome

theorem Goes.wrote {course : Course} {opened : Bool} {up : List PartRange} {read : List ByteArray}
    {written : Nat} (h : Goes job object action stage stage' course) (hown : action.task? = some t)
    (ht : job.stage? t = some stage) (hlanded : stage.Landed job.setup object opened up)
    (hwrote : stage.Wrote object up read written) (hserved : Served ⟨job, action⟩) :
    stage'.Wrote object (up ++ (Event.uploads? t ⟨job, action⟩).toList)
      (read ++ ((exchange? t ⟨job, action⟩).bind Exchange.content?).toList)
      (written + ((exchange? t ⟨job, action⟩).map Exchange.written).getD 0) := by
  have hstill : Event.uploads? t ⟨job, action⟩ = none ∧ exchange? t ⟨job, action⟩ = none →
      stage'.Wrote object up read written →
      stage'.Wrote object (up ++ (Event.uploads? t ⟨job, action⟩).toList)
        (read ++ ((exchange? t ⟨job, action⟩).bind Exchange.content?).toList)
        (written + ((exchange? t ⟨job, action⟩).map Exchange.written).getD 0) := by
    rintro ⟨huploads, hexchange⟩ hnext
    rw [huploads, hexchange]
    simpa using hnext
  have hsilent : (∀ u lane reply, action ≠ .reply u lane reply) →
      Event.uploads? t ⟨job, action⟩ = none ∧ exchange? t ⟨job, action⟩ = none := fun haction =>
    ⟨(untold_of_action (e := ⟨job, action⟩) t haction).2,
      exchange?_of_action (e := ⟨job, action⟩) t haction⟩
  cases h with
  | grant => exact hstill (hsilent (by simp)) hwrote
  | @refuse n cause =>
    obtain ⟨-, rfl⟩ := hlanded
    exact hstill (hsilent (by simp)) hwrote.2
  | start =>
    obtain ⟨-, rfl⟩ := hlanded
    obtain ⟨rfl, rfl⟩ := hwrote
    exact hstill (hsilent (by simp)) (ObjectCopy.wrote_start _ object)
  | @reply n c lane given next hnext =>
    cases hown
    obtain ⟨call, hcall, hwrites⟩ := ObjectCopy.writes_resume hlanded.1 hlanded.2 hwrote hnext
    have hreply : call.request.StoreReply given :=
      hserved t lane given rfl call (by simp only [taskCall?, ht, hcall])
    rw [uploads?_reply ht, exchange?_reply ht hcall]
    exact hwrites hreply
  | @wake n c next hnext => exact hstill (hsilent (by simp)) (ObjectCopy.wrote_wake hwrote hnext)
  | @startPart n c next hnext => exact hstill (hsilent (by simp)) (ObjectCopy.wrote_startPart hwrote hnext)
  | panic n reason hnone => exact hstill (hsilent (by simp)) (ObjectCopy.written_eq hwrote hnone)
  | release n hv => exact hstill (hsilent (by simp)) (wroteAtEnd_of_outcome hwrote hv)
  | account n v =>
    apply hstill (hsilent (by simp))
    split <;> exact hwrote
  | place => exact hstill (hsilent (by simp)) hwrote
  | finish _ hstage =>
    have hover : ∀ c, stage ≠ .running c := by
      rcases hstage with rfl | rfl <;> exact fun c => TaskStage.noConfusion
    apply hstill ⟨(untold_of_stage ht hover).2, exchange?_of_stage ht hover⟩
    rcases hstage with rfl | rfl <;> exact hwrote

theorem Records.own {u : Transition} {course : Course} (h : Records job.setup object events t stage)
    (hgoes : Goes job object action stage stage' course) (hown : action.task? = some t)
    (ht : job.stage? t = some stage) (hact : job.act action = some u) (hcourse : u.job.course = course)
    (hserved : Served ⟨job, action⟩) :
    Records job.setup object (events ++ [⟨job, action⟩]) t stage' := by
  have hgains := hgoes.gains hown ht h.landed
  constructor
  · rw [opened_snoc, uploaded_snoc]
    exact hgains.landed
  · rw [uploaded_snoc, contents_snoc, bytesWritten_snoc]
    exact hgoes.wrote hown ht h.landed h.wrote hserved
  · have hlands : lands t ⟨job, action⟩ =
        u.job.progress.landedBytes - job.progress.landedBytes := by
      simp only [lands, hown, if_pos, hact]
    have hprogress : course.progress = u.job.progress := congrArg Course.progress hcourse.symm
    have hbytes := hgains.bytes
    have hadded := h.added
    rw [hprogress] at hbytes
    rw [bytesAdded_snoc, opened_snoc, uploaded_snoc, hlands]
    omega

theorem recorded_new (hnew : new? setup results = .ok start) : Recorded setup [] start := by
  rw [(new?_eq_ok hnew).1]
  refine ⟨rfl, ?_, fun object t _ => ⟨⟨rfl, rfl⟩, ⟨rfl, rfl⟩, rfl⟩⟩
  intro t task ht
  cases ht

theorem Recorded.retally (h : Recorded setup events job) (progress : Progress) :
    Recorded setup events { job with progress } :=
  ⟨h.setup_eq, h.tasks, h.fresh⟩

theorem Recorded.step (h : Recorded setup events job) {u : Transition}
    (hact : job.act action = some u) (hserved : Served ⟨job, action⟩) :
    Recorded setup (events ++ [⟨job, action⟩]) u.job := by
  have hsetup : u.job.setup = setup := (act_deed hact).move.1.setup.trans h.setup_eq
  cases hown : action.task? with
  | none =>
    obtain ⟨base, hwork, hbase, -⟩ := exists_work hown hact
    obtain ⟨objects, hspawned, -, -⟩ := hwork.exists_dispatched
    have htasks := hbase.trans hspawned
    have hother : ∀ t, (⟨job, action⟩ : Event).action.task? ≠ some t := by
      intro t hsome
      cases hown.symm.trans hsome
    refine ⟨hsetup, ?_, ?_⟩
    · intro t task htask
      apply Records.other _ (hother t)
      by_cases ht : t < job.tasks.length
      · rw [htasks, List.getElem?_append_left ht] at htask
        exact h.tasks t task htask
      · rw [htasks, List.getElem?_append_right (Nat.le_of_not_lt ht)] at htask
        obtain ⟨object, -, rfl⟩ := List.mem_map.mp (List.mem_of_getElem? htask)
        exact h.fresh object t (Nat.le_of_not_lt ht)
    · intro object t ht
      apply Records.other _ (hother t)
      apply h.fresh object t
      rw [htasks, List.length_append] at ht
      omega
  | some t =>
    obtain ⟨object, stage, stage', ht, hgoes, htasks⟩ := act_goes hown hact
    have hstage : job.stage? t = some stage := by rw [stage?, ht]; rfl
    have hother : ∀ v, v ≠ t → (⟨job, action⟩ : Event).action.task? ≠ some v := by
      intro v hv hsome
      exact hv (Option.some.inj (hsome.symm.trans hown))
    obtain ⟨hlt, -⟩ := List.getElem?_eq_some_iff.mp ht
    have hbefore := h.setup_eq
    refine ⟨hsetup, ?_, ?_⟩
    · intro v task hv
      by_cases heq : v = t
      · subst heq
        have hrecords : Records setup object events v stage := h.tasks v _ ht
        rw [htasks, getElem?_tasks_setStage, if_pos rfl, ht] at hv
        cases hv
        subst hbefore
        exact hrecords.own hgoes hown hstage hact rfl hserved
      · rw [htasks, getElem?_tasks_setStage, if_neg (Ne.symm heq)] at hv
        exact (h.tasks v task hv).other (hother v heq)
    · intro object v hv
      rw [htasks, length_tasks_setStage] at hv
      exact (h.fresh object v hv).other (hother v (by omega))

theorem History.recorded (hnew : new? setup results = .ok start) (h : History start events job)
    (hserved : ∀ e ∈ events, e.Served) : Recorded setup events job := by
  induction h with
  | start => exact recorded_new hnew
  | step _ hact ih =>
    have hbefore := ih fun e he => hserved e (List.mem_append_left _ he)
    exact hbefore.step hact (hserved _ (List.mem_append_right _ (List.mem_singleton_self _)))
  | retally _ progress ih => exact (ih hserved).retally progress

/-- The bytes that a task reports and those that it has written. -/
structure BytesReported (object : ObjectDescriptor) (events : List Event) (t : Nat)
    (stage : TaskStage) : Prop where
  /-- Whatever is copied in one piece apart, what was added is what was written. -/
  added : (∀ bytes, stage.outcome? ≠ some (.ok (.migrated .direct bytes))) →
    bytesAdded events t = bytesWritten events t
  reported : ∀ mode bytes, stage.outcome? = some (.ok (.migrated mode bytes)) →
    bytes = object.size ∧ bytesAdded events t = object.size
  direct : ∀ bytes, stage.outcome? = some (.ok (.migrated .direct bytes)) →
    ∃ data, contents events t = [data] ∧ bytesWritten events t = data.size
  multipart : ∀ bytes, stage.outcome? = some (.ok (.migrated .multipart bytes)) →
    bytesWritten events t = object.size

theorem byteCount_of_wroteAtEnd {up : List PartRange} {read : List ByteArray} {written : Nat} {v : Verdict}
    (h : WroteAtEnd object up read written v) (hv : ∀ bytes, v ≠ .ok (.migrated .direct bytes)) :
    written = byteCount up := by
  rcases v with e | outcome
  · exact h
  · cases outcome with
    | targetCurrent => exact h
    | migrated mode bytes =>
      cases mode with
      | direct => exact absurd rfl (hv bytes)
      | multipart => exact h.2

theorem Records.bytesWritten_eq (h : Records setup object events t stage)
    (hv : ∀ bytes, stage.outcome? ≠ some (.ok (.migrated .direct bytes))) :
    bytesWritten events t = byteCount (uploaded events t) := by
  have hwrote := h.wrote
  cases houtcome : stage.outcome? with
  | some v =>
    refine byteCount_of_wroteAtEnd (wroteAtEnd_of_outcome hwrote houtcome) fun bytes heq => ?_
    exact hv bytes (heq ▸ houtcome)
  | none =>
    cases stage with
    | queued | granted =>
      have hnone : uploaded events t = [] := h.landed.2
      rw [hnone]
      exact hwrote.2
    | running c => exact ObjectCopy.written_eq hwrote houtcome
    | panicked => exact hwrote
    | released | publishing | placed | finished => cases houtcome

theorem Records.bytesReported (h : Records setup object events t stage) :
    BytesReported object events t stage where
  added := by
    intro hv
    rw [h.added, h.bytesWritten_eq hv]
    rcases unopened_or_partsOf h.landed with ⟨hopened, hup⟩ | ⟨hopened, -⟩
    · rw [hopened, hup, bytesLanded_unopened]
      · rfl
      · rintro (_ | _) bytes houtcome
        · exact hv bytes houtcome
        · have hended := landedAtEnd_of_outcome h.landed houtcome
          cases hopened.symm.trans hended.1
    · rw [hopened, bytesLanded_opened]
  reported := by
    intro mode bytes houtcome
    have hended := landedAtEnd_of_outcome h.landed houtcome
    have hwrote := wroteAtEnd_of_outcome h.wrote houtcome
    constructor
    · cases mode with
      | direct => exact hwrote.1
      | multipart => exact hwrote.1
    · rw [h.added, houtcome, bytesLanded_migrated hended]
  direct _ houtcome := (wroteAtEnd_of_outcome h.wrote houtcome).2
  multipart := by
    intro bytes houtcome
    have hended := landedAtEnd_of_outcome h.landed houtcome
    have hwrote := wroteAtEnd_of_outcome h.wrote houtcome
    exact hwrote.2.trans hended.2.byteCount_eq

end Job

end BucketMigration
