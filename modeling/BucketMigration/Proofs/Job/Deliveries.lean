import BucketMigration.Proofs.Job.Reports

/-!
# What a consumer is told

A result is delivered when its task publishes it in the place that it was promised. While the queue
is open, what has been delivered is what the consumer has received and what still waits, in this
order; and a task that has finished without its result being delivered has found the queue full.
-/

namespace BucketMigration

/-- An action on the queue of results, by a task that publishes or by the consumer. -/
def JobAction.posts : JobAction → Bool
  | place _ | publish _ | discard _ | receive | closeResults => true
  | _ => false

namespace TaskStage

def isPlaced : TaskStage → Bool
  | placed _ => true
  | _ => false

def finished? : TaskStage → Option Verdict
  | finished v => some v
  | _ => none

theorem finished?_eq_some_iff {stage : TaskStage} {v : Verdict} :
    stage.finished? = some v ↔ stage = .finished v := by
  cases stage <;> simp [finished?]

theorem finished?_eq_none_of_accounted {stage : TaskStage} (h : stage.accounted? = none) :
    stage.finished? = none := by
  cases stage with
  | finished => cases h
  | _ => rfl

end TaskStage

/-- The result of a task that has been put into the queue. -/
structure Delivery where
  task : Nat
  result : CopyResult

namespace Job

namespace Event

def delivers? (e : Event) : Option Delivery :=
  match e.action with
  | .publish t =>
      match e.before.tasks[t]? with
      | some ⟨object, .placed v⟩ => some ⟨t, e.before.resultOf object v⟩
      | _ => none
  | _ => none

def receives? (e : Event) : Option CopyResult :=
  match e.action, e.before.act e.action with
  | .receive, some ⟨_, _, some (.received result)⟩ => some result
  | _, _ => none

/-- The results that have been put into the queue, the first one first. -/
def delivered (events : List Event) : List Delivery :=
  events.filterMap delivers?

/-- The results that the consumer has taken, the first one first. -/
def received (events : List Event) : List CopyResult :=
  events.filterMap receives?

theorem delivered_snoc (events : List Event) (e : Event) :
    delivered (events ++ [e]) = delivered events ++ e.delivers?.toList :=
  filterMap_snoc delivers? events e

theorem received_snoc (events : List Event) (e : Event) :
    received (events ++ [e]) = received events ++ e.receives?.toList :=
  filterMap_snoc receives? events e

theorem delivers?_of_posts {e : Event} (h : e.action.posts = false) : e.delivers? = none := by
  unfold delivers?
  split
  · rename_i haction
    rw [haction] at h
    cases h
  · rfl

theorem receives?_of_ne {e : Event} (h : e.action ≠ .receive) : e.receives? = none := by
  unfold receives?
  split
  · rename_i haction _
    exact absurd haction h
  · rfl

end Event

open Event

variable {job next start : Job} {setup : Setup} {queue : ResultQueue} {object : ObjectDescriptor}
  {stage stage' : TaskStage} {course : Course} {events : List Event} {action : JobAction} {t : Nat}
  {u : Transition}

/-- Put a task to another stage, with other results on their way. -/
def repost (job : Job) (t : Nat) (stage : TaskStage) (queue : ResultQueue) : Job :=
  { job with results := some queue }.setStage t stage

inductive Posts (job : Job) (queue : ResultQueue) : JobAction → Job → Prop
  | place {t : Nat} {object : ObjectDescriptor} {v : Verdict}
      (ht : job.tasks[t]? = some ⟨object, .publishing v⟩) (hopen : queue.isOpen = true)
      (hroom : queue.hasRoom = true) :
      Posts job queue (.place t)
        (job.repost t (.placed v) { queue with promised := queue.promised + 1 })
  | publish {t : Nat} {object : ObjectDescriptor} {v : Verdict}
      (ht : job.tasks[t]? = some ⟨object, .placed v⟩) (hopen : queue.isOpen = true) :
      Posts job queue (.publish t)
        (job.repost t (.finished v)
          { queue with
            promised := queue.promised - 1
            waiting := queue.waiting ++ [job.resultOf object v] })
  /-- The queue is closed, or it was full for too long. -/
  | drop {t : Nat} {object : ObjectDescriptor} {v : Verdict}
      (ht : job.tasks[t]? = some ⟨object, .publishing v⟩)
      (hfull : queue.isOpen = true → queue.hasRoom = false) :
      Posts job queue (.discard t) (job.repost t (.finished v) queue)
  /-- The queue was closed after a place in it had been promised. -/
  | withdraw {t : Nat} {object : ObjectDescriptor} {v : Verdict}
      (ht : job.tasks[t]? = some ⟨object, .placed v⟩) (hclosed : queue.isOpen = false) :
      Posts job queue (.discard t)
        (job.repost t (.finished v) { queue with promised := queue.promised - 1 })
  | receive {result : CopyResult} {waiting : List CopyResult}
      (hwaiting : queue.waiting = result :: waiting) :
      Posts job queue .receive { job with results := some { queue with waiting } }
  | close :
      Posts job queue .closeResults
        { job with results := some { queue with isOpen := false, waiting := [] } }

theorem posts_of_discard (ht : job.tasks[t]? = some ⟨object, stage⟩)
    (hact : job.discard t object queue stage = some u) : Posts job queue (.discard t) u.job := by
  unfold discard at hact
  split at hact
  · split at hact
    · rename_i hclosed
      cases hact
      refine .drop ht fun hopen => ?_
      rw [hopen] at hclosed
      cases hclosed
    · split at hact
      · cases hact
      · rename_i hroom
        cases hact
        exact .drop ht fun _ => Bool.eq_false_iff.mpr hroom
  · split at hact
    · cases hact
    · rename_i hopen
      cases hact
      exact .withdraw ht (Bool.eq_false_iff.mpr hopen)
  · cases hact

theorem posts_of_act (hqueue : job.results = some queue) (hposts : action.posts = true)
    (hact : job.act action = some u) : Posts job queue action u.job := by
  cases action with
  | place n =>
    obtain ⟨⟨object, stage⟩, ht, hown⟩ := Option.bind_eq_some_iff.mp hact
    cases stage with
    | publishing v =>
      simp only [actOnTask, hqueue] at hown
      split at hown
      · rename_i hroom
        cases hown
        rw [Bool.and_eq_true] at hroom
        exact .place ht hroom.1 hroom.2
      · cases hown
    | _ => cases hown
  | publish n =>
    obtain ⟨⟨object, stage⟩, ht, hown⟩ := Option.bind_eq_some_iff.mp hact
    cases stage with
    | placed v =>
      simp only [actOnTask, hqueue] at hown
      split at hown
      · rename_i hopen
        cases hown
        exact .publish ht hopen
      · cases hown
    | _ => cases hown
  | discard n =>
    obtain ⟨⟨object, stage⟩, ht, hown⟩ := Option.bind_eq_some_iff.mp hact
    simp only [actOnTask, hqueue, Option.bind_some] at hown
    exact posts_of_discard ht hown
  | receive =>
    simp only [act, receive, hqueue] at hact
    split at hact
    · cases hact
    · rename_i hwaiting
      cases hact
      exact .receive hwaiting
  | closeResults =>
    simp only [act, closeResults, hqueue, Option.map_some, Option.some.injEq] at hact
    rw [← hact]
    exact .close
  | _ => cases hposts

theorem Work.results_eq {base : Job} (h : job.Work base) : base.results = job.results := by
  cases h with
  | still | spawn => rfl
  | halt => rw [haltWith_eq]

theorem results_of_own (hown : action.task? = some t) (hposts : action.posts = false)
    (hact : job.act action = some u) : u.job.results = job.results := by
  obtain ⟨⟨object, stage⟩, -, hact⟩ : ∃ task, job.tasks[t]? = some task ∧
      job.actOnTask action t task.object task.stage = some u := by
    cases action <;> cases hown <;> exact Option.bind_eq_some_iff.mp hact
  -- The cases are those of `actOnTask`; the last three but one are actions on the queue.
  unfold actOnTask at hact
  split at hact
  · split at hact
    · cases hact
      rfl
    · cases hact
  · split at hact <;> cases hact <;> rfl
  · obtain ⟨next, -, rfl⟩ := Option.map_eq_some_iff.mp hact
    rfl
  · obtain ⟨next, -, rfl⟩ := Option.map_eq_some_iff.mp hact
    rfl
  · obtain ⟨next, -, rfl⟩ := Option.map_eq_some_iff.mp hact
    rfl
  · split at hact <;> cases hact
    rfl
  · obtain ⟨v, -, rfl⟩ := Option.map_eq_some_iff.mp hact
    rfl
  · rename_i v _ _
    cases hact
    obtain ⟨progress, halt, hjob⟩ := job.recordVerdict_eq object v
    simp only [account, hjob]
    rfl
  · cases hposts
  · cases hposts
  · cases hposts
  · cases hact

theorem results_of_other (hown : action.task? = none) (hposts : action.posts = false)
    (hact : job.act action = some u) : u.job.results = job.results := by
  cases action with
  | openFeed token =>
    cases hact
    rfl
  | batch lines =>
    cases hact
    rcases job.beginBatch_cases lines with ⟨e, hbegin⟩ | ⟨objects, -, -, hbegin⟩
    · rw [hbegin]
    · obtain ⟨batch', hjob⟩ := exists_drainBatch_eq (job.withBatch objects) job.batches.length
        (job.newBatch objects.length)
      rw [hbegin, hjob]
      rfl
  | joinBatch i task =>
    obtain ⟨batch, -, hjoined⟩ := Option.bind_eq_some_iff.mp hact
    obtain ⟨-, status, joined, logs, hjoin, rfl⟩ := joinInBatch_eq hjoined
    obtain ⟨batch', hjob⟩ := exists_drainBatch_eq joined i
      { batch with tasks := batch.tasks.erase task, summary := batch.summary.count status }
    simp only [Transition.after, hjob]
    exact (work_of_joinTask hjoin).results_eq
  | dropFeed | nextPage | wait | run | listed | join =>
    obtain ⟨feed, -, hfeed⟩ := Option.bind_eq_some_iff.mp hact
    obtain ⟨base, feed', hmove, hjob⟩ := actOnFeed_move hfeed
    rw [hjob]
    exact hmove.work.results_eq
  | receive | closeResults => cases hposts
  | _ => cases hown

theorem results_of_act (hposts : action.posts = false) (hact : job.act action = some u) :
    u.job.results = job.results := by
  cases hown : action.task? with
  | some t => exact results_of_own hown hposts hact
  | none => exact results_of_other hown hposts hact

theorem accounted?_eq_none_of_act (hown : action.task? = some t) (hposts : action.posts = false)
    (ht : job.tasks[t]? = some ⟨object, stage⟩) (hact : job.act action = some u) :
    stage.accounted? = none := by
  rw [act_of_task hown ht] at hact
  cases stage with
  | publishing | placed | finished => cases action <;> cases hown <;> cases hposts <;> cases hact
  | _ => rfl

theorem Goes.unposted (h : Goes job object action stage stage' course)
    (hqueue : job.results.isSome = true) (hstage : stage.accounted? = none) :
    stage.isPlaced = false ∧ stage'.isPlaced = false ∧ stage'.finished? = none := by
  cases h with
  | account n v =>
    rw [if_pos hqueue]
    exact ⟨rfl, rfl, rfl⟩
  | place n v => cases hstage
  | finish _ h => rcases h with rfl | rfl <;> cases hstage
  | _ => exact ⟨rfl, rfl, rfl⟩

def places (job : Job) : Nat :=
  job.tasks.countP fun task => task.stage.isPlaced

def IsFinishedWith (job : Job) (t : Nat) (object : ObjectDescriptor) (v : Verdict) : Prop :=
  job.tasks[t]? = some ⟨object, .finished v⟩

theorem places_setStage (ht : job.tasks[t]? = some ⟨object, stage⟩) (stage' : TaskStage) :
    (job.setStage t stage').places + (if stage.isPlaced then 1 else 0) =
      job.places + if stage'.isPlaced then 1 else 0 :=
  countP_setStage TaskStage.isPlaced ht stage'

theorem isFinishedWith_setStage_iff (ht : job.tasks[t]? = some ⟨object, stage⟩)
    (hstage : stage.finished? = none) {w : Nat} {other : ObjectDescriptor} {v : Verdict} :
    (job.setStage t stage').IsFinishedWith w other v ↔
      job.IsFinishedWith w other v ∨ (w = t ∧ other = object ∧ stage'.finished? = some v) := by
  unfold IsFinishedWith
  rw [getElem?_tasks_setStage]
  by_cases heq : t = w
  · subst heq
    rw [if_pos rfl, ht]
    simp only [Option.map_some, Option.some.injEq, Task.mk.injEq]
    constructor
    · rintro ⟨rfl, rfl⟩
      exact .inr ⟨trivial, rfl, rfl⟩
    · rintro (⟨-, rfl⟩ | ⟨-, rfl, hv⟩)
      · cases hstage
      · exact ⟨rfl, TaskStage.finished?_eq_some_iff.mp hv⟩
  · rw [if_neg heq]
    simp [Ne.symm heq]

theorem IsFinishedWith.eq {object' : ObjectDescriptor} {v v' : Verdict}
    (h : job.IsFinishedWith t object v) (h' : job.IsFinishedWith t object' v') :
    object = object' ∧ v = v' := by
  have heq := h.symm.trans h'
  simp only [Option.some.injEq, Task.mk.injEq, TaskStage.finished.injEq] at heq
  exact heq

/-- An action that is none on the queue leaves alone which tasks have finished and how many places
have been promised. -/
theorem unposted_of_act (hqueue : job.results.isSome = true) (hposts : action.posts = false)
    (hact : job.act action = some u) :
    u.job.places = job.places ∧
      ∀ t object v, u.job.IsFinishedWith t object v ↔ job.IsFinishedWith t object v := by
  cases hown : action.task? with
  | some t =>
    obtain ⟨object, stage, stage', ht, hgoes, htasks⟩ := act_goes hown hact
    have hnone := accounted?_eq_none_of_act hown hposts ht hact
    obtain ⟨hstage, hstage', hfinished⟩ := hgoes.unposted hqueue hnone
    have hplaces := places_setStage ht stage'
    rw [hstage, hstage'] at hplaces
    constructor
    · rw [places, htasks]
      exact hplaces
    · intro w other v
      have hold := TaskStage.finished?_eq_none_of_accounted hnone
      rw [IsFinishedWith, htasks, ← IsFinishedWith, isFinishedWith_setStage_iff ht hold, hfinished]
      simp
  | none =>
    obtain ⟨base, hwork, htasks, -⟩ := exists_work hown hact
    obtain ⟨objects, hbase, -, -⟩ := hwork.exists_dispatched
    constructor
    · have hplaces := countP_spawn TaskStage.isPlaced rfl job objects
      rw [places, htasks, hbase]
      exact hplaces
    · intro w other v
      rw [IsFinishedWith, IsFinishedWith, htasks, hbase]
      rcases Nat.lt_or_ge w job.tasks.length with hlt | hle
      · rw [List.getElem?_append_left hlt]
      · rw [List.getElem?_append_right hle, List.getElem?_eq_none hle, List.getElem?_map]
        cases objects[w - job.tasks.length]? <;> simp

/-- The queue holds what has been delivered and not been received, and it is never overfull. A task
whose result was not delivered has found the queue closed, or full. -/
structure Posted (capacity : Nat) (events : List Event) (job : Job) (queue : ResultQueue) :
    Prop where
  results : job.results = some queue
  capacity_eq : queue.capacity = capacity
  promised_eq : queue.promised = job.places
  length_le : queue.waiting.length + queue.promised ≤ capacity
  order : queue.isOpen = true →
    received events ++ queue.waiting = (delivered events).map Delivery.result
  received_prefix : received events <+: (delivered events).map Delivery.result
  closed : queue.isOpen = false → queue.waiting = []
  nodup : ((delivered events).map Delivery.task).Nodup
  finished : ∀ d ∈ delivered events,
    ∃ object v, job.IsFinishedWith d.task object v ∧ d.result = job.resultOf object v
  full : queue.isOpen = true → ∀ t object v, job.IsFinishedWith t object v →
    t ∈ (delivered events).map Delivery.task ∨ capacity ≤ (delivered events).length + queue.promised

variable {capacity : Nat}

theorem resultOf_congr (h : next.setup = job.setup) : next.resultOf = job.resultOf := by
  funext object v
  rw [resultOf, resultOf, h]

theorem posted_new (hnew : new? setup (some (.ofCapacity capacity)) = .ok start) :
    Posted (max capacity 1) [] start (.ofCapacity capacity) := by
  rw [(new?_eq_ok hnew).1]
  refine ⟨rfl, rfl, rfl, Nat.zero_le _, fun _ => rfl, List.nil_prefix, fun _ => rfl,
    List.nodup_nil, ?_, ?_⟩
  · intro d hd
    cases hd
  · intro _ t object v hfinished
    cases hfinished

/-- What neither delivers nor takes a result may promise places and end tasks, which then have found
the queue full. -/
theorem Posted.still (h : Posted capacity events job queue) {e : Event} {promised : Nat}
    (hdelivers : e.delivers? = none) (hreceives : e.receives? = none)
    (hresults : next.results = some { queue with promised }) (hsetup : next.setup = job.setup)
    (hplaces : promised = next.places) (hroom : queue.waiting.length + promised ≤ capacity)
    (hkeeps : ∀ t object v, job.IsFinishedWith t object v → next.IsFinishedWith t object v)
    (hfull : queue.isOpen = true → ∀ t object v, next.IsFinishedWith t object v →
      t ∈ (delivered events).map Delivery.task ∨ capacity ≤ (delivered events).length + promised) :
    Posted capacity (events ++ [e]) next { queue with promised } := by
  have hdelivered : delivered (events ++ [e]) = delivered events := by
    rw [delivered_snoc, hdelivers, Option.toList_none, List.append_nil]
  have hreceived : received (events ++ [e]) = received events := by
    rw [received_snoc, hreceives, Option.toList_none, List.append_nil]
  refine ⟨hresults, h.capacity_eq, hplaces, hroom, ?_, ?_, h.closed, ?_, ?_, ?_⟩ <;>
    simp only [hdelivered, hreceived]
  · exact h.order
  · exact h.received_prefix
  · exact h.nodup
  · intro d hd
    obtain ⟨object, v, hfinished, hresult⟩ := h.finished d hd
    exact ⟨object, v, hkeeps _ _ _ hfinished, by rw [resultOf_congr hsetup, hresult]⟩
  · exact hfull

theorem Posted.unposted (h : Posted capacity events job queue) (hposts : action.posts = false)
    (hact : job.act action = some u) : Posted capacity (events ++ [⟨job, action⟩]) u.job queue := by
  have hqueue : job.results.isSome = true := by
    rw [h.results]
    rfl
  obtain ⟨hplaces, hfinished⟩ := unposted_of_act hqueue hposts hact
  have hreceive : action ≠ .receive := by
    rintro rfl
    cases hposts
  refine h.still (delivers?_of_posts hposts) (receives?_of_ne hreceive)
    ((results_of_act hposts hact).trans h.results) (act_deed hact).move.1.setup
    (h.promised_eq.trans hplaces.symm) h.length_le ?_ ?_
  · intro t object v
    exact (hfinished t object v).mpr
  · intro hopen t object v hnext
    exact h.full hopen t object v ((hfinished t object v).mp hnext)

section Repost

variable {v : Verdict}

theorem Posted.length_waiting_le (h : Posted capacity events job queue)
    (hopen : queue.isOpen = true) : queue.waiting.length ≤ (delivered events).length := by
  have hlength := congrArg List.length (h.order hopen)
  rw [List.length_append, List.length_map] at hlength
  omega

theorem Posted.not_mem_delivered (h : Posted capacity events job queue)
    (ht : job.tasks[t]? = some ⟨object, stage⟩) (hstage : stage.finished? = none) :
    t ∉ (delivered events).map Delivery.task := by
  intro hmem
  obtain ⟨d, hd, rfl⟩ := List.mem_map.mp hmem
  obtain ⟨object', v', hfinished, -⟩ := h.finished d hd
  cases ht.symm.trans hfinished
  cases hstage

theorem Posted.place (h : Posted capacity events job queue)
    (ht : job.tasks[t]? = some ⟨object, .publishing v⟩) (hroom : queue.hasRoom = true) :
    Posted capacity (events ++ [⟨job, .place t⟩])
      (job.repost t (.placed v) { queue with promised := queue.promised + 1 })
      { queue with promised := queue.promised + 1 } := by
  have hroom : queue.waiting.length + queue.promised < queue.capacity := of_decide_eq_true hroom
  have hcapacity := h.capacity_eq
  have hplaces : (job.setStage t (.placed v)).places + 0 = job.places + 1 :=
    places_setStage ht (.placed v)
  have hpromised : queue.promised + 1 = (job.setStage t (.placed v)).places := by
    have := h.promised_eq
    omega
  refine h.still rfl (receives?_of_ne nofun) rfl rfl hpromised (by omega) ?_ ?_
  · intro w other v' hfinished
    exact (isFinishedWith_setStage_iff ht rfl).mpr (.inl hfinished)
  · intro hopen w other v' hfinished
    rcases (isFinishedWith_setStage_iff ht rfl).mp hfinished with hold | ⟨-, -, hnew⟩
    · exact (h.full hopen w other v' hold).imp_right fun hle => by omega
    · cases hnew

theorem Posted.drop (h : Posted capacity events job queue)
    (ht : job.tasks[t]? = some ⟨object, .publishing v⟩)
    (hfull : queue.isOpen = true → queue.hasRoom = false) :
    Posted capacity (events ++ [⟨job, .discard t⟩]) (job.repost t (.finished v) queue) queue := by
  have hplaces : (job.setStage t (.finished v)).places + 0 = job.places + 0 :=
    places_setStage ht (.finished v)
  refine h.still rfl (receives?_of_ne nofun) rfl rfl (h.promised_eq.trans hplaces.symm) h.length_le
    ?_ ?_
  · intro w other v' hfinished
    exact (isFinishedWith_setStage_iff ht rfl).mpr (.inl hfinished)
  · intro hopen w other v' hfinished
    rcases (isFinishedWith_setStage_iff ht rfl).mp hfinished with hold | -
    · exact h.full hopen w other v' hold
    · -- What fills the queue now has been delivered or has a place.
      right
      have hnot : ¬queue.waiting.length + queue.promised < queue.capacity :=
        of_decide_eq_false (hfull hopen)
      have hwaiting := h.length_waiting_le hopen
      have hcapacity := h.capacity_eq
      omega

theorem Posted.withdraw (h : Posted capacity events job queue)
    (ht : job.tasks[t]? = some ⟨object, .placed v⟩) (hclosed : queue.isOpen = false) :
    Posted capacity (events ++ [⟨job, .discard t⟩])
      (job.repost t (.finished v) { queue with promised := queue.promised - 1 })
      { queue with promised := queue.promised - 1 } := by
  have hlength := h.length_le
  have hplaces : (job.setStage t (.finished v)).places + 1 = job.places + 0 :=
    places_setStage ht (.finished v)
  have hpromised : queue.promised - 1 = (job.setStage t (.finished v)).places := by
    have := h.promised_eq
    omega
  refine h.still rfl (receives?_of_ne nofun) rfl rfl hpromised (by omega) ?_ ?_
  · intro w other v' hfinished
    exact (isFinishedWith_setStage_iff ht rfl).mpr (.inl hfinished)
  · intro hopen
    cases hclosed.symm.trans hopen

theorem Posted.publish (h : Posted capacity events job queue)
    (ht : job.tasks[t]? = some ⟨object, .placed v⟩) (hopen : queue.isOpen = true) :
    Posted capacity (events ++ [⟨job, .publish t⟩])
      (job.repost t (.finished v)
        { queue with
          promised := queue.promised - 1
          waiting := queue.waiting ++ [job.resultOf object v] })
      { queue with
        promised := queue.promised - 1
        waiting := queue.waiting ++ [job.resultOf object v] } := by
  have hdelivers : delivers? ⟨job, .publish t⟩ = some ⟨t, job.resultOf object v⟩ := by
    simp only [delivers?, ht]
  have hdelivered : delivered (events ++ [⟨job, .publish t⟩]) =
      delivered events ++ [⟨t, job.resultOf object v⟩] := by
    rw [delivered_snoc, hdelivers, Option.toList_some]
  have hreceived : received (events ++ [⟨job, .publish t⟩]) = received events := by
    rw [received_snoc, receives?_of_ne (e := ⟨job, .publish t⟩) nofun, Option.toList_none,
      List.append_nil]
  have hpromised := h.promised_eq
  have hlength := h.length_le
  have hplaces : (job.setStage t (.finished v)).places + 1 = job.places + 0 :=
    places_setStage ht (.finished v)
  have hnext : queue.promised - 1 = (job.setStage t (.finished v)).places := by omega
  refine ⟨rfl, h.capacity_eq, ?_, ?_, ?_, ?_, ?_, ?_, ?_, ?_⟩ <;>
    simp only [hdelivered, hreceived, List.map_append, List.map_singleton, List.length_append,
      List.length_singleton]
  · exact hnext
  · omega
  · intro _
    rw [← List.append_assoc, h.order hopen]
  · exact h.received_prefix.trans (List.prefix_append ..)
  · intro hclosed
    cases hopen.symm.trans hclosed
  · rw [← List.concat_eq_append, List.nodup_concat]
    exact ⟨h.not_mem_delivered ht rfl, h.nodup⟩
  · intro d hd
    rcases List.mem_append.mp hd with hold | hnew
    · obtain ⟨other, v', hfinished, hresult⟩ := h.finished d hold
      exact ⟨other, v', (isFinishedWith_setStage_iff ht rfl).mpr (.inl hfinished), hresult⟩
    · cases List.mem_singleton.mp hnew
      exact ⟨object, v, (isFinishedWith_setStage_iff ht rfl).mpr (.inr ⟨rfl, rfl, rfl⟩), rfl⟩
  · intro _ w other v' hfinished
    rcases (isFinishedWith_setStage_iff ht rfl).mp hfinished with hold | ⟨rfl, -, -⟩
    · rcases h.full hopen w other v' hold with hmem | hle
      · exact .inl (List.mem_append_left _ hmem)
      · right
        omega
    · exact .inl (List.mem_append_right _ (List.mem_singleton.mpr rfl))

end Repost

theorem Posted.receive (h : Posted capacity events job queue) {result : CopyResult}
    {waiting : List CopyResult} (hwaiting : queue.waiting = result :: waiting) :
    Posted capacity (events ++ [⟨job, .receive⟩])
      { job with results := some { queue with waiting } } { queue with waiting } := by
  have hreceives : receives? ⟨job, .receive⟩ = some result := by
    simp only [receives?, act, Job.receive, h.results, hwaiting]
  have hdelivered : delivered (events ++ [⟨job, .receive⟩]) = delivered events := by
    rw [delivered_snoc, delivers?]
    exact List.append_nil _
  have hreceived : received (events ++ [⟨job, .receive⟩]) = received events ++ [result] := by
    rw [received_snoc, hreceives, Option.toList_some]
  have hlength := h.length_le
  rw [hwaiting, List.length_cons] at hlength
  have hopen : queue.isOpen = true := by
    cases hopen : queue.isOpen with
    | true => rfl
    | false =>
      rw [h.closed hopen] at hwaiting
      cases hwaiting
  have horder := h.order hopen
  rw [hwaiting, List.append_cons] at horder
  refine ⟨rfl, h.capacity_eq, h.promised_eq, ?_, ?_, ?_, ?_, ?_, ?_, ?_⟩ <;>
    simp only [hdelivered, hreceived]
  · omega
  · exact fun _ => horder
  · exact ⟨waiting, horder⟩
  · intro hclosed
    cases hopen.symm.trans hclosed
  · exact h.nodup
  · exact h.finished
  · exact h.full

theorem Posted.close (h : Posted capacity events job queue) :
    Posted capacity (events ++ [⟨job, .closeResults⟩])
      { job with results := some { queue with isOpen := false, waiting := [] } }
      { queue with isOpen := false, waiting := [] } := by
  have hdelivered : delivered (events ++ [⟨job, .closeResults⟩]) = delivered events := by
    rw [delivered_snoc, delivers?]
    exact List.append_nil _
  have hreceived : received (events ++ [⟨job, .closeResults⟩]) = received events := by
    rw [received_snoc, receives?_of_ne (e := ⟨job, .closeResults⟩) nofun, Option.toList_none,
      List.append_nil]
  have hlength := h.length_le
  refine ⟨rfl, h.capacity_eq, h.promised_eq, ?_, nofun, ?_, fun _ => rfl, ?_, ?_, nofun⟩ <;>
    simp only [hdelivered, hreceived]
  · exact Nat.le_trans (Nat.add_le_add_right (Nat.zero_le _) _) hlength
  · exact h.received_prefix
  · exact h.nodup
  · exact h.finished

theorem Posted.step (h : Posted capacity events job queue) (hact : job.act action = some u) :
    ∃ queue, Posted capacity (events ++ [⟨job, action⟩]) u.job queue := by
  cases hposts : action.posts with
  | false => exact ⟨queue, h.unposted hposts hact⟩
  | true =>
    have hdone := posts_of_act h.results hposts hact
    generalize u.job = next at hdone
    cases hdone with
    | place ht _ hroom => exact ⟨_, h.place ht hroom⟩
    | publish ht hopen => exact ⟨_, h.publish ht hopen⟩
    | drop ht hfull => exact ⟨_, h.drop ht hfull⟩
    | withdraw ht hclosed => exact ⟨_, h.withdraw ht hclosed⟩
    | receive hwaiting => exact ⟨_, h.receive hwaiting⟩
    | close => exact ⟨_, h.close⟩

theorem Path.posted (hnew : new? setup (some (.ofCapacity capacity)) = .ok start)
    (h : Path start events job) : ∃ queue, Posted (max capacity 1) events job queue := by
  induction h with
  | start => exact ⟨_, posted_new hnew⟩
  | step _ hact ih =>
    obtain ⟨queue, hposted⟩ := ih
    exact hposted.step hact

/-- What a task has to deliver once it has finished. -/
def report? (job : Job) (t : Nat) : Option Delivery :=
  (job.tasks[t]?).bind fun task =>
    task.stage.finished?.map fun v => ⟨t, job.resultOf task.object v⟩

def reports (job : Job) : List Delivery :=
  (List.range job.tasks.length).filterMap job.report?

theorem report?_eq_some_iff {d : Delivery} :
    job.report? t = some d ↔ d.task = t ∧
      ∃ object v, job.IsFinishedWith t object v ∧ d.result = job.resultOf object v := by
  constructor
  · intro h
    obtain ⟨⟨object, stage⟩, ht, hfinished⟩ := Option.bind_eq_some_iff.mp h
    obtain ⟨v, hv, rfl⟩ := Option.map_eq_some_iff.mp hfinished
    cases TaskStage.finished?_eq_some_iff.mp hv
    exact ⟨rfl, object, v, ht, rfl⟩
  · obtain ⟨task, result⟩ := d
    rintro ⟨rfl, object, v, hfinished, rfl⟩
    rw [report?, hfinished]
    rfl

theorem mem_reports_iff {d : Delivery} :
    d ∈ job.reports ↔
      ∃ object v, job.IsFinishedWith d.task object v ∧ d.result = job.resultOf object v := by
  rw [reports, List.mem_filterMap]
  constructor
  · rintro ⟨t, -, hreport⟩
    obtain ⟨rfl, hfinished⟩ := report?_eq_some_iff.mp hreport
    exact hfinished
  · rintro ⟨object, v, hfinished, hresult⟩
    have hlt := (List.getElem?_eq_some_iff.mp hfinished).1
    exact ⟨d.task, List.mem_range.mpr hlt,
      report?_eq_some_iff.mpr ⟨rfl, object, v, hfinished, hresult⟩⟩

theorem nodup_reports (job : Job) : job.reports.Nodup := by
  refine List.Nodup.filterMap ?_ List.nodup_range
  intro t t' d ht ht'
  exact (report?_eq_some_iff.mp ht).1.symm.trans (report?_eq_some_iff.mp ht').1

theorem Posted.subperm_reports (h : Posted capacity events job queue) :
    (delivered events).Subperm job.reports :=
  List.subperm_of_subset h.nodup.of_map fun d hd => mem_reports_iff.mpr (h.finished d hd)

/-- While the queue is open, either all results have been delivered or the queue has been filled. -/
theorem Posted.perm_or_full (h : Posted capacity events job queue) (hopen : queue.isOpen = true) :
    (delivered events).Perm job.reports ∨
      (delivered events).length < job.reports.length ∧
        capacity ≤ (delivered events).length + queue.promised := by
  rcases Nat.lt_or_ge (delivered events).length job.reports.length with hlt | hle
  · right
    refine ⟨hlt, ?_⟩
    have hmissing : ∃ d ∈ job.reports, d ∉ delivered events := by
      by_contra hall
      push Not at hall
      exact absurd (List.subperm_of_subset job.nodup_reports hall).length_le (by omega)
    obtain ⟨d, hd, hnot⟩ := hmissing
    obtain ⟨object, v, hfinished, hresult⟩ := mem_reports_iff.mp hd
    refine (h.full hopen d.task object v hfinished).resolve_left ?_
    -- A delivery of the same task would be the missing one.
    intro hmem
    obtain ⟨d', hd', htask⟩ := List.mem_map.mp hmem
    obtain ⟨object', v', hfinished', hresult'⟩ := h.finished d' hd'
    rw [htask] at hfinished'
    obtain ⟨rfl, rfl⟩ := hfinished.eq hfinished'
    have heq : d' = d := by
      cases d
      cases d'
      simp only [Delivery.mk.injEq]
      exact ⟨htask, hresult'.trans hresult.symm⟩
    exact hnot (heq ▸ hd')
  · exact .inl (h.subperm_reports.perm_of_length_le hle)

theorem Posted.perm_reports (h : Posted capacity events job queue) (hopen : queue.isOpen = true)
    (hroom : job.reports.length + queue.promised ≤ capacity) :
    (delivered events).Perm job.reports := by
  apply (h.perm_or_full hopen).resolve_right
  rintro ⟨hlt, hfull⟩
  omega

theorem Posted.length_delivered (h : Posted capacity events job queue) (hopen : queue.isOpen = true)
    (hunread : received events = []) :
    (delivered events).length + queue.promised =
      min capacity (job.reports.length + queue.promised) := by
  have horder := congrArg List.length (h.order hopen)
  rw [hunread, List.nil_append, List.length_map] at horder
  have hlength := h.length_le
  rcases h.perm_or_full hopen with hperm | ⟨hlt, hfull⟩
  · have := hperm.length_eq
    omega
  · omega

end Job

end BucketMigration
