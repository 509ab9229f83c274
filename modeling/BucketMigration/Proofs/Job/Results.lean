import BucketMigration.Proofs.Job.Deliveries
import BucketMigration.Proofs.Job.Slots
import BucketMigration.World.Basic

/-!
# The stream of results

A task publishes one result when it ends, unless it panics, and the result agrees with the tally and
the recorded failures. How many results are delivered depends on the room in the queue only. Nothing
else depends on the queue: tasks finish whether they are delivered or not, they hold no slot
meanwhile, and publishing changes neither the tally nor the stores.
-/

namespace BucketMigration

namespace CopyResult

variable (sourceKey targetKey : String) (v : Verdict)

theorem success_iff : (ofVerdict sourceKey targetKey v).success = true ↔
    (ofVerdict sourceKey targetKey v).error = none := by
  rcases v with e | (_ | _) <;> simp [ofVerdict]

theorem isSome_mode_iff : (ofVerdict sourceKey targetKey v).mode.isSome = true ↔
    TaskStatus.ofVerdict v = .migrated := by
  rcases v with e | (_ | _)
  · cases hskip : e.isSkip <;> simp [ofVerdict, TaskStatus.ofVerdict, hskip]
  · simp [ofVerdict, TaskStatus.ofVerdict]
  · simp [ofVerdict, TaskStatus.ofVerdict]

theorem bytesCopied_of_mode (h : (ofVerdict sourceKey targetKey v).mode = none) :
    (ofVerdict sourceKey targetKey v).bytesCopied = 0 := by
  rcases v with e | (_ | _)
  · rfl
  · cases h
  · rfl

theorem skipped_iff : (ofVerdict sourceKey targetKey v).skipped = true ↔
    TaskStatus.ofVerdict v = .skipped := by
  rcases v with e | (_ | _) <;> simp [ofVerdict]

theorem error_eq_some_iff {e : MigrationError} :
    (ofVerdict sourceKey targetKey v).error = some e ↔ v = .error e := by
  rcases v with e' | (_ | _) <;> simp [ofVerdict]

end CopyResult

theorem TaskStage.group?_of_accounted {stage : TaskStage} {v : Verdict}
    (h : stage.accounted? = some v) : stage.group? = some (.ofVerdict v) := by
  cases stage with
  | publishing | placed | finished =>
    cases h
    rfl
  | _ => cases h

theorem TaskStage.holdsSlot_of_accounted {stage : TaskStage} {v : Verdict}
    (h : stage.accounted? = some v) : stage.holdsSlot = false := by
  cases stage with
  | granted | running => cases h
  | _ => rfl

theorem Failure.ofVerdict?_eq_some_iff {t : Nat} {object : ObjectDescriptor} {v : Verdict}
    {f : Failure} :
    ofVerdict? t object v = some f ↔ v = .error f.error ∧ TaskStatus.ofVerdict v ≠ .skipped ∧
      f.task = t ∧ f.key = object.key := by
  obtain ⟨task, key, error⟩ := f
  rcases v with e | outcome
  · cases hskip : e.isSkip with
    | true => simp [ofVerdict?, TaskStatus.ofVerdict, hskip]
    | false =>
      simp only [ofVerdict?, TaskStatus.ofVerdict, hskip, Bool.false_eq_true, if_false,
        Option.some.injEq, Failure.mk.injEq, Except.error.injEq]
      constructor
      · rintro ⟨rfl, rfl, rfl⟩
        exact ⟨rfl, by decide, rfl, rfl⟩
      · rintro ⟨rfl, -, rfl, rfl⟩
        exact ⟨rfl, rfl, rfl⟩
  · simp [ofVerdict?]

namespace Job

open Event

variable {job next start : Job} {setup : Setup} {results : Option ResultQueue} {queue : ResultQueue}
  {object : ObjectDescriptor} {stage stage' : TaskStage} {course : Course} {events : List Event}
  {action : JobAction} {t : Nat} {v : Verdict} {u : Transition} {capacity : Nat}

/-- What the result of a task says agrees with its object, with its verdict, and with how the
history of the job has counted and recorded it. -/
structure Tells (setup : Setup) (events : List Event) (t : Nat) (object : ObjectDescriptor)
    (v : Verdict) (r : CopyResult) : Prop where
  sourceKey : r.sourceKey = object.key
  targetKey : r.targetKey = setup.targetKey object.key
  success : r.success = true ↔ r.error = none
  mode : r.mode.isSome = true ↔ TaskStatus.ofVerdict v = .migrated
  bytesCopied : r.mode = none → r.bytesCopied = 0
  migrated : counted Progress.migrated events t = if r.mode.isSome then 1 else 0
  skipped : counted Progress.skipped events t = if r.skipped then 1 else 0
  failed : ∀ key e, ⟨t, key, e⟩ ∈ recorded events ↔
    key = r.sourceKey ∧ r.error = some e ∧ r.skipped = false

theorem Told.mem_recorded_iff (h : Told setup events t object stage)
    (hv : stage.accounted? = some v) (key : String) (e : MigrationError) :
    ⟨t, key, e⟩ ∈ Event.recorded events ↔
      key = object.key ∧ v = .error e ∧ TaskStatus.ofVerdict v ≠ .skipped := by
  have hfilter : (⟨t, key, e⟩ : Failure) ∈ Event.recorded events ↔
      ⟨t, key, e⟩ ∈ (Event.recorded events).filter fun f => f.task == t := by
    simp [List.mem_filter]
  rw [hfilter, h.recorded, hv, Option.bind_some, Option.mem_toList,
    Failure.ofVerdict?_eq_some_iff]
  constructor
  · rintro ⟨hverdict, hstatus, -, hkey⟩
    exact ⟨hkey, hverdict, hstatus⟩
  · rintro ⟨hkey, hverdict, hstatus⟩
    exact ⟨hverdict, hstatus, rfl, hkey⟩

theorem Told.tells (h : Told setup events t object stage) (hv : stage.accounted? = some v) :
    Tells setup events t object v (.ofVerdict object.key (setup.targetKey object.key) v) where
  sourceKey := by rcases v with e | (_ | _) <;> rfl
  targetKey := by rcases v with e | (_ | _) <;> rfl
  success := CopyResult.success_iff ..
  mode := CopyResult.isSome_mode_iff ..
  bytesCopied := CopyResult.bytesCopied_of_mode _ _ v
  migrated := by
    rw [h.migrated, TaskStage.group?_of_accounted hv]
    simp only [CopyResult.isSome_mode_iff, Option.some.injEq]
  skipped := by
    rw [h.skipped, TaskStage.group?_of_accounted hv]
    simp only [CopyResult.skipped_iff, Option.some.injEq]
  failed := by
    intro key e
    have hsource : (CopyResult.ofVerdict object.key (setup.targetKey object.key) v).sourceKey =
        object.key := by rcases v with e | (_ | _) <;> rfl
    rw [h.mem_recorded_iff hv, hsource, CopyResult.error_eq_some_iff, ← Bool.not_eq_true,
      CopyResult.skipped_iff]

theorem TaskMove.outcome?_eq (h : TaskMove job object stage stage' course)
    (hv : stage.outcome? = some v) : stage'.outcome? = some v := by
  cases h with
  | grant | refuse | start => cases hv
  | copy h => cases h.verdict?_eq_none.symm.trans hv
  | panic reason h => cases h.symm.trans hv
  | release h => exact h.symm.trans hv
  | account => split <;> exact hv
  | place => exact hv
  | finish h => rcases h with rfl | rfl <;> exact hv

theorem TaskMove.ne_queued (h : TaskMove job object stage stage' course) : stage' ≠ .queued := by
  cases h with
  | account => split <;> nofun
  | _ => nofun

/-- A task is over at last when it goes on from time to time, and keeps what its moves keep. -/
theorem Reach.inevitable_isOver (hnew : new? setup results = .ok start) (h : Reach start job)
    {P : TaskStage → Prop} (hqueued : ¬P .queued)
    (hmove : ∀ job object stage stage' course, TaskMove job object stage stage' course →
      P stage → P stage')
    (ht : job.stage? t = some stage) (hstage : P stage) :
    Inevitable (Round t)
      (fun a => ∃ stage, a.stage? t = some stage ∧ P stage ∧ stage.isOver = true) job := by
  obtain ⟨task, htask, rfl⟩ := Option.map_eq_some_iff.mp ht
  refine (Job.inevitable_isOver (t := t) hnew
    (K := fun a => Reach start a ∧ ∃ task, a.tasks[t]? = some task ∧ P task.stage)
    (fun _ ha => ha.1) ?_ ?_ ⟨h, task, htask, hstage⟩).mono ?_
  · rintro a b ⟨hreach, task, htask, hstage⟩ hstep
    refine ⟨hreach.step hstep, ?_⟩
    rcases hstep.move.2.task_cases htask with hsame | ⟨stage', hmoved, hnext⟩
    · exact ⟨task, hsame, hstage⟩
    · exact ⟨_, hnext, hmove _ _ _ _ _ hmoved hstage⟩
  · rintro a ⟨-, task, htask, hstage⟩
    refine ⟨task, htask, ?_⟩
    intro heq
    exact hqueued (heq ▸ hstage)
  · rintro a ⟨⟨-, task, htask, hstage⟩, task', htask', hover⟩
    cases htask.symm.trans htask'
    exact ⟨task.stage, by rw [stage?, htask]; rfl, hstage, hover⟩

theorem Reach.inevitable_finished (hnew : new? setup results = .ok start) (h : Reach start job)
    (ht : job.stage? t = some stage) (hv : stage.outcome? = some v) :
    Inevitable (Round t) (fun a => a.stage? t = some (.finished v)) job := by
  refine (h.inevitable_isOver hnew (P := fun stage => stage.outcome? = some v) nofun
    (fun _ _ _ _ _ => TaskMove.outcome?_eq) ht hv).mono ?_
  rintro a ⟨stage, hstage, houtcome, hover⟩
  cases stage with
  | finished v' =>
    cases houtcome
    exact hstage
  | panicked => cases houtcome
  | _ => cases hover

theorem Reach.inevitable_over (hnew : new? setup results = .ok start) (h : Reach start job)
    (ht : job.stage? t = some stage) (hqueued : stage ≠ .queued) :
    Inevitable (Round t) (fun a => ∃ stage, a.stage? t = some stage ∧ stage.isOver = true) job := by
  refine (h.inevitable_isOver hnew (P := fun stage => stage ≠ .queued) (fun h => h rfl)
    (fun _ _ _ _ _ hmove _ => hmove.ne_queued) ht hqueued).mono ?_
  rintro a ⟨stage, hstage, -, hover⟩
  exact ⟨stage, hstage, hover⟩

/-- Of a job, only the results on their way have changed, and how far the results of tasks have come
that have been accounted. -/
structure Quiet (job next : Job) : Prop where
  rest : next = { job with tasks := next.tasks, results := next.results }
  tasks : ∀ (t : Nat) (task : Task), job.tasks[t]? = some task →
    ∃ stage, next.tasks[t]? = some ⟨task.object, stage⟩ ∧
      stage.holdsSlot = task.stage.holdsSlot ∧ stage.accounted? = task.stage.accounted?
  taskCalls : ∀ t lane, next.taskCall? t lane = job.taskCall? t lane
  feedCalls : ∀ i, next.feedCall? i = job.feedCall? i

theorem taskCall?_eq_none (h : job.stage? t = some stage) (hv : stage.accounted? = some v)
    (lane : Lane) : job.taskCall? t lane = none := by
  unfold taskCall?
  rw [h]
  cases stage with
  | running => cases hv
  | _ => rfl

theorem quiet_repost (ht : job.tasks[t]? = some ⟨object, stage⟩) (hv : stage.accounted? = some v)
    (hv' : stage'.accounted? = some v) : Quiet job (job.repost t stage' queue) := by
  have hslot := TaskStage.holdsSlot_of_accounted hv
  have hslot' := TaskStage.holdsSlot_of_accounted hv'
  have htasks : ∀ w, (job.repost t stage' queue).tasks[w]? =
      if t = w then (job.tasks[w]?).map fun task => { task with stage := stage' }
      else job.tasks[w]? := getElem?_tasks_setStage job t stage'
  refine ⟨rfl, ?_, ?_, fun _ => rfl⟩
  · intro w task hw
    by_cases heq : t = w
    · subst heq
      cases ht.symm.trans hw
      refine ⟨stage', ?_, hslot'.trans hslot.symm, hv'.trans hv.symm⟩
      rw [htasks, if_pos rfl, ht]
      rfl
    · refine ⟨task.stage, ?_, rfl, rfl⟩
      rw [htasks, if_neg heq, hw]
  · intro w lane
    by_cases heq : t = w
    · subst heq
      have hold : job.stage? t = some stage := by rw [stage?, ht]; rfl
      have hnew : (job.repost t stage' queue).stage? t = some stage' := by
        rw [stage?, htasks, if_pos rfl, ht]
        rfl
      rw [taskCall?_eq_none hold hv, taskCall?_eq_none hnew hv']
    · have hstage : (job.repost t stage' queue).stage? w = job.stage? w := by
        rw [stage?, htasks, if_neg heq, stage?]
      rw [taskCall?, taskCall?, hstage]
      rfl

theorem quiet_of_results (job : Job) (results : Option ResultQueue) :
    Quiet job { job with results } :=
  ⟨rfl, fun _ task ht => ⟨task.stage, ht, rfl, rfl⟩, fun _ _ => rfl, fun _ => rfl⟩

theorem Posts.quiet (h : Posts job queue action next) : Quiet job next := by
  cases h with
  | place ht | publish ht | drop ht | withdraw ht => exact quiet_repost ht rfl rfl
  | receive | close => exact quiet_of_results ..

theorem quiet_of_act (hqueue : job.results.isSome = true) (hposts : action.posts = true)
    (hact : job.act action = some u) : Quiet job u.job := by
  obtain ⟨queue, hresults⟩ := Option.isSome_iff_exists.mp hqueue
  exact (posts_of_act hresults hposts hact).quiet

theorem world_of_act {w : World} {x : WorldTransition} (h : w.act (.job action) = some x) :
    ∃ u, w.job.act action = some u ∧ x.world = { w with job := u.job } := by
  simp only [World.act] at h
  split at h
  · obtain ⟨u, hact, rfl⟩ := Option.map_eq_some_iff.mp h
    exact ⟨u, hact, rfl⟩
  · cases h

/-- The results that the tasks of a job have begun to publish. -/
def publications (events : List Event) (job : Job) : List CopyResult :=
  (List.range job.tasks.length).flatMap (published events)

def AllOver (job : Job) : Prop :=
  ∀ task ∈ job.tasks, task.stage.isOver = true

/-- When all tasks are over, the results that were published are those of the finished tasks. -/
theorem Reported.publications_eq (h : Reported setup events job) (hover : job.AllOver) :
    publications events job = job.reports.map Delivery.result := by
  rw [publications, reports, List.filterMap_eq_flatMap_toList, List.map_flatMap]
  apply List.flatMap_congr
  intro t ht
  obtain ⟨⟨object, stage⟩, htask⟩ : ∃ task, job.tasks[t]? = some task :=
    ⟨_, List.getElem?_eq_getElem (List.mem_range.mp ht)⟩
  have hstage := hover _ (List.mem_of_getElem? htask)
  rw [(h.tasks t _ htask).published, report?, htask, ← h.setup_eq]
  cases stage with
  | finished | panicked => rfl
  | _ => cases hstage

/-- What becomes of the results of a job whose results may be received. -/
structure ResultStream (setup : Setup) (capacity : Nat) (events : List Event) (job : Job) :
    Prop where
  /-- A task publishes its result when it is accounted, once; one that panics publishes none. -/
  published : ∀ (t : Nat) (task : Task), job.tasks[t]? = some task →
    published events t = (task.stage.accounted?.map (job.resultOf task.object)).toList
  tells : ∀ (t : Nat) (object : ObjectDescriptor) (stage : TaskStage) (v : Verdict),
    job.tasks[t]? = some ⟨object, stage⟩ → stage.accounted? = some v →
      Tells setup events t object v (job.resultOf object v)
  failures : job.progress.failures = (recorded events).foldl Failure.record {}
  capacity_eq : ∃ queue, job.results = some queue ∧ queue.capacity = max capacity 1
  /-- What is received was delivered, in this order, and what is delivered was published, once. -/
  received : received events <+: (delivered events).map Delivery.result
  delivered : ∀ d ∈ delivered events, Event.published events d.task = [d.result]
  distinct : ((Event.delivered events).map Delivery.task).Nodup
  /-- With room for all of them, all results are received, or wait to be. -/
  fitting : ∀ queue, job.results = some queue → queue.isOpen = true → job.AllOver →
    (publications events job).length ≤ max capacity 1 →
      (Event.received events ++ queue.waiting).Perm (publications events job)
  /-- When none is received, as many results are delivered as there is room for. -/
  unread : ∀ queue, job.results = some queue → queue.isOpen = true → job.AllOver →
    Event.received events = [] → queue.waiting = (Event.delivered events).map Delivery.result ∧
      (Event.delivered events).length = min (max capacity 1) (publications events job).length
  takes : ∀ queue result waiting, job.results = some queue → queue.waiting = result :: waiting →
    ∃ u, job.act .receive = some u ∧ u.returned = some (.received result) ∧
      u.job.results = some { queue with waiting }
  /-- Whatever becomes of its result, a task whose copy has ended finishes. -/
  finishes : ∀ (t : Nat) (stage : TaskStage) (v : Verdict), job.stage? t = some stage →
    stage.outcome? = some v → Inevitable (Round t) (fun a => a.stage? t = some (.finished v)) job
  ends : ∀ (t : Nat) (stage : TaskStage), job.stage? t = some stage → stage ≠ .queued →
    Inevitable (Round t) (fun a => ∃ stage, a.stage? t = some stage ∧ stage.isOver = true) job
  /-- A task that publishes holds none of the slots, and waits for no call. -/
  slots : job.freeSlots + job.holders = setup.options.concurrency
  slotless : ∀ (t : Nat) (stage : TaskStage) (v : Verdict), job.stage? t = some stage →
    stage.accounted? = some v → stage.holdsSlot = false ∧ ∀ lane, job.taskCall? t lane = none
  quiet : ∀ (action : JobAction) (u : Transition), action.posts = true → job.act action = some u →
    Quiet job u.job
  stores : ∀ (w : World) (action : JobAction) (x : WorldTransition), w.job = job →
    action.posts = true → w.act (.job action) = some x →
      x.world = { w with job := x.world.job } ∧ Quiet job x.world.job

theorem AllOver.places_eq (hover : job.AllOver) : job.places = 0 := by
  rw [places, List.countP_eq_zero]
  intro task htask hplaced
  have hstage := hover task htask
  generalize task.stage = stage at hstage hplaced
  cases stage with
  | placed => cases hstage
  | _ => cases hplaced

theorem Posted.fitting (h : Posted capacity events job queue)
    (hreported : Reported setup events job) (hopen : queue.isOpen = true) (hover : job.AllOver)
    (hroom : (publications events job).length ≤ capacity) :
    (received events ++ queue.waiting).Perm (publications events job) := by
  have hpublished := hreported.publications_eq hover
  have hpromised := h.promised_eq.trans hover.places_eq
  rw [hpublished, List.length_map] at hroom
  rw [h.order hopen, hpublished]
  exact (h.perm_reports hopen (by omega)).map _

theorem Posted.unread (h : Posted capacity events job queue)
    (hreported : Reported setup events job) (hopen : queue.isOpen = true) (hover : job.AllOver)
    (hunread : received events = []) :
    queue.waiting = (delivered events).map Delivery.result ∧
      (delivered events).length = min capacity (publications events job).length := by
  have hlength := h.length_delivered hopen hunread
  have hpromised := h.promised_eq.trans hover.places_eq
  have horder := h.order hopen
  rw [hunread, List.nil_append] at horder
  refine ⟨horder, ?_⟩
  rw [hreported.publications_eq hover, List.length_map]
  rw [hpromised] at hlength
  exact hlength

/-- Whatever the replies are and in whatever order things happen, every task publishes one result
when it ends and none when it panics, and the result says what was counted and recorded of the task.
All results are received when there is room for them, and as many as there is room for are delivered
to a consumer that never reads. A task finishes whether its result is delivered or not, without a
slot, and publishing changes nothing but the results on their way. -/
theorem result_stream (hnew : new? setup (some (.ofCapacity capacity)) = .ok start)
    (h : Path start events job) : ResultStream setup capacity events job := by
  have hreach := h.reach
  have hreported := h.reported hnew
  obtain ⟨queue, hposted⟩ := h.posted hnew
  have hqueue : ∀ other, job.results = some other → other = queue := by
    intro other hother
    exact Option.some.inj (hother.symm.trans hposted.results)
  have hpublished : ∀ (t : Nat) (task : Task), job.tasks[t]? = some task →
      published events t = (task.stage.accounted?.map (job.resultOf task.object)).toList := by
    intro t task ht
    rw [(hreported.tasks t task ht).published, ← hreported.setup_eq]
    rfl
  refine
    { published := hpublished
      tells := ?_
      failures := hreported.failures
      capacity_eq := ⟨queue, hposted.results, hposted.capacity_eq⟩
      received := hposted.received_prefix
      delivered := ?_
      distinct := hposted.nodup
      fitting := ?_
      unread := ?_
      takes := ?_
      finishes := fun t stage v => hreach.inevitable_finished hnew
      ends := fun t stage => hreach.inevitable_over hnew
      slots := (hreach.paced hnew).slots
      slotless := ?_
      quiet := fun action u => quiet_of_act hreported.queue
      stores := ?_ }
  · intro t object stage v ht hv
    have htells := (hreported.tasks t _ ht).tells hv
    rw [← hreported.setup_eq] at htells ⊢
    exact htells
  · intro d hd
    obtain ⟨object, v, hfinished, hresult⟩ := hposted.finished d hd
    rw [hpublished d.task _ hfinished, hresult]
    rfl
  · rintro other hother hopen hover hroom
    cases hqueue other hother
    exact hposted.fitting hreported hopen hover hroom
  · rintro other hother hopen hover hunread
    cases hqueue other hother
    exact hposted.unread hreported hopen hover hunread
  · intro other result waiting hother hwaiting
    exact ⟨_, by simp only [act, Job.receive, hother, hwaiting]; rfl, rfl, rfl⟩
  · intro t stage v ht hv
    exact ⟨TaskStage.holdsSlot_of_accounted hv, taskCall?_eq_none ht hv⟩
  · rintro w action x rfl hposts hact
    obtain ⟨u, hown, hworld⟩ := world_of_act hact
    rw [hworld]
    exact ⟨rfl, quiet_of_act hreported.queue hposts hown⟩

def unreadJob : Job :=
  { setup :=
      { source := { bucket := "from" }
        target := { bucket := "to" }
        options := { skipSize := 4 } }
    freeSlots := 10
    results := some (.ofCapacity 0) }

/-- Two objects are skipped, one is not found and one panics; and no result is received. -/
def unreadTasks : List JobAction :=
  [.openFeed none, .nextPage 0,
    .listed 0 (.ok (.page ⟨[⟨"large", 9⟩, ⟨"missing", 1⟩, ⟨"lost", 1⟩, ⟨"vast", 9⟩], none, false⟩)),
    .grant 0, .grant 1, .grant 2, .grant 3, .start 0, .start 1, .start 2, .start 3,
    .release 0, .account 0, .reply 1 .whole (.ok (.metadata none)), .release 1, .account 1,
    .panic 2 "", .release 3, .account 3, .place 1, .publish 1, .discard 0, .discard 3]

/-- Of three results that are published, the one that there is room for is delivered. -/
theorem result_stream_unread :
    ∃ events job, Path unreadJob events job ∧ job.AllOver ∧ published events 2 = [] ∧
      (publications events job).length = 3 ∧ (delivered events).length = 1 ∧
      ResultStream unreadJob.setup 0 events job := by
  have htrace : (unreadJob.trace? unreadTasks).map (fun trace =>
      (trace.2.tasks.all fun task => task.stage.isOver, (published trace.1 2).length,
        (publications trace.1 trace.2).length, (received trace.1).length,
        trace.2.results.map ResultQueue.isOpen)) = some (true, 0, 3, 0, some true) := by
    decide +kernel
  obtain ⟨⟨events, job⟩, htrace, heq⟩ := Option.map_eq_some_iff.mp htrace
  simp only [Prod.mk.injEq] at heq
  obtain ⟨hover, hpanicked, hcount, hreceived, hqueue⟩ := heq
  obtain ⟨queue, hresults, hopen⟩ := Option.map_eq_some_iff.mp hqueue
  have hover : job.AllOver := List.all_eq_true.mp hover
  have hpath : Path unreadJob events job := Path.start.trace htrace
  have hnew : new? unreadJob.setup (some (.ofCapacity 0)) = .ok unreadJob := rfl
  have hpanicked := List.length_eq_zero_iff.mp hpanicked
  have hunread := List.length_eq_zero_iff.mp hreceived
  have hstream := result_stream hnew hpath
  obtain ⟨-, hdelivered⟩ := hstream.unread queue hresults hopen hover hunread
  rw [hcount] at hdelivered
  exact ⟨events, job, hpath, hover, hpanicked, hcount, hdelivered, hstream⟩

end Job

end BucketMigration
