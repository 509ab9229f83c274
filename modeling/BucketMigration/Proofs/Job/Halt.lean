import BucketMigration.Proofs.Job.Waits

/-!
# A halted job stays halted

The first error that halts a job stays in the halt slot. It is the error of a task that was fatal, of
a task that panicked, or of a listing that could not be followed. From then on no copy is started:
a task that is granted a slot afterwards is refused, and the drivers return the error.
-/

namespace BucketMigration

/-- The errors that a job is halted for. -/
inductive MigrationError.Halting : MigrationError → Prop
  | missingContinuationToken (bucket : String) : Halting (.missingContinuationToken bucket)
  | abortFailed (key id : String) (abort : StorageError) (cause : MigrationError) :
      Halting (.abortFailed key id abort cause)
  | taskFailed (message : String) : Halting (.taskFailed message)
  | tooManyParts (key : String) (parts partSize maxParts : Nat) :
      Halting (.partPlan key (.tooManyParts parts partSize maxParts))

theorem MigrationError.halting_of_isFatal {e : MigrationError} (hfatal : e.isFatal = true)
    (hkey : e.key? ≠ none) : e.Halting := by
  cases e with
  | abortFailed key id abort cause => exact .abortFailed ..
  | taskFailed message => exact .taskFailed message
  | missingContinuationToken bucket => exact .missingContinuationToken bucket
  | partPlan key source =>
    cases source with
    | tooManyParts => exact .tooManyParts ..
    | _ => cases hfatal
  | invalidBatchEntry | invalidConfig => exact absurd rfl hkey
  | _ => cases hfatal

theorem MigrationError.Halting.isFatal {e : MigrationError} (h : e.Halting) : e.isFatal = true := by
  cases h <;> rfl

namespace Job

variable {job next start : Job} {setup : Setup} {results : Option ResultQueue}
  {object : ObjectDescriptor} {stage stage' : TaskStage} {course : Course} {e : MigrationError}

/-- The halt slot is empty or holds an error that a job is halted for. -/
def HaltSound (job : Job) : Prop :=
  ∀ e, job.halt = some e → e.Halting

theorem haltSound_haltWith (hjob : job.HaltSound) (he : e.Halting) :
    (job.haltWith e).1.HaltSound := by
  intro e' he'
  rw [halt_haltWith, Option.some.injEq] at he'
  cases hhalt : job.halt with
  | none =>
    rw [hhalt] at he'
    exact he' ▸ he
  | some first =>
    rw [hhalt] at he'
    exact he' ▸ hjob first hhalt

theorem haltSound_recordVerdict (hjob : job.HaltSound) {v : Verdict}
    (hsound : ∀ e, v = .error e → e.key? ≠ none) :
    (job.recordVerdict object v).1.HaltSound := by
  unfold recordVerdict
  split
  · exact hjob
  · rename_i e
    split
    · exact hjob
    · dsimp only
      split
      · rename_i hfatal
        have hfailed : HaltSound { job with progress := job.progress.fail object.key e } := hjob
        exact haltSound_haltWith hfailed (MigrationError.halting_of_isFatal hfatal (hsound e rfl))
      · exact hjob

theorem Step.haltSound (h : job.Step next) (hsound : job.Sound) (hjob : job.HaltSound) :
    next.HaltSound := by
  have hcongr : ∀ {halt : Option MigrationError}, (∀ e, halt = some e → e.Halting) →
      next.halt = halt → next.HaltSound := by
    intro halt hhalting heq e he
    exact hhalting e (heq ▸ he)
  cases h.move.2 with
  | work hwork _ hcourse =>
    have hhalt := congrArg Course.halt hcourse
    refine hcongr ?_ hhalt
    cases hwork with
    | still => exact hjob
    | spawn => exact hjob
    | halt he =>
      apply haltSound_haltWith hjob
      rcases he with ⟨bucket, rfl⟩ | ⟨task, reason, -, rfl⟩
      · exact .missingContinuationToken bucket
      · exact .taskFailed _
  | task ht hmove _ =>
    have hstage := hsound _ (List.mem_of_getElem? ht)
    suffices hslot : ∀ e, next.course.halt = some e → e.Halting from hcongr hslot rfl
    generalize next.course = course at hmove
    cases hmove with
    | account => exact haltSound_recordVerdict hjob hstage
    | _ => exact hjob

theorem Reach.haltSound (hnew : new? setup results = .ok start) (h : Reach start job) :
    job.HaltSound := by
  apply h.invariant hnew
  · intro e he
    cases he
  · intro job next hreach hstep hjob
    exact hstep.haltSound (hreach.sound hnew) hjob

/-- A stage that tells of a fatal error that has been accounted. -/
def Fatal : TaskStage → Prop
  | .publishing v | .placed v | .finished v => ∃ e, v = .error e ∧ e.isFatal = true
  | _ => False

theorem halt_recordVerdict_of_fatal {e : MigrationError} (hfatal : e.isFatal = true) :
    (job.recordVerdict object (.error e)).1.halt ≠ none := by
  have hskip : e.isSkip = false := by
    cases hskip : e.isSkip with
    | false => rfl
    | true =>
      rw [MigrationError.isFatal_eq_false_of_isSkip hskip] at hfatal
      cases hfatal
  simp only [recordVerdict, hskip, hfatal, Bool.false_eq_true, if_false, if_true]
  exact halt_haltWith_ne_none _ _

theorem TaskMove.fatal (h : TaskMove job object stage stage' course) (hstage' : Fatal stage') :
    Fatal stage ∨ course.halt ≠ none := by
  cases h with
  | grant | refuse | start | copy | panic | release => cases hstage'
  | @account v =>
    right
    obtain ⟨e, rfl, hfatal⟩ : ∃ e, v = .error e ∧ e.isFatal = true := by
      split at hstage' <;> exact hstage'
    exact halt_recordVerdict_of_fatal hfatal
  | place => exact .inl hstage'
  | finish h => rcases h with rfl | rfl <;> exact .inl hstage'

theorem Step.halt_of_fatal (h : job.Step next)
    (hjob : ∀ task ∈ job.tasks, Fatal task.stage → job.halt ≠ none) :
    ∀ task ∈ next.tasks, Fatal task.stage → next.halt ≠ none := by
  intro task htask hfatal
  rcases h.move.2.mem_tasks htask with hold | hnew | ⟨stage, hmem, hmove⟩
  · exact mt h.halt_eq_none (hjob task hold hfatal)
  · rw [hnew] at hfatal
    cases hfatal
  · rcases hmove.fatal hfatal with hold | hhalt
    · exact mt h.halt_eq_none (hjob _ hmem hold)
    · exact hhalt

theorem Reach.halt_of_fatal (hnew : new? setup results = .ok start) (h : Reach start job) :
    ∀ task ∈ job.tasks, Fatal task.stage → job.halt ≠ none := by
  apply h.invariant hnew
  · intro task htask
    cases htask
  · intro job next _ hstep hjob
    exact hstep.halt_of_fatal hjob

theorem halt_of_joinTask {task : Nat} {reason : String} {status : TaskStatus} {joined : Job}
    {logs : List LogLine} (hpanicked : job.stage? task = some (.panicked reason))
    (h : (job.stage? task).bind (job.joinTask task) = some (status, joined, logs)) :
    joined.halt ≠ none := by
  rcases joinTask_cases h with ⟨v, hfinished, -, -⟩ | ⟨reason, -, -, rfl⟩
  · rw [hpanicked] at hfinished
    cases hfinished
  · exact halt_haltWith_ne_none _ _

theorem halt_of_join {i task : Nat} {reason : String} {t : Transition}
    (hpanicked : job.stage? task = some (.panicked reason))
    (h : job.act (.join i task) = some t ∨ job.act (.joinBatch i task) = some t) :
    t.job.halt ≠ none := by
  rcases h with hact | hact
  · obtain ⟨feed, -, hfeed⟩ := Option.bind_eq_some_iff.mp hact
    unfold actOnFeed at hfeed
    split at hfeed <;> try contradiction
    rename_i hevent _
    cases hevent
    split at hfeed
    · split at hfeed
      · rename_i joined logs hjoin
        cases hfeed
        exact (steers_joined ..).halt_eq.trans_ne (halt_of_joinTask hpanicked hjoin)
      · cases hfeed
    · cases hfeed
  · obtain ⟨batch, -, hbatch⟩ := Option.bind_eq_some_iff.mp hact
    obtain ⟨-, status, joined, logs, hjoin, rfl⟩ := joinInBatch_eq hbatch
    obtain ⟨batch', hjob⟩ := exists_drainBatch_eq joined i
      { batch with tasks := batch.tasks.erase task, summary := batch.summary.count status }
    have hhalt := halt_of_joinTask hpanicked hjoin
    simp only [Transition.after, hjob]
    exact hhalt

theorem halt_of_lacksToken {i : Nat} {reply : Reply} {page : ListPage} {t : Transition}
    (hact : job.act (.listed i reply) = some t) (hpage : Reply.page? reply = some (.ok page))
    (hlacks : page.lacksToken = true) : t.job.halt ≠ none := by
  obtain ⟨feed, -, hfeed⟩ := Option.bind_eq_some_iff.mp hact
  unfold actOnFeed at hfeed
  split at hfeed <;> try contradiction
  rename_i hevent _
  cases hevent
  rw [hpage, Option.map_some] at hfeed
  cases hfeed
  simp only [listed, hlacks, if_true, Transition.after]
  exact (steers_failPage ..).halt_eq.trans_ne (halt_haltWith_ne_none _ _)

/-- The stages of a task that is refused because `e` has halted the job. -/
def Refusal (key : String) (e : MigrationError) : TaskStage → Prop
  | .granted => True
  | .running c => c.phase = .ended (.error (.halted key e))
  | .released v | .publishing v | .placed v | .finished v => v = .error (.halted key e)
  | .queued | .panicked _ => False

theorem progress_recordVerdict (job : Job) (object : ObjectDescriptor) (v : Verdict) :
    ∃ failures, (job.recordVerdict object v).1.progress = { job.progress with failures } := by
  unfold recordVerdict
  split
  · exact ⟨_, rfl⟩
  · split
    · exact ⟨_, rfl⟩
    · dsimp only
      split
      · rw [progress_haltWith]
        exact ⟨_, rfl⟩
      · exact ⟨_, rfl⟩

theorem TaskMove.refusal (h : TaskMove job object stage stage' course) (hhalt : job.halt = some e)
    (hstage : Refusal object.key e stage) :
    Refusal object.key e stage' ∧ course.progress.landedBytes = job.progress.landedBytes := by
  cases h with
  | grant => cases hstage
  | refuse hcause =>
    rw [hhalt] at hcause
    cases hcause
    refine ⟨rfl, ?_⟩
    simp only [tally_eq]
    rfl
  | start hnone =>
    rw [hhalt] at hnone
    cases hnone
  | copy h =>
    have hended := ObjectCopy.verdict?_of_ended hstage
    rw [h.verdict?_eq_none] at hended
    cases hended
  | panic reason h =>
    have hended := ObjectCopy.verdict?_of_ended hstage
    rw [h] at hended
    cases hended
  | release h =>
    have hended := ObjectCopy.verdict?_of_ended hstage
    rw [h] at hended
    exact ⟨Option.some.inj hended, rfl⟩
  | @account v =>
    obtain ⟨failures, hprogress⟩ := progress_recordVerdict job object v
    refine ⟨by split <;> exact hstage, ?_⟩
    show (job.recordVerdict object v).1.progress.landedBytes = _
    rw [hprogress]
  | place => exact ⟨hstage, rfl⟩
  | finish h => rcases h with rfl | rfl <;> exact ⟨hstage, rfl⟩

/-- What every step keeps, still holds after some steps. -/
theorem Reach.keeps {K : Job → Prop} (hkeep : ∀ a b : Job, K a → a.Step b → K b)
    (h : Reach job next) (hjob : K job) : K next := by
  induction h with
  | refl => exact hjob
  | step _ hstep ih => exact hkeep _ _ ih hstep

/-- Task `t` is refused for `e`, in a job that comes about from `start`. -/
structure Refused (start : Job) (t : Nat) (key : String) (e : MigrationError) (job : Job) : Prop where
  reach : Reach start job
  halt : job.halt = some e
  task : ∃ object stage, job.tasks[t]? = some ⟨object, stage⟩ ∧ object.key = key ∧
    Refusal key e stage

variable {t : Nat} {key : String}

theorem Refused.step (h : Refused start t key e job) (hstep : job.Step next) :
    Refused start t key e next := by
  obtain ⟨object, stage, ht, rfl, hstage⟩ := h.task
  refine ⟨h.reach.step hstep, hstep.halt_eq h.halt, ?_⟩
  rcases hstep.move.2.task_cases ht with hsame | ⟨stage', hmove, hmoved⟩
  · exact ⟨object, stage, hsame, rfl, hstage⟩
  · exact ⟨object, stage', hmoved, rfl, (hmove.refusal h.halt hstage).1⟩

theorem Refused.reach_step (h : Refused start t key e job) (hreach : Reach job next) :
    Refused start t key e next :=
  hreach.keeps (fun _ _ => Refused.step) h

theorem Refused.taskCall? (h : Refused start t key e job) (lane : Lane) :
    job.taskCall? t lane = none := by
  obtain ⟨object, stage, ht, rfl, hstage⟩ := h.task
  unfold Job.taskCall? stage?
  rw [ht]
  cases stage with
  | running c => exact ObjectCopy.call?_ended hstage
  | _ => rfl

theorem Refused.landedBytes {action : JobAction} {u : Transition} (h : Refused start t key e job)
    (hown : action.task? = some t) (hact : job.act action = some u) :
    u.job.progress.landedBytes = job.progress.landedBytes := by
  obtain ⟨object, stage, ht, rfl, hstage⟩ := h.task
  cases act_deed hact with
  | task hother hu hmove =>
    rw [hown] at hother
    cases hother
    rw [ht] at hu
    cases hu
    exact (hmove.refusal h.halt hstage).2
  | feed hfeed => rw [task?_eq_none_of_feed? hfeed] at hown; cases hown
  | other _ hnone => rw [hnone] at hown; cases hown

/-- After whatever else, task `t` goes on. -/
def Round (t : Nat) (job next : Job) : Prop :=
  ∃ m action u, Reach job m ∧ action.task? = some t ∧ m.act action = some u ∧ u.job = next

def toDoOf (t : Nat) (job : Job) : Nat :=
  ((job.stage? t).map (TaskStage.toDo job.setup)).getD 0

theorem toDoOf_eq {task : Task} (ht : job.tasks[t]? = some task) :
    job.toDoOf t = task.stage.toDo job.setup := by
  rw [toDoOf, stage?, ht]
  rfl

theorem toDoOf_lt_of_move {task : Task} (ht : job.tasks[t]? = some task)
    (hmove : TaskMove job task.object task.stage stage' course)
    (hnext : next.tasks[t]? = some ⟨task.object, stage'⟩) (hsetup : next.setup = job.setup)
    (horderly : task.stage.Orderly job.results.isSome) : next.toDoOf t < job.toDoOf t := by
  rw [toDoOf_eq hnext, toDoOf_eq ht, hsetup]
  exact hmove.toDo_lt horderly

theorem Step.toDoOf_le (h : job.Step next) {task : Task} (ht : job.tasks[t]? = some task)
    (horderly : ∀ task ∈ job.tasks, task.stage.Orderly job.results.isSome) :
    next.toDoOf t ≤ job.toDoOf t := by
  have hsetup := h.move.1.setup
  rcases h.move.2.task_cases ht with hsame | ⟨stage', hmove, hnext⟩
  · rw [toDoOf_eq hsame, toDoOf_eq ht, hsetup]
  · exact (toDoOf_lt_of_move ht hmove hnext hsetup (horderly _ (List.mem_of_getElem? ht))).le

theorem getElem?_setStage {task : Task} (ht : job.tasks[t]? = some task) (stage : TaskStage) :
    (job.setStage t stage).tasks[t]? = some ⟨task.object, stage⟩ := by
  rw [setStage, List.getElem?_modify, ht]
  simp

theorem Reach.toDoOf_le (hnew : new? setup results = .ok start) (h : Reach start job)
    (hreach : Reach job next) {task : Task} (ht : job.tasks[t]? = some task) :
    next.toDoOf t ≤ job.toDoOf t := by
  induction hreach with
  | refl => exact Nat.le_refl _
  | step hreach hstep ih =>
    obtain ⟨later, hlater, -⟩ :=
      Option.map_eq_some_iff.mp (hreach.object_eq (Option.map_eq_some_iff.mpr ⟨task, ht, rfl⟩))
    exact (hstep.toDoOf_le hlater ((h.trans hreach).forall_orderly hnew)).trans ih

theorem Round.toDoOf_lt (hnew : new? setup results = .ok start) (h : Reach start job)
    (hround : Round t job next) {task : Task} (ht : job.tasks[t]? = some task) :
    next.toDoOf t < job.toDoOf t := by
  obtain ⟨m, action, u, hreach, hown, hact, rfl⟩ := hround
  refine Nat.lt_of_lt_of_le ?_ (h.toDoOf_le hnew hreach ht)
  cases act_deed hact with
  | task hother hm hmove htasks hframe =>
    rw [hown] at hother
    cases hother
    refine toDoOf_lt_of_move hm hmove ?_ hframe.setup
      ((h.trans hreach).forall_orderly hnew _ (List.mem_of_getElem? hm))
    rw [htasks]
    exact getElem?_setStage hm _
  | feed hfeed => rw [task?_eq_none_of_feed? hfeed] at hown; cases hown
  | other _ hnone => rw [hnone] at hown; cases hown

/-- A task that has its slot, or is past it, is over at last when it goes on from time to time. `K`
is what is kept meanwhile. -/
theorem inevitable_isOver (hnew : new? setup results = .ok start) {K : Job → Prop}
    (hreach : ∀ a, K a → Reach start a) (hkeep : ∀ a b, K a → a.Step b → K b)
    (htask : ∀ a, K a → ∃ task, a.tasks[t]? = some task ∧ task.stage ≠ .queued) (h : K job) :
    Inevitable (Round t)
      (fun a => K a ∧ ∃ task, a.tasks[t]? = some task ∧ task.stage.isOver = true) job := by
  refine Inevitable.of_measure K (toDoOf t) ?_ ?_ h
  · intro a b ha hround
    obtain ⟨task, ht, -⟩ := htask a ha
    refine ⟨?_, hround.toDoOf_lt hnew (hreach a ha) ht⟩
    obtain ⟨m, action, u, hm, -, hact, rfl⟩ := hround
    exact hkeep m u.job (hm.keeps hkeep ha) ⟨action, u, hact, rfl⟩
  · intro a ha hnot
    obtain ⟨task, ht, hqueued⟩ := htask a ha
    have hover : task.stage.isOver = false := by
      cases hover : task.stage.isOver with
      | false => rfl
      | true => exact absurd ⟨ha, task, ht, hover⟩ hnot
    have horderly := (hreach a ha).forall_orderly hnew _ (List.mem_of_getElem? ht)
    obtain ⟨action, hown, hsome⟩ := exists_act ht horderly hover fun hq => absurd hq hqueued
    obtain ⟨u, hact⟩ := Option.isSome_iff_exists.mp hsome
    exact ⟨u.job, a, action, u, .refl, hown, hact, rfl⟩

/-- A task has finished as refused, and its failure is recorded. -/
def FinishedRefused (t : Nat) (key : String) (e : MigrationError) (job : Job) : Prop :=
  job.stage? t = some (.finished (.error (.halted key e))) ∧ key ∈ job.progress.failures

/-- A refused task finishes, when it goes on from time to time. -/
theorem Refused.inevitable (hnew : new? setup results = .ok start)
    (h : Refused start t key e job) : Inevitable (Round t) (FinishedRefused t key e) job := by
  have hinevitable := inevitable_isOver (t := t) hnew (K := Refused start t key e)
    (fun _ => Refused.reach) (fun _ _ => Refused.step) ?_ h
  · refine hinevitable.mono ?_
    rintro a ⟨ha, task, htask, hover⟩
    obtain ⟨object, stage, ht, rfl, hstage⟩ := ha.task
    cases htask.symm.trans ht
    cases stage with
    | finished v =>
      have hv : v = .error (.halted object.key e) := hstage
      subst hv
      constructor
      · rw [stage?, ht]
        rfl
      · rw [(ha.reach.accounted hnew).failures]
        exact ⟨_, List.mem_of_getElem? ht, rfl, rfl⟩
    | panicked => cases hstage
    | _ => cases hover
  · intro a ha
    obtain ⟨object, stage, ht, -, hstage⟩ := ha.task
    refine ⟨_, ht, ?_⟩
    rintro rfl
    cases hstage

/-- What becomes of a task that is granted its slot in a halted job. -/
structure RefusedSafely (t : Nat) (key : String) (e : MigrationError) (job : Job) : Prop where
  stage : ∀ later, Reach job later → ∃ stage, later.stage? t = some stage ∧ Refusal key e stage
  calls : ∀ later, Reach job later → ∀ lane, later.taskCall? t lane = none
  bytes : ∀ later, Reach job later → ∀ action u, action.task? = some t →
    later.act action = some u → u.job.progress.landedBytes = later.progress.landedBytes
  finishes : Inevitable (Round t) (FinishedRefused t key e) job

/-- What becomes of a call to wait for the tasks of a feed that begins in a halted job. -/
structure WaitsSafely (own : List Nat) (i : Nat) (e : MigrationError) (t : Transition) : Prop where
  returns : ∀ w, Watch.Reach i ⟨t.job, t.returned⟩ w → ∀ r, w.returned = some r →
    r = .waited (.error e) ∧ w.job.unjoined i = 0 ∧ ∀ task ∈ own, w.job.IsOver task
  inevitable : Inevitable (Watch.Round i) (fun w => w.returned ≠ none) ⟨t.job, t.returned⟩

/-- What a halt means for a job: what it may be halted for and always is, and what becomes of the tasks
and the calls that come after it. -/
structure HaltSafety (job : Job) : Prop where
  kept : ∀ e later, job.halt = some e → Reach job later → later.halt = some e
  halting : ∀ e, job.halt = some e → e.Halting
  fatal : ∀ task ∈ job.tasks, Fatal task.stage → job.halt ≠ none
  ended : ∀ task ∈ job.tasks, ∀ e, e.Halting → task.stage = .publishing (.error e) ∨
    task.stage = .placed (.error e) ∨ task.stage = .finished (.error e) → job.halt ≠ none
  panicked : ∀ i task reason t, job.stage? task = some (.panicked reason) →
    job.act (.join i task) = some t ∨ job.act (.joinBatch i task) = some t → t.job.halt ≠ none
  truncated : ∀ i reply page t, job.act (.listed i reply) = some t →
    Reply.page? reply = some (.ok page) → page.lacksToken = true → t.job.halt ≠ none
  refused : ∀ e t object u, job.halt = some e → (job.tasks[t]?).map Task.object = some object →
    job.act (.grant t) = some u → RefusedSafely t object.key e u.job
  nextPage : ∀ e i feed, job.halt = some e → job.feeds[i]? = some feed → feed.activity = .idle →
    job.act (.nextPage i) = some { job, returned := some (.page (.error e)) }
  turn : ∀ e i feed, job.halt = some e → feed.isDone = false →
    job.turn i feed = job.drain i feed (.giveUp e)
  batch : ∀ e lines, job.halt = some e →
    job.act (.batch lines) = some { job, returned := some (.batch (.error e)) }
  wait : ∀ e i feed, job.halt = some e → job.feeds[i]? = some feed → feed.activity = .idle →
    ∃ t, job.act (.wait i) = some t ∧ WaitsSafely feed.tasks i e t

theorem refusedSafely (hnew : new? setup results = .ok start) (h : Refused start t key e job) :
    RefusedSafely t key e job where
  stage := by
    intro later hreach
    obtain ⟨object, stage, ht, -, hstage⟩ := (h.reach_step hreach).task
    exact ⟨stage, by rw [stage?, ht]; rfl, hstage⟩
  calls := fun later hreach => (h.reach_step hreach).taskCall?
  bytes := fun later hreach action u => (h.reach_step hreach).landedBytes
  finishes := h.inevitable hnew

theorem refused_of_grant (hreach : Reach start job) (hhalt : job.halt = some e)
    {object : ObjectDescriptor} (ht : (job.tasks[t]?).map Task.object = some object)
    {u : Transition} (hact : job.act (.grant t) = some u) :
    Refused start t object.key e u.job := by
  have hstep : job.Step u.job := ⟨_, u, hact, rfl⟩
  refine ⟨hreach.step hstep, hstep.halt_eq hhalt, ?_⟩
  obtain ⟨⟨object', stage⟩, htask, hgrant⟩ := Option.bind_eq_some_iff.mp hact
  rw [htask] at ht
  cases ht
  unfold actOnTask at hgrant
  split at hgrant <;> try contradiction
  split at hgrant
  · cases hgrant
    exact ⟨object', .granted, getElem?_setStage htask .granted, rfl, trivial⟩
  · cases hgrant

theorem Reach.waitsSafely (hnew : new? setup results = .ok start) (hreach : Reach start job)
    (hhalt : job.halt = some e) {i : Nat} {feed : Feed} (hi : job.feeds[i]? = some feed)
    (hidle : feed.activity = .idle) :
    ∃ t, job.act (.wait i) = some t ∧ WaitsSafely feed.tasks i e t := by
  have hact : job.act (.wait i) = some ((job.drain i feed .wait).after []) := by
    simp only [act, hi, Option.bind_some, actOnFeed, hidle]
    rfl
  have hstep : job.Step ((job.drain i feed .wait).after []).job := ⟨_, _, hact, rfl⟩
  have hlt := (List.getElem?_eq_some_iff.mp hi).1
  have hown : ∀ t ∈ feed.tasks, t ∈ feed.tasks ∨ job.IsOver t := fun _ => .inl
  have hwaiting := waiting_of_drain (hreach.step hstep) hhalt hlt hown
  refine ⟨_, hact, ?_, hwaiting.inevitable hnew⟩
  intro w hw r hr
  exact (hwaiting.reach_left hnew hw).1.returns r hr

/-- Halt safety. In every state that a job may come to, the first error stays in the halt slot, and
only fatal errors get there and always do. A task that is granted its slot after the halt is refused,
calls for pages and batches return the error and change nothing, and so does a call to wait, after
the tasks of its feed have been joined. -/
theorem halt_safety (hnew : new? setup results = .ok start) (hreach : Reach start job) :
    job.HaltSafety where
  kept := fun e later hhalt hlater => hlater.halt_eq hhalt
  halting := hreach.haltSound hnew
  fatal := hreach.halt_of_fatal hnew
  ended := by
    intro task htask e he hstage
    apply hreach.halt_of_fatal hnew task htask
    rcases hstage with hstage | hstage | hstage <;> rw [hstage] <;> exact ⟨e, rfl, he.isFatal⟩
  panicked := fun i task reason t => halt_of_join
  truncated := fun i reply page t => halt_of_lacksToken
  refused := fun e t object u hhalt ht hact =>
    refusedSafely hnew (refused_of_grant hreach hhalt ht hact)
  nextPage := by
    intro e i feed hhalt hi hidle
    have hsame : job.setFeed i { feed with activity := .idle } = job := by
      obtain ⟨hlt, rfl⟩ := List.getElem?_eq_some_iff.mp hi
      rw [← hidle, setFeed, List.set_getElem_self hlt]
    simp only [act, hi, Option.bind_some, actOnFeed, hidle, beginPage, hhalt, returnFrom, hsame]
  turn := by
    intro e i feed hhalt hdone
    simp only [turn, hdone, hhalt, Bool.false_eq_true, if_false]
  batch := by
    intro e lines hhalt
    simp only [act, beginBatch, hhalt]
  wait := fun e i feed hhalt hi hidle => hreach.waitsSafely hnew hhalt hi hidle

/-- A job whose first feed is going to be told of a next page, but not of its token. -/
def misledJob : Job :=
  { setup := { source := { bucket := "from" }, target := { bucket := "to" } }
    freeSlots := 10 }

theorem halt_safety_missing_token :
    ∃ job, Reach misledJob job ∧ job.halt = some (.missingContinuationToken "from") ∧
      job.act (.batch []) =
        some { job, returned := some (.batch (.error (.missingContinuationToken "from"))) } ∧
      ∃ t, job.act (.grant 0) = some t ∧
        RefusedSafely 0 "late" (.missingContinuationToken "from") t.job := by
  have hnew : new? misledJob.setup none = .ok misledJob := rfl
  have hruns : (misledJob.after? [.batch ["late|9"], .openFeed none, .nextPage 0,
      .listed 0 (.ok (.page ⟨[], none, true⟩))]).isSome = true := rfl
  have hreach := reach_of_after? (Option.some_get hruns).symm
  have hhalt : (Option.get _ hruns).halt = some (.missingContinuationToken "from") := rfl
  have hgrants : ((Option.get _ hruns).act (.grant 0)).isSome = true := rfl
  have hgrant := (Option.some_get hgrants).symm
  have hsafe := halt_safety hnew hreach
  exact ⟨_, hreach, hhalt, hsafe.batch _ _ hhalt, _, hgrant, hsafe.refused _ _ _ _ hhalt rfl hgrant⟩

end Job

end BucketMigration
