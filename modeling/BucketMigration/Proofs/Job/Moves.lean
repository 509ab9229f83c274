import BucketMigration.Job.Lemmas
import BucketMigration.Proofs.Copy.Verdict

/-!
# What an action does to a job

Of all that an action may change, the tasks, the slots, the tally and the halt slot make up the
course of a migration. An action leaves them alone, spawns tasks, halts the job, or takes one task
to its next stage. `Job.act_deed` says so once for all actions.
-/

namespace BucketMigration

def JobAction.task? : JobAction → Option Nat
  | grant t | start t | reply t _ _ | wake t | startPart t | panic t _ | release t | account t
  | place t | publish t | discard t => some t
  | _ => none

def JobAction.feed? : JobAction → Option Nat
  | dropFeed i | nextPage i | wait i | run i | listed i _ | join i _ => some i
  | _ => none

def Activity.isListing : Activity → Bool
  | listing _ => true
  | _ => false

namespace Job

def tally (job : Job) (effects : List Effect) : Progress :=
  effects.foldl Effect.count job.progress

structure Course where
  slots : Nat
  progress : Progress
  halt : Option MigrationError

def course (job : Job) : Course :=
  ⟨job.freeSlots, job.progress, job.halt⟩

/-- A task comes to its next stage, with what becomes of the slots, the tally and the halt slot. -/
inductive TaskMove (job : Job) (object : ObjectDescriptor) : TaskStage → TaskStage → Course → Prop
  | grant (hfree : 0 < job.freeSlots) :
      TaskMove job object .queued .granted { job.course with slots := job.freeSlots - 1 }
  | refuse {cause : MigrationError} (hhalt : job.halt = some cause) :
      TaskMove job object .granted (.running (ObjectCopy.refuse object cause).1)
        { job.course with progress := job.tally (ObjectCopy.refuse object cause).2 }
  | start (hhalt : job.halt = none) :
      TaskMove job object .granted (.running (ObjectCopy.start job.setup object).1)
        { job.course with progress := job.tally (ObjectCopy.start job.setup object).2 }
  | copy {c : ObjectCopy} {next : ObjectCopy.Next} (h : c.Moves job.setup next) :
      TaskMove job object (.running c) (.running next.1)
        { job.course with progress := job.tally next.2 }
  | panic {c : ObjectCopy} (reason : String) (h : c.verdict? = none) :
      TaskMove job object (.running c) (.panicked reason)
        { job.course with slots := job.freeSlots + 1 }
  | release {c : ObjectCopy} {v : Verdict} (h : c.verdict? = some v) :
      TaskMove job object (.running c) (.released v) { job.course with slots := job.freeSlots + 1 }
  | account {v : Verdict} :
      TaskMove job object (.released v)
        (if job.results.isSome then .publishing v else .finished v)
        (job.recordVerdict object v).1.course
  | place {v : Verdict} : TaskMove job object (.publishing v) (.placed v) job.course
  | finish {v : Verdict} {stage : TaskStage} (h : stage = .publishing v ∨ stage = .placed v) :
      TaskMove job object stage (.finished v) job.course

/-- The errors that halt a job without a task being accounted. -/
def Halts (job : Job) (e : MigrationError) : Prop :=
  (∃ bucket, e = .missingContinuationToken bucket) ∨
    ∃ task reason, job.stage? task = some (.panicked reason) ∧
      e = .taskFailed (panicMessage task reason)

/-- What the drivers do to the course of the migration. -/
inductive Work (job : Job) : Job → Prop
  | still : Work job job
  | spawn (objects : List ObjectDescriptor) : Work job (job.spawn objects)
  | halt {e : MigrationError} (he : job.Halts e) : Work job (job.haltWith e).1

inductive Move (job next : Job) : Prop
  | work {base : Job} (hwork : job.Work base) (htasks : next.tasks = base.tasks)
      (hcourse : next.course = base.course)
  | task {t : Nat} {object : ObjectDescriptor} {stage stage' : TaskStage}
      (ht : job.tasks[t]? = some ⟨object, stage⟩)
      (hmove : TaskMove job object stage stage' next.course)
      (htasks : next.tasks = (job.setStage t stage').tasks)

/-- What no action changes. -/
structure Fixed (job next : Job) : Prop where
  setup : next.setup = job.setup
  results : next.results.isSome = job.results.isSome

/-- A feed goes on with some other activity, and nothing else happens. A feed of a halted job does not
ask for a page. -/
def Steers (job : Job) (i : Nat) (feed : Feed) (next : Job) : Prop :=
  ∃ activity : Activity, (job.halt ≠ none → activity.isListing = false) ∧
    next = job.setFeed i { feed with activity }

/-- What an action on a feed does. Only a page that has come spawns tasks. -/
structure FeedMove (job : Job) (feed : Feed) (base : Job) (feed' : Feed) : Prop where
  work : job.Work base
  quiet : job.halt ≠ none → feed'.activity.isListing = false
  spawns : feed.activity.isListing = false → base.tasks = job.tasks
  tasks : ∀ task ∈ feed'.tasks, task ∈ feed.tasks ∨ task < base.tasks.length

variable {job next : Job}

theorem haltWith_eq (job : Job) (e : MigrationError) :
    (job.haltWith e).1 = { job with halt := some (job.halt.getD e) } := by
  unfold haltWith
  cases hhalt : job.halt with
  | none => rfl
  | some e' =>
    show job = { job with halt := some e' }
    rw [← hhalt]

theorem Work.fixed {base : Job} (h : job.Work base) : job.Fixed base := by
  cases h with
  | still | spawn => exact ⟨rfl, rfl⟩
  | halt =>
    rw [haltWith_eq]
    exact ⟨rfl, rfl⟩

theorem Work.drivers {base : Job} (h : job.Work base) :
    base.feeds = job.feeds ∧ base.batches = job.batches := by
  cases h with
  | still | spawn => exact ⟨rfl, rfl⟩
  | halt =>
    rw [haltWith_eq]
    exact ⟨rfl, rfl⟩

theorem Steers.halt_eq {i : Nat} {feed : Feed} (h : job.Steers i feed next) :
    next.halt = job.halt := by
  obtain ⟨activity, -, rfl⟩ := h
  rfl

section Drivers

variable (job) (i : Nat) (feed : Feed)

theorem steers_returnFrom (value : Return) : job.Steers i feed (job.returnFrom i feed value).job :=
  ⟨_, fun _ => rfl, rfl⟩

theorem steers_conclude (goal : Goal) : job.Steers i feed (job.conclude i feed goal).job := by
  unfold conclude
  split
  · exact steers_returnFrom ..
  · exact steers_returnFrom ..
  · split <;> exact ⟨_, fun _ => rfl, rfl⟩
  · split <;> exact ⟨_, fun _ => rfl, rfl⟩

theorem steers_drain (goal : Goal) : job.Steers i feed (job.drain i feed goal).job := by
  unfold drain
  split
  · exact steers_conclude ..
  · exact ⟨_, fun _ => rfl, rfl⟩

theorem steers_turn : job.Steers i feed (job.turn i feed).job := by
  unfold turn
  split
  · exact steers_drain ..
  · split
    · exact steers_drain ..
    · rename_i hhalt
      exact ⟨_, fun hhalted => absurd hhalt hhalted, rfl⟩

theorem steers_turnIfRoom : job.Steers i feed (job.turnIfRoom i feed).job := by
  unfold turnIfRoom
  split
  · exact steers_turn ..
  · exact ⟨_, fun _ => rfl, rfl⟩

theorem steers_beginPage : job.Steers i feed (job.beginPage i feed).job := by
  unfold beginPage
  split
  · exact steers_returnFrom ..
  · split
    · exact steers_returnFrom ..
    · rename_i hhalt _
      exact ⟨_, fun hhalted => absurd hhalt hhalted, rfl⟩

theorem steers_failPage (inRun : Bool) (e : MigrationError) :
    job.Steers i feed (job.failPage i feed inRun e).job := by
  unfold failPage
  split
  · exact steers_drain ..
  · exact steers_returnFrom ..

theorem steers_joined (goal : Goal) : job.Steers i feed (job.joined i feed goal).job := by
  unfold joined
  split
  · exact steers_turnIfRoom ..
  · exact steers_drain ..

theorem steers_acceptPage (inRun : Bool) (page : ListPage) :
    ∃ feed', feed'.tasks = feed.tasks ++ job.nextTasks page.objects.length ∧
      (job.spawn page.objects).Steers i feed' (job.acceptPage i feed inRun page).job := by
  unfold acceptPage
  dsimp only [Transition.after]
  split
  · exact ⟨_, rfl, steers_turnIfRoom ..⟩
  · exact ⟨_, rfl, steers_returnFrom ..⟩

theorem exists_drainBatch_eq (batch : BatchRun) :
    ∃ batch', (job.drainBatch i batch).job = job.setBatch i batch' := by
  unfold drainBatch
  split <;> exact ⟨_, rfl⟩

end Drivers

theorem joinTask_cases {task : Nat} {status : TaskStatus} {logs : List LogLine}
    (h : (job.stage? task).bind (job.joinTask task) = some (status, next, logs)) :
    (∃ v, job.stage? task = some (.finished v) ∧ status = .ofVerdict v ∧ next = job) ∨
      ∃ reason, job.stage? task = some (.panicked reason) ∧ status = .failed ∧
        next = (job.haltWith (.taskFailed (panicMessage task reason))).1 := by
  obtain ⟨stage, hstage, hjoin⟩ := Option.bind_eq_some_iff.mp h
  unfold joinTask at hjoin
  split at hjoin
  · cases hjoin
    exact .inl ⟨_, hstage, rfl, rfl⟩
  · simp only [Option.some.injEq, Prod.mk.injEq] at hjoin
    exact .inr ⟨_, hstage, hjoin.1.symm, congrArg Prod.fst hjoin.2.symm⟩
  · cases hjoin

theorem work_of_joinTask {task : Nat} {status : TaskStatus} {logs : List LogLine} {joined : Job}
    (h : (job.stage? task).bind (job.joinTask task) = some (status, joined, logs)) :
    job.Work joined := by
  rcases joinTask_cases h with ⟨v, -, -, rfl⟩ | ⟨reason, hstage, -, rfl⟩
  · exact .still
  · exact .halt (.inr ⟨task, reason, hstage, rfl⟩)

theorem feedMove_of_steers {base next : Job} {i : Nat} {feed feed' : Feed} (hwork : job.Work base)
    (h : base.Steers i feed' next)
    (hspawns : feed.activity.isListing = false → base.tasks = job.tasks)
    (htasks : ∀ task ∈ feed'.tasks, task ∈ feed.tasks ∨ task < base.tasks.length) :
    ∃ base feed', job.FeedMove feed base feed' ∧ next = base.setFeed i feed' := by
  obtain ⟨activity, hquiet, hnext⟩ := h
  refine ⟨base, { feed' with activity }, ⟨hwork, ?_, hspawns, htasks⟩, hnext⟩
  intro hhalted
  apply hquiet
  cases hwork with
  | still | spawn => exact hhalted
  | halt => exact halt_haltWith_ne_none _ _

theorem listed_move {i : Nat} {feed : Feed} {inRun : Bool} (result : Except StorageError ListPage)
    (hlisting : feed.activity.isListing = true) :
    ∃ base feed', job.FeedMove feed base feed' ∧
      (job.listed i feed inRun result).job = base.setFeed i feed' := by
  have hspawns : ∀ base : Job, feed.activity.isListing = false → base.tasks = job.tasks := by
    intro base hnot
    rw [hlisting] at hnot
    cases hnot
  unfold listed
  split
  · exact feedMove_of_steers .still (steers_failPage ..) (hspawns _) fun _ => .inl
  · split
    · exact feedMove_of_steers (.halt (.inl ⟨_, rfl⟩)) (steers_failPage ..) (hspawns _) fun _ => .inl
    · obtain ⟨feed', htasks, hsteers⟩ := steers_acceptPage job i feed inRun _
      apply feedMove_of_steers (.spawn _) hsteers (hspawns _)
      intro task htask
      rw [htasks, List.mem_append] at htask
      apply htask.imp_right
      intro hnew
      rw [length_tasks_spawn]
      exact (List.mem_range'_1.mp hnew).2

theorem tasks_of_joinTask {task : Nat} {status : TaskStatus} {logs : List LogLine} {joined : Job}
    (h : (job.stage? task).bind (job.joinTask task) = some (status, joined, logs)) :
    joined.tasks = job.tasks := by
  rcases joinTask_cases h with ⟨v, -, -, rfl⟩ | ⟨reason, -, -, rfl⟩
  · rfl
  · exact tasks_haltWith ..

theorem actOnFeed_move {action : JobAction} {i : Nat} {feed : Feed} {t : Transition}
    (h : job.actOnFeed action i feed = some t) :
    ∃ base feed', job.FeedMove feed base feed' ∧ t.job = base.setFeed i feed' := by
  unfold actOnFeed at h
  split at h
  · cases h
    refine ⟨job, _, ⟨.still, fun _ => rfl, fun _ => rfl, ?_⟩, rfl⟩
    intro task htask
    cases htask
  · cases h
    exact feedMove_of_steers .still (steers_beginPage ..) (fun _ => rfl) fun _ => .inl
  · cases h
    exact feedMove_of_steers .still (steers_drain ..) (fun _ => rfl) fun _ => .inl
  · cases h
    exact feedMove_of_steers .still (steers_turn ..) (fun _ => rfl) fun _ => .inl
  · rename_i hactivity
    obtain ⟨result, -, rfl⟩ := Option.map_eq_some_iff.mp h
    exact listed_move result (by rw [hactivity]; rfl)
  · split at h
    · split at h
      · rename_i joined logs hjoin
        cases h
        refine feedMove_of_steers (work_of_joinTask hjoin) (steers_joined joined i _ _)
          (fun _ => tasks_of_joinTask hjoin) ?_
        intro u hu
        exact .inl (List.mem_of_mem_erase hu)
      · cases h
    · cases h
  · cases h

theorem joinInBatch_eq {i task : Nat} {batch : BatchRun} {t : Transition}
    (h : job.joinInBatch i task batch = some t) :
    task ∈ batch.tasks ∧ ∃ status joined logs,
      (job.stage? task).bind (job.joinTask task) = some (status, joined, logs) ∧
      t = (joined.drainBatch i
        { batch with
          tasks := batch.tasks.erase task
          summary := batch.summary.count status }).after logs := by
  unfold joinInBatch at h
  split at h
  · rename_i hmem
    split at h
    · rename_i hjoin
      cases h
      exact ⟨hmem, _, _, _, hjoin, rfl⟩
    · cases h
  · cases h

def newBatch (job : Job) (n : Nat) : BatchRun :=
  { tasks := job.nextTasks n, summary := { dispatched := n } }

def withBatch (job : Job) (objects : List ObjectDescriptor) : Job :=
  { job.spawn objects with batches := job.batches ++ [job.newBatch objects.length] }

theorem beginBatch_eq {job : Job} {lines : List String} {objects : List ObjectDescriptor}
    (hhalt : job.halt = none) (hentries : Batch.entries lines = .ok objects) :
    job.beginBatch lines = (job.withBatch objects).drainBatch job.batches.length
      (job.newBatch objects.length) := by
  simp only [beginBatch, hhalt, hentries]
  rfl

theorem beginBatch_cases (job : Job) (lines : List String) :
    (∃ e, job.beginBatch lines = { job, returned := some (.batch (.error e)) }) ∨
      ∃ objects, Batch.entries lines = .ok objects ∧ job.halt = none ∧
        job.beginBatch lines = (job.withBatch objects).drainBatch job.batches.length
          (job.newBatch objects.length) := by
  cases hhalt : job.halt with
  | some e => exact .inl ⟨e, by simp only [beginBatch, hhalt]⟩
  | none =>
    cases hentries : Batch.entries lines with
    | error e => exact .inl ⟨e, by simp only [beginBatch, hhalt, hentries]⟩
    | ok objects => exact .inr ⟨objects, rfl, rfl, beginBatch_eq hhalt hentries⟩

theorem recordVerdict_eq (job : Job) (object : ObjectDescriptor) (v : Verdict) :
    ∃ progress halt, (job.recordVerdict object v).1 = { job with progress, halt } := by
  unfold recordVerdict
  split
  · exact ⟨_, _, rfl⟩
  · split
    · exact ⟨_, _, rfl⟩
    · dsimp only
      split
      · exact ⟨_, _, haltWith_eq ..⟩
      · exact ⟨_, _, rfl⟩

theorem act_discard {t : Nat} {object : ObjectDescriptor} {queue : ResultQueue} {stage : TaskStage}
    {u : Transition} (h : job.discard t object queue stage = some u) :
    ∃ v results, (stage = .publishing v ∨ stage = .placed v) ∧
      u.job = { job with results := some results }.setStage t (.finished v) := by
  unfold discard at h
  split at h
  · split at h
    · cases h
      exact ⟨_, _, .inl rfl, rfl⟩
    · split at h
      · cases h
      · cases h
        exact ⟨_, _, .inl rfl, rfl⟩
  · split at h
    · cases h
    · cases h
      exact ⟨_, _, .inr rfl, rfl⟩
  · cases h

structure Frame (job next : Job) : Prop extends job.Fixed next where
  feeds : next.feeds = job.feeds
  batches : next.batches = job.batches

inductive Goes (job : Job) (object : ObjectDescriptor) :
    JobAction → TaskStage → TaskStage → Course → Prop
  | grant (t : Nat) (hfree : 0 < job.freeSlots) :
      Goes job object (.grant t) .queued .granted { job.course with slots := job.freeSlots - 1 }
  | refuse (t : Nat) {cause : MigrationError} (hhalt : job.halt = some cause) :
      Goes job object (.start t) .granted (.running (ObjectCopy.refuse object cause).1)
        { job.course with progress := job.tally (ObjectCopy.refuse object cause).2 }
  | start (t : Nat) (hhalt : job.halt = none) :
      Goes job object (.start t) .granted (.running (ObjectCopy.start job.setup object).1)
        { job.course with progress := job.tally (ObjectCopy.start job.setup object).2 }
  | reply (t : Nat) {c : ObjectCopy} {lane : Lane} {given : Reply} {next : ObjectCopy.Next}
      (h : c.resume job.setup lane given = some next) :
      Goes job object (.reply t lane given) (.running c) (.running next.1)
        { job.course with progress := job.tally next.2 }
  | wake (t : Nat) {c : ObjectCopy} {next : ObjectCopy.Next} (h : c.wake = some next) :
      Goes job object (.wake t) (.running c) (.running next.1)
        { job.course with progress := job.tally next.2 }
  | startPart (t : Nat) {c : ObjectCopy} {next : ObjectCopy.Next}
      (h : c.startPart job.setup = some next) :
      Goes job object (.startPart t) (.running c) (.running next.1)
        { job.course with progress := job.tally next.2 }
  | panic (t : Nat) (reason : String) {c : ObjectCopy} (h : c.verdict? = none) :
      Goes job object (.panic t reason) (.running c) (.panicked reason)
        { job.course with slots := job.freeSlots + 1 }
  | release (t : Nat) {c : ObjectCopy} {v : Verdict} (h : c.verdict? = some v) :
      Goes job object (.release t) (.running c) (.released v)
        { job.course with slots := job.freeSlots + 1 }
  | account (t : Nat) (v : Verdict) :
      Goes job object (.account t) (.released v)
        (if job.results.isSome then .publishing v else .finished v)
        (job.recordVerdict object v).1.course
  | place (t : Nat) (v : Verdict) : Goes job object (.place t) (.publishing v) (.placed v) job.course
  | finish (action : JobAction) {v : Verdict} {stage : TaskStage}
      (h : stage = .publishing v ∨ stage = .placed v) :
      Goes job object action stage (.finished v) job.course

theorem Goes.move {action : JobAction} {object : ObjectDescriptor} {stage stage' : TaskStage}
    {course : Course} (h : Goes job object action stage stage' course) :
    TaskMove job object stage stage' course := by
  cases h with
  | grant _ hfree => exact .grant hfree
  | refuse _ hhalt => exact .refuse hhalt
  | start _ hhalt => exact .start hhalt
  | reply _ h => exact .copy (.reply h)
  | wake _ h => exact .copy (.wake h)
  | startPart _ h => exact .copy (.startPart h)
  | panic _ reason h => exact .panic reason h
  | release _ h => exact .release h
  | account => exact .account
  | place => exact .place
  | finish _ h => exact .finish h

theorem account_goes (u t : Nat) (object : ObjectDescriptor) (v : Verdict) :
    job.Frame (job.account t object v).job ∧ ∃ stage',
      Goes job object (.account u) (.released v) stage' (job.account t object v).job.course ∧
        (job.account t object v).job.tasks = (job.setStage t stage').tasks := by
  obtain ⟨progress, halt, hjob⟩ := job.recordVerdict_eq object v
  have hgoes : Goes job object (.account u) (.released v) _ _ := .account u v
  rw [hjob] at hgoes
  simp only [account, hjob]
  exact ⟨⟨⟨rfl, rfl⟩, rfl, rfl⟩, _, hgoes, rfl⟩

theorem actOnTask_goes {action : JobAction} {t : Nat} {object : ObjectDescriptor}
    {stage : TaskStage} {u : Transition} (h : job.actOnTask action t object stage = some u) :
    job.Frame u.job ∧ ∃ stage',
      Goes job object action stage stage' u.job.course ∧
        u.job.tasks = (job.setStage t stage').tasks := by
  unfold actOnTask at h
  split at h
  · split at h
    · rename_i hfree
      cases h
      exact ⟨⟨⟨rfl, rfl⟩, rfl, rfl⟩, _, .grant _ hfree, rfl⟩
    · cases h
  · split at h
    · rename_i cause hhalt
      cases h
      exact ⟨⟨⟨rfl, rfl⟩, rfl, rfl⟩, _, .refuse _ hhalt, rfl⟩
    · rename_i hhalt
      cases h
      exact ⟨⟨⟨rfl, rfl⟩, rfl, rfl⟩, _, .start _ hhalt, rfl⟩
  · obtain ⟨next, hnext, rfl⟩ := Option.map_eq_some_iff.mp h
    exact ⟨⟨⟨rfl, rfl⟩, rfl, rfl⟩, _, .reply _ hnext, rfl⟩
  · obtain ⟨next, hnext, rfl⟩ := Option.map_eq_some_iff.mp h
    exact ⟨⟨⟨rfl, rfl⟩, rfl, rfl⟩, _, .wake _ hnext, rfl⟩
  · obtain ⟨next, hnext, rfl⟩ := Option.map_eq_some_iff.mp h
    exact ⟨⟨⟨rfl, rfl⟩, rfl, rfl⟩, _, .startPart _ hnext, rfl⟩
  · rename_i reason copy
    split at h
    · cases h
    · rename_i hphase
      cases h
      refine ⟨⟨⟨rfl, rfl⟩, rfl, rfl⟩, _, .panic _ reason ?_, rfl⟩
      unfold ObjectCopy.verdict?
      split
      · rename_i verdict hended
        exact absurd hended (hphase verdict)
      · rfl
  · obtain ⟨v, hv, rfl⟩ := Option.map_eq_some_iff.mp h
    exact ⟨⟨⟨rfl, rfl⟩, rfl, rfl⟩, _, .release _ hv, rfl⟩
  · cases h
    exact account_goes ..
  · split at h
    · rename_i queue hresults
      split at h
      · cases h
        exact ⟨⟨⟨rfl, by rw [hresults]; rfl⟩, rfl, rfl⟩, _, .place _ _, rfl⟩
      · cases h
    · cases h
  · split at h
    · rename_i queue hresults
      split at h
      · cases h
        exact ⟨⟨⟨rfl, by rw [hresults]; rfl⟩, rfl, rfl⟩, _, .finish _ (.inr rfl), rfl⟩
      · cases h
    · cases h
  · obtain ⟨queue, hresults, hdiscard⟩ := Option.bind_eq_some_iff.mp h
    obtain ⟨v, results, hstage, hjob⟩ := act_discard hdiscard
    rw [hjob]
    exact ⟨⟨⟨rfl, by rw [hresults]; rfl⟩, rfl, rfl⟩, _, .finish _ hstage, rfl⟩
  · cases h

theorem actOnTask_move {action : JobAction} {t : Nat} {object : ObjectDescriptor}
    {stage : TaskStage} {u : Transition} (h : job.actOnTask action t object stage = some u) :
    job.Frame u.job ∧ ∃ stage',
      TaskMove job object stage stage' u.job.course ∧
        u.job.tasks = (job.setStage t stage').tasks := by
  obtain ⟨hframe, stage', hgoes, htasks⟩ := actOnTask_goes h
  exact ⟨hframe, stage', hgoes.move, htasks⟩

/-- An action on a task takes just that task to its next stage. -/
theorem act_goes {action : JobAction} {t : Nat} {u : Transition} (hown : action.task? = some t)
    (h : job.act action = some u) :
    ∃ object stage stage', job.tasks[t]? = some ⟨object, stage⟩ ∧
      Goes job object action stage stage' u.job.course ∧
      u.job.tasks = (job.setStage t stage').tasks := by
  cases action with
  | grant | start | reply | wake | startPart | panic | release | account | place | publish | discard =>
    cases hown
    obtain ⟨⟨object, stage⟩, htask, hact⟩ := Option.bind_eq_some_iff.mp h
    obtain ⟨-, stage', hgoes, htasks⟩ := actOnTask_goes hact
    exact ⟨object, stage, stage', htask, hgoes, htasks⟩
  | _ => cases hown

theorem frame_of_task {action : JobAction} {t : Nat} {u : Transition}
    (hown : action.task? = some t) (h : job.act action = some u) : job.Frame u.job := by
  cases action with
  | grant | start | reply | wake | startPart | panic | release | account | place | publish | discard =>
    cases hown
    obtain ⟨task, -, hact⟩ := Option.bind_eq_some_iff.mp h
    exact (actOnTask_goes hact).1
  | _ => cases hown

/-- All that an action may do. -/
inductive Deed (job : Job) (action : JobAction) (next : Job) : Prop
  | task {u : Nat} {object : ObjectDescriptor} {stage stage' : TaskStage}
      (hown : action.task? = some u) (hu : job.tasks[u]? = some ⟨object, stage⟩)
      (hmove : TaskMove job object stage stage' next.course)
      (htasks : next.tasks = (job.setStage u stage').tasks) (hframe : job.Frame next)
  | feed {i : Nat} {feed : Feed} {base : Job} {feed' : Feed} (hown : action.feed? = some i)
      (hi : job.feeds[i]? = some feed) (hmove : job.FeedMove feed base feed')
      (hnext : next = base.setFeed i feed')
  | other {base : Job} (opened : List (Option String)) (htask : action.task? = none)
      (hfeed : action.feed? = none) (hwork : job.Work base)
      (hspawns : job.halt ≠ none → base.tasks = job.tasks) (htasks : next.tasks = base.tasks)
      (hcourse : next.course = base.course) (hfixed : job.Fixed next)
      (hfeeds : next.feeds = job.feeds ++ opened.map fun token => ({ token := token } : Feed))
      (hbatches : ∀ i < job.batches.length, (∀ task, action ≠ .joinBatch i task) →
        next.batches[i]? = job.batches[i]?)

theorem beginBatch_deed (job : Job) (lines : List String) :
    job.Deed (.batch lines) (job.beginBatch lines).job := by
  rcases job.beginBatch_cases lines with ⟨e, hbegin⟩ | ⟨objects, -, hhalt, hbegin⟩
  · rw [hbegin]
    exact .other [] rfl rfl .still (fun _ => rfl) rfl rfl ⟨rfl, rfl⟩ (List.append_nil _).symm
      fun _ _ _ => rfl
  · rw [hbegin]
    obtain ⟨batch', hjob⟩ := exists_drainBatch_eq (job.withBatch objects) job.batches.length
      (job.newBatch objects.length)
    rw [hjob]
    refine .other [] rfl rfl (.spawn objects) (fun hhalted => absurd hhalt hhalted) rfl rfl
      ⟨rfl, rfl⟩ (List.append_nil _).symm ?_
    intro i hi _
    rw [setBatch, List.getElem?_set_ne (Nat.ne_of_gt hi), withBatch, List.getElem?_append_left hi]

theorem joinInBatch_deed {i task : Nat} {batch : BatchRun} {t : Transition}
    (h : job.joinInBatch i task batch = some t) : job.Deed (.joinBatch i task) t.job := by
  obtain ⟨-, status, joined, logs, hjoin, rfl⟩ := joinInBatch_eq h
  have hwork := work_of_joinTask hjoin
  obtain ⟨batch', hjob⟩ := exists_drainBatch_eq joined i
    { batch with tasks := batch.tasks.erase task, summary := batch.summary.count status }
  simp only [Transition.after, hjob]
  refine .other [] rfl rfl hwork (fun _ => tasks_of_joinTask hjoin) rfl rfl
    ⟨hwork.fixed.setup, hwork.fixed.results⟩ ?_ ?_
  · exact hwork.drivers.1.trans (List.append_nil _).symm
  · intro k _ hother
    have hne : i ≠ k := by
      rintro rfl
      exact hother task rfl
    rw [setBatch, List.getElem?_set_ne hne, hwork.drivers.2]

/-- Every action does one of these things. -/
theorem act_deed {action : JobAction} {t : Transition} (h : job.act action = some t) :
    job.Deed action t.job := by
  unfold act at h
  cases action with
  | openFeed token =>
    cases h
    exact .other [token] rfl rfl .still (fun _ => rfl) rfl rfl ⟨rfl, rfl⟩ rfl fun _ _ _ => rfl
  | batch lines =>
    cases h
    exact beginBatch_deed job lines
  | joinBatch i task =>
    obtain ⟨batch, -, hact⟩ := Option.bind_eq_some_iff.mp h
    exact joinInBatch_deed hact
  | receive =>
    simp only [receive] at h
    split at h
    · cases h
    · rename_i queue hresults
      split at h
      · cases h
      · cases h
        exact .other [] rfl rfl .still (fun _ => rfl) rfl rfl ⟨rfl, by rw [hresults]; rfl⟩
          (List.append_nil _).symm fun _ _ _ => rfl
  | closeResults =>
    obtain ⟨queue, hresults, rfl⟩ := Option.map_eq_some_iff.mp h
    exact .other [] rfl rfl .still (fun _ => rfl) rfl rfl ⟨rfl, by rw [hresults]; rfl⟩
      (List.append_nil _).symm fun _ _ _ => rfl
  | dropFeed | nextPage | wait | run | listed | join =>
    obtain ⟨feed, hfeed, hact⟩ := Option.bind_eq_some_iff.mp h
    obtain ⟨base, feed', hmove, hjob⟩ := actOnFeed_move hact
    exact .feed rfl hfeed hmove hjob
  | grant | start | reply | wake | startPart | panic | release | account | place | publish | discard =>
    obtain ⟨⟨object, stage⟩, htask, hact⟩ := Option.bind_eq_some_iff.mp h
    obtain ⟨hframe, stage', hmove, htasks⟩ := actOnTask_move hact
    exact .task rfl htask hmove htasks hframe

theorem Deed.move {action : JobAction} (h : job.Deed action next) :
    job.Fixed next ∧ job.Move next := by
  cases h with
  | task _ hu hmove htasks hframe => exact ⟨hframe.toFixed, .task hu hmove htasks⟩
  | feed _ _ hmove hnext =>
    rw [hnext]
    exact ⟨⟨hmove.work.fixed.setup, hmove.work.fixed.results⟩, .work hmove.work rfl rfl⟩
  | other _ _ _ hwork _ htasks hcourse hfixed => exact ⟨hfixed, .work hwork htasks hcourse⟩

theorem Step.move (h : job.Step next) : job.Fixed next ∧ job.Move next := by
  obtain ⟨action, t, hact, rfl⟩ := h
  exact (act_deed hact).move

theorem new?_eq_ok {start : Job} {setup : Setup} {results : Option ResultQueue}
    (h : new? setup results = .ok start) :
    start = { setup, freeSlots := setup.options.concurrency, results } ∧
      setup.options.validate = .ok () := by
  unfold new? at h
  split at h
  · cases h
  · rename_i hvalid
    cases h
    exact ⟨rfl, hvalid⟩

/-- What holds of a new job, and after a step when it has held before, always holds. -/
theorem Reach.invariant {P : Job → Prop} {start : Job} {setup : Setup}
    {results : Option ResultQueue} (hnew : new? setup results = .ok start) (h : Reach start job)
    (hstart : P { setup, freeSlots := setup.options.concurrency, results })
    (hstep : ∀ job next : Job, Reach start job → job.Step next → P job → P next) : P job := by
  induction h with
  | refl => exact (new?_eq_ok hnew).1 ▸ hstart
  | step hreach hlast ih => exact hstep _ _ hreach hlast ih

theorem Reach.setup_eq {start : Job} (h : Reach start job) : job.setup = start.setup := by
  induction h with
  | refl => rfl
  | step _ hstep ih => exact hstep.move.1.setup.trans ih

/-- The job after some actions, if it allows them one after the other. -/
def after? (job : Job) : List JobAction → Option Job
  | [] => some job
  | action :: rest => (job.act action).bind fun t => t.job.after? rest

theorem Reach.trans {start mid last : Job} (h : Reach start mid) (h' : Reach mid last) :
    Reach start last := by
  induction h' with
  | refl => exact h
  | step _ hstep ih => exact ih.step hstep

theorem Reach.head {start : Job} (hstep : start.Step next) (h : Reach next job) :
    Reach start job := by
  induction h with
  | refl => exact .step .refl hstep
  | step _ hlast ih => exact .step ih hlast

theorem reach_of_after? {actions : List JobAction} (h : job.after? actions = some next) :
    Reach job next := by
  induction actions generalizing job with
  | nil =>
    cases h
    exact .refl
  | cons action rest ih =>
    obtain ⟨t, hact, hrest⟩ := Option.bind_eq_some_iff.mp h
    exact (ih hrest).head ⟨action, t, hact, rfl⟩

theorem exists_tasks_setStage {t : Nat} {object : ObjectDescriptor} {stage : TaskStage}
    (ht : job.tasks[t]? = some ⟨object, stage⟩) :
    ∃ before after, job.tasks = before ++ ⟨object, stage⟩ :: after ∧
      ∀ stage', (job.setStage t stage').tasks = before ++ ⟨object, stage'⟩ :: after := by
  obtain ⟨hlt, hget⟩ := List.getElem?_eq_some_iff.mp ht
  refine ⟨job.tasks.take t, job.tasks.drop (t + 1), ?_, ?_⟩
  · rw [← hget, List.getElem_cons_drop, List.take_append_drop]
  · intro stage'
    rw [setStage, List.modify_eq_take_cons_drop hlt, hget]

theorem countP_middle (p : TaskStage → Bool) (before after : List Task) (object : ObjectDescriptor)
    (stage : TaskStage) :
    (before ++ ⟨object, stage⟩ :: after).countP (fun task => p task.stage) =
      before.countP (fun task => p task.stage) + after.countP (fun task => p task.stage) +
        if p stage then 1 else 0 := by
  rw [List.countP_append, List.countP_cons, Nat.add_assoc]

theorem countP_setStage (p : TaskStage → Bool) {t : Nat} {object : ObjectDescriptor}
    {stage : TaskStage} (ht : job.tasks[t]? = some ⟨object, stage⟩) (stage' : TaskStage) :
    (job.setStage t stage').tasks.countP (fun task => p task.stage) + (if p stage then 1 else 0) =
      job.tasks.countP (fun task => p task.stage) + if p stage' then 1 else 0 := by
  obtain ⟨before, after, hsplit, hset⟩ := exists_tasks_setStage ht
  rw [hset, hsplit, countP_middle, countP_middle]
  omega

theorem countP_spawn (p : TaskStage → Bool) (hqueued : p .queued = false) (job : Job)
    (objects : List ObjectDescriptor) :
    (job.spawn objects).tasks.countP (fun task => p task.stage) =
      job.tasks.countP fun task => p task.stage := by
  rw [Job.spawn, List.countP_append, Nat.add_eq_left, List.countP_eq_zero]
  intro task htask
  obtain ⟨object, -, rfl⟩ := List.mem_map.mp htask
  rw [hqueued]
  exact Bool.false_ne_true

/-- A task after a step has been there before, or it is new, or it is the one that has moved. -/
theorem Move.mem_tasks (h : job.Move next) {task : Task} (htask : task ∈ next.tasks) :
    task ∈ job.tasks ∨ task.stage = .queued ∨
      ∃ stage, ⟨task.object, stage⟩ ∈ job.tasks ∧
        TaskMove job task.object stage task.stage next.course := by
  cases h with
  | work hwork htasks =>
    rw [htasks] at htask
    cases hwork with
    | still => exact .inl htask
    | halt => exact .inl (tasks_haltWith job _ ▸ htask)
    | spawn objects =>
      rcases List.mem_append.mp htask with hold | hnew
      · exact .inl hold
      · obtain ⟨object, -, rfl⟩ := List.mem_map.mp hnew
        exact .inr (.inl rfl)
  | task ht hmove htasks =>
    obtain ⟨before, after, hsplit, hset⟩ := exists_tasks_setStage ht
    rw [htasks, hset] at htask
    rw [hsplit]
    rcases List.mem_append.mp htask with hbefore | htask
    · exact .inl (List.mem_append_left _ hbefore)
    · rcases List.mem_cons.mp htask with rfl | hafter
      · exact .inr (.inr ⟨_, List.mem_append_right _ List.mem_cons_self, hmove⟩)
      · exact .inl (List.mem_append_right _ (List.mem_cons_of_mem _ hafter))

/-- What holds of every stage of a job still does after a step, when new tasks have it and a task
takes it to its next stage. -/
theorem Move.forall_stage {P : TaskStage → Prop} (h : job.Move next) (hqueued : P .queued)
    (hmove : ∀ object stage stage' course,
      TaskMove job object stage stage' course → P stage → P stage')
    (hall : ∀ task ∈ job.tasks, P task.stage) : ∀ task ∈ next.tasks, P task.stage := by
  intro task htask
  rcases h.mem_tasks htask with hold | hnew | ⟨stage, hmem, hmoved⟩
  · exact hall task hold
  · rw [hnew]
    exact hqueued
  · exact hmove _ _ _ _ hmoved (hall _ hmem)

theorem Move.task_cases (h : job.Move next) {t : Nat} {task : Task}
    (ht : job.tasks[t]? = some task) :
    next.tasks[t]? = some task ∨
      ∃ stage', TaskMove job task.object task.stage stage' next.course ∧
        next.tasks[t]? = some ⟨task.object, stage'⟩ := by
  obtain ⟨hlt, -⟩ := List.getElem?_eq_some_iff.mp ht
  cases h with
  | work hwork htasks =>
    left
    rw [htasks]
    cases hwork with
    | still => exact ht
    | halt => rw [tasks_haltWith, ht]
    | spawn objects => rw [Job.spawn, List.getElem?_append_left hlt, ht]
  | @task u object stage stage' hu hmove htasks =>
    rw [htasks, setStage, List.getElem?_modify]
    by_cases heq : u = t
    · subst heq
      rw [ht] at hu
      cases hu
      right
      exact ⟨stage', hmove, by simp [ht]⟩
    · left
      simp [heq, ht]

theorem TaskMove.not_isOver {object : ObjectDescriptor} {stage stage' : TaskStage} {course : Course}
    (h : TaskMove job object stage stage' course) : stage.isOver = false := by
  cases h with
  | finish h => rcases h with rfl | rfl <;> rfl
  | _ => rfl

theorem Step.object_eq (h : job.Step next) {t : Nat} {object : ObjectDescriptor}
    (ht : (job.tasks[t]?).map Task.object = some object) :
    (next.tasks[t]?).map Task.object = some object := by
  obtain ⟨task, htask, rfl⟩ := Option.map_eq_some_iff.mp ht
  rcases h.move.2.task_cases htask with hsame | ⟨stage', -, hmoved⟩
  · rw [hsame]
    rfl
  · rw [hmoved]
    rfl

theorem Reach.object_eq {start : Job} (h : Reach start job) {t : Nat} {object : ObjectDescriptor}
    (ht : (start.tasks[t]?).map Task.object = some object) :
    (job.tasks[t]?).map Task.object = some object := by
  induction h with
  | refl => exact ht
  | step _ hstep ih => exact hstep.object_eq ih

theorem Step.stage?_of_isOver (h : job.Step next) {t : Nat} {stage : TaskStage}
    (ht : job.stage? t = some stage) (hover : stage.isOver = true) : next.stage? t = some stage := by
  obtain ⟨task, htask, rfl⟩ := Option.map_eq_some_iff.mp ht
  rcases h.move.2.task_cases htask with hsame | ⟨stage', hmove, -⟩
  · rw [stage?, hsame]
    rfl
  · rw [hmove.not_isOver] at hover
    cases hover

theorem halt_recordVerdict (object : ObjectDescriptor) (v : Verdict) {e : MigrationError}
    (h : job.halt = some e) : (job.recordVerdict object v).1.halt = some e := by
  unfold recordVerdict
  split
  · exact h
  · split
    · exact h
    · dsimp only
      split
      · rw [halt_haltWith]
        simp only [h, Option.getD_some]
      · exact h

theorem Step.halt_eq (h : job.Step next) {e : MigrationError} (he : job.halt = some e) :
    next.halt = some e := by
  cases h.move.2 with
  | work hwork _ hcourse =>
    have hhalt := congrArg Course.halt hcourse
    apply hhalt.trans
    cases hwork with
    | still => exact he
    | spawn => exact he
    | halt =>
      show (job.haltWith _).1.halt = some e
      rw [halt_haltWith, he, Option.getD_some]
  | task _ hmove _ =>
    show next.course.halt = some e
    generalize next.course = course at hmove
    cases hmove with
    | account => exact halt_recordVerdict _ _ he
    | _ => exact he

theorem Step.halt_eq_none (h : job.Step next) (hnone : next.halt = none) : job.halt = none := by
  cases hhalt : job.halt with
  | none => rfl
  | some e =>
    rw [h.halt_eq hhalt] at hnone
    cases hnone

theorem Reach.halt_eq {start : Job} (h : Reach start job) {e : MigrationError}
    (he : start.halt = some e) : job.halt = some e := by
  induction h with
  | refl => exact he
  | step _ hstep ih => exact hstep.halt_eq ih

end Job

end BucketMigration
