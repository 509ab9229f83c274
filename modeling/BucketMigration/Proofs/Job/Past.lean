import BucketMigration.Proofs.Job.Moves

/-!
# Jobs with a past

A job that has done some work, with all of it over, goes on like a new one. Its new tasks, feeds and
batches have numbers behind the old ones, its tally is counted on from the old one, and nothing that it
does depends on either. Only the texts of failures name a task by its number, so no task may fail.
-/

namespace BucketMigration

/-- A tally that is counted on from an earlier one, without another failure. -/
def Progress.plus (past p : Progress) : Progress :=
  { past with
    objects := past.objects + p.objects
    bytes := past.bytes + p.bytes
    migrated := past.migrated + p.migrated
    skipped := past.skipped + p.skipped
    landedBytes := past.landedBytes + p.landedBytes }

/-- A task at this stage has no failure to record or to tell. -/
def TaskStage.Spared : TaskStage → Prop
  | released (.error e) => e.isSkip = true
  | panicked _ => False
  | _ => True

def Feed.shift (n : Nat) (feed : Feed) : Feed :=
  { feed with tasks := feed.tasks.map (n + ·) }

def BatchRun.shift (n : Nat) (batch : BatchRun) : BatchRun :=
  { batch with tasks := batch.tasks.map (n + ·) }

/-- A job that goes on where another one has ended. -/
def Job.onto (past job : Job) : Job :=
  { job with
    progress := past.progress.plus job.progress
    tasks := past.tasks ++ job.tasks
    feeds := past.feeds ++ job.feeds.map (Feed.shift past.tasks.length)
    batches := past.batches ++ job.batches.map (BatchRun.shift past.tasks.length) }

/-- The same action of a job that goes on where another one has ended. -/
def JobAction.shift (past : Job) : JobAction → JobAction
  | openFeed token => openFeed token
  | dropFeed i => dropFeed (past.feeds.length + i)
  | nextPage i => nextPage (past.feeds.length + i)
  | wait i => wait (past.feeds.length + i)
  | run i => run (past.feeds.length + i)
  | listed i given => listed (past.feeds.length + i) given
  | join i t => join (past.feeds.length + i) (past.tasks.length + t)
  | batch lines => batch lines
  | joinBatch i t => joinBatch (past.batches.length + i) (past.tasks.length + t)
  | grant t => grant (past.tasks.length + t)
  | start t => start (past.tasks.length + t)
  | reply t lane given => reply (past.tasks.length + t) lane given
  | wake t => wake (past.tasks.length + t)
  | startPart t => startPart (past.tasks.length + t)
  | panic t reason => panic (past.tasks.length + t) reason
  | release t => release (past.tasks.length + t)
  | account t => account (past.tasks.length + t)
  | place t => place (past.tasks.length + t)
  | publish t => publish (past.tasks.length + t)
  | discard t => discard (past.tasks.length + t)
  | receive => receive
  | closeResults => closeResults

/-- A run tells the tally of the job, so with what was counted before. -/
def Return.onto (job : Job) : Return → Return
  | ran (.ok _) => ran (.ok job.snapshot)
  | r => r

namespace Transition

/-- What becomes of the job and what is returned, without the lines that are logged. -/
def result (t : Transition) : Job × Option Return :=
  (t.job, t.returned)

def resultOnto (past : Job) (t : Transition) : Job × Option Return :=
  (past.onto t.job, t.returned.map (Return.onto (past.onto t.job)))

end Transition

namespace Job

variable {past job : Job} {i t : Nat} {feed : Feed}

theorem getElem?_append_add {α : Type} (old new : List α) (n : Nat) :
    (old ++ new)[old.length + n]? = new[n]? := by
  rw [List.getElem?_append_right (Nat.le_add_right ..), Nat.add_sub_cancel_left]

theorem getElem?_tasks_onto :
    (past.onto job).tasks[past.tasks.length + t]? = job.tasks[t]? :=
  getElem?_append_add ..

theorem stage?_onto : (past.onto job).stage? (past.tasks.length + t) = job.stage? t :=
  congrArg (Option.map Task.stage) getElem?_tasks_onto

theorem getElem?_feeds_onto :
    (past.onto job).feeds[past.feeds.length + i]? =
      (job.feeds[i]?).map (Feed.shift past.tasks.length) :=
  (getElem?_append_add ..).trans List.getElem?_map

theorem getElem?_batches_onto :
    (past.onto job).batches[past.batches.length + i]? =
      (job.batches[i]?).map (BatchRun.shift past.tasks.length) :=
  (getElem?_append_add ..).trans List.getElem?_map

theorem setStage_onto (stage : TaskStage) :
    (past.onto job).setStage (past.tasks.length + t) stage = past.onto (job.setStage t stage) :=
  congrArg (fun tasks => { past.onto job with tasks }) (List.modifyTailIdx_add ..)

theorem setFeed_onto (feed : Feed) :
    (past.onto job).setFeed (past.feeds.length + i) (feed.shift past.tasks.length) =
      past.onto (job.setFeed i feed) := by
  simp [setFeed, onto, List.set_append_right, List.map_set]

theorem setBatch_onto (batch : BatchRun) :
    (past.onto job).setBatch (past.batches.length + i) (batch.shift past.tasks.length) =
      past.onto (job.setBatch i batch) := by
  simp [setBatch, onto, List.set_append_right, List.map_set]

theorem nextTasks_onto (n : Nat) :
    (past.onto job).nextTasks n = (job.nextTasks n).map (past.tasks.length + ·) := by
  simp [nextTasks, onto, List.map_add_range']

theorem dispatch_onto (p q : Progress) (objects : List ObjectDescriptor) :
    objects.foldl (fun p d => p.dispatch d.size) (p.plus q) =
      p.plus (objects.foldl (fun p d => p.dispatch d.size) q) := by
  induction objects generalizing q with
  | nil => rfl
  | cons d rest ih =>
    rw [List.foldl_cons, List.foldl_cons, ← ih]
    congr 1
    simp [Progress.dispatch, Progress.countObject, Progress.addBytes, Progress.plus, Nat.add_assoc]

theorem spawn_onto (objects : List ObjectDescriptor) :
    (past.onto job).spawn objects = past.onto (job.spawn objects) := by
  simp [spawn, onto, dispatch_onto]

theorem count_onto (p q : Progress) (effects : List Effect) :
    effects.foldl Effect.count (p.plus q) = p.plus (effects.foldl Effect.count q) := by
  induction effects generalizing q with
  | nil => rfl
  | cons e rest ih =>
    rw [List.foldl_cons, List.foldl_cons, ← ih]
    congr 1
    cases e with
    | log | countSkipped | countMigrated => rfl
    | land bytes => simp [Effect.count, Progress.land, Progress.plus, Nat.add_assoc]

theorem absorb_onto (effects : List Effect) :
    ((past.onto job).absorb effects).1 = past.onto (job.absorb effects).1 := by
  simp only [absorb, onto, count_onto]

theorem mem_shift {n t : Nat} {tasks : List Nat} : n + t ∈ tasks.map (n + ·) ↔ t ∈ tasks :=
  List.mem_map_of_injective fun _ _ => Nat.add_left_cancel

theorem erase_shift (n t : Nat) (tasks : List Nat) :
    (tasks.map (n + ·)).erase (n + t) = (tasks.erase t).map (n + ·) :=
  (List.map_erase (fun _ _ => Nat.add_left_cancel) tasks).symm

theorem isEmpty_shift (n : Nat) (tasks : List Nat) : (tasks.map (n + ·)).isEmpty = tasks.isEmpty := by
  cases tasks <;> rfl

theorem setup_onto : (past.onto job).setup = job.setup := rfl

theorem halt_onto : (past.onto job).halt = job.halt := rfl

theorem freeSlots_onto : (past.onto job).freeSlots = job.freeSlots := rfl

theorem results_onto : (past.onto job).results = job.results := rfl

theorem haltWith_onto (e : MigrationError) :
    ((past.onto job).haltWith e).1 = past.onto (job.haltWith e).1 := by
  rw [haltWith_eq, haltWith_eq]
  rfl

section Drivers

variable (past job) (i : Nat) (feed : Feed)

theorem setActivity_onto (activity : Activity) :
    (past.onto job).setFeed (past.feeds.length + i)
        { feed.shift past.tasks.length with activity } =
      past.onto (job.setFeed i { feed with activity }) :=
  setFeed_onto { feed with activity }

theorem returnFrom_onto (value : Return) :
    ((past.onto job).returnFrom (past.feeds.length + i) (feed.shift past.tasks.length)
        (value.onto (past.onto job))).result =
      (job.returnFrom i feed value).resultOnto past := by
  unfold returnFrom Transition.result Transition.resultOnto
  rw [setActivity_onto]
  rfl

theorem conclude_onto (goal : Goal) :
    ((past.onto job).conclude (past.feeds.length + i) (feed.shift past.tasks.length) goal).result =
      (job.conclude i feed goal).resultOnto past := by
  unfold conclude
  split
  · exact returnFrom_onto past job i feed (.waited job.checkHalted)
  · exact returnFrom_onto past job i feed (.ran (.error _))
  all_goals
    rw [halt_onto]
    cases job.halt with
    | some e => exact returnFrom_onto past job i feed (.ran (.error e))
    | none => exact returnFrom_onto past job i feed (.ran (.ok job.snapshot))

theorem drain_onto (goal : Goal) :
    ((past.onto job).drain (past.feeds.length + i) (feed.shift past.tasks.length) goal).result =
      (job.drain i feed goal).resultOnto past := by
  unfold drain
  rw [show (feed.shift past.tasks.length).tasks.isEmpty = feed.tasks.isEmpty from isEmpty_shift ..]
  split
  · exact conclude_onto past job i feed goal
  · exact Prod.ext (setActivity_onto ..) rfl

theorem turn_onto :
    ((past.onto job).turn (past.feeds.length + i) (feed.shift past.tasks.length)).result =
      (job.turn i feed).resultOnto past := by
  unfold turn
  rw [halt_onto, show (feed.shift past.tasks.length).isDone = feed.isDone from rfl]
  split
  · exact drain_onto past job i feed .finish
  · cases job.halt with
    | some e => exact drain_onto past job i feed (.giveUp e)
    | none => exact Prod.ext (setActivity_onto ..) rfl

theorem turnIfRoom_onto :
    ((past.onto job).turnIfRoom (past.feeds.length + i) (feed.shift past.tasks.length)).result =
      (job.turnIfRoom i feed).resultOnto past := by
  unfold turnIfRoom
  rw [show (feed.shift past.tasks.length).tasks.length = feed.tasks.length from List.length_map ..]
  rw [setup_onto]
  split
  · exact turn_onto past job i feed
  · exact Prod.ext (setActivity_onto ..) rfl

theorem beginPage_onto :
    ((past.onto job).beginPage (past.feeds.length + i) (feed.shift past.tasks.length)).result =
      (job.beginPage i feed).resultOnto past := by
  unfold beginPage
  rw [halt_onto, show (feed.shift past.tasks.length).isDone = feed.isDone from rfl]
  cases job.halt with
  | some e => exact returnFrom_onto past job i feed (.page (.error e))
  | none =>
    dsimp only
    split
    · exact returnFrom_onto past job i feed (.page (.ok ⟨0, true, none⟩))
    · exact Prod.ext (setActivity_onto ..) rfl

theorem failPage_onto (inRun : Bool) (e : MigrationError) :
    ((past.onto job).failPage (past.feeds.length + i) (feed.shift past.tasks.length) inRun e).result =
      (job.failPage i feed inRun e).resultOnto past := by
  unfold failPage
  split
  · exact drain_onto past job i feed (.giveUp e)
  · exact returnFrom_onto past job i feed (.page (.error e))

theorem acceptPage_onto (inRun : Bool) (page : ListPage) :
    ((past.onto job).acceptPage (past.feeds.length + i) (feed.shift past.tasks.length) inRun
        page).result =
      (job.acceptPage i feed inRun page).resultOnto past := by
  have htasks : (feed.shift past.tasks.length).tasks ++
      (past.onto job).nextTasks page.objects.length =
        (feed.tasks ++ job.nextTasks page.objects.length).map (past.tasks.length + ·) := by
    rw [nextTasks_onto, List.map_append]
    rfl
  let feed' : Feed :=
    { token := if !page.isTruncated then none else page.nextToken
      isDone := !page.isTruncated
      tasks := feed.tasks ++ job.nextTasks page.objects.length }
  unfold acceptPage
  rw [htasks, spawn_onto]
  cases inRun with
  | true => exact turnIfRoom_onto past (job.spawn page.objects) i feed'
  | false =>
    exact returnFrom_onto past (job.spawn page.objects) i feed'
      (.page (.ok ⟨page.objects.length, feed'.isDone, feed'.token⟩))

theorem listed_onto (inRun : Bool) (reply : Except StorageError ListPage) :
    ((past.onto job).listed (past.feeds.length + i) (feed.shift past.tasks.length) inRun
        reply).result =
      (job.listed i feed inRun reply).resultOnto past := by
  unfold listed
  split
  · exact failPage_onto past job i feed inRun _
  · split
    · show ((Job.haltWith _ _).1.failPage _ _ _ _).result = _
      rw [haltWith_onto]
      exact failPage_onto past (job.haltWith _).1 i feed inRun _
    · exact acceptPage_onto past job i feed inRun _

theorem joined_onto (goal : Goal) :
    ((past.onto job).joined (past.feeds.length + i) (feed.shift past.tasks.length) goal).result =
      (job.joined i feed goal).resultOnto past := by
  unfold joined
  split
  · exact turnIfRoom_onto past job i feed
  · exact drain_onto past job i feed _

theorem drainBatch_onto (batch : BatchRun) :
    ((past.onto job).drainBatch (past.batches.length + i) (batch.shift past.tasks.length)).result =
      (job.drainBatch i batch).resultOnto past := by
  unfold drainBatch
  rw [show (batch.shift past.tasks.length).tasks.isEmpty = batch.tasks.isEmpty from
    isEmpty_shift ..]
  split
  · exact Prod.ext (@setBatch_onto past job i { batch with isOver := true }) rfl
  · exact Prod.ext (setBatch_onto batch) rfl

theorem newBatch_onto (n : Nat) :
    (past.onto job).newBatch n = (job.newBatch n).shift past.tasks.length := by
  unfold newBatch
  rw [nextTasks_onto]
  rfl

theorem withBatch_onto (objects : List ObjectDescriptor) :
    (past.onto job).withBatch objects = past.onto (job.withBatch objects) := by
  unfold withBatch
  rw [newBatch_onto, spawn_onto]
  simp [onto]

theorem beginBatch_onto (lines : List String) :
    ((past.onto job).beginBatch lines).result = (job.beginBatch lines).resultOnto past := by
  cases hhalt : job.halt with
  | some e =>
    simp only [beginBatch, halt_onto, hhalt]
    rfl
  | none =>
    cases hentries : Batch.entries lines with
    | error e =>
      simp only [beginBatch, halt_onto, hhalt, hentries]
      rfl
    | ok objects =>
      have hlength : (past.onto job).batches.length = past.batches.length + job.batches.length := by
        simp [onto]
      have hgoes : (past.onto job).halt = none := hhalt
      rw [beginBatch_eq hhalt hentries, beginBatch_eq hgoes hentries,
        withBatch_onto, newBatch_onto, hlength]
      exact drainBatch_onto past (job.withBatch objects) job.batches.length _

end Drivers

section Tasks

variable (past job) (t : Nat) (object : ObjectDescriptor)

theorem runOn_onto (next : ObjectCopy.Next) :
    ((past.onto job).runOn (past.tasks.length + t) next).result =
      (job.runOn t next).resultOnto past := by
  refine Prod.ext ?_ rfl
  show ((past.onto job).absorb next.2).1.setStage _ _ = past.onto ((job.absorb next.2).1.setStage _ _)
  rw [absorb_onto, setStage_onto]

theorem recordVerdict_of_spared {v : Verdict} (hspared : (TaskStage.released v).Spared) :
    job.recordVerdict object v = (job, []) := by
  cases v with
  | ok outcome => rfl
  | error e => exact if_pos hspared

theorem account_onto {v : Verdict} (hspared : (TaskStage.released v).Spared) :
    ((past.onto job).account (past.tasks.length + t) object v).result =
      (job.account t object v).resultOnto past := by
  unfold account
  rw [recordVerdict_of_spared _ object hspared, recordVerdict_of_spared _ object hspared]
  exact Prod.ext (setStage_onto _) rfl

theorem dropResult_onto (v : Verdict) (queue : ResultQueue) (reason : String) :
    ((past.onto job).dropResult (past.tasks.length + t) object v queue reason).result =
      (job.dropResult t object v queue reason).resultOnto past :=
  Prod.ext (@setStage_onto past { job with results := some queue } t _) rfl

theorem discard_onto (queue : ResultQueue) (stage : TaskStage) :
    ((past.onto job).discard (past.tasks.length + t) object queue stage).map Transition.result =
      (job.discard t object queue stage).map (Transition.resultOnto past) := by
  unfold discard
  split
  · split
    · exact congrArg some (dropResult_onto ..)
    · split
      · rfl
      · exact congrArg some (dropResult_onto ..)
  · split
    · rfl
    · exact congrArg some (dropResult_onto ..)
  · rfl

theorem map_onto {α : Type} (x : Option α) {f g : α → Transition}
    (h : ∀ a, (f a).result = (g a).resultOnto past) :
    (x.map f).map Transition.result = (x.map g).map (Transition.resultOnto past) := by
  rw [Option.map_map, Option.map_map]
  exact congrArg (fun k => x.map k) (funext h)

theorem stage_onto (past : Job) (t : Nat) (job : Job) (stage : TaskStage) :
    (some ({ job := (past.onto job).setStage (past.tasks.length + t) stage } : Transition)).map
        Transition.result =
      (some ({ job := job.setStage t stage } : Transition)).map (Transition.resultOnto past) :=
  congrArg some (Prod.ext (setStage_onto stage) rfl)

theorem actOnTask_onto {action : JobAction} {u : Nat} (hown : action.task? = some u)
    {stage : TaskStage} (hspared : stage.Spared) :
    ((past.onto job).actOnTask (action.shift past) (past.tasks.length + t) object stage).map
        Transition.result =
      (job.actOnTask action t object stage).map (Transition.resultOnto past) := by
  cases action with
  | grant =>
    cases stage with
    | queued =>
      rw [JobAction.shift, actOnTask, actOnTask, freeSlots_onto]
      split
      · exact stage_onto past t { job with freeSlots := job.freeSlots - 1 } .granted
      · rfl
    | _ => rfl
  | start =>
    cases stage with
    | granted =>
      simp only [JobAction.shift, actOnTask, halt_onto]
      cases job.halt with
      | some cause => exact congrArg some (runOn_onto ..)
      | none => exact congrArg some (runOn_onto ..)
    | _ => rfl
  | reply =>
    cases stage with
    | running c => exact map_onto past _ fun _ => runOn_onto ..
    | _ => rfl
  | wake =>
    cases stage with
    | running c => exact map_onto past _ fun _ => runOn_onto ..
    | _ => rfl
  | startPart =>
    cases stage with
    | running c => exact map_onto past _ fun _ => runOn_onto ..
    | _ => rfl
  | panic =>
    cases stage with
    | running c =>
      simp only [JobAction.shift, actOnTask]
      split
      · rfl
      · exact stage_onto past t { job with freeSlots := job.freeSlots + 1 } _
    | _ => rfl
  | release =>
    cases stage with
    | running c =>
      exact map_onto past _ fun _ => Prod.ext
        (@setStage_onto past { job with freeSlots := job.freeSlots + 1 } t _) rfl
    | _ => rfl
  | account =>
    cases stage with
    | released v => exact congrArg some (account_onto past job t object hspared)
    | _ => rfl
  | place =>
    cases stage with
    | publishing v =>
      rw [JobAction.shift, actOnTask, actOnTask, results_onto]
      cases job.results with
      | none => rfl
      | some queue =>
        dsimp only
        split
        · exact stage_onto past t { job with
            results := some { queue with promised := queue.promised + 1 } } _
        · rfl
    | _ => rfl
  | publish =>
    cases stage with
    | placed v =>
      rw [JobAction.shift, actOnTask, actOnTask, results_onto]
      cases job.results with
      | none => rfl
      | some queue =>
        dsimp only
        split
        · exact stage_onto past t { job with
            results := some { queue with
              promised := queue.promised - 1
              waiting := queue.waiting ++ [job.resultOf object v] } } _
        · rfl
    | _ => rfl
  | discard =>
    rw [JobAction.shift, actOnTask, actOnTask, results_onto]
    cases job.results with
    | none => rfl
    | some queue => exact discard_onto past job t object queue stage
  | _ => cases hown

end Tasks

theorem mem_of_join {j : Nat} {u : Transition} (h : job.actOnFeed (.join j t) i feed = some u) :
    t ∈ feed.tasks := by
  cases hactivity : feed.activity with
  | joining goal =>
    simp only [actOnFeed, hactivity] at h
    by_contra hnot
    rw [if_neg hnot] at h
    cases h
  | _ =>
    simp only [actOnFeed, hactivity] at h
    cases h

section Actions

variable (past) (hspared : ∀ task ∈ job.tasks, task.stage.Spared)
include hspared

theorem join_onto (t : Nat) :
    ((past.onto job).stage? (past.tasks.length + t)).bind
        ((past.onto job).joinTask (past.tasks.length + t)) =
      ((job.stage? t).bind (job.joinTask t)).map fun j => (j.1, past.onto j.2.1, j.2.2) := by
  rw [stage?_onto]
  cases hstage : job.stage? t with
  | none => rfl
  | some stage =>
    obtain ⟨task, htask, rfl⟩ := Option.map_eq_some_iff.mp hstage
    have htask := hspared task (List.mem_of_getElem? htask)
    cases hcase : task.stage with
    | panicked reason =>
      rw [hcase] at htask
      exact htask.elim
    | _ => rfl

theorem joinInFeed_onto (i j t : Nat) (token : Option String) (isDone : Bool) (tasks : List Nat)
    (goal : Goal) :
    ((past.onto job).actOnFeed (.join (past.feeds.length + j) (past.tasks.length + t))
        (past.feeds.length + i)
        ⟨token, isDone, tasks.map (past.tasks.length + ·), .joining goal⟩).map Transition.result =
      (job.actOnFeed (.join j t) i ⟨token, isDone, tasks, .joining goal⟩).map
        (Transition.resultOnto past) := by
  simp only [actOnFeed, mem_shift, erase_shift, join_onto past hspared t]
  split
  · cases (job.stage? t).bind (job.joinTask t) with
    | none => rfl
    | some joined =>
      exact congrArg some
        (joined_onto past joined.2.1 i ⟨token, isDone, tasks.erase t, .joining goal⟩ goal)
  · rfl

theorem actOnFeed_onto {action : JobAction} (i : Nat) (feed : Feed) :
    ((past.onto job).actOnFeed (action.shift past) (past.feeds.length + i)
        (feed.shift past.tasks.length)).map Transition.result =
      (job.actOnFeed action i feed).map (Transition.resultOnto past) := by
  have hactivity : (feed.shift past.tasks.length).activity = feed.activity := rfl
  cases action with
  | dropFeed j =>
    simp only [JobAction.shift, actOnFeed, hactivity]
    cases feed.activity with
    | idle =>
      exact congrArg some
        (Prod.ext (setFeed_onto { feed with tasks := [], activity := .dropped }) rfl)
    | _ => rfl
  | nextPage j =>
    simp only [JobAction.shift, actOnFeed, hactivity]
    cases feed.activity with
    | idle => exact congrArg some (beginPage_onto ..)
    | _ => rfl
  | wait j =>
    simp only [JobAction.shift, actOnFeed, hactivity]
    cases feed.activity with
    | idle => exact congrArg some (drain_onto ..)
    | _ => rfl
  | run j =>
    simp only [JobAction.shift, actOnFeed, hactivity]
    cases feed.activity with
    | idle => exact congrArg some (turn_onto ..)
    | _ => rfl
  | listed j given =>
    simp only [JobAction.shift, actOnFeed, hactivity]
    cases feed.activity with
    | listing inRun => exact map_onto past _ fun _ => listed_onto ..
    | _ => rfl
  | join j t =>
    obtain ⟨token, isDone, tasks, activity⟩ := feed
    cases activity with
    | joining goal => exact joinInFeed_onto past hspared i j t token isDone tasks goal
    | _ => rfl
  | _ => rfl

theorem joinInBatch_onto (i t : Nat) (batch : BatchRun) :
    ((past.onto job).joinInBatch (past.batches.length + i) (past.tasks.length + t)
        (batch.shift past.tasks.length)).map Transition.result =
      (job.joinInBatch i t batch).map (Transition.resultOnto past) := by
  simp only [joinInBatch, BatchRun.shift, mem_shift, erase_shift, join_onto past hspared t]
  split
  · cases (job.stage? t).bind (job.joinTask t) with
    | none => rfl
    | some joined =>
      exact congrArg some (drainBatch_onto past joined.2.1 i
        { batch with tasks := batch.tasks.erase t, summary := batch.summary.count joined.1 })
  · rfl

theorem act_onto (action : JobAction) :
    ((past.onto job).act (action.shift past)).map Transition.result =
      (job.act action).map (Transition.resultOnto past) := by
  have hfeed : ∀ i, ((past.onto job).feeds[past.feeds.length + i]?.bind
      ((past.onto job).actOnFeed (action.shift past) (past.feeds.length + i))).map
        Transition.result =
      (job.feeds[i]?.bind (job.actOnFeed action i)).map (Transition.resultOnto past) := by
    intro i
    rw [getElem?_feeds_onto]
    cases job.feeds[i]? with
    | none => rfl
    | some feed => exact actOnFeed_onto past hspared i feed
  have htask : ∀ t, action.task? = some t → ((past.onto job).tasks[past.tasks.length + t]?.bind
      fun task => (past.onto job).actOnTask (action.shift past) (past.tasks.length + t) task.object
        task.stage).map Transition.result =
      (job.tasks[t]?.bind fun task => job.actOnTask action t task.object task.stage).map
        (Transition.resultOnto past) := by
    intro t hown
    rw [getElem?_tasks_onto]
    cases ht : job.tasks[t]? with
    | none => rfl
    | some task =>
      exact actOnTask_onto past job t task.object hown (hspared task (List.mem_of_getElem? ht))
  cases action with
  | openFeed token =>
    refine congrArg some (Prod.ext ?_ rfl)
    simp [Transition.result, Transition.resultOnto, onto, Feed.shift]
  | batch lines => exact congrArg some (beginBatch_onto past job lines)
  | joinBatch i t =>
    simp only [JobAction.shift, act, getElem?_batches_onto]
    cases job.batches[i]? with
    | none => rfl
    | some batch => exact joinInBatch_onto past hspared i t batch
  | receive =>
    rw [JobAction.shift, act, act, receive, receive, results_onto]
    cases job.results with
    | none => rfl
    | some queue =>
      dsimp only
      cases queue.waiting with
      | nil => rfl
      | cons result waiting => rfl
  | closeResults => exact map_onto past _ fun _ => rfl
  | dropFeed i | nextPage i | wait i | run i | listed i | join i => exact hfeed i
  | grant t | start t | reply t | wake t | startPart t | panic t | release t | account t | place t
  | publish t | discard t => exact htask t rfl

end Actions

end Job

end BucketMigration
