import BucketMigration.Proofs.Job.Waits

/-!
# What a run returns

A run of a feed lists pages until all have been listed, the job is halted or a page cannot be had. In
every case it waits for its tasks before it returns. A run that could not have a page returns the
error of that page, also when the job has been halted meanwhile; any other run returns the error of
the halt slot.
-/

namespace BucketMigration

/-- The error that a reply to a listing ends a run with. -/
def JobAction.pageFailure? (bucket : String) : JobAction → Option MigrationError
  | listed _ given =>
      match Reply.page? given with
      | some (.error e) => some (.listing bucket e)
      | some (.ok page) => if page.lacksToken then some (.missingContinuationToken bucket) else none
      | none => none
  | _ => none

namespace Job

inductive Watch.Path (i : Nat) (w : Watch) : List JobAction → Watch → Prop
  | start : Watch.Path i w [] w
  | step {actions : List JobAction} {action : JobAction} {x y : Watch}
      (h : Watch.Path i w actions x) (hwaits : x.returned = none)
      (hstep : Watch.Step i action x y) : Watch.Path i w (actions ++ [action]) y

/-- The error of the page of feed `i` that could not be had. -/
def pageFailure? (bucket : String) (i : Nat) (actions : List JobAction) : Option MigrationError :=
  actions.findSome? fun action =>
    if action.feed? = some i then action.pageFailure? bucket else none

/-- What a run does when `failure` is the error of the page that it could not have. -/
inductive RunStage (job : Job) (feed : Feed) : Option MigrationError → Prop
  | listing (hactivity : feed.activity = .listing true) (hdone : feed.isDone = false) :
      RunStage job feed none
  | room (hactivity : feed.activity = .joining .room) (htasks : feed.tasks ≠ []) :
      RunStage job feed none
  | finish (hactivity : feed.activity = .joining .finish) (hdone : feed.isDone = true)
      (htasks : feed.tasks ≠ []) : RunStage job feed none
  | halted {e : MigrationError} (hactivity : feed.activity = .joining (.giveUp e))
      (hhalt : job.halt = some e) (htasks : feed.tasks ≠ []) : RunStage job feed none
  | failed {e : MigrationError} (hactivity : feed.activity = .joining (.giveUp e))
      (htasks : feed.tasks ≠ []) : RunStage job feed (some e)

/-- What a run returns that has joined all tasks of its feed. -/
inductive RunOutcome (job : Job) (feed : Feed) :
    Option MigrationError → Except MigrationError Snapshot → Prop
  | complete (hhalt : job.halt = none) (hdone : feed.isDone = true) :
      RunOutcome job feed none (.ok job.snapshot)
  | halted {e : MigrationError} (hhalt : job.halt = some e) : RunOutcome job feed none (.error e)
  | failed (e : MigrationError) : RunOutcome job feed (some e) (.error e)

inductive Running (i : Nat) (failure : Option MigrationError) (w : Watch) : Prop
  | going {feed : Feed} (hi : w.job.feeds[i]? = some feed) (hwaits : w.returned = none)
      (hstage : RunStage w.job feed failure) : Running i failure w
  | ended {feed : Feed} {outcome : Except MigrationError Snapshot} (hi : w.job.feeds[i]? = some feed)
      (hreturned : w.returned = some (.ran outcome)) (htasks : feed.tasks = [])
      (houtcome : RunOutcome w.job feed failure outcome) : Running i failure w

def Transition.watch (t : Transition) : Watch :=
  ⟨t.job, t.returned⟩

variable {job next start : Job} {action : JobAction} {i : Nat} {feed : Feed}
  {failure : Option MigrationError} {e : MigrationError}

theorem running_returnFrom (hi : i < job.feeds.length) (htasks : feed.tasks = [])
    {outcome : Except MigrationError Snapshot} (houtcome : RunOutcome job feed failure outcome) :
    Running i failure (Transition.watch (job.returnFrom i feed (.ran outcome))) := by
  have hidle : (job.setFeed i { feed with activity := .idle }).feeds[i]? =
      some { feed with activity := .idle } := List.getElem?_set_self hi
  refine .ended hidle rfl htasks ?_
  cases houtcome with
  | complete hhalt hdone => exact .complete hhalt hdone
  | halted hhalt => exact .halted hhalt
  | failed e => exact .failed e

theorem running_joining (hi : i < job.feeds.length) {goal : Goal}
    (hstage : RunStage job { feed with activity := .joining goal } failure) :
    Running i failure
      (Transition.watch { job := job.setFeed i { feed with activity := .joining goal } }) := by
  refine .going (List.getElem?_set_self hi) rfl ?_
  cases hstage with
  | listing hactivity => cases hactivity
  | room hactivity htasks => exact .room hactivity htasks
  | finish hactivity hdone htasks => exact .finish hactivity hdone htasks
  | halted hactivity hhalt htasks => exact .halted hactivity hhalt htasks
  | failed hactivity htasks => exact .failed hactivity htasks

theorem running_giveUp (hi : i < job.feeds.length)
    (hfailure : failure = some e ∨ failure = none ∧ job.halt = some e) :
    Running i failure (Transition.watch (job.drain i feed (.giveUp e))) := by
  unfold drain
  split
  · rename_i hempty
    apply running_returnFrom hi (List.isEmpty_iff.mp hempty)
    rcases hfailure with rfl | ⟨rfl, hhalt⟩
    · exact .failed e
    · exact .halted hhalt
  · rename_i htasks
    have hne : feed.tasks ≠ [] := fun hempty => htasks (List.isEmpty_iff.mpr hempty)
    apply running_joining hi
    rcases hfailure with rfl | ⟨rfl, hhalt⟩
    · exact .failed rfl hne
    · exact .halted rfl hhalt hne

theorem running_finish (hi : i < job.feeds.length) (hdone : feed.isDone = true) :
    Running i none (Transition.watch (job.drain i feed .finish)) := by
  unfold drain
  split
  · rename_i hempty
    dsimp only [conclude]
    split
    · rename_i e hhalt
      exact running_returnFrom hi (List.isEmpty_iff.mp hempty) (.halted hhalt)
    · rename_i hhalt
      exact running_returnFrom hi (List.isEmpty_iff.mp hempty) (.complete hhalt hdone)
  · rename_i htasks
    exact running_joining hi (.finish rfl hdone fun hempty => htasks (List.isEmpty_iff.mpr hempty))

theorem running_turn (hi : i < job.feeds.length) :
    Running i none (Transition.watch (job.turn i feed)) := by
  unfold turn
  split
  · rename_i hdone
    exact running_finish hi hdone
  · rename_i hdone
    split
    · rename_i e hhalt
      exact running_giveUp hi (.inr ⟨rfl, hhalt⟩)
    · exact .going (List.getElem?_set_self hi) rfl (.listing rfl (Bool.eq_false_iff.mpr hdone))

/-- With options that can be followed, a run lists as long as it has fewer tasks than a page. -/
theorem highWater_eq {options : MigrationOptions} (h : options.validate = .ok ()) :
    (options.highWater : Int) = options.pageSize := by
  have hpos := (MigrationOptions.valid_of_validate h).pageSize.1
  unfold MigrationOptions.highWater
  omega

theorem highWater_pos (options : MigrationOptions) : 0 < options.highWater := by
  unfold MigrationOptions.highWater
  omega

theorem running_turnIfRoom (hi : i < job.feeds.length) :
    Running i none (Transition.watch (job.turnIfRoom i feed)) := by
  unfold turnIfRoom
  split
  · exact running_turn hi
  · rename_i hfull
    apply running_joining hi
    apply RunStage.room rfl
    intro hempty
    apply hfull
    have hempty : feed.tasks = [] := hempty
    rw [hempty]
    exact highWater_pos _

theorem running_after {t : Transition} (logs : List LogLine)
    (h : Running i failure (Transition.watch t)) :
    Running i failure (Transition.watch (t.after logs)) := h

theorem running_listed (hi : i < job.feeds.length) {result : Except StorageError ListPage}
    {reply : Reply} (hreply : Reply.page? reply = some result) :
    Running i ((JobAction.listed i reply).pageFailure? job.setup.source.bucket)
      (Transition.watch (job.listed i feed true result)) := by
  simp only [JobAction.pageFailure?, hreply]
  cases result with
  | error e => exact running_giveUp hi (.inl rfl)
  | ok page =>
    cases hlacks : page.lacksToken with
    | true =>
      simp only [listed, hlacks, if_true]
      apply running_after
      refine running_giveUp ?_ (.inl rfl)
      rw [haltWith_eq]
      exact hi
    | false =>
      simp only [listed, hlacks, Bool.false_eq_true, if_false]
      exact running_after _ (running_turnIfRoom hi)

theorem RunStage.activity_eq (h : RunStage job feed failure) :
    feed.activity = .listing true ∧ failure = none ∨
      ∃ goal, feed.activity = .joining goal ∧ goal ≠ .wait := by
  cases h with
  | listing hactivity => exact .inl ⟨hactivity, rfl⟩
  | room hactivity | finish hactivity | halted hactivity | failed hactivity =>
    exact .inr ⟨_, hactivity, Goal.noConfusion⟩

theorem act_of_run {t : Transition} (hactivity : feed.activity = .listing true ∨
      ∃ goal, feed.activity = .joining goal ∧ goal ≠ .wait)
    (hi : job.feeds[i]? = some feed) (hown : action.feed? = some i) (hact : job.act action = some t) :
    (∃ reply result, action = .listed i reply ∧ feed.activity = .listing true ∧
      Reply.page? reply = some result ∧ t = job.listed i feed true result) ∨
    ∃ task goal status joined logs, action = .join i task ∧ feed.activity = .joining goal ∧
      goal ≠ .wait ∧ task ∈ feed.tasks ∧
      (job.stage? task).bind (job.joinTask task) = some (status, joined, logs) ∧
      t = (joined.joined i { feed with tasks := feed.tasks.erase task } goal).after logs := by
  have hfeed : job.actOnFeed action i feed = some t := by
    cases action with
    | dropFeed | nextPage | wait | run | listed | join =>
      cases hown
      simpa only [act, hi, Option.bind_some] using hact
    | _ => cases hown
  unfold actOnFeed at hfeed
  split at hfeed
  · rename_i hidle
    simp [hidle] at hactivity
  · rename_i hidle
    simp [hidle] at hactivity
  · rename_i hidle
    simp [hidle] at hactivity
  · rename_i hidle
    simp [hidle] at hactivity
  · rename_i j reply inRun hlisting
    cases hown
    obtain ⟨result, hresult, rfl⟩ := Option.map_eq_some_iff.mp hfeed
    rcases hactivity with htrue | ⟨goal, hjoining, -⟩
    · rw [htrue] at hlisting
      cases hlisting
      exact .inl ⟨reply, result, rfl, htrue, hresult, rfl⟩
    · rw [hlisting] at hjoining
      cases hjoining
  · rename_i j task goal hjoining
    cases hown
    right
    split at hfeed
    · rename_i hmem
      split at hfeed
      · rename_i status joined logs hjoin
        cases hfeed
        rcases hactivity with htrue | ⟨goal', hgoal, hne⟩
        · rw [htrue] at hjoining
          cases hjoining
        · rw [hgoal] at hjoining
          cases hjoining
          exact ⟨task, goal, status, joined, logs, rfl, hgoal, hne, hmem, hjoin, rfl⟩
      · cases hfeed
    · cases hfeed
  · cases hfeed

theorem RunStage.own_cases {t : Transition} (h : RunStage job feed failure)
    (hi : job.feeds[i]? = some feed) (hown : action.feed? = some i) (hact : job.act action = some t) :
    (∃ reply result, action = .listed i reply ∧ feed.activity = .listing true ∧
      Reply.page? reply = some result ∧ t = job.listed i feed true result) ∨
    ∃ task goal status joined logs, action = .join i task ∧ feed.activity = .joining goal ∧
      goal ≠ .wait ∧ task ∈ feed.tasks ∧
      (job.stage? task).bind (job.joinTask task) = some (status, joined, logs) ∧
      t = (joined.joined i { feed with tasks := feed.tasks.erase task } goal).after logs :=
  act_of_run (h.activity_eq.imp_left And.left) hi hown hact

theorem halt_eq_of_joinTask {task : Nat} {status : TaskStatus} {logs : List LogLine} {joined : Job}
    (h : (job.stage? task).bind (job.joinTask task) = some (status, joined, logs))
    (hhalt : job.halt = some e) : joined.halt = some e := by
  rcases joinTask_cases h with ⟨-, -, -, rfl⟩ | ⟨-, -, -, rfl⟩
  · exact hhalt
  · rw [halt_haltWith, hhalt, Option.getD_some]

theorem RunStage.joined {task : Nat} {goal : Goal} {status : TaskStatus} {logs : List LogLine}
    {joined : Job} (h : RunStage job feed failure) (hi : i < job.feeds.length)
    (hgoal : feed.activity = .joining goal)
    (hjoin : (job.stage? task).bind (job.joinTask task) = some (status, joined, logs)) :
    Running i failure (Transition.watch
      ((joined.joined i { feed with tasks := feed.tasks.erase task } goal).after logs)) := by
  have hlt : i < joined.feeds.length := by
    rw [(work_of_joinTask hjoin).drivers.1]
    exact hi
  apply running_after
  unfold Job.joined
  cases h with
  | listing hactivity =>
    rw [hgoal] at hactivity
    cases hactivity
  | room hactivity =>
    rw [hgoal] at hactivity
    cases hactivity
    exact running_turnIfRoom hlt
  | finish hactivity hdone =>
    rw [hgoal] at hactivity
    cases hactivity
    exact running_finish hlt hdone
  | halted hactivity hhalt =>
    rw [hgoal] at hactivity
    cases hactivity
    exact running_giveUp hlt (.inr ⟨rfl, halt_eq_of_joinTask hjoin hhalt⟩)
  | failed hactivity =>
    rw [hgoal] at hactivity
    cases hactivity
    exact running_giveUp hlt (.inl rfl)

theorem RunStage.of_other (h : RunStage job feed failure) (hstep : job.Step next) :
    RunStage next feed failure := by
  cases h with
  | listing hactivity hdone => exact .listing hactivity hdone
  | room hactivity htasks => exact .room hactivity htasks
  | finish hactivity hdone htasks => exact .finish hactivity hdone htasks
  | halted hactivity hhalt htasks => exact .halted hactivity (hstep.halt_eq hhalt) htasks
  | failed hactivity htasks => exact .failed hactivity htasks

theorem Running.step {w x : Watch} (h : Running i failure w) (hwaits : w.returned = none)
    (hstep : Watch.Step i action w x) :
    Running i (failure.or
      (if action.feed? = some i then action.pageFailure? w.job.setup.source.bucket else none)) x := by
  cases h with
  | ended _ hreturned =>
    rw [hwaits] at hreturned
    cases hreturned
  | @going feed hi _ hstage =>
    have hlt := (List.getElem?_eq_some_iff.mp hi).1
    cases hstep with
    | other hact hother =>
      rw [if_neg hother, Option.or_none]
      exact .going ((act_deed hact).feeds_eq hother hi) hwaits (hstage.of_other ⟨_, _, hact, rfl⟩)
    | own hact hown =>
      rw [if_pos hown]
      rcases hstage.own_cases hi hown hact with
        ⟨reply, result, rfl, hlisting, hresult, rfl⟩ |
        ⟨task, goal, status, joined, logs, rfl, hjoining, -, -, hjoin, rfl⟩
      · have hnone : failure = none := by
          rcases hstage.activity_eq with ⟨-, hnone⟩ | ⟨goal, hjoining, -⟩
          · exact hnone
          · rw [hlisting] at hjoining
            cases hjoining
        rw [hnone, Option.none_or]
        exact running_listed hlt hresult
      · rw [show (JobAction.join i task).pageFailure? _ = none from rfl, Option.or_none]
        exact hstage.joined hlt hjoining hjoin

theorem running_of_act {t : Transition} (hact : job.act (.run i) = some t) :
    Running i none (Transition.watch t) := by
  obtain ⟨feed, hi, hfeed⟩ := Option.bind_eq_some_iff.mp hact
  unfold actOnFeed at hfeed
  split at hfeed <;> try contradiction
  cases hfeed
  exact running_turn (List.getElem?_eq_some_iff.mp hi).1

theorem Watch.Step.setup_eq {w x : Watch} (h : Watch.Step i action w x) :
    x.job.setup = w.job.setup := by
  cases h with
  | other hact => exact (act_deed hact).move.1.setup
  | own hact => exact (act_deed hact).move.1.setup

theorem Watch.Path.running {w x : Watch} {actions : List JobAction} (h : Watch.Path i w actions x)
    (hw : Running i none w) :
    x.job.setup = w.job.setup ∧
      Running i (pageFailure? w.job.setup.source.bucket i actions) x := by
  induction h with
  | start => exact ⟨rfl, hw⟩
  | step _ hwaits hstep ih =>
    obtain ⟨hsetup, hx⟩ := ih
    refine ⟨hstep.setup_eq.trans hsetup, ?_⟩
    have hnext := hx.step hwaits hstep
    rw [hsetup] at hnext
    rw [pageFailure?, List.findSome?_append, ← pageFailure?, List.findSome?_singleton]
    exact hnext

/-- The error of a run in a job that is halted when the run returns. It is the one that the job was
halted for, unless a page of this very run could not be had: then the error of the page goes first,
and the one in the halt slot is returned only if the two are the same. -/
theorem run_returns_halting_error_iff {t : Transition} (hact : job.act (.run i) = some t)
    {actions : List JobAction} {x : Watch}
    (hpath : Watch.Path i ⟨t.job, t.returned⟩ actions x) {r : Return}
    (hreturned : x.returned = some r) (hhalt : x.job.halt = some e) :
    (r = .ran (.error e) ↔
      ∀ failure, pageFailure? job.setup.source.bucket i actions = some failure → failure = e) ∧
    ∀ failure, pageFailure? job.setup.source.bucket i actions = some failure →
      r = .ran (.error failure) := by
  obtain ⟨-, hx⟩ := hpath.running (running_of_act hact)
  have hsetup : t.job.setup = job.setup := (act_deed hact).move.1.setup
  simp only [hsetup] at hx
  generalize pageFailure? job.setup.source.bucket i actions = failure at hx ⊢
  cases hx with
  | going _ hwaits =>
    rw [hreturned] at hwaits
    cases hwaits
  | ended _ hran _ houtcome =>
    rw [hreturned] at hran
    cases hran
    cases houtcome with
    | complete hnone =>
      rw [hhalt] at hnone
      cases hnone
    | halted hslot =>
      rw [hhalt] at hslot
      cases hslot
      simp
    | failed failure => simp

/-- What a call to feed `i` has come to after some actions. -/
def Watch.after? (i : Nat) (w : Watch) : List JobAction → Option Watch
  | [] => some w
  | action :: rest =>
      if w.returned.isSome then none
      else
        (w.job.act action).bind fun t =>
          Watch.after? i ⟨t.job, if action.feed? = some i then t.returned else none⟩ rest

theorem Watch.Path.after {w x y : Watch} {before actions : List JobAction}
    (h : Watch.Path i w before x) (hafter : Watch.after? i x actions = some y) :
    Watch.Path i w (before ++ actions) y := by
  induction actions generalizing before x with
  | nil =>
    cases hafter
    rw [List.append_nil]
    exact h
  | cons action rest ih =>
    unfold Watch.after? at hafter
    split at hafter
    · cases hafter
    · rename_i hnone
      have hwaits : x.returned = none := by simpa using hnone
      obtain ⟨t, hact, hrest⟩ := Option.bind_eq_some_iff.mp hafter
      have hstep : Watch.Step i action x ⟨t.job, if action.feed? = some i then t.returned else none⟩ := by
        split
        · rename_i hown
          exact .own hact hown hwaits
        · rename_i hother
          rw [← hwaits]
          exact .other hact hother
      rw [List.append_cons]
      exact ih (.step h hwaits hstep) hrest

/-- A job without tasks whose objects are copied in parts. -/
def lostPageJob : Job :=
  { setup :=
      { source := { bucket := "from" }
        target := { bucket := "to" }
        options := { pageSize := 1, multipartThreshold := 1, forceOverwrite := true } }
    freeSlots := 10 }

def firstPage : List JobAction :=
  [.openFeed none, .nextPage 0, .listed 0 (.ok (.page ⟨[⟨"first", 5⟩], some "first", true⟩))]

/-- The next page cannot be had. Then neither can the only part of the first object, nor the end of
its upload. -/
def lostPage : List JobAction :=
  [.listed 0 (.error (.other "no page")), .grant 0, .start 0,
    .reply 0 .whole (.ok (.metadata (some ⟨5, none, none, none⟩))),
    .reply 0 .whole (.ok (.uploadId "upload")), .startPart 0,
    .reply 0 (.part 1) (.error (.other "no part")), .reply 0 .whole (.error (.other "no end")),
    .release 0, .account 0, .join 0 0]

/-- The error that the upload of the first object halts the job with. -/
def lostUpload : MigrationError :=
  .abortFailed "first" "upload" (.other "no end") (.storage "first" "get part" (.other "no part"))

theorem exists_lostPage :
    ∃ job t x, Reach lostPageJob job ∧ job.act (.run 0) = some t ∧
      Watch.Path 0 ⟨t.job, t.returned⟩ lostPage x ∧ x.job.halt = some lostUpload ∧
      job.setup = lostPageJob.setup ∧
      x.returned = some (.ran (.error (.listing "from" (.other "no page")))) := by
  have h : ∃ job t x, lostPageJob.after? firstPage = some job ∧ job.act (.run 0) = some t ∧
      Watch.after? 0 (Transition.watch t) lostPage = some x ∧ x.job.halt = some lostUpload ∧
      job.setup = lostPageJob.setup ∧
      x.returned = some (.ran (.error (.listing "from" (.other "no page")))) :=
    ⟨_, _, _, rfl, rfl, rfl, rfl, rfl, rfl⟩
  obtain ⟨job, t, x, hfirst, hact, hafter, hend⟩ := h
  exact ⟨job, t, x, reach_of_after? hfirst, hact, Watch.Path.start.after hafter, hend⟩

/-- A run that has lost a page does not tell that the job is halted. -/
theorem run_hides_halt_of_lost_page :
    ∃ job t x, Reach lostPageJob job ∧ job.act (.run 0) = some t ∧
      Watch.Path 0 ⟨t.job, t.returned⟩ lostPage x ∧ x.job.halt = some lostUpload ∧
      x.returned = some (.ran (.error (.listing "from" (.other "no page")))) ∧
      x.returned ≠ some (.ran (.error lostUpload)) := by
  obtain ⟨job, t, x, hreach, hact, hpath, hhalt, -, hreturned⟩ := exists_lostPage
  refine ⟨job, t, x, hreach, hact, hpath, hhalt, hreturned, ?_⟩
  rw [hreturned]
  simp [lostUpload]

theorem run_returns_halting_error_iff_lost_page :
    ∃ job t x r, Reach lostPageJob job ∧ job.act (.run 0) = some t ∧
      Watch.Path 0 ⟨t.job, t.returned⟩ lostPage x ∧ x.job.halt = some lostUpload ∧
      x.returned = some r ∧ (r = .ran (.error lostUpload) ↔
        MigrationError.listing "from" (.other "no page") = lostUpload) := by
  obtain ⟨job, t, x, hreach, hact, hpath, hhalt, hsetup, hreturned⟩ := exists_lostPage
  refine ⟨job, t, x, _, hreach, hact, hpath, hhalt, hreturned, ?_⟩
  have hfailure : pageFailure? job.setup.source.bucket 0 lostPage =
      some (.listing "from" (.other "no page")) := by
    rw [hsetup]
    rfl
  rw [(run_returns_halting_error_iff hact hpath hreturned hhalt).1, hfailure]
  simp

end Job

end BucketMigration
