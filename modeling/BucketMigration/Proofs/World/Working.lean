import BucketMigration.Proofs.World.Sweep

/-!
# Tasks at work on a listing

Whatever drives a new job over stores that do not fail, its tasks work on objects of the listing, each
of them on its own. The work that is left of them is counted in steps of their calls. Whatever a task
does leaves less of it, and a task that is not over can do something, unless it waits for a slot that
another task holds.
-/

namespace BucketMigration

namespace WorldAction

/-- The actions that take no task and no feed further. -/
def isIdle : WorldAction → Bool
  | pass _ | job .receive | job .closeResults => true
  | _ => false

end WorldAction

namespace World

/-- A job that has come from `start` and works on objects of the listing, each in a task of its own. -/
structure Working (start w : World) : Prop where
  reach : Job.Reach start.job w.job
  objects : ∀ task ∈ w.job.tasks, task.object ∈ start.listing.objects
  keys : (w.job.tasks.map fun task => task.object.key).Nodup
  tracked : ∃ trails events,
    Tracked start.stores start.job.setup True True trails (Event.writes events) w

section

variable (w : World)

/-- The work that is left of a task, in steps of its calls. -/
def taskLeft (t : Nat) : Nat :=
  ((w.job.stage? t).map (TaskStage.remaining 3 (Solo.left (w.lanes t)) w.job.setup)).getD 0

def tasksLeft : Nat :=
  ((List.range w.job.tasks.length).map w.taskLeft).sum

end

variable {v w start : World} {t k : Nat} {feed : Feed} {x : Watch} {action : WorldAction}

theorem Fresh.working (hstart : Fresh start) : Working start start := by
  obtain ⟨results, hnew⟩ := hstart.job
  have htasks : start.job.tasks = [] := by rw [(Job.new?_eq_ok hnew).1]
  refine ⟨.refl, ?_, ?_, fun _ => {}, [], ?_⟩
  · rw [htasks]
    nofun
  · rw [htasks]
    exact List.nodup_nil
  · exact tracked_start htasks hstart.calls hstart.solo hstart.apart hstart.ids fun _ => hstart.faults

theorem Sweep.working (h : Sweep start k feed x) : Working start x.world :=
  ⟨h.reach, fun _ => h.driven.mem_objects, h.driven.nodup_keys, h.tracked⟩

theorem Working.of_reach (h : Working start w) (hreach : Job.Reach w.job v.job)
    (hobjects : v.job.tasks.map Task.object = w.job.tasks.map Task.object)
    (htracked : ∃ trails events,
      Tracked start.stores start.job.setup True True trails (Event.writes events) v) :
    Working start v where
  reach := h.reach.trans hreach
  objects := by
    intro task htask
    have hmem := List.mem_map_of_mem (f := Task.object) htask
    rw [hobjects] at hmem
    obtain ⟨old, hold, heq⟩ := List.mem_map.mp hmem
    exact heq ▸ h.objects old hold
  keys := by
    have hkeys := congrArg (List.map ObjectDescriptor.key) hobjects
    rw [List.map_map, List.map_map] at hkeys
    exact hkeys ▸ h.keys
  tracked := htracked

theorem Working.exists_tracked (h : Working start w) {next : WorldTransition}
    (hact : w.act action = some next) (hserved : (⟨w, action, next⟩ : Event).isServed = true) :
    ∃ trails events,
      Tracked start.stores start.job.setup True True trails (Event.writes events) next.world := by
  obtain ⟨trails, events, htracked⟩ := h.tracked
  obtain ⟨trails', hnext⟩ := htracked.step hact hserved fun _ =>
    keysApart_of_nodup h.objects h.keys htracked.setup_eq
  rw [← Event.writes_snoc] at hnext
  exact ⟨trails', _, hnext⟩

theorem taskLeft_eq {stage : TaskStage} (ht : w.job.stage? t = some stage) :
    w.taskLeft t = stage.remaining 3 (Solo.left (w.lanes t)) w.job.setup := by
  rw [taskLeft, ht]
  rfl

theorem taskLeft_congr (hstage : v.job.stage? t = w.job.stage? t) (hlanes : v.lanes t = w.lanes t)
    (hsetup : v.job.setup = w.job.setup) : v.taskLeft t = w.taskLeft t := by
  rw [taskLeft, taskLeft, hstage, hlanes, hsetup]

theorem tasksLeft_congr (htasks : v.job.tasks = w.job.tasks) (hlanes : v.lanes = w.lanes)
    (hsetup : v.job.setup = w.job.setup) : v.tasksLeft = w.tasksLeft := by
  rw [tasksLeft, tasksLeft, htasks]
  congr 2
  funext t
  refine taskLeft_congr ?_ (congrFun hlanes t) hsetup
  rw [Job.stage?, Job.stage?, htasks]

theorem tasksLeft_lt_of_task {stage stage' : TaskStage} {object : ObjectDescriptor}
    (ht : w.job.tasks[t]? = some ⟨object, stage⟩)
    (htasks : v.job.tasks = (w.job.setStage t stage').tasks)
    (hsetup : v.job.setup = w.job.setup) (hlanes : ∀ u, u ≠ t → v.lanes u = w.lanes u)
    (hless : stage'.remaining 3 (Solo.left (v.lanes t)) w.job.setup <
      stage.remaining 3 (Solo.left (w.lanes t)) w.job.setup) : v.tasksLeft < w.tasksLeft := by
  have hlength : v.job.tasks.length = w.job.tasks.length := by
    rw [htasks, Job.length_tasks_setStage]
  have hstage : ∀ u, v.job.stage? u = if u = t then some stage' else w.job.stage? u := by
    intro u
    rw [Job.stage?, htasks, Job.setStage, List.getElem?_modify, Job.stage?]
    by_cases heq : t = u
    · subst heq
      simp [ht]
    · simp [heq, Ne.symm heq]
  have hother : ∀ u, u ≠ t → v.taskLeft u = w.taskLeft u := by
    intro u hu
    refine taskLeft_congr ?_ (hlanes u hu) hsetup
    rw [hstage, if_neg hu]
  have hself : v.taskLeft t < w.taskLeft t := by
    have hw : w.job.stage? t = some stage := by
      rw [Job.stage?, ht]
      rfl
    rw [taskLeft_eq ((hstage t).trans (if_pos rfl)), hsetup, taskLeft_eq hw]
    exact hless
  rw [tasksLeft, hlength]
  have hlt := (List.getElem?_eq_some_iff.mp ht).1
  refine List.sum_lt_sum _ _ ?_ ⟨t, List.mem_range.mpr hlt, hself⟩
  intro u _
  by_cases hu : u = t
  · rw [hu]
    exact Nat.le_of_lt hself
  · exact Nat.le_of_eq (hother u hu)

theorem stepsLeft_enter {caller : Caller} (call : Call) (hfree : w.callState? caller = none) :
    Solo.stepsLeft ((w.enter caller call).callState? caller) <
      Solo.stepsLeft (w.callState? caller) := by
  rw [enter_eq, callState?_setCall, if_pos rfl, hfree]
  split
  · exact Nat.lt_of_sub_eq_succ rfl
  · exact Nat.lt_succ_self 2

theorem stepsLeft_finish {caller : Caller} (call : Call)
    (hentered : w.callState? caller = some .entered) :
    Solo.stepsLeft ((w.finish caller call).callState? caller) <
      Solo.stepsLeft (w.callState? caller) := by
  rw [finish, callState?_setCall, if_pos rfl, hentered]
  exact Nat.lt_succ_self 1

theorem callState?_enter_of_ne {caller other : Caller} (call : Call) (hne : other ≠ caller) :
    (w.enter caller call).callState? other = w.callState? other := by
  rw [enter_eq]
  exact (callState?_setCall ..).trans (if_neg hne)

theorem callState?_finish_of_ne {caller other : Caller} (call : Call) (hne : other ≠ caller) :
    (w.finish caller call).callState? other = w.callState? other :=
  (callState?_setCall ..).trans (if_neg hne)

theorem callState?_of_calls (hcalls : v.calls = w.calls) : v.callState? = w.callState? := by
  funext caller
  rw [callState?, hcalls, callState?]

theorem lanes_of_calls (hcalls : v.calls = w.calls) : v.lanes = w.lanes := by
  funext t lane
  exact congrFun (callState?_of_calls hcalls) (.task t lane)

theorem lanes_eq_update {lane : Lane}
    (h : ∀ other, other ≠ .task t lane → v.callState? other = w.callState? other) :
    v.lanes t = Function.update (w.lanes t) lane (v.callState? (.task t lane)) := by
  funext l
  by_cases hl : l = lane
  · subst hl
    rw [Function.update_self]
    rfl
  · rw [Function.update_of_ne hl]
    exact h _ (by simpa using hl)

theorem tasks_setStage_self {job : Job} {object : ObjectDescriptor} {stage : TaskStage}
    (ht : job.tasks[t]? = some ⟨object, stage⟩) : (job.setStage t stage).tasks = job.tasks := by
  rw [Job.setStage]
  apply List.ext_getElem?
  intro u
  rw [List.getElem?_modify]
  by_cases heq : t = u
  · subst heq
    simp [ht]
  · simp [heq]

theorem tasksLeft_lt_of_call {lane : Lane} {call : Call}
    (hcall : w.call? (.task t lane) = some call) (hjob : v.job = w.job)
    (hother : ∀ other, other ≠ .task t lane → v.callState? other = w.callState? other)
    (hless : Solo.stepsLeft (v.callState? (.task t lane)) <
      Solo.stepsLeft (w.callState? (.task t lane))) : v.tasksLeft < w.tasksLeft := by
  obtain ⟨object, c, ht, hcopy⟩ := exists_running hcall
  have htasks : v.job.tasks = (w.job.setStage t (.running c)).tasks := by
    rw [hjob, tasks_setStage_self ht]
  refine tasksLeft_lt_of_task ht htasks (by rw [hjob]) ?_ ?_
  · intro u hu
    funext l
    exact hother _ (task_ne hu lane l).symm
  · rw [lanes_eq_update hother]
    exact Nat.add_lt_add_right (Solo.remaining_lt_of_update hcopy hless) 5

theorem tasksLeft_lt_of_act {jobAction : JobAction} {u : Transition}
    (hown : jobAction.task? = some t) (hact : w.job.act jobAction = some u) (hjob : v.job = u.job)
    (hlanes : ∀ n, n ≠ t → v.lanes n = w.lanes n)
    (hless : ∀ object stage stage', w.job.tasks[t]? = some ⟨object, stage⟩ →
      w.job.Goes object jobAction stage stage' u.job.course →
      stage'.remaining 3 (Solo.left (v.lanes t)) w.job.setup <
        stage.remaining 3 (Solo.left (w.lanes t)) w.job.setup) : v.tasksLeft < w.tasksLeft := by
  obtain ⟨object, stage, stage', ht, hgoes, htasks⟩ := Job.act_goes hown hact
  have hframe := Job.frame_of_task hown hact
  exact tasksLeft_lt_of_task ht (hjob ▸ htasks) (hjob ▸ hframe.setup) hlanes
    (hless object stage stage' ht hgoes)

theorem tasksLeft_lt_of_panic {reason : String} {u : Transition}
    (hact : w.job.act (.panic t reason) = some u) :
    ((w.clearTask t).ofTransition u).world.tasksLeft < w.tasksLeft := by
  refine tasksLeft_lt_of_act rfl hact rfl ?_ ?_
  · intro n hn
    funext lane
    exact callState?_clearTask_of_ne _ (task_ne (Ne.symm hn) lane)
  · intro object stage stage' ht hgoes
    generalize u.job.course = course at hgoes
    cases hgoes with
    | panic => exact Nat.succ_pos _
    | finish _ hstage => rcases hstage with rfl | rfl <;> exact Nat.succ_pos _

section Working

variable (hstart : Fresh start) (h : Working start w)
include hstart h

theorem Working.orderly {object : ObjectDescriptor} {stage : TaskStage}
    (ht : w.job.tasks[t]? = some ⟨object, stage⟩) : stage.Orderly w.job.results.isSome := by
  obtain ⟨results, hnew⟩ := hstart.job
  exact h.reach.forall_orderly hnew _ (List.mem_of_getElem? ht)

theorem Working.tasksLeft_lt_of_reply {lane : Lane} {reply : Reply} {u : Transition}
    (hact : w.job.act (.reply t lane reply) = some u) :
    ((w.clearCall (.task t lane)).ofTransition u).world.tasksLeft < w.tasksLeft := by
  refine tasksLeft_lt_of_act rfl hact rfl (fun n hn => lanes_clearCall_of_ne _ (task_ne hn lane)) ?_
  intro object stage stage' ht hgoes
  have horderly := h.orderly hstart ht
  generalize u.job.course = course at hgoes
  cases hgoes with
  | reply _ hnext =>
    refine Nat.add_lt_add_right (ObjectCopy.remaining_resume_lt
      (fun _ => ObjectCopy.nodup_of_orderly horderly) (Solo.stepsLeft_pos _) ?_
      (fun _ => Solo.stepsLeft_le_three _) hnext) 5
    intro other hne
    have hlanes := congrFun (lanes_clearCall_self w t lane) other
    rw [Function.update_of_ne hne] at hlanes
    exact congrArg Solo.stepsLeft hlanes
  | finish _ hstage => rcases hstage with rfl | rfl <;> exact Nat.lt_of_sub_eq_succ rfl

theorem Working.tasksLeft_lt_of_internal {jobAction : JobAction} {u : Transition}
    (hown : jobAction.task? = some t) (hact : w.job.act jobAction = some u) :
    (w.ofTransition u).world.tasksLeft < w.tasksLeft := by
  refine tasksLeft_lt_of_act hown hact rfl (fun _ _ => rfl) ?_
  intro object stage stage' ht hgoes
  exact hgoes.move.remaining_lt (h.orderly hstart ht) (fun _ => Solo.stepsLeft_pos _)
    fun _ => Solo.stepsLeft_le_three _

end Working

/-- Something goes on in a world, and no driver does it. -/
def GoesOn (w : World) : Prop :=
  ∃ action t, w.act action = some t ∧ (⟨w, action, t⟩ : Event).isOfRun = true ∧
    action.driver? = none ∧ action.isIdle = false

theorem goes_of_act (action : WorldAction) (hidle : action.isIdle = false)
    (hdriver : action.driver? = none) (hrun : ∀ t, (⟨w, action, t⟩ : Event).isOfRun = true)
    (hact : (w.act action).isSome = true) : w.GoesOn := by
  obtain ⟨t, hact⟩ := Option.isSome_iff_exists.mp hact
  exact ⟨action, t, hact, hrun t, hdriver, hidle⟩

theorem exists_act_of_call (caller : Caller) {call : Call} (hcall : w.call? caller = some call)
    (hcaller : (WorldAction.deliver caller).isAside = false)
    (hdeliver : ∀ reply, w.callState? caller = some (.answered reply) →
      (w.deliver caller reply).isSome = true) :
    ∃ action t, w.act action = some t ∧ (⟨w, action, t⟩ : Event).isOfRun = true ∧
      action ∈ [WorldAction.enter caller, .finish caller, .deliver caller] := by
  cases hstate : w.callState? caller with
  | none =>
    have hact : (w.act (.enter caller)).isSome = true := by
      simp only [act, hcall, hstate, Option.isSome_some]
    obtain ⟨t, hact⟩ := Option.isSome_iff_exists.mp hact
    exact ⟨_, t, hact, rfl, by simp⟩
  | some state =>
    cases state with
    | entered =>
      have hact : (w.act (.finish caller)).isSome = true := by
        simp only [act, hcall, hstate, Option.isSome_some]
      obtain ⟨t, hact⟩ := Option.isSome_iff_exists.mp hact
      exact ⟨_, t, hact, rfl, by simp⟩
    | answered reply =>
      have hact : (w.act (.deliver caller)).isSome = true := by
        simp only [act, hstate]
        exact hdeliver reply hstate
      obtain ⟨t, hact⟩ := Option.isSome_iff_exists.mp hact
      refine ⟨_, t, hact, ?_, by simp⟩
      simp [Event.isOfRun, Event.isServed, hcaller]

theorem goes_of_task (jobAction : JobAction) (hown : jobAction.task? = some t)
    (hinternal : isInternal jobAction = true) (hact : (w.job.act jobAction).isSome = true) :
    w.GoesOn := by
  refine goes_of_act (.job jobAction) ?_ ?_ (fun _ => ?_) ?_
  · cases jobAction <;> cases hown <;> rfl
  · cases jobAction <;> cases hown <;> rfl
  · cases jobAction <;> cases hown <;> rfl
  · simp only [act, hinternal, if_true, Option.isSome_map]
    exact hact

theorem isInternal_of_act {job : Job} {jobAction : JobAction} {object : ObjectDescriptor}
    {stage : TaskStage} (hown : jobAction.task? = some t)
    (ht : job.tasks[t]? = some ⟨object, stage⟩) (hnot : ∀ c, stage ≠ .running c)
    (hact : (job.act jobAction).isSome = true) : isInternal jobAction = true := by
  rw [Job.act_of_task hown ht] at hact
  cases jobAction with
  | reply | panic =>
    cases stage with
    | running c => exact absurd rfl (hnot c)
    | _ => cases hact
  | listed => cases hown
  | _ => rfl

section Working

variable (hstart : Fresh start) (h : Working start w)
include hstart h

theorem Working.goes_of_running {object : ObjectDescriptor} {c : ObjectCopy}
    (ht : w.job.tasks[t]? = some ⟨object, .running c⟩) : w.GoesOn := by
  obtain ⟨trails, events, htracked⟩ := h.tracked
  obtain ⟨hobject, hat⟩ := (htracked.task t _ ht).running_inv
  rw [← htracked.setup_eq] at hat
  have hstage : w.job.stage? t = some (.running c) := by
    rw [Job.stage?, ht]
    rfl
  cases hverdict : c.verdict? with
  | some v =>
    refine goes_of_task (.release t) rfl rfl ?_
    simp only [Job.act, ht, Option.bind_some, Job.actOnTask, hverdict, Option.map_some,
      Option.isSome_some]
  | none =>
    by_cases hflow : c.phase = .overflowed
    · refine goes_of_act (.panic t "") rfl rfl (fun _ => ?_) ?_
      · simp [Event.isOfRun, Event.isServed, hstage, hflow]
      · simp only [act, Job.act, ht, Option.bind_some, Job.actOnTask, hflow, Option.map_some,
          Option.isSome_some]
    · rcases ObjectCopy.exists_call_or_move w.job.setup (h.orderly hstart ht) hverdict hflow with
        ⟨lane, call, hcall⟩ | ⟨next, hnext⟩ | ⟨next, hnext⟩
      · have hmade : w.call? (.task t lane) = some call := by
          simp only [call?, Job.taskCall?, hstage, hcall]
        obtain ⟨action, u, hact, hrun, haction⟩ := exists_act_of_call (.task t lane) hmade rfl
          fun reply hanswered => by
            obtain ⟨next, hnext⟩ := hat.exists_resume hobject hcall hanswered
            simp only [deliver, clearCall, Job.act, ht, Option.bind_some, Job.actOnTask, hnext,
              Option.map_some, Option.isSome_some]
        simp only [List.mem_cons, List.not_mem_nil, or_false] at haction
        rcases haction with rfl | rfl | rfl <;> exact ⟨_, u, hact, hrun, rfl, rfl⟩
      · refine goes_of_task (.wake t) rfl rfl ?_
        simp only [Job.act, ht, Option.bind_some, Job.actOnTask, hnext, Option.map_some,
          Option.isSome_some]
      · refine goes_of_task (.startPart t) rfl rfl ?_
        simp only [Job.act, ht, Option.bind_some, Job.actOnTask, hnext, Option.map_some,
          Option.isSome_some]

/-- While a task is not over, it goes on or another one does. -/
theorem Working.goes {stage : TaskStage} (ht : w.job.stage? t = some stage)
    (hover : stage.isOver = false) : w.GoesOn := by
  obtain ⟨results, hnew⟩ := hstart.job
  obtain ⟨u, task, hu, hnot, hslot⟩ := h.reach.exists_ready hnew ht hover
  by_cases hrunning : ∃ c, task.stage = .running c
  · obtain ⟨c, hstage⟩ := hrunning
    have hc : w.job.tasks[u]? = some ⟨task.object, .running c⟩ := by rw [hu, ← hstage]
    exact h.goes_of_running hstart hc
  · obtain ⟨action, hown, hact⟩ := Job.exists_act hu (h.orderly hstart hu) hnot hslot
    exact goes_of_task action hown
      (isInternal_of_act hown hu (fun c hc => hrunning ⟨c, hc⟩) hact) hact

end Working

/-- Whether this happens while a driver is at work and nothing else drives the job. -/
def Event.isDrivenBy (d : Driver) (e : Event) : Bool :=
  e.isOfRun && (e.action.driver? = none || e.action.driver? = some d)

/-- An action while the call of a driver has not returned. -/
inductive Watch.Turn (d : Driver) (action : WorldAction) (x : Watch) : Watch → Prop
  | turn {t : WorldTransition} (hwaits : x.returned = none) (hact : x.world.act action = some t)
      (hdriven : (⟨x.world, action, t⟩ : Event).isDrivenBy d = true) :
      Watch.Turn d action x ⟨t.world, if action.driver? = some d then t.returned else none⟩

/-- Worlds that come about while a driver is at work. -/
def Watch.Leads (d : Driver) : Watch → Watch → Prop :=
  Relation.ReflTransGen fun x y => ∃ action, Watch.Turn d action x y

/-- After whatever else, a task or the driver goes on. -/
def Watch.Cycle (d : Driver) (x y : Watch) : Prop :=
  ∃ m action, Watch.Leads d x m ∧ Watch.Turn d action m y ∧ action.isIdle = false

theorem Watch.exists_turn (d : Driver) (hwaits : x.returned = none) (hgoes : x.world.GoesOn) :
    ∃ action y, Watch.Turn d action x y ∧ action.isIdle = false := by
  obtain ⟨action, t, hact, hrun, hnone, hidle⟩ := hgoes
  refine ⟨action, _, .turn hwaits hact ?_, hidle⟩
  simp [Event.isDrivenBy, hrun, hnone]

end World

end BucketMigration
