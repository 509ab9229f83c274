import BucketMigration.Proofs.World.Working

/-!
# A run returns

What is left of a run is counted: the objects that have not been listed, then the work that is left
of the tasks, the tasks that the feed has to join and the page that it waits for. Whatever goes on
leaves less, but for the time that passes and the consumer of the results. Until the run returns,
something can go on. So it does return.
-/

namespace BucketMigration

namespace World

/-- After whatever else, a task or the feed goes on. -/
def Watch.Round (x y : Watch) : Prop :=
  ∃ m action, Watch.Reach x m ∧ Watch.Step action m y ∧ action.isIdle = false

section

variable (w : World)

/-- What is left to do of feed 0: to join its tasks, each of which may lead to one more call, and to
be told the page that it has asked for. -/
def feedLeft (feed : Feed) : Nat :=
  4 * feed.tasks.length +
    if feed.activity.isListing then Solo.stepsLeft (w.callState? (.feed 0)) else 0

def unlisted (l : Listing) (feed : Feed) : Nat :=
  if feed.isDone then 0 else l.objects.length + 1 - w.job.tasks.length

def left (l : Listing) (feed : Feed) : Lex (Nat × Nat) :=
  toLex (w.unlisted l feed, w.tasksLeft + w.feedLeft feed)

end

def Watch.left (l : Listing) (x : Watch) : Lex (Nat × Nat) :=
  x.world.left l (x.world.job.feeds.headD {})

variable {v w start : World} {t k : Nat} {feed : Feed} {x y : Watch} {l : Listing}
  {action : WorldAction} {logs : List LogLine}

theorem feedLeft_le (w : World) (feed : Feed) : w.feedLeft feed ≤ 4 * feed.tasks.length + 3 := by
  have hle := Solo.stepsLeft_le_three (w.callState? (.feed 0))
  unfold feedLeft
  split <;> omega

theorem listing_of_call? (hfeeds : w.job.feeds = [feed]) {i : Nat} {call : Call}
    (hcall : w.call? (.feed i) = some call) : i = 0 ∧ feed.activity.isListing = true := by
  rw [call?, Job.feedCall?, hfeeds] at hcall
  split at hcall
  · rename_i feed' hi
    obtain ⟨hlt, hget⟩ := List.getElem?_eq_some_iff.mp hi
    obtain rfl : i = 0 := Nat.lt_one_iff.mp hlt
    cases hget
    split at hcall
    · rename_i hactivity
      exact ⟨rfl, by rw [List.getElem_cons_zero] at hactivity; rw [hactivity]; rfl⟩
    · cases hcall
  · cases hcall

theorem Watch.left_eq (hfeeds : x.world.job.feeds = [feed]) : x.left l = x.world.left l feed := by
  rw [Watch.left, hfeeds]
  rfl

theorem Driven.unlisted_eq (h : Driven l k feed w.job) :
    w.unlisted l feed =
      if l.isDone k then 0 else l.objects.length + 1 - min (k * l.pageSize) l.objects.length := by
  have hlength := congrArg List.length h.objects
  rw [List.length_map, List.length_take] at hlength
  rw [unlisted, h.told.isDone, hlength]

theorem Driven.unlisted_lt {feed' : Feed} (h : Driven l k feed w.job)
    (hnext : Driven l (k + 1) feed' v.job) (hsize : 0 < l.pageSize) (hmore : l.isDone k = false) :
    v.unlisted l feed' < w.unlisted l feed := by
  rw [h.unlisted_eq, hnext.unlisted_eq, hmore, if_neg Bool.false_ne_true]
  have hsucc := Nat.add_one_mul k l.pageSize
  split
  · omega
  · rename_i hlast
    have hlast : (k + 1) * l.pageSize < l.objects.length := by
      simpa [Listing.isDone, Listing.isLast] using hlast
    omega

theorem Sweep.left_lt_of_tasks (h : Sweep start k feed x) (hfeeds : v.job.feeds = x.world.job.feeds)
    (hlength : v.job.tasks.length = x.world.job.tasks.length)
    (hcall : v.callState? (.feed 0) = x.world.callState? (.feed 0))
    (hless : v.tasksLeft < x.world.tasksLeft) : Watch.left l ⟨v, none⟩ < x.left l := by
  rw [Watch.left_eq h.driven.feeds, Watch.left_eq (x := ⟨v, none⟩) (hfeeds.trans h.driven.feeds)]
  refine Prod.Lex.toLex_lt_toLex.mpr (.inr ⟨?_, ?_⟩)
  · rw [unlisted, unlisted, hlength]
  · rw [feedLeft, feedLeft, hcall]
    exact Nat.add_lt_add_right hless _

theorem Sweep.left_lt_of_call (h : Sweep start k feed x) {caller : Caller} {call : Call}
    (hcall : x.world.call? caller = some call) (hjob : v.job = x.world.job)
    (hother : ∀ other, other ≠ caller → v.callState? other = x.world.callState? other)
    (hless : Solo.stepsLeft (v.callState? caller) < Solo.stepsLeft (x.world.callState? caller)) :
    Watch.left l ⟨v, none⟩ < x.left l := by
  cases caller with
  | task t lane =>
    exact h.left_lt_of_tasks (by rw [hjob]) (by rw [hjob]) (hother _ Caller.noConfusion)
      (tasksLeft_lt_of_call hcall hjob hother hless)
  | feed i =>
    obtain ⟨rfl, hlisting⟩ := listing_of_call? h.driven.feeds hcall
    have hlanes : v.lanes = x.world.lanes := by
      funext t lane
      exact hother _ Caller.noConfusion
    rw [Watch.left_eq h.driven.feeds, Watch.left_eq (x := ⟨v, none⟩) (hjob ▸ h.driven.feeds)]
    refine Prod.Lex.toLex_lt_toLex.mpr (.inr ⟨by rw [unlisted, unlisted, hjob], ?_⟩)
    simp only [tasksLeft_congr (congrArg Job.tasks hjob) hlanes (congrArg Job.setup hjob),
      feedLeft, hlisting, if_true]
    omega
  | solo lane =>
    obtain ⟨trails, events, htracked⟩ := h.tracked
    simp [call?, htracked.solo] at hcall

theorem Sweep.left_lt_of_act (h : Sweep start k feed x) {jobAction : JobAction} {u : Transition}
    (hown : jobAction.task? = some t) (hact : x.world.job.act jobAction = some u)
    (hjob : v.job = u.job) (hcall : v.callState? (.feed 0) = x.world.callState? (.feed 0))
    (hless : v.tasksLeft < x.world.tasksLeft) : Watch.left l ⟨v, none⟩ < x.left l := by
  obtain ⟨object, stage, stage', -, -, htasks⟩ := Job.act_goes hown hact
  refine h.left_lt_of_tasks ?_ ?_ hcall hless
  · rw [hjob, (Job.frame_of_task hown hact).feeds]
  · rw [hjob, htasks, Job.length_tasks_setStage]

theorem Sweep.left_lt_of_listed (hstart : Fresh start) (h : Sweep start k feed x)
    (hmore : start.listing.isDone k = false)
    (hcome : v.job = (x.world.job.listed 0 feed true (.ok ⟨start.listing.page k,
      start.listing.nextToken k, !start.listing.isLast k⟩)).job) (returned : Option Return) :
    Watch.left start.listing ⟨v, returned⟩ < x.left start.listing := by
  obtain ⟨feed', hnext⟩ := h.driven.listed hstart.pageSize.1
  rw [← hcome] at hnext
  rw [Watch.left_eq h.driven.feeds, Watch.left_eq (x := ⟨v, returned⟩) hnext.feeds]
  exact Prod.Lex.toLex_lt_toLex.mpr (.inl (h.driven.unlisted_lt hnext hstart.pageSize.1 hmore))

theorem Sweep.left_lt_of_join (h : Sweep start k feed x) {task : Nat} {goal : Goal}
    {status : TaskStatus} {joined : Job} (hjoining : feed.activity = .joining goal)
    (hmem : task ∈ feed.tasks)
    (hjoin : (x.world.job.stage? task).bind (x.world.job.joinTask task) =
      some (status, joined, logs))
    (hcome : v.job = (joined.joined 0 { feed with tasks := feed.tasks.erase task } goal).job)
    (hcalls : v.calls = x.world.calls) (returned : Option Return) :
    Watch.left l ⟨v, returned⟩ < x.left l := by
  have hwork := Job.work_of_joinTask hjoin
  obtain ⟨activity, -, hjob⟩ :=
    Job.steers_joined joined 0 { feed with tasks := feed.tasks.erase task } goal
  rw [hjob] at hcome
  have hsame : joined.tasks = x.world.job.tasks := Job.tasks_of_joinTask hjoin
  have htasks : v.job.tasks = x.world.job.tasks := by
    rw [hcome]
    exact hsame
  have hsetup : v.job.setup = x.world.job.setup := by
    rw [hcome]
    exact hwork.fixed.setup
  have hfeeds : v.job.feeds = [{ feed with tasks := feed.tasks.erase task, activity }] := by
    rw [hcome, Job.setFeed, hwork.drivers.1, h.driven.feeds]
    rfl
  rw [Watch.left_eq h.driven.feeds, Watch.left_eq (x := ⟨v, returned⟩) hfeeds]
  refine Prod.Lex.toLex_lt_toLex.mpr (.inr ⟨by rw [unlisted, unlisted, htasks], ?_⟩)
  have hlength := List.length_erase_of_mem hmem
  have hpos := List.length_pos_of_mem hmem
  have hle := v.feedLeft_le { feed with tasks := feed.tasks.erase task, activity }
  have hbefore : x.world.feedLeft feed = 4 * feed.tasks.length := by
    simp [feedLeft, hjoining, Activity.isListing]
  simp only [tasksLeft_congr htasks (lanes_of_calls hcalls) hsetup, hbefore]
  simp only [hlength] at hle
  omega

theorem left_eq_of_consumer (hjob : ∃ results, v.job = { x.world.job with results })
    (hcalls : v.calls = x.world.calls) : Watch.left l ⟨v, none⟩ = x.left l := by
  obtain ⟨results, hjob⟩ := hjob
  have hsum : v.tasksLeft = x.world.tasksLeft :=
    tasksLeft_congr (by rw [hjob]) (lanes_of_calls hcalls) (by rw [hjob])
  rw [Watch.left, Watch.left, left, left, unlisted, unlisted, feedLeft, feedLeft, hsum,
    callState?_of_calls hcalls, hjob]

theorem Sweep.left_lt_or (hstart : Fresh start) (h : Sweep start k feed x)
    (hstep : Watch.Step action x y) : y.left start.listing < x.left start.listing ∨
      action.isIdle = true ∧ y.left start.listing = x.left start.listing := by
  obtain @⟨t, hwaits, hact, hrun⟩ := hstep
  cases act_runDeed h.driven.feeds (h.stage hwaits) h.driven.batches hact hrun with
  | enter hcall hfree =>
    exact .inl (h.left_lt_of_call hcall (by rw [enter_eq]; rfl)
      (fun _ => callState?_enter_of_ne _) (stepsLeft_enter _ hfree))
  | finish hcall hentered =>
    exact .inl (h.left_lt_of_call hcall rfl (fun _ => callState?_finish_of_ne _)
      (stepsLeft_finish _ hentered))
  | pass => exact .inr ⟨rfl, left_eq_of_consumer ⟨_, rfl⟩ rfl⟩
  | consumer haction _ hjob =>
    refine .inr ⟨?_, left_eq_of_consumer hjob rfl⟩
    rcases haction with rfl | rfl <;> rfl
  | internal hown _ htaken =>
    exact .inl (h.left_lt_of_act hown htaken rfl rfl
      (h.working.tasksLeft_lt_of_internal hstart hown htaken))
  | reply _ htaken =>
    refine .inl (h.left_lt_of_act rfl htaken rfl ?_
      (h.working.tasksLeft_lt_of_reply hstart htaken))
    exact (callState?_clearCall ..).trans (if_neg Caller.noConfusion)
  | panic htaken =>
    exact .inl (h.left_lt_of_act rfl htaken rfl
      (callState?_clearTask_of_ne _ fun _ => Caller.noConfusion) (tasksLeft_lt_of_panic htaken))
  | listed hlisting hanswered hpage =>
    have hheard := h.heard hwaits
    rw [hanswered, hlisting] at hheard
    cases hheard with
    | told hmore =>
      cases hpage
      exact .inl (h.left_lt_of_listed hstart hmore rfl _)
  | join hjoining hmem hjoin =>
    refine .inl (h.left_lt_of_join hjoining hmem hjoin ?_ ?_ _)
    · rfl
    · rfl

def Watch.Goes (x : Watch) : Prop :=
  ∃ action y, Watch.Step action x y ∧ action.isIdle = false

theorem Watch.goes_of_world (hwaits : x.returned = none) (hgoes : x.world.GoesOn) : x.Goes := by
  obtain ⟨action, t, hact, hrun, -, hidle⟩ := hgoes
  exact ⟨action, _, .step hwaits hact hrun, hidle⟩

theorem Sweep.goes_of_listing (h : Sweep start k feed x) (hwaits : x.returned = none)
    (hlisting : feed.activity = .listing true) : x.Goes := by
  have hi : x.world.job.feeds[0]? = some feed := by rw [h.driven.feeds]; rfl
  have hcall : ∃ call, x.world.call? (.feed 0) = some call := by
    simp only [call?, Job.feedCall?, hi, hlisting]
    exact ⟨_, rfl⟩
  obtain ⟨call, hcall⟩ := hcall
  obtain ⟨action, t, hact, hrun, haction⟩ := exists_act_of_call (.feed 0) hcall rfl
    fun reply hanswered => by
      have hheard := h.heard hwaits
      rw [hanswered, hlisting] at hheard
      cases hheard
      simp only [deliver, clearCall, Job.act, hi, Option.bind_some, Job.actOnFeed, hlisting,
        Reply.page?, Option.map_some, Option.isSome_some]
  simp only [List.mem_cons, List.not_mem_nil, or_false] at haction
  rcases haction with rfl | rfl | rfl <;> exact ⟨_, _, .step hwaits hact hrun, rfl⟩

theorem Sweep.goes_of_joining (hstart : Fresh start) (h : Sweep start k feed x)
    (hwaits : x.returned = none) {goal : Goal} (hjoining : feed.activity = .joining goal)
    (htasks : feed.tasks ≠ []) : x.Goes := by
  obtain ⟨results, hnew⟩ := hstart.job
  have hi : x.world.job.feeds[0]? = some feed := by rw [h.driven.feeds]; rfl
  obtain ⟨task, hmem⟩ := List.exists_mem_of_ne_nil _ htasks
  have hlt := h.reach.valid hnew feed (List.mem_of_getElem? hi) task hmem
  obtain ⟨stage, hstage⟩ : ∃ stage, x.world.job.stage? task = some stage := by
    rw [Job.stage?, List.getElem?_eq_getElem hlt]
    exact ⟨_, rfl⟩
  cases hover : stage.isOver with
  | true =>
    obtain ⟨u, hact⟩ := Option.isSome_iff_exists.mp
      (Job.isSome_act_join hi hjoining hmem hstage hover)
    have hact : x.world.act (.job (.join 0 task)) = some (x.world.ofTransition u) := by
      simp only [act, isInternal, if_true, hact, Option.map_some]
    exact ⟨_, _, .step hwaits hact rfl, rfl⟩
  | false => exact Watch.goes_of_world hwaits (h.working.goes hstart hstage hover)

/-- A run that has not returned goes on. -/
theorem Sweep.goes (hstart : Fresh start) (h : Sweep start k feed x)
    (hwaits : x.returned = none) : x.Goes := by
  cases h.stage hwaits with
  | listing hlisting => exact h.goes_of_listing hwaits hlisting
  | room hjoining htasks | finish hjoining _ htasks | halted hjoining _ htasks =>
    exact h.goes_of_joining hstart hwaits hjoining htasks

section Return

variable (hstart : Fresh start) (h : ∃ k feed, Sweep start k feed x)
include hstart h

theorem Watch.Reach.left_le (hreach : Watch.Reach x y) :
    (∃ k feed, Sweep start k feed y) ∧ y.left start.listing ≤ x.left start.listing := by
  induction hreach with
  | refl => exact ⟨h, le_rfl⟩
  | tail _ hstep ih =>
    obtain ⟨⟨k, feed, hmid⟩, hle⟩ := ih
    obtain ⟨action, hstep⟩ := hstep
    refine ⟨hmid.step hstart hstep, ?_⟩
    rcases hmid.left_lt_or hstart hstep with hless | ⟨-, hsame⟩
    · exact hless.le.trans hle
    · exact hsame.le.trans hle

theorem Watch.Round.left_lt (hround : Watch.Round x y) :
    (∃ k feed, Sweep start k feed y) ∧ y.left start.listing < x.left start.listing := by
  obtain ⟨m, action, hreach, hstep, hidle⟩ := hround
  obtain ⟨⟨k, feed, hm⟩, hle⟩ := Watch.Reach.left_le hstart h hreach
  refine ⟨hm.step hstart hstep, ?_⟩
  rcases hm.left_lt_or hstart hstep with hless | ⟨htrue, -⟩
  · exact hless.trans_le hle
  · rw [hidle] at htrue
    cases htrue

end Return

/-- A run over stores that do not fail returns, as long as the tasks and the feed go on from time to
time. -/
theorem Fresh.inevitable (hstart : Fresh start) (hbegins : Begins start x) :
    Inevitable Watch.Round (fun y => y.returned ≠ none) x := by
  refine Inevitable.of_wellFounded wellFounded_lt (fun y => ∃ k feed, Sweep start k feed y)
    (Watch.left start.listing) ?_ ?_ ⟨0, hstart.sweep hbegins⟩
  · intro y z hy hround
    exact Watch.Round.left_lt hstart hy hround
  · rintro y ⟨k, feed, hy⟩ hnot
    obtain ⟨action, z, hstep, hidle⟩ := hy.goes hstart (not_not.mp hnot)
    exact ⟨z, y, action, .refl, hstep, hidle⟩

end World

end BucketMigration
