import BucketMigration.Proofs.Job.Runs
import Mathlib.Data.List.Forall2

/-!
# How many tasks a run has

A run asks for a page only while it has fewer tasks than a page may hold. So it never has two pages of
tasks, when the pages are no larger than what it asks for. Above the mark it does nothing but join its
tasks, and it returns only when all of them have been joined, whatever it returns.

The listing of a page that panics ends the run without a return, so there is no action for it.
-/

namespace BucketMigration

/-- The objects that a page brings. One that could not be had, or lacks its token, brings none. -/
def objectsOnPage : Except StorageError ListPage → List ObjectDescriptor
  | .error _ => []
  | .ok page => if page.lacksToken then [] else page.objects

def JobAction.pageObjects : JobAction → List ObjectDescriptor
  | listed _ given => ((Reply.page? given).map objectsOnPage).getD []
  | _ => []

namespace Job

/-- The objects that pages have brought to feed `i`, in order. -/
def pageObjects (i : Nat) (actions : List JobAction) : List ObjectDescriptor :=
  actions.flatMap fun action => if action.feed? = some i then action.pageObjects else []

/-- The feed of a run, whose tasks are bounded by what it does. -/
inductive Queue (limit : Nat) (feed : Feed) : Option Return → Prop
  | listing (hactivity : feed.activity = .listing true) (hroom : feed.tasks.length < limit) :
      Queue limit feed none
  | full (hactivity : feed.activity = .joining .room) (hfull : limit ≤ feed.tasks.length)
      (hbound : feed.tasks.length < 2 * limit) : Queue limit feed none
  | draining {goal : Goal} (hactivity : feed.activity = .joining goal) (hroom : goal ≠ .room)
      (hwait : goal ≠ .wait) (htasks : feed.tasks ≠ []) (hbound : feed.tasks.length < 2 * limit) :
      Queue limit feed none
  | returned {r : Return} (hactivity : feed.activity = .idle) (htasks : feed.tasks = []) :
      Queue limit feed (some r)

/-- A run goes on with its feed, whose tasks stay as they are. -/
def Queues (limit : Nat) (job : Job) (i : Nat) (feed : Feed) (t : Transition) : Prop :=
  ∃ activity, t.job = job.setFeed i { feed with activity } ∧
    Queue limit { feed with activity } t.returned

/-- What a run does by itself: a page comes, or a task is joined. -/
inductive RunMove (limit : Nat) (job : Job) (i : Nat) (feed : Feed) (action : JobAction)
    (t : Transition) : Prop
  | page {base : Job} {feed' : Feed} (hlisting : feed.activity = .listing true)
      (hfeeds : base.feeds = job.feeds)
      (hspawned : base.tasks = job.tasks ++ action.pageObjects.map fun d => ⟨d, .queued⟩)
      (htasks : feed'.tasks = feed.tasks ++ job.nextTasks action.pageObjects.length)
      (hnext : Queues limit base i feed' t) : RunMove limit job i feed action t
  | join {base : Job} {task : Nat} {goal : Goal} (haction : action = .join i task)
      (hjoining : feed.activity = .joining goal) (hmem : task ∈ feed.tasks)
      (hover : job.IsOver task) (hfeeds : base.feeds = job.feeds) (hsame : base.tasks = job.tasks)
      (hnext : Queues limit base i { feed with tasks := feed.tasks.erase task } t) :
      RunMove limit job i feed action t

variable {job start : Job} {action : JobAction} {actions : List JobAction} {i limit first : Nat}
  {feed : Feed} {t : Transition} {w x : Watch} {own : List Nat}

theorem Queues.tasks_eq (h : Queues limit job i feed t) : t.job.tasks = job.tasks := by
  obtain ⟨activity, hjob, -⟩ := h
  rw [hjob]
  rfl

theorem Queues.exists_feed (h : Queues limit job i feed t) (hlt : i < job.feeds.length) :
    ∃ feed', t.job.feeds[i]? = some feed' ∧ feed'.tasks = feed.tasks ∧
      Queue limit feed' t.returned := by
  obtain ⟨activity, hjob, hqueue⟩ := h
  refine ⟨{ feed with activity }, ?_, rfl, hqueue⟩
  rw [hjob]
  exact List.getElem?_set_self hlt

theorem queues_conclude (job : Job) (i : Nat) (goal : Goal) (htasks : feed.tasks = []) :
    Queues limit job i feed (job.conclude i feed goal) := by
  unfold conclude
  split
  · exact ⟨.idle, rfl, .returned rfl htasks⟩
  · exact ⟨.idle, rfl, .returned rfl htasks⟩
  · split <;> exact ⟨.idle, rfl, .returned rfl htasks⟩
  · split <;> exact ⟨.idle, rfl, .returned rfl htasks⟩

theorem queues_drain (job : Job) (i : Nat) {goal : Goal} (hroom : goal ≠ .room)
    (hwait : goal ≠ .wait) (hbound : feed.tasks.length < 2 * limit) :
    Queues limit job i feed (job.drain i feed goal) := by
  unfold drain
  split
  · rename_i hempty
    exact queues_conclude job i goal (List.isEmpty_iff.mp hempty)
  · rename_i htasks
    exact ⟨.joining goal, rfl,
      .draining rfl hroom hwait (fun hempty => htasks (List.isEmpty_iff.mpr hempty)) hbound⟩

theorem queues_turn (job : Job) (i : Nat) (hroom : feed.tasks.length < limit) :
    Queues limit job i feed (job.turn i feed) := by
  have hbound : feed.tasks.length < 2 * limit := by omega
  unfold turn
  split
  · exact queues_drain job i Goal.noConfusion Goal.noConfusion hbound
  · split
    · exact queues_drain job i Goal.noConfusion Goal.noConfusion hbound
    · exact ⟨.listing true, rfl, .listing rfl hroom⟩

theorem queues_turnIfRoom (i : Nat) (hlimit : job.setup.options.highWater = limit)
    (hbound : feed.tasks.length < 2 * limit) :
    Queues limit job i feed (job.turnIfRoom i feed) := by
  unfold turnIfRoom
  rw [hlimit]
  split
  · exact queues_turn job i ‹_›
  · exact ⟨.joining .room, rfl, .full rfl (Nat.not_lt.mp ‹_›) hbound⟩

theorem queues_joined (i : Nat) {goal : Goal} (hlimit : job.setup.options.highWater = limit)
    (hwait : goal ≠ .wait) (hbound : feed.tasks.length < 2 * limit) :
    Queues limit job i feed (job.joined i feed goal) := by
  unfold joined
  split
  · exact queues_turnIfRoom i hlimit hbound
  · rename_i hroom
    exact queues_drain job i hroom hwait hbound

theorem pageObjects_listed (i : Nat) {reply : Reply} {result : Except StorageError ListPage}
    (h : Reply.page? reply = some result) :
    (JobAction.listed i reply).pageObjects = objectsOnPage result := by
  rw [JobAction.pageObjects, h]
  rfl

theorem runMove_listed (hlimit : job.setup.options.highWater = limit)
    (hlisting : feed.activity = .listing true) (hroom : feed.tasks.length < limit) {reply : Reply}
    {result : Except StorageError ListPage} (hresult : Reply.page? reply = some result)
    (hpage : (objectsOnPage result).length ≤ limit) :
    RunMove limit job i feed (.listed i reply) (job.listed i feed true result) := by
  have hobjects := pageObjects_listed i hresult
  have hgiveUp : ∀ (base : Job) (e : MigrationError),
      Queues limit base i feed (base.drain i feed (.giveUp e)) :=
    fun base e => queues_drain base i Goal.noConfusion Goal.noConfusion (by omega)
  cases result with
  | error e =>
    exact .page hlisting rfl (by simp [hobjects, objectsOnPage])
      (by simp [hobjects, objectsOnPage, nextTasks]) (hgiveUp job _)
  | ok page =>
    cases hlacks : page.lacksToken with
    | true =>
      simp only [listed, hlacks, if_true]
      refine .page hlisting ?_ ?_ (by simp [hobjects, objectsOnPage, hlacks, nextTasks])
        (hgiveUp (job.haltWith (.missingContinuationToken job.setup.source.bucket)).1 _)
      · rw [haltWith_eq]
      · simp [hobjects, objectsOnPage, hlacks]
    | false =>
      simp only [listed, hlacks, Bool.false_eq_true, if_false]
      have hnew : objectsOnPage (.ok page) = page.objects := by simp [objectsOnPage, hlacks]
      rw [hnew] at hobjects hpage
      obtain ⟨feed', htasks, hnext⟩ : ∃ feed' : Feed,
          feed'.tasks = feed.tasks ++ job.nextTasks page.objects.length ∧
          Queues limit (job.spawn page.objects) i feed' (job.acceptPage i feed true page) := by
        refine ⟨_, rfl, queues_turnIfRoom i hlimit ?_⟩
        simp only [nextTasks, List.length_append, List.length_range']
        omega
      refine .page hlisting ?_ ?_ (hobjects ▸ htasks) hnext
      · rfl
      · rw [hobjects]
        rfl

theorem Queue.activity_eq (h : Queue limit feed none) : feed.activity = .listing true ∨
    ∃ goal, feed.activity = .joining goal ∧ goal ≠ .wait := by
  cases h with
  | listing hactivity => exact .inl hactivity
  | full hactivity => exact .inr ⟨_, hactivity, Goal.noConfusion⟩
  | draining hactivity _ hwait => exact .inr ⟨_, hactivity, hwait⟩

theorem isOver_of_joinTask {task : Nat} {status : TaskStatus} {logs : List LogLine} {joined : Job}
    (h : (job.stage? task).bind (job.joinTask task) = some (status, joined, logs)) :
    job.IsOver task := by
  rcases joinTask_cases h with ⟨v, hstage, -, -⟩ | ⟨reason, hstage, -, -⟩
  · exact ⟨_, hstage, rfl⟩
  · exact ⟨_, hstage, rfl⟩

/-- All that a run does by itself is to take a page while there is room, or to join a task. -/
theorem Queue.runMove (h : Queue limit feed none) (hlimit : job.setup.options.highWater = limit)
    (hi : job.feeds[i]? = some feed) (hown : action.feed? = some i) (hact : job.act action = some t)
    (hpage : action.pageObjects.length ≤ limit) : RunMove limit job i feed action t := by
  rcases act_of_run h.activity_eq hi hown hact with ⟨reply, result, rfl, hlisting, hresult, rfl⟩ |
    ⟨task, goal, status, joined, logs, rfl, hjoining, hwait, hmem, hjoin, rfl⟩
  · have hroom : feed.tasks.length < limit := by
      cases h with
      | listing _ hroom => exact hroom
      | full hother | draining hother =>
        rw [hother] at hlisting
        cases hlisting
    rw [pageObjects_listed i hresult] at hpage
    exact runMove_listed hlimit hlisting hroom hresult hpage
  · have hbound : feed.tasks.length < 2 * limit := by
      cases h with
      | listing _ hroom => omega
      | full _ _ hbound | draining _ _ _ _ hbound => exact hbound
    have hwork := work_of_joinTask hjoin
    have hless := List.length_erase_of_mem hmem
    refine .join rfl hjoining hmem (isOver_of_joinTask hjoin) hwork.drivers.1
      (tasks_of_joinTask hjoin) ?_
    refine queues_joined i (hwork.fixed.setup ▸ hlimit) hwait ?_
    show (feed.tasks.erase task).length < 2 * limit
    omega

/-- A run, with its feed and the tasks of the objects that pages have brought to it. -/
structure RunQueue (limit first i : Nat) (actions : List JobAction) (x : Watch) (feed : Feed)
    (own : List Nat) : Prop where
  hi : x.job.feeds[i]? = some feed
  mark : x.job.setup.options.highWater = limit
  queue : Queue limit feed x.returned
  objects : List.Forall₂ (fun t d => (x.job.tasks[t]?).map Task.object = some d) own
    (pageObjects i actions)
  nodup : own.Nodup
  spawned : first ≤ x.job.tasks.length
  new : ∀ t ∈ own, first ≤ t
  held : ∀ t ∈ own, t ∈ feed.tasks ∨ x.job.IsOver t

theorem pageObjects_append (i : Nat) (actions : List JobAction) (action : JobAction) :
    pageObjects i (actions ++ [action]) =
      pageObjects i actions ++ if action.feed? = some i then action.pageObjects else [] := by
  rw [pageObjects, List.flatMap_append, ← pageObjects, List.flatMap_singleton]

theorem forall₂_nextTasks {job next : Job} {objects : List ObjectDescriptor}
    (htasks : next.tasks = job.tasks ++ objects.map fun d => ⟨d, .queued⟩) :
    List.Forall₂ (fun t d => (next.tasks[t]?).map Task.object = some d)
      (job.nextTasks objects.length) objects := by
  rw [htasks, nextTasks]
  refine List.forall₂_iff_get.mpr ⟨List.length_range', fun k hk hk' => ?_⟩
  simp only [List.get_eq_getElem, List.getElem_range']
  rw [List.getElem?_append_right (by omega)]
  simp [hk']

theorem RunQueue.lt_length (h : RunQueue limit first i actions x feed own) {t : Nat} (ht : t ∈ own) :
    t < x.job.tasks.length := by
  obtain ⟨k, hk, rfl⟩ := List.getElem_of_mem ht
  have hobject := (List.forall₂_iff_get.mp h.objects).2 k hk (h.objects.length_eq ▸ hk)
  obtain ⟨task, htask, -⟩ := Option.map_eq_some_iff.mp hobject
  exact (List.getElem?_eq_some_iff.mp htask).1

theorem Step.length_le {next : Job} (h : job.Step next) : job.tasks.length ≤ next.tasks.length := by
  cases h.move.2 with
  | work hwork htasks =>
    rw [htasks]
    exact hwork.length_le
  | task _ _ htasks => rw [htasks, length_tasks_setStage]

theorem RunQueue.extend {feed' : Feed} (h : RunQueue limit first i actions w feed own)
    (new : List Nat) (hstep : w.job.Step x.job)
    (hi : x.job.feeds[i]? = some feed') (hqueue : Queue limit feed' x.returned)
    (hkept : ∀ u ∈ feed.tasks, u ∈ feed'.tasks ∨ x.job.IsOver u)
    (hnew : List.Forall₂ (fun t d => (x.job.tasks[t]?).map Task.object = some d) new
      (if action.feed? = some i then action.pageObjects else []))
    (hnodup : new.Nodup) (hlate : ∀ u ∈ new, w.job.tasks.length ≤ u ∧ u ∈ feed'.tasks) :
    RunQueue limit first i (actions ++ [action]) x feed' (own ++ new) := by
  refine ⟨hi, ?_, hqueue, ?_, ?_, h.spawned.trans hstep.length_le, ?_, ?_⟩
  · rw [hstep.move.1.setup]
    exact h.mark
  · rw [pageObjects_append]
    exact List.rel_append (h.objects.imp fun _ _ => hstep.object_eq) hnew
  · refine List.nodup_append.mpr ⟨h.nodup, hnodup, fun u hu v hv heq => ?_⟩
    have hless := h.lt_length hu
    have hge := (hlate v hv).1
    omega
  · intro u hu
    rcases List.mem_append.mp hu with hu | hu
    · exact h.new u hu
    · exact h.spawned.trans (hlate u hu).1
  · intro u hu
    rcases List.mem_append.mp hu with hu | hu
    · rcases h.held u hu with hmem | hover
      · exact hkept u hmem
      · exact .inr (hstep.isOver hover)
    · exact .inl (hlate u hu).2

theorem RunQueue.keep {feed' : Feed} (h : RunQueue limit first i actions w feed own)
    (hstep : w.job.Step x.job) (hi : x.job.feeds[i]? = some feed')
    (hqueue : Queue limit feed' x.returned)
    (hkept : ∀ u ∈ feed.tasks, u ∈ feed'.tasks ∨ x.job.IsOver u)
    (hnone : (if action.feed? = some i then action.pageObjects else []) = []) :
    RunQueue limit first i (actions ++ [action]) x feed' own := by
  have hnext := h.extend [] hstep hi hqueue hkept (by rw [hnone]; exact .nil) .nil fun _ hu =>
    absurd hu List.not_mem_nil
  rwa [List.append_nil] at hnext

theorem RunQueue.other (h : RunQueue limit first i actions w feed own)
    (hact : w.job.act action = some t) (hother : action.feed? ≠ some i) :
    RunQueue limit first i (actions ++ [action]) ⟨t.job, w.returned⟩ feed own :=
  h.keep ⟨action, t, hact, rfl⟩ ((act_deed hact).feeds_eq hother h.hi) h.queue (fun _ => .inl)
    (if_neg hother)

theorem RunQueue.move (h : RunQueue limit first i actions w feed own) (hwaits : w.returned = none)
    (hact : w.job.act action = some t) (hown : action.feed? = some i)
    (hpage : action.pageObjects.length ≤ limit) :
    ∃ feed' own', RunQueue limit first i (actions ++ [action]) ⟨t.job, t.returned⟩ feed' own' := by
  have hstep : w.job.Step t.job := ⟨action, t, hact, rfl⟩
  have hlt := (List.getElem?_eq_some_iff.mp h.hi).1
  have hqueue := h.queue
  rw [hwaits] at hqueue
  cases hqueue.runMove h.mark h.hi hown hact hpage with
  | @page base feed' _ hfeeds hspawned htasks hnext =>
    obtain ⟨after, hi, hsame, hqueue⟩ := hnext.exists_feed (hfeeds ▸ hlt)
    rw [htasks] at hsame
    refine ⟨after, _, h.extend (w.job.nextTasks action.pageObjects.length) hstep hi hqueue
      (fun u hu => .inl ?_) ?_ List.nodup_range' fun u hu => ⟨(List.mem_range'_1.mp hu).1, ?_⟩⟩
    · rw [hsame]
      exact List.mem_append_left _ hu
    · rw [if_pos hown]
      exact forall₂_nextTasks (hnext.tasks_eq.trans hspawned)
    · rw [hsame]
      exact List.mem_append_right _ hu
  | @join base task goal haction _ _ hover hfeeds _ hnext =>
    obtain ⟨after, hi, hsame, hqueue⟩ := hnext.exists_feed (hfeeds ▸ hlt)
    refine ⟨after, own, h.keep hstep hi hqueue (fun u hu => ?_) (by rw [haction]; exact ite_self _)⟩
    by_cases heq : u = task
    · subst heq
      exact .inr (hstep.isOver hover)
    · rw [hsame]
      exact .inl ((List.mem_erase_of_ne heq).mpr hu)

theorem Watch.Path.runQueue (h : Watch.Path i w actions x) (hw : RunQueue limit first i [] w feed [])
    (hpages : ∀ action ∈ actions, action.feed? = some i → action.pageObjects.length ≤ limit) :
    ∃ feed' own', RunQueue limit first i actions x feed' own' := by
  induction h with
  | start => exact ⟨feed, [], hw⟩
  | @step actions action x y _ hwaits hstep ih =>
    obtain ⟨feed', own', hx⟩ := ih fun a ha => hpages a (List.mem_append_left _ ha)
    cases hstep with
    | other hact hother => exact ⟨feed', own', hx.other hact hother⟩
    | own hact hown => exact hx.move hwaits hact hown (hpages action (by simp) hown)

theorem Watch.Path.reach (h : Watch.Path i w actions x) (hw : Job.Reach start w.job) :
    Job.Reach start x.job := by
  induction h with
  | start => exact hw
  | step _ _ hstep ih =>
    cases hstep with
    | other hact => exact ih.step ⟨_, _, hact, rfl⟩
    | own hact => exact ih.step ⟨_, _, hact, rfl⟩

theorem runQueue_of_act (hi : job.feeds[i]? = some feed) (htasks : feed.tasks = [])
    (hact : job.act (.run i) = some t) :
    ∃ feed', RunQueue job.setup.options.highWater job.tasks.length i [] ⟨t.job, t.returned⟩
      feed' [] := by
  rw [act, hi, Option.bind_some] at hact
  unfold actOnFeed at hact
  split at hact <;> try contradiction
  cases hact
  have hroom : feed.tasks.length < job.setup.options.highWater := by
    rw [htasks]
    exact highWater_pos _
  have hnext := queues_turn job i hroom
  obtain ⟨feed', hi', -, hqueue⟩ := hnext.exists_feed (List.getElem?_eq_some_iff.mp hi).1
  refine ⟨feed', hi', ?_, hqueue, .nil, .nil, hnext.tasks_eq ▸ Nat.le_refl _,
    fun _ hu => absurd hu List.not_mem_nil, fun _ hu => absurd hu List.not_mem_nil⟩
  obtain ⟨activity, hjob, -⟩ := hnext
  rw [hjob]
  rfl

/-- What a run makes of its queue. `first` is the number of tasks that the job had before. -/
structure KeepsQueue (pageSize : Int) (first i : Nat) (actions : List JobAction) (x : Watch) : Prop where
  /-- A page is asked for only while there are fewer tasks than it may hold. -/
  asks : x.job.feedCall? i ≠ none → (x.job.unjoined i : Int) ≤ pageSize - 1
  bound : (x.job.unjoined i : Int) ≤ 2 * pageSize - 1
  /-- There is a task to join while the run waits for room. -/
  full : ∀ feed, x.job.feeds[i]? = some feed → feed.activity = .joining .room →
    pageSize ≤ x.job.unjoined i ∧ feed.tasks ≠ []
  /-- While no page is asked for, all that the run does is to join a task that is over. -/
  joins : ∀ action t, x.returned = none → x.job.feedCall? i = none → action.feed? = some i →
    x.job.act action = some t → ∃ task, action = .join i task ∧ x.job.IsOver task ∧
      t.job.unjoined i + 1 = x.job.unjoined i
  /-- The run, or a task that it may wait for, can go on until it returns. -/
  goes : x.returned = none → ∃ y, Watch.Round i x y
  /-- Each object that a page has brought has a task of its own, and all these are over in the end. -/
  returns : ∀ r, x.returned = some r → x.job.unjoined i = 0 ∧ ∃ own : List Nat, own.Nodup ∧
    List.Forall₂ (fun t d => (x.job.tasks[t]?).map Task.object = some d) own
      (pageObjects i actions) ∧
    ∀ t ∈ own, first ≤ t ∧ x.job.IsOver t

theorem RunQueue.unjoined_lt (h : RunQueue limit first i actions x feed own) :
    x.job.unjoined i < 2 * limit := by
  have hpos := h.mark ▸ highWater_pos x.job.setup.options
  have hqueue := h.queue
  rw [unjoined_eq h.hi]
  generalize x.returned = returned at hqueue
  cases hqueue with
  | listing _ hroom => omega
  | full _ _ hbound | draining _ _ _ _ hbound => exact hbound
  | returned _ htasks =>
    rw [htasks, List.length_nil]
    omega

theorem RunQueue.unjoined_lt_of_asks (h : RunQueue limit first i actions x feed own)
    (hcall : x.job.feedCall? i ≠ none) : x.job.unjoined i < limit := by
  have hqueue := h.queue
  rw [unjoined_eq h.hi]
  generalize x.returned = returned at hqueue
  cases hqueue with
  | listing _ hroom => exact hroom
  | full hactivity | draining hactivity | returned hactivity =>
    simp [feedCall?, h.hi, hactivity] at hcall

theorem RunQueue.le_unjoined_of_full (h : RunQueue limit first i actions x feed own)
    (hfull : feed.activity = .joining .room) : limit ≤ x.job.unjoined i ∧ feed.tasks ≠ [] := by
  have hpos := h.mark ▸ highWater_pos x.job.setup.options
  have hqueue := h.queue
  rw [unjoined_eq h.hi]
  generalize x.returned = returned at hqueue
  cases hqueue with
  | full _ hle =>
    refine ⟨hle, fun hempty => ?_⟩
    rw [hempty, List.length_nil] at hle
    omega
  | draining hactivity hroom =>
    rw [hfull] at hactivity
    cases hactivity
    exact absurd rfl hroom
  | listing hactivity | returned hactivity =>
    rw [hfull] at hactivity
    cases hactivity

theorem RunQueue.joins (h : RunQueue limit first i actions x feed own) (hwaits : x.returned = none)
    (hcall : x.job.feedCall? i = none) (hown : action.feed? = some i)
    (hact : x.job.act action = some t) :
    ∃ task, action = .join i task ∧ x.job.IsOver task ∧
      t.job.unjoined i + 1 = x.job.unjoined i := by
  have hqueue := h.queue
  rw [hwaits] at hqueue
  rcases act_of_run hqueue.activity_eq h.hi hown hact with ⟨-, -, -, hlisting, -, -⟩ |
    ⟨task, goal, status, joined, logs, rfl, -, -, hmem, hjoin, rfl⟩
  · simp [feedCall?, h.hi, hlisting] at hcall
  · refine ⟨task, rfl, isOver_of_joinTask hjoin, ?_⟩
    obtain ⟨activity, -, hjob⟩ :=
      steers_joined joined i { feed with tasks := feed.tasks.erase task } goal
    have hlt : i < joined.feeds.length := by
      rw [(work_of_joinTask hjoin).drivers.1]
      exact (List.getElem?_eq_some_iff.mp h.hi).1
    have hless := List.length_erase_of_mem hmem
    have hpos := List.length_pos_of_mem hmem
    show (joined.joined i _ goal).job.unjoined i + 1 = _
    rw [hjob, unjoined_setFeed hlt, unjoined_eq h.hi]
    show (feed.tasks.erase task).length + 1 = feed.tasks.length
    omega

theorem RunQueue.exists_round {setup : Setup} {results : Option ResultQueue}
    (h : RunQueue limit first i actions x feed own) (hnew : new? setup results = .ok start)
    (hreach : Reach start x.job) (hwaits : x.returned = none) : ∃ y, Watch.Round i x y := by
  have hqueue := h.queue
  rw [hwaits] at hqueue
  cases hqueue with
  | listing hactivity =>
    have hact : x.job.act (.listed i (.error (.other ""))) =
        some (x.job.listed i feed true (.error (.other ""))) := by
      simp only [act, h.hi, Option.bind_some, actOnFeed, hactivity]
      rfl
    exact ⟨_, x, _, .refl, .own hact rfl hwaits, .inr rfl⟩
  | full hactivity =>
    exact exists_round_of_joining hnew hreach h.hi hactivity (h.le_unjoined_of_full hactivity).2 hwaits
  | draining hactivity _ _ htasks =>
    exact exists_round_of_joining hnew hreach h.hi hactivity htasks hwaits

theorem RunQueue.returns (h : RunQueue limit first i actions x feed own) {r : Return}
    (hreturned : x.returned = some r) : x.job.unjoined i = 0 ∧ ∀ t ∈ own, x.job.IsOver t := by
  have hqueue := h.queue
  rw [hreturned] at hqueue
  cases hqueue with
  | returned _ htasks =>
    refine ⟨by rw [unjoined_eq h.hi, htasks, List.length_nil], fun u hu => ?_⟩
    have hheld := h.held u hu
    rw [htasks] at hheld
    exact hheld.resolve_left List.not_mem_nil

theorem length_pageObjects_le
    (hfits : ∀ page, JobAction.listed i (.ok (.page page)) ∈ actions → page.objects.length ≤ limit)
    (hmem : action ∈ actions) (hown : action.feed? = some i) :
    action.pageObjects.length ≤ limit := by
  cases action with
  | listed j given =>
    cases hown
    rcases given with e | answer
    · exact Nat.zero_le _
    · cases answer with
      | page page =>
        have hle := hfits page hmem
        rw [pageObjects_listed i rfl, objectsOnPage]
        split
        · exact Nat.zero_le _
        · exact hle
      | _ => exact Nat.zero_le _
  | _ => exact Nat.zero_le _

/-- The queue of a run whose pages hold no more objects than it asks for. It never holds two pages of
tasks, and less than one when a page is asked for; and it is empty in the end, with every task over. -/
theorem run_keeps_queue {setup : Setup} {results : Option ResultQueue}
    (hnew : new? setup results = .ok start) (hreach : Reach start job)
    (hi : job.feeds[i]? = some feed) (hfresh : feed.tasks = []) (hact : job.act (.run i) = some t)
    (hpath : Watch.Path i ⟨t.job, t.returned⟩ actions x)
    (hpages : ∀ page, JobAction.listed i (.ok (.page page)) ∈ actions →
      (page.objects.length : Int) ≤ setup.options.pageSize) :
    KeepsQueue setup.options.pageSize job.tasks.length i actions x := by
  obtain ⟨hstart, hvalid⟩ := new?_eq_ok hnew
  have hsetup : job.setup = setup := by
    rw [hreach.setup_eq, hstart]
  have hmark := highWater_eq hvalid
  have hfits : ∀ page, JobAction.listed i (.ok (.page page)) ∈ actions →
      page.objects.length ≤ setup.options.highWater := by
    intro page hmem
    have hle := hpages page hmem
    omega
  obtain ⟨feed₀, h₀⟩ := runQueue_of_act hi hfresh hact
  rw [hsetup] at h₀
  obtain ⟨feed', own, h⟩ := hpath.runQueue h₀ fun _ => length_pageObjects_le hfits
  have hbound := h.unjoined_lt
  refine ⟨fun hcall => ?_, by omega, fun feed hfeed hfull => ?_, fun action u => h.joins,
    h.exists_round hnew (hpath.reach (hreach.step ⟨_, _, hact, rfl⟩)), fun r hreturned => ?_⟩
  · have hless := h.unjoined_lt_of_asks hcall
    omega
  · obtain rfl := Option.some.inj (h.hi.symm.trans hfeed)
    obtain ⟨hle, htasks⟩ := h.le_unjoined_of_full hfull
    exact ⟨by omega, htasks⟩
  · obtain ⟨hnone, hover⟩ := h.returns hreturned
    exact ⟨hnone, own, h.nodup, h.objects, fun u hu => ⟨h.new u hu, hover u hu⟩⟩

/-- A page with one object comes, more are to come, and the task of the object panics. -/
def panickedPage : List JobAction :=
  [.listed 0 (.ok (.page ⟨[⟨"first", 5⟩], some "first", true⟩)), .grant 0, .start 0,
    .panic 0 "boom", .join 0 0]

theorem run_keeps_queue_of_panicked_page :
    ∃ t x, (lostPageJob.after? [.openFeed none]).bind (fun job => job.act (.run 0)) = some t ∧
      Watch.Path 0 ⟨t.job, t.returned⟩ panickedPage x ∧
      x.returned = some (.ran (.error (.taskFailed (panicMessage 0 "boom")))) ∧
      KeepsQueue 1 0 0 panickedPage x := by
  have h : ∃ job t x, lostPageJob.after? [.openFeed none] = some job ∧ job.act (.run 0) = some t ∧
      Watch.after? 0 ⟨t.job, t.returned⟩ panickedPage = some x ∧
      x.returned = some (.ran (.error (.taskFailed (panicMessage 0 "boom")))) ∧
      job.feeds[0]? = some ({ token := none } : Feed) ∧ job.tasks = [] :=
    ⟨_, _, _, rfl, rfl, rfl, rfl, rfl, rfl⟩
  obtain ⟨job, t, x, hopened, hact, hafter, hreturned, hi, htasks⟩ := h
  have hnew : new? lostPageJob.setup none = .ok lostPageJob := rfl
  have hpath : Watch.Path 0 ⟨t.job, t.returned⟩ panickedPage x := Watch.Path.start.after hafter
  have hpages : ∀ page, JobAction.listed 0 (.ok (.page page)) ∈ panickedPage →
      (page.objects.length : Int) ≤ lostPageJob.setup.options.pageSize := by
    intro page hmem
    obtain rfl : page = ⟨[⟨"first", 5⟩], some "first", true⟩ := by simpa [panickedPage] using hmem
    decide
  have hkeeps := run_keeps_queue hnew (reach_of_after? hopened) hi rfl hact hpath hpages
  rw [htasks] at hkeeps
  exact ⟨t, x, by rw [hopened]; exact hact, hpath, hreturned, hkeeps⟩

end Job

end BucketMigration
