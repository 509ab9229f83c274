import BucketMigration.Proofs.Job.Runs
import BucketMigration.Proofs.World.Pages
import BucketMigration.Proofs.World.Tracked

/-!
# A run over a whole listing

A feed is run on a new job over stores that do not fail, and nothing else drives the job. Then every
page that is asked for comes, and it has the next objects of the listing, which stays the same. A
task that the feed does not have to join any more is finished, unless the job is halted.
-/

namespace BucketMigration

theorem Setup.targetKey_inj (setup : Setup) {a b : String}
    (ha : Text.hasFront setup.source.keyPrefix a = true)
    (hb : Text.hasFront setup.source.keyPrefix b = true)
    (h : setup.targetKey a = setup.targetKey b) : a = b := by
  obtain ⟨as, has⟩ := Text.hasFront_iff.mp ha
  obtain ⟨bs, hbs⟩ := Text.hasFront_iff.mp hb
  have hlists := List.append_cancel_left (String.ofList_injective h)
  rw [← has, ← hbs, Text.dropFront_append, Text.dropFront_append] at hlists
  apply String.toList_injective
  rw [← has, ← hbs, hlists]

/-- Who dispatches the tasks of a job and joins them. -/
inductive Driver
  | feed (i : Nat)
  | batch (i : Nat)
deriving DecidableEq

def WorldAction.driver? : WorldAction → Option Driver
  | .job (.joinBatch i _) => some (.batch i)
  | action => action.feed?.map .feed

theorem driver?_eq_none_of_task? {action : JobAction} {t : Nat} (h : action.task? = some t) :
    (WorldAction.job action).driver? = none := by
  cases action <;> cases h <;> rfl

namespace World

def listing (w : World) : Listing :=
  ⟨w.scope, w.job.setup.options.pageSize.toNat⟩

/-- A world with a new job, over stores that do not fail and tell the token of every page. A store
counts the ids of its uploads up, so those to come are new. -/
structure Fresh (w : World) : Prop where
  job : ∃ results, Job.new? w.job.setup results = .ok w.job
  calls : w.calls = []
  solo : w.solo = none
  apart : w.stores.Apart w.job.setup
  faults : ∀ side, (w.stores.get side).faults = []
  tokens : (w.stores.get .source).dropsTokens = false
  ids : (w.stores.get .target).FreshIds

/-- Whether this happens while the feed of a job is run and nothing else drives the job. -/
def Event.isOfRun (e : Event) : Bool :=
  e.isServed &&
    match e.action with
    | .job (.openFeed _) | .job (.batch _) => false
    | _ => true

/-- A world, and what the run of its feed has returned. -/
structure Watch where
  world : World
  returned : Option Return := none

/-- An action while the run of feed 0 has not returned. -/
inductive Watch.Step (action : WorldAction) (x : Watch) : Watch → Prop
  | step {t : WorldTransition} (hwaits : x.returned = none) (hact : x.world.act action = some t)
      (hrun : (⟨x.world, action, t⟩ : Event).isOfRun = true) :
      Watch.Step action x ⟨t.world, if action.feed? = some 0 then t.returned else none⟩

def Watch.Reach : Watch → Watch → Prop :=
  Relation.ReflTransGen fun x y => ∃ action, Watch.Step action x y

/-- A feed is opened on a job, and its run begins. -/
inductive Begins (start : World) : Watch → Prop
  | run {opened t : WorldTransition} (hopen : start.act (.job (.openFeed none)) = some opened)
      (hrun : opened.world.act (.job (.run 0)) = some t) : Begins start ⟨t.world, t.returned⟩

inductive RunDeed (w : World) (feed : Feed) : WorldAction → WorldTransition → Prop
  | enter {caller : Caller} {call : Call} (hcall : w.call? caller = some call)
      (hfree : w.callState? caller = none) :
      RunDeed w feed (.enter caller) { world := w.enter caller call }
  | finish {caller : Caller} {call : Call} (hcall : w.call? caller = some call)
      (hentered : w.callState? caller = some .entered) :
      RunDeed w feed (.finish caller) { world := w.finish caller call }
  | pass (seconds : Nat) :
      RunDeed w feed (.pass seconds) { world := { w with now := w.now + seconds } }
  | consumer {action : JobAction} {u : Transition}
      (haction : action = .receive ∨ action = .closeResults) (hact : w.job.act action = some u)
      (hjob : ∃ results, u.job = { w.job with results }) :
      RunDeed w feed (.job action) (w.ofTransition u)
  | internal {action : JobAction} {t : Nat} {u : Transition} (hown : action.task? = some t)
      (hinternal : isInternal action = true) (hact : w.job.act action = some u) :
      RunDeed w feed (.job action) (w.ofTransition u)
  | reply {t : Nat} {lane : Lane} {reply : Reply} {u : Transition}
      (hanswered : w.lanes t lane = some (.answered reply))
      (hact : w.job.act (.reply t lane reply) = some u) :
      RunDeed w feed (.deliver (.task t lane)) ((w.clearCall (.task t lane)).ofTransition u)
  | panic {t : Nat} {reason : String} {u : Transition} {c : ObjectCopy}
      (hact : w.job.act (.panic t reason) = some u)
      (hstage : w.job.stage? t = some (.running c)) (hphase : c.phase = .overflowed) :
      RunDeed w feed (.panic t reason) ((w.clearTask t).ofTransition u)
  | listed {reply : Reply} {result : Except StorageError ListPage}
      (hlisting : feed.activity = .listing true)
      (hanswered : w.callState? (.feed 0) = some (.answered reply))
      (hpage : Reply.page? reply = some result)
      (hact : w.job.act (.listed 0 reply) = some (w.job.listed 0 feed true result)) :
      RunDeed w feed (.deliver (.feed 0))
        ((w.clearCall (.feed 0)).ofTransition (w.job.listed 0 feed true result))
  | join {task : Nat} {goal : Goal} {status : TaskStatus} {joined : Job} {logs : List LogLine}
      (hjoining : feed.activity = .joining goal) (hmem : task ∈ feed.tasks)
      (hjoin : (w.job.stage? task).bind (w.job.joinTask task) = some (status, joined, logs))
      (hact : w.job.act (.join 0 task) = some
        ((joined.joined 0 { feed with tasks := feed.tasks.erase task } goal).after logs)) :
      RunDeed w feed (.job (.join 0 task)) (w.ofTransition
        ((joined.joined 0 { feed with tasks := feed.tasks.erase task } goal).after logs))

variable {w start : World} {feed : Feed} {action : WorldAction} {t : WorldTransition} {x y : Watch}

theorem exists_results_of_consumer {job : Job} {jobAction : JobAction} {u : Transition}
    (haction : jobAction = .receive ∨ jobAction = .closeResults)
    (hact : job.act jobAction = some u) : ∃ results, u.job = { job with results } := by
  rcases haction with rfl | rfl
  · simp only [Job.act, Job.receive] at hact
    split at hact
    · cases hact
    · split at hact
      · cases hact
      · cases hact
        exact ⟨_, rfl⟩
  · obtain ⟨queue, -, rfl⟩ := Option.map_eq_some_iff.mp hact
    exact ⟨_, rfl⟩

theorem runDeed_of_undriven (feed : Feed) (hact : w.act action = some t)
    (hrun : (⟨w, action, t⟩ : Event).isOfRun = true) (hnone : action.driver? = none) :
    RunDeed w feed action t := by
  have hserved : (⟨w, action, t⟩ : Event).isServed = true := (Bool.and_eq_true_iff.mp hrun).1
  cases act_deed hact with
  | @job jobAction u hinternal hjob =>
    cases hcase : jobAction with
    | grant | start | wake | startPart | release | account | place | publish | discard =>
      rw [hcase] at hjob
      exact .internal rfl rfl hjob
    | reply | panic | listed =>
      rw [hcase] at hinternal
      cases hinternal
    | openFeed | batch =>
      rw [hcase] at hrun
      cases hrun
    | receive =>
      rw [hcase] at hjob
      exact .consumer (.inl rfl) hjob (exists_results_of_consumer (.inl rfl) hjob)
    | closeResults =>
      rw [hcase] at hjob
      exact .consumer (.inr rfl) hjob (exists_results_of_consumer (.inr rfl) hjob)
    | joinBatch | dropFeed | nextPage | wait | run | join =>
      rw [hcase] at hnone
      cases hnone
  | enter hcall hfree => exact .enter hcall hfree
  | finish hcall hentered => exact .finish hcall hentered
  | pass seconds => exact .pass seconds
  | toTask hanswered hjob => exact .reply hanswered hjob
  | toFeed => cases hnone
  | panic hjob =>
    obtain ⟨c, hrunning, hphase⟩ := Event.exists_overflowed hserved rfl
    exact .panic hjob hrunning hphase
  | answer => cases hserved
  | aside haction =>
    rw [Event.isAside_eq_false hserved] at haction
    cases haction

section Deeds

variable (hfeeds : w.job.feeds = [feed]) (hstage : Job.RunStage w.job feed none)
include hfeeds

theorem eq_zero_of_act {i : Nat} {jobAction : JobAction} {u : Transition}
    (hown : jobAction.feed? = some i) (hact : w.job.act jobAction = some u) : i = 0 := by
  cases Job.act_deed hact with
  | task htask =>
    rw [Job.task?_eq_none_of_feed? hown] at htask
    cases htask
  | feed hown' hi =>
    rw [hown] at hown'
    cases hown'
    rw [hfeeds] at hi
    have hlt := (List.getElem?_eq_some_iff.mp hi).1
    exact Nat.lt_one_iff.mp hlt
  | other _ _ hfeed =>
    rw [hown] at hfeed
    cases hfeed

include hstage

theorem runDeed_of_feed? {jobAction : JobAction} {u : Transition}
    (hown : jobAction.feed? = some 0) (hinternal : isInternal jobAction = true)
    (hact : w.job.act jobAction = some u) :
    RunDeed w feed (.job jobAction) (w.ofTransition u) := by
  have hi : w.job.feeds[0]? = some feed := by rw [hfeeds]; rfl
  rcases hstage.own_cases hi hown hact with
    ⟨reply, result, rfl, -⟩ |
    ⟨task, goal, status, joined, logs, rfl, hjoining, -, hmem, hjoin, rfl⟩
  · cases hinternal
  · exact .join hjoining hmem hjoin hact

theorem act_runDeed (hbatches : w.job.batches = []) (hact : w.act action = some t)
    (hrun : (⟨w, action, t⟩ : Event).isOfRun = true) : RunDeed w feed action t := by
  by_cases hnone : action.driver? = none
  · exact runDeed_of_undriven feed hact hrun hnone
  have hi : w.job.feeds[0]? = some feed := by rw [hfeeds]; rfl
  have hserved : (⟨w, action, t⟩ : Event).isServed = true := (Bool.and_eq_true_iff.mp hrun).1
  cases act_deed hact with
  | @job jobAction u hinternal hjob =>
    cases hcase : jobAction with
    | joinBatch i task =>
      rw [hcase] at hjob
      simp [Job.act, hbatches] at hjob
    | dropFeed i | nextPage i | wait i | run i | join i =>
      rw [hcase] at hjob hinternal
      have hzero := eq_zero_of_act hfeeds rfl hjob
      subst hzero
      exact runDeed_of_feed? hfeeds hstage rfl hinternal hjob
    | listed =>
      rw [hcase] at hinternal
      cases hinternal
    | _ => exact absurd (by rw [hcase]; rfl) hnone
  | enter hcall hfree => exact .enter hcall hfree
  | finish hcall hentered => exact .finish hcall hentered
  | @toFeed i reply u hanswered hjob =>
    have hzero := eq_zero_of_act hfeeds rfl hjob
    subst hzero
    rcases hstage.own_cases hi rfl hjob with
      ⟨reply', result, heq, hlisting, hpage, rfl⟩ | ⟨_, _, _, _, _, heq, -⟩
    · cases heq
      exact .listed hlisting hanswered hpage hjob
    · cases heq
  | answer => cases hserved
  | aside haction =>
    rw [Event.isAside_eq_false hserved] at haction
    cases haction
  | pass | toTask | panic => exact absurd rfl hnone

end Deeds

/-- Nothing but feed 0 has driven the job, and it has been told `k` pages. -/
structure Driven (l : Listing) (k : Nat) (feed : Feed) (job : Job) : Prop where
  feeds : job.feeds = [feed]
  batches : job.batches = []
  told : Told l none k feed
  objects : job.tasks.map Task.object = l.objects.take (k * l.pageSize)
  joined : ∀ t stage, job.stage? t = some stage →
    t ∈ feed.tasks ∨ (∃ v, stage = .finished v) ∨ job.halt ≠ none

section Driven

variable {l : Listing} {k : Nat} {job next : Job}

theorem listed_eq (job : Job) (feed : Feed) (hsize : 0 < l.pageSize) :
    ∃ activity, (job.listed 0 feed true (.ok ⟨l.page k, l.nextToken k, !l.isLast k⟩)).job =
      (job.spawn (l.page k)).setFeed 0
        ⟨l.nextToken k, l.isLast k, feed.tasks ++ job.nextTasks (l.page k).length, activity⟩ := by
  have htoken : (if l.isLast k then none else l.nextToken k) = l.nextToken k := by
    rw [Listing.nextToken]
    cases l.isLast k <;> rfl
  simp only [Job.listed, not_lacksToken hsize, Bool.false_eq_true, if_false, Job.acceptPage,
    if_true, Bool.not_not, htoken, Transition.after]
  obtain ⟨activity, -, hjob⟩ := Job.steers_turnIfRoom (job.spawn (l.page k)) 0
    { token := l.nextToken k
      isDone := l.isLast k
      tasks := feed.tasks ++ job.nextTasks (l.page k).length
      activity := .idle }
  exact ⟨activity, hjob⟩

variable (h : Driven l k feed job)
include h

theorem Driven.other (hstep : job.Step next) (hfeeds : next.feeds = job.feeds)
    (hbatches : next.batches = job.batches)
    (hobjects : next.tasks.map Task.object = job.tasks.map Task.object) : Driven l k feed next where
  feeds := hfeeds.trans h.feeds
  batches := hbatches.trans h.batches
  told := h.told
  objects := hobjects.trans h.objects
  joined := by
    intro t stage hstage
    have hlength : next.tasks.length = job.tasks.length := by
      simpa using congrArg List.length hobjects
    obtain ⟨old, hold⟩ : ∃ old, job.stage? t = some old := by
      apply Option.ne_none_iff_exists'.mp
      rw [Ne, Job.stage?_eq_none_iff, ← hlength, ← Job.stage?_eq_none_iff, hstage]
      exact Option.some_ne_none stage
    rcases h.joined t old hold with hmem | ⟨v, rfl⟩ | hhalt
    · exact .inl hmem
    · rw [hstep.stage?_of_isOver hold rfl] at hstage
      cases hstage
      exact .inr (.inl ⟨v, rfl⟩)
    · exact .inr (.inr (mt hstep.halt_eq_none hhalt))

theorem Driven.join {task : Nat} {status : TaskStatus} {logs : List LogLine} (goal : Goal)
    (hjoin : (job.stage? task).bind (job.joinTask task) = some (status, next, logs)) :
    ∃ feed', Driven l k feed'
      (next.joined 0 { feed with tasks := feed.tasks.erase task } goal).job := by
  have hwork := Job.work_of_joinTask hjoin
  obtain ⟨activity, -, hjob⟩ :=
    Job.steers_joined next 0 { feed with tasks := feed.tasks.erase task } goal
  refine ⟨{ feed with tasks := feed.tasks.erase task, activity }, ?_⟩
  rw [hjob]
  constructor
  · rw [Job.setFeed, hwork.drivers.1, h.feeds]
    rfl
  · exact hwork.drivers.2.trans h.batches
  · exact ⟨h.told.token, h.told.isDone⟩
  · exact (congrArg _ (Job.tasks_of_joinTask hjoin)).trans h.objects
  · intro t stage hstage
    have hold : job.stage? t = some stage := by
      rw [← hstage, Job.stage?, Job.stage?]
      exact congrArg (fun tasks : List Task => (tasks[t]?).map Task.stage)
        (Job.tasks_of_joinTask hjoin).symm
    have hhalt : job.halt ≠ none → next.halt ≠ none := by
      intro hhalted
      obtain ⟨e, he⟩ := Option.ne_none_iff_exists'.mp hhalted
      rw [Job.halt_eq_of_joinTask hjoin he]
      exact Option.some_ne_none e
    rcases h.joined t stage hold with hmem | hfinished | hhalted
    · by_cases heq : t = task
      · subst heq
        rcases Job.joinTask_cases hjoin with ⟨v, hfinished, -⟩ | ⟨reason, -, -, rfl⟩
        · rw [hold] at hfinished
          cases hfinished
          exact .inr (.inl ⟨v, rfl⟩)
        · exact .inr (.inr (Job.halt_haltWith_ne_none _ _))
      · exact .inl ((List.mem_erase_of_ne heq).mpr hmem)
    · exact .inr (.inl hfinished)
    · exact .inr (.inr (hhalt hhalted))

theorem Driven.listed (hsize : 0 < l.pageSize) :
    ∃ feed', Driven l (k + 1) feed'
      (job.listed 0 feed true (.ok ⟨l.page k, l.nextToken k, !l.isLast k⟩)).job := by
  obtain ⟨activity, hjob⟩ := listed_eq (k := k) job feed hsize
  rw [hjob]
  refine ⟨⟨l.nextToken k, l.isLast k,
    feed.tasks ++ job.nextTasks (l.page k).length, activity⟩, ?_⟩
  constructor
  · rw [Job.setFeed, Job.spawn, h.feeds]
    rfl
  · exact h.batches
  · exact ⟨rfl, rfl⟩
  · show (job.spawn (l.page k)).tasks.map Task.object = _
    rw [Job.spawn, List.map_append, h.objects, List.map_map, Nat.succ_mul, List.take_add]
    simp [Listing.page, Function.comp_def]
  · intro t stage hstage
    have hstage : (job.spawn (l.page k)).stage? t = some stage := hstage
    by_cases hlt : t < job.tasks.length
    · rw [Job.stage?_spawn_of_lt job _ hlt] at hstage
      exact (h.joined t stage hstage).imp_left (List.mem_append_left _)
    · left
      have hnew : t < job.tasks.length + (l.page k).length := by
        rw [← Job.length_tasks_spawn]
        by_contra hge
        rw [(Job.stage?_eq_none_iff _).mpr (Nat.le_of_not_lt hge)] at hstage
        cases hstage
      exact List.mem_append_right _ (List.mem_range'_1.mpr ⟨Nat.le_of_not_lt hlt, hnew⟩)

end Driven

/-- How far a run that has been told `k` pages has come with the next one. -/
inductive Heard (l : Listing) (k : Nat) : Activity → Option CallState → Prop
  | due (hmore : l.isDone k = false) : Heard l k (.listing true) none
  | entered (hmore : l.isDone k = false) : Heard l k (.listing true) (some .entered)
  | told (hmore : l.isDone k = false) : Heard l k (.listing true)
      (some (.answered (.ok (.page ⟨l.page k, l.nextToken k, !l.isLast k⟩))))
  | quiet (goal : Goal) : Heard l k (.joining goal) none

theorem Heard.eq_none_of_joining {l : Listing} {k : Nat} {goal : Goal} {state : Option CallState}
    (h : Heard l k (.joining goal) state) : state = none := by
  cases h
  rfl

structure Sweep (start : World) (k : Nat) (feed : Feed) (x : Watch) : Prop where
  reach : Job.Reach start.job x.world.job
  driven : Driven start.listing k feed x.world.job
  running : Job.Running 0 none ⟨x.world.job, x.returned⟩
  heard : x.returned = none →
    Heard start.listing k feed.activity (x.world.callState? (.feed 0))
  tokens : (x.world.stores.get .source).dropsTokens = false
  tracked : ∃ trails events,
    Tracked start.stores start.job.setup True True trails (Event.writes events) x.world

section Fresh

variable (hstart : Fresh start)
include hstart

theorem Fresh.validate : start.job.setup.options.validate = .ok () := by
  obtain ⟨results, hnew⟩ := hstart.job
  exact (Job.new?_eq_ok hnew).2

theorem Fresh.pageSize : 0 < start.listing.pageSize ∧
    start.job.setup.options.pageSize = start.listing.pageSize := by
  have hpos := (MigrationOptions.valid_of_validate hstart.validate).pageSize.1
  unfold listing
  dsimp only
  omega

end Fresh

section Sweep

variable {k : Nat}

theorem Tracked.scope_eq {trails : Nat → Trail} {writes : List Write} {calm alone : Prop}
    (h : Tracked start.stores start.job.setup calm alone trails writes w) :
    w.scope = start.scope := by
  rw [scope, scope, h.setup_eq]
  exact Store.scope_congr (funext h.ledger.objects.source) _

theorem Driven.mem_objects {l : Listing} {job : Job} (h : Driven l k feed job) {task : Task}
    (htask : task ∈ job.tasks) : task.object ∈ l.objects := by
  have hmem : task.object ∈ job.tasks.map Task.object := List.mem_map.mpr ⟨task, htask, rfl⟩
  rw [h.objects] at hmem
  exact List.mem_of_mem_take hmem

theorem Driven.nodup_keys {job : Job} (h : Driven start.listing k feed job) :
    (job.tasks.map fun task => task.object.key).Nodup := by
  have hkeys : (job.tasks.map fun task => task.object.key) =
      (job.tasks.map Task.object).map ObjectDescriptor.key := by
    rw [List.map_map]
    rfl
  rw [hkeys, h.objects, List.map_take]
  exact (Store.nodup_keys_scope ..).sublist (List.take_sublist ..)

theorem keysApart_of_nodup (hobjects : ∀ task ∈ w.job.tasks, task.object ∈ start.listing.objects)
    (hkeys : (w.job.tasks.map fun task => task.object.key).Nodup)
    (hsetup : w.job.setup = start.job.setup) : w.KeysApart := by
  intro t u task other ht hu hne heq
  have hfront : ∀ {v : Nat} {task : Task}, w.job.tasks[v]? = some task →
      Text.hasFront w.job.setup.source.keyPrefix task.object.key = true := by
    intro v task hv
    rw [hsetup]
    exact (Store.mem_scope_iff.mp (hobjects task (List.mem_of_getElem? hv))).1
  have hkey := Setup.targetKey_inj _ (hfront ht) (hfront hu) heq
  have hlt := (List.getElem?_eq_some_iff.mp ht).1
  apply hne
  apply (List.getElem?_inj (by rwa [List.length_map]) hkeys).mp
  rw [List.getElem?_map, List.getElem?_map, ht, hu]
  exact congrArg some hkey

theorem Driven.keysApart (h : Driven start.listing k feed w.job)
    (hsetup : w.job.setup = start.job.setup) : w.KeysApart :=
  keysApart_of_nodup (fun _ => h.mem_objects) h.nodup_keys hsetup

theorem isOfRun_isServed {e : Event} (h : e.isOfRun = true) : e.isServed = true :=
  (Bool.and_eq_true_iff.mp h).1

theorem heard_of_running {job : Job} {returned : Option Return}
    (hrunning : Job.Running 0 none ⟨job, returned⟩) (hdriven : Driven start.listing k feed job)
    (hnone : returned = none) : Heard start.listing k feed.activity none := by
  cases hrunning with
  | going hi _ hstage =>
    rw [hdriven.feeds] at hi
    cases hi
    cases hstage with
    | listing hactivity hdone =>
      rw [hactivity]
      exact .due (hdriven.told.isDone.symm.trans hdone)
    | room hactivity | finish hactivity | halted hactivity =>
      rw [hactivity]
      exact .quiet _
  | ended _ hreturned =>
    rw [hnone] at hreturned
    cases hreturned

section Step

variable (h : Sweep start k feed x) (hwaits : x.returned = none)
include h hwaits

theorem Sweep.stage : Job.RunStage x.world.job feed none := by
  cases h.running with
  | going hi _ hstage =>
    rw [h.driven.feeds] at hi
    cases hi
    exact hstage
  | ended _ hreturned =>
    rw [hwaits] at hreturned
    cases hreturned

theorem Sweep.other {v : World} {jobAction : JobAction} {u : Transition}
    (hact : x.world.job.act jobAction = some u) (hfeed : jobAction.feed? = none)
    (hjob : v.job = u.job) (hfeeds : u.job.feeds = x.world.job.feeds)
    (hbatches : u.job.batches = x.world.job.batches)
    (hobjects : u.job.tasks.map Task.object = x.world.job.tasks.map Task.object)
    (hcall : v.callState? (.feed 0) = x.world.callState? (.feed 0))
    (htokens : (v.stores.get .source).dropsTokens = false)
    (htracked : ∃ trails events,
      Tracked start.stores start.job.setup True True trails (Event.writes events) v) :
    Sweep start k feed ⟨v, none⟩ where
  reach := by
    rw [hjob]
    exact h.reach.step ⟨_, _, hact, rfl⟩
  driven := by
    rw [hjob]
    exact h.driven.other ⟨_, _, hact, rfl⟩ hfeeds hbatches hobjects
  running := by
    have hnot : jobAction.feed? ≠ some 0 := by simp [hfeed]
    have hnext := h.running.step hwaits (.other hact hnot)
    rw [if_neg hnot, Option.or_none] at hnext
    rw [hjob, ← hwaits]
    exact hnext
  heard := by
    intro _
    rw [hcall]
    exact h.heard hwaits
  tokens := htokens
  tracked := htracked

theorem Sweep.same {v : World} (hjob : v.job = x.world.job)
    (hheard : Heard start.listing k feed.activity (v.callState? (.feed 0)))
    (htokens : (v.stores.get .source).dropsTokens = false)
    (htracked : ∃ trails events,
      Tracked start.stores start.job.setup True True trails (Event.writes events) v) :
    Sweep start k feed ⟨v, none⟩ where
  reach := by
    rw [hjob]
    exact h.reach
  driven := by
    rw [hjob]
    exact h.driven
  running := by
    rw [hjob, ← hwaits]
    exact h.running
  heard := fun _ => hheard
  tokens := htokens
  tracked := htracked

theorem Sweep.task {v : World} {taken : JobAction} {n : Nat} {u : Transition}
    (hown : taken.task? = some n) (hact : x.world.job.act taken = some u) (hjob : v.job = u.job)
    (hcall : v.callState? (.feed 0) = x.world.callState? (.feed 0))
    (htokens : (v.stores.get .source).dropsTokens = false)
    (htracked : ∃ trails events,
      Tracked start.stores start.job.setup True True trails (Event.writes events) v) :
    Sweep start k feed ⟨v, none⟩ := by
  have hfeed : taken.feed? = none := by
    cases taken <;> cases hown <;> rfl
  have hframe := Job.frame_of_task hown hact
  obtain ⟨object, stage, stage', -, -, htasks⟩ := Job.act_goes hown hact
  refine h.other hwaits hact hfeed hjob hframe.feeds hframe.batches ?_ hcall htokens htracked
  rw [htasks, Job.map_object_setStage]

theorem Sweep.own {v : World} {jobAction : JobAction} {u : Transition} {k' : Nat} {feed' : Feed}
    (hown : jobAction.feed? = some 0) (hact : x.world.job.act jobAction = some u)
    (hjob : v.job = u.job)
    (hpage : jobAction.pageFailure? x.world.job.setup.source.bucket = none)
    (hdriven : Driven start.listing k' feed' u.job) (hcall : v.callState? (.feed 0) = none)
    (htokens : (v.stores.get .source).dropsTokens = false)
    (htracked : ∃ trails events,
      Tracked start.stores start.job.setup True True trails (Event.writes events) v) :
    Sweep start k' feed' ⟨v, u.returned⟩ := by
  have hrunning := h.running.step hwaits (.own hact hown hwaits)
  rw [if_pos hown, hpage, Option.or_none] at hrunning
  rw [← hjob] at hdriven hrunning
  have hreach := h.reach.step ⟨_, _, hact, rfl⟩
  rw [← hjob] at hreach
  refine ⟨hreach, hdriven, hrunning, ?_, htokens, htracked⟩
  intro hreturned
  rw [hcall]
  exact heard_of_running hrunning hdriven hreturned

theorem Sweep.heard_enter {call : Call} (hfaults : ∀ side, (x.world.stores.get side).faults = [])
    (hcall : x.world.call? (.feed 0) = some call) (hfree : x.world.callState? (.feed 0) = none) :
    Heard start.listing k feed.activity
      ((x.world.enter (.feed 0) call).callState? (.feed 0)) := by
  have hheard := h.heard hwaits
  rw [hfree] at hheard
  rw [enter_eq, callState?_setCall, if_pos rfl, (Store.enter_of_faults_eq_nil (hfaults _) _).1]
  generalize hactivity : feed.activity = activity at hheard
  cases hheard with
  | due hmore => exact .entered hmore
  | quiet goal => simp [call?, Job.feedCall?, h.driven.feeds, hactivity] at hcall

theorem Sweep.heard_finish (hstart : Fresh start) {call : Call}
    (hcall : x.world.call? (.feed 0) = some call)
    (hentered : x.world.callState? (.feed 0) = some .entered) :
    Heard start.listing k feed.activity
      ((x.world.finish (.feed 0) call).callState? (.feed 0)) := by
  have hheard := h.heard hwaits
  rw [hentered] at hheard
  obtain ⟨trails, events, htracked⟩ := h.tracked
  rw [World.finish, callState?_setCall, if_pos rfl]
  generalize hactivity : feed.activity = activity at hheard
  cases hheard with
  | entered hmore =>
    simp only [call?, Job.feedCall?, h.driven.feeds, List.getElem?_cons_zero, hactivity,
      Option.some.injEq] at hcall
    subst hcall
    have hobjects : start.listing.objects = beyond none x.world.scope := by
      rw [htracked.scope_eq, beyond]
      exact (List.filter_eq_self.mpr fun _ _ => rfl).symm
    have hpage := Store.list_page hobjects h.tokens hstart.pageSize.1 hmore
    rw [← h.driven.told.token, ← hstart.pageSize.2, ← htracked.setup_eq] at hpage
    simp only [Store.finish, Store.perform, hpage]
    exact .told hmore

end Step

/-- Whatever happens next, the run goes on or it has returned. -/
theorem Sweep.step (hstart : Fresh start) (h : Sweep start k feed x)
    (hstep : Watch.Step action x y) : ∃ k' feed', Sweep start k' feed' y := by
  obtain @⟨t, hwaits, hact, hrun⟩ := hstep
  obtain ⟨trails, events, htracked⟩ := h.tracked
  have hdeed := act_deed hact
  have hi : x.world.job.feeds[0]? = some feed := by rw [h.driven.feeds]; rfl
  have htokens := (hdeed.dropsTokens .source).trans h.tokens
  have hnext : ∃ trails events,
      Tracked start.stores start.job.setup True True trails (Event.writes events) t.world := by
    obtain ⟨trails', hnext⟩ := htracked.step hact (isOfRun_isServed hrun) fun _ =>
      h.driven.keysApart htracked.setup_eq
    rw [← Event.writes_snoc] at hnext
    exact ⟨trails', _, hnext⟩
  have hcall : action.feed? ≠ some 0 →
      t.world.callState? (.feed 0) = x.world.callState? (.feed 0) :=
    fun hother => (hdeed.feed_eq hother hi).2
  have hkept : action.feed? ≠ some 0 →
      Heard start.listing k feed.activity (t.world.callState? (.feed 0)) := by
    intro hother
    rw [hcall hother]
    exact h.heard hwaits
  cases act_runDeed h.driven.feeds (h.stage hwaits) h.driven.batches hact hrun with
  | @enter caller call hcaller hfree =>
    rw [ite_self]
    refine ⟨k, feed, h.same hwaits (by rw [enter_eq]; rfl) ?_ htokens hnext⟩
    by_cases hown : caller = .feed 0
    · subst hown
      exact h.heard_enter hwaits (fun side => htracked.ledger.faults trivial side) hcaller hfree
    · apply hkept
      cases caller with
      | feed i => simpa [WorldAction.feed?] using hown
      | task | solo => simp [WorldAction.feed?]
  | @finish caller call hcaller hentered =>
    rw [ite_self]
    refine ⟨k, feed, h.same hwaits rfl ?_ htokens hnext⟩
    by_cases hown : caller = .feed 0
    · subst hown
      exact h.heard_finish hwaits hstart hcaller hentered
    · apply hkept
      cases caller with
      | feed i => simpa [WorldAction.feed?] using hown
      | task | solo => simp [WorldAction.feed?]
  | pass => exact ⟨k, feed, h.same hwaits rfl (hkept nofun) htokens hnext⟩
  | @consumer taken u haction hjob hresults =>
    obtain ⟨results, heq⟩ := hresults
    have hfeed : taken.feed? = none := by rcases haction with rfl | rfl <;> rfl
    rw [show WorldAction.feed? (.job _) = none from hfeed, if_neg (Option.some_ne_none _).symm]
    refine ⟨k, feed, h.other hwaits hjob hfeed rfl ?_ ?_ ?_ rfl htokens hnext⟩
    · rw [heq]
    · rw [heq]
    · rw [heq]
  | @internal taken n u hown hinternal hjob =>
    have hnot : (WorldAction.job taken).feed? ≠ some 0 := by
      intro hfeed
      rw [Job.task?_eq_none_of_feed? hfeed] at hown
      cases hown
    rw [if_neg hnot]
    exact ⟨k, feed, h.task hwaits hown hjob rfl (hcall hnot) htokens hnext⟩
  | reply hanswered hjob =>
    exact ⟨k, feed, h.task hwaits rfl hjob rfl (hcall nofun) htokens hnext⟩
  | panic hjob =>
    exact ⟨k, feed, h.task hwaits rfl hjob rfl (hcall nofun) htokens hnext⟩
  | listed hlisting hanswered hpage hjob =>
    have hheard := h.heard hwaits
    rw [hanswered, hlisting] at hheard
    cases hheard with
    | told hmore =>
      cases hpage
      obtain ⟨feed', hdriven⟩ := h.driven.listed hstart.pageSize.1
      have hnone := callState?_clearCall x.world (.feed 0) (.feed 0)
      rw [if_pos rfl] at hnone
      refine ⟨k + 1, feed', h.own hwaits rfl hjob rfl ?_ hdriven hnone htokens hnext⟩
      simp only [JobAction.pageFailure?, Reply.page?, not_lacksToken hstart.pageSize.1,
        Bool.false_eq_true, if_false]
  | @join task goal status joined logs hjoining hmem hjoin hjob =>
    have hheard := h.heard hwaits
    rw [hjoining] at hheard
    obtain ⟨feed', hdriven⟩ := h.driven.join goal hjoin
    exact ⟨k, feed', h.own hwaits rfl hjob rfl rfl hdriven hheard.eq_none_of_joining htokens hnext⟩

/-- A new feed is run, so it asks for the first page. -/
def running (w : World) : World :=
  { w with job := { w.job with feeds := [{ activity := .listing true }] } }

theorem Fresh.eq_running (hstart : Fresh start) (hbegins : Begins start x) :
    x = ⟨start.running, none⟩ ∧ Job.Reach start.job start.running.job := by
  obtain ⟨results, hnew⟩ := hstart.job
  have hjob := (Job.new?_eq_ok hnew).1
  have hfeeds : start.job.feeds = [] := by rw [hjob]
  have hhalt : start.job.halt = none := by rw [hjob]
  obtain @⟨opened, t, hopen, hrun⟩ := hbegins
  cases act_deed hopen with
  | aside haction => cases haction
  | job _ hfirst =>
    cases act_deed hrun with
    | aside haction => cases haction
    | @job _ u _ hsecond =>
      have hreach := (Job.Reach.refl.step ⟨_, _, hfirst, rfl⟩).step ⟨_, _, hsecond, rfl⟩
      cases hfirst
      have hu : u = { job := start.running.job } := by
        simpa [Job.act, hfeeds, Job.actOnFeed, Job.turn, hhalt, Job.setFeed, ofTransition,
          running]
          using hsecond.symm
      subst hu
      exact ⟨rfl, hreach⟩

theorem Fresh.begins (hstart : Fresh start) : Begins start ⟨start.running, none⟩ := by
  obtain ⟨results, hnew⟩ := hstart.job
  have hjob := (Job.new?_eq_ok hnew).1
  have hfeeds : start.job.feeds = [] := by rw [hjob]
  have hhalt : start.job.halt = none := by rw [hjob]
  have hrun : World.act { start with job := { start.job with feeds := start.job.feeds ++ [{}] } }
      (.job (.run 0)) = some { world := start.running } := by
    simp [act, isInternal, Job.act, hfeeds, Job.actOnFeed, Job.turn, hhalt, Job.setFeed,
      ofTransition, running]
  exact .run rfl hrun

theorem Fresh.tracked_running (hstart : Fresh start) :
    Tracked start.stores start.job.setup True True (fun _ => {}) [] start.running := by
  obtain ⟨results, hnew⟩ := hstart.job
  have htasks : start.job.tasks = [] := by rw [(Job.new?_eq_ok hnew).1]
  have htracked : Tracked start.stores start.job.setup True True (fun _ => {}) [] start :=
    tracked_start htasks hstart.calls hstart.solo hstart.apart hstart.ids fun _ => hstart.faults
  have hsame : start.running.job.tasks =
      start.job.tasks ++ ([] : List ObjectDescriptor).map fun d => ⟨d, .queued⟩ :=
    (List.append_nil _).symm
  exact htracked.spawn hsame rfl rfl htracked.ledger fun _ => rfl

theorem Fresh.sweep (hstart : Fresh start) (hbegins : Begins start x) :
    ∃ feed, Sweep start 0 feed x := by
  obtain ⟨results, hnew⟩ := hstart.job
  have hjob := (Job.new?_eq_ok hnew).1
  have htasks : start.job.tasks = [] := by rw [hjob]
  have hcall : start.running.callState? (.feed 0) = none := by
    unfold callState? running
    rw [hstart.calls]
    rfl
  obtain ⟨rfl, hreach⟩ := hstart.eq_running hbegins
  have hdriven : Driven start.listing 0 { activity := .listing true } start.running.job := by
    refine ⟨rfl, by rw [running, hjob], ⟨rfl, rfl⟩, ?_, ?_⟩
    · rw [running, htasks, Nat.zero_mul]
      rfl
    · intro t stage hstage
      simp [Job.stage?, running, htasks] at hstage
  refine ⟨_, hreach, hdriven, .going rfl rfl (.listing rfl rfl), ?_, hstart.tokens,
    fun _ => {}, [], hstart.tracked_running⟩
  intro _
  rw [hcall]
  exact .due rfl

theorem Watch.Reach.sweep (hstart : Fresh start) (hbegins : Begins start x)
    (hreach : Watch.Reach x y) : ∃ k feed, Sweep start k feed y := by
  induction hreach with
  | refl => exact ⟨0, hstart.sweep hbegins⟩
  | tail _ hstep ih =>
    obtain ⟨k, feed, h⟩ := ih
    obtain ⟨action, hstep⟩ := hstep
    exact h.step hstart hstep

end Sweep

end World

end BucketMigration
