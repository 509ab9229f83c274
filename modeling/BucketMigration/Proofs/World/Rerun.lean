import BucketMigration.Proofs.Job.Slots
import BucketMigration.Proofs.World.Drivers
import BucketMigration.Proofs.World.Sparing
import BucketMigration.Proofs.World.Stamps

/-!
# A second run copies nothing

After a run in which no object has failed, every object that was to be copied is at the target, with the
time of its write. So it is current, and a second run by the same job skips it, as it skips what the
first run has skipped.
-/

namespace BucketMigration

section Forecast

variable {S T : Stores} {setup : Setup} {d : ObjectDescriptor}

theorem forecast_congr
    (hsource : (T.get .source).object? setup.source.bucket d.key =
      (S.get .source).object? setup.source.bucket d.key)
    (htarget : (T.get .target).object? setup.target.bucket (setup.targetKey d.key) =
      (S.get .target).object? setup.target.bucket (setup.targetKey d.key))
    (hetags : (T.get .target).omitsEtags = (S.get .target).omitsEtags) :
    forecast T setup d = forecast S setup d := by
  have hobject := ObjectCopy.object_start setup d
  unfold forecast ObjectCopy.outlook ObjectCopy.describedOutlook ObjectCopy.comparedOutlook
    ObjectCopy.transferOutlook ObjectCopy.partsOutlook
  simp only [ObjectCopy.targetKey, hobject, Store.head_congr hsource, Store.head_congr htarget, hetags]

theorem start_eq_describing {outcome : Outcome} (hforecast : forecast S setup d = some (.ok outcome)) :
    (ObjectCopy.start setup d).1 = ⟨d, none, .describing 1⟩ := by
  unfold forecast at hforecast
  unfold ObjectCopy.start at hforecast ⊢
  dsimp only at hforecast ⊢
  split
  · rename_i hsize
    rw [if_pos hsize] at hforecast
    cases hforecast
  · rename_i hsize
    rw [if_neg hsize] at hforecast
    split
    · rename_i hskip
      rw [if_pos hskip] at hforecast
      cases hforecast
    · rfl

theorem forecast_of_current {outcome : Outcome} {source copied : StoredObject}
    (hforce : setup.options.forceOverwrite = false)
    (hforecast : forecast S setup d = some (.ok outcome))
    (hsource : (T.get .source).object? setup.source.bucket d.key = some source)
    (htarget : (T.get .target).object? setup.target.bucket (setup.targetKey d.key) = some copied)
    (hnew : source.lastModified ≤ copied.lastModified) :
    forecast T setup d = some (.ok .targetCurrent) := by
  unfold forecast
  rw [start_eq_describing hforecast]
  simp [ObjectCopy.outlook, ObjectCopy.describedOutlook, ObjectCopy.comparedOutlook, Store.head,
    hsource, htarget, hforce, ObjectCopy.targetKey, ObjectCopy.isCurrent, hnew]

end Forecast

namespace World

variable {start w : World} {x y z : Watch} {events : List Event} {action : WorldAction} {k : Nat}
  {feed : Feed}

section Calls

variable (h : Sweep start k feed x)
include h

theorem Sweep.callState?_eq (hstep : Watch.Step action x y) {caller : Caller}
    (hfeed : caller ≠ .feed 0) (htask : ∀ t lane, caller ≠ .task t lane) :
    y.world.callState? caller = x.world.callState? caller := by
  have hother : ∀ {other : Caller} {call : Call}, x.world.call? other = some call →
      caller ≠ other := by
    rintro other call hcall rfl
    rcases h.caller_cases hcall with heq | ⟨t, lane, heq⟩
    · exact hfeed heq
    · exact htask t lane heq
  obtain @⟨t, hwaits, hact, hrun⟩ := hstep
  cases act_runDeed h.driven.feeds (h.stage hwaits) h.driven.batches hact hrun with
  | enter hcall => exact callState?_enter_of_ne _ (hother hcall)
  | finish hcall => exact callState?_finish_of_ne _ (hother hcall)
  | pass | consumer | internal | join => rfl
  | reply => exact (callState?_clearCall ..).trans (if_neg (htask _ _))
  | panic => exact callState?_clearTask_of_ne _ (htask _)
  | listed => exact (callState?_clearCall ..).trans (if_neg hfeed)

theorem Sweep.callState?_eq_none (hstep : Watch.Step action x y) (hreturned : y.returned ≠ none) :
    y.world.callState? (.feed 0) = none := by
  obtain @⟨t, hwaits, hact, hrun⟩ := hstep
  have hown : action.feed? = some 0 := by
    by_contra hnot
    exact hreturned (if_neg hnot)
  cases act_runDeed h.driven.feeds (h.stage hwaits) h.driven.batches hact hrun with
  | enter | finish => exact absurd (ite_self _) hreturned
  | pass | reply | panic => cases hown
  | consumer haction => rcases haction with rfl | rfl <;> cases hown
  | @internal taken _ _ htask =>
    rw [Job.task?_eq_none_of_feed? hown] at htask
    cases htask
  | listed => exact (callState?_clearCall ..).trans (if_pos rfl)
  | join hjoining =>
    have hheard := h.heard hwaits
    rw [hjoining] at hheard
    exact hheard.eq_none_of_joining

end Calls

section Run

variable (hstart : Fresh start) (hbegins : Begins start x)
include hstart hbegins

theorem Watch.Reach.callState?_eq_none (hreach : Watch.Reach x y) (hreturned : y.returned ≠ none) :
    ∀ caller, (∀ t lane, caller ≠ .task t lane) → y.world.callState? caller = none := by
  have hothers : ∀ caller, caller ≠ .feed 0 → (∀ t lane, caller ≠ .task t lane) →
      y.world.callState? caller = none := by
    clear hreturned
    intro caller hfeed htask
    induction hreach with
    | refl =>
      obtain ⟨rfl, -⟩ := hstart.eq_running hbegins
      rw [callState?, running, hstart.calls]
      rfl
    | tail hreach hstep ih =>
      obtain ⟨action, hstep⟩ := hstep
      obtain ⟨k, feed, hsweep⟩ := Watch.Reach.sweep hstart hbegins hreach
      exact (hsweep.callState?_eq hstep hfeed htask).trans ih
  intro caller htask
  by_cases hfeed : caller = .feed 0
  · subst hfeed
    cases hreach with
    | refl =>
      obtain ⟨rfl, -⟩ := hstart.eq_running hbegins
      exact absurd rfl hreturned
    | tail hreach hstep =>
      obtain ⟨action, hstep⟩ := hstep
      obtain ⟨k, feed, hsweep⟩ := Watch.Reach.sweep hstart hbegins hreach
      exact hsweep.callState?_eq_none hstep hreturned
  · exact hothers caller hfeed htask

end Run

/-- A world that a run has ended in, and where every object of the listing is going to be skipped. -/
structure Settled (start w : World) : Prop where
  setup_eq : w.job.setup = start.job.setup
  halt : w.job.halt = none
  slots : w.job.freeSlots = start.job.setup.options.concurrency
  allOver : ∀ task ∈ w.job.tasks, task.stage.isOver = true
  calls : w.calls = []
  solo : w.solo = none
  apart : w.stores.Apart start.job.setup
  faults : ∀ side, (w.stores.get side).faults = []
  tokens : (w.stores.get .source).dropsTokens = false
  ids : (w.stores.get .target).FreshIds
  scope : w.scope = start.scope
  skips : ∀ d ∈ start.listing.objects, Skips w.stores start.job.setup d

section Completed

variable (hcompleted : Completed start w.job)
include hcompleted

theorem Completed.verdict_cases (hnone : w.job.progress.failures.isEmpty = true)
    {d : ObjectDescriptor} (hd : d ∈ start.listing.objects) :
    ∃ v, forecast start.stores start.job.setup d = some v ∧
      ((∃ mode bytes, v = .ok (.migrated mode bytes)) ∨ TaskStatus.ofVerdict v = .skipped) := by
  obtain ⟨task, htask, rfl⟩ := hcompleted.mem_objects_iff.mp hd
  obtain ⟨v, -, hv⟩ := hcompleted.finished task htask
  refine ⟨v, hv, ?_⟩
  cases hstatus : TaskStatus.ofVerdict v with
  | migrated => exact .inl (TaskStatus.ofVerdict_eq_migrated_iff.mp hstatus)
  | skipped => exact .inr rfl
  | failed =>
    have hzero : foretoldNumber start.stores start.job.setup start.listing.objects .failed = 0 := by
      rw [← hcompleted.number_eq, ← hcompleted.failures]
      simpa [Std.TreeMap.isEmpty_eq_size_eq_zero] using hnone
    have hnot := List.countP_eq_zero.mp hzero _ hd
    simp [hv, hstatus] at hnot

variable {trails : Nat → Trail}
  (htracked : Tracked start.stores start.job.setup True True trails (Event.writes events) w)
include htracked

theorem Completed.exists_copied (hstamped : Stamped start events w) {d : ObjectDescriptor}
    (hd : d ∈ start.listing.objects)
    (hmigrated : (forecast start.stores start.job.setup d).map TaskStatus.ofVerdict =
      some .migrated) :
    ∃ source copied,
      (start.stores.get .source).object? start.job.setup.source.bucket d.key = some source ∧
      (w.stores.get .target).object? start.job.setup.target.bucket
        (start.job.setup.targetKey d.key) = some copied ∧
      source.lastModified ≤ copied.lastModified := by
  obtain ⟨task, htask, rfl⟩ := hcompleted.mem_objects_iff.mp hd
  obtain ⟨e, last, hlatest, hobject, hlast, -, hkey, -⟩ :=
    (htracked.framed hcompleted.over).written _
      ⟨task, htask, (hcompleted.hasMigrated_iff htask).mpr hmigrated, rfl⟩
  obtain ⟨d, source, hown, hsource, hnew⟩ := hstamped e (latest?_eq_some hlatest).1
  rw [hlast] at hown
  cases hown
  have hsame := Setup.targetKey_inj _ (Store.mem_scope_iff.mp
    (hcompleted.mem_objects_iff.mpr ⟨last, List.mem_of_getElem? hlast, rfl⟩)).1
    (Store.mem_scope_iff.mp hd).1 hkey
  rw [hsame] at hsource
  exact ⟨source, e.object, hsource, hobject, hnew⟩

theorem Completed.target_eq {d : ObjectDescriptor} (hd : d ∈ start.listing.objects)
    (hnot : (forecast start.stores start.job.setup d).map TaskStatus.ofVerdict ≠
      some .migrated) :
    (w.stores.get .target).object? start.job.setup.target.bucket
        (start.job.setup.targetKey d.key) =
      (start.stores.get .target).object? start.job.setup.target.bucket
        (start.job.setup.targetKey d.key) := by
  apply (htracked.framed hcompleted.over).untouched
  intro task htask hmigrated hkey
  have hobject := hcompleted.mem_objects_iff.mpr ⟨task, htask, rfl⟩
  have hsame := Setup.targetKey_inj _ (Store.mem_scope_iff.mp hobject).1
    (Store.mem_scope_iff.mp hd).1 hkey
  apply hnot
  rw [← List.inj_on_of_nodup_map (Store.nodup_keys_scope ..) hobject hd hsame]
  exact (hcompleted.hasMigrated_iff htask).mp hmigrated

theorem Completed.skips (hforce : start.job.setup.options.forceOverwrite = false)
    (hnone : w.job.progress.failures.isEmpty = true) (hstamped : Stamped start events w) :
    ∀ d ∈ start.listing.objects, Skips w.stores start.job.setup d := by
  intro d hd
  have hsource := (htracked.framed hcompleted.over).source d.key
  obtain ⟨v, hv, ⟨mode, bytes, rfl⟩ | hskip⟩ := hcompleted.verdict_cases hnone hd
  · obtain ⟨source, copied, hobject, hcopied, hnew⟩ := hcompleted.exists_copied htracked hstamped hd
      (by rw [hv]; rfl)
    exact ⟨_, forecast_of_current hforce hv (hsource.trans hobject) hcopied hnew, rfl⟩
  · refine ⟨v, ?_, hskip⟩
    rw [← hv]
    refine forecast_congr hsource (hcompleted.target_eq htracked hd ?_) htracked.ledger.etags
    simp [hv, hskip]

end Completed

theorem calls_eq_nil (h : ∀ caller, w.callState? caller = none) : w.calls = [] := by
  cases hcalls : w.calls with
  | nil => rfl
  | cons c calls =>
    have hnone := h c.1
    simp [callState?, hcalls] at hnone

section Run

variable (hstart : Fresh start) (hbegins : Begins start x)
include hstart hbegins

theorem Watch.Trace.settled (hforce : start.job.setup.options.forceOverwrite = false)
    (htrace : Watch.Trace x events y) (htimely : ∀ e ∈ events, e.Timely) {s : Snapshot}
    (hreturned : y.returned = some (.ran (.ok s)))
    (hnone : y.world.job.progress.failures.isEmpty = true) : Settled start y.world := by
  have hreach := htrace.reach
  obtain ⟨k, feed, hsweep⟩ := hreach.sweep hstart hbegins
  obtain ⟨trails, htracked⟩ := htrace.tracked hstart hbegins
  obtain ⟨results, hnew⟩ := hstart.job
  rcases hsweep.returned_cases hstart (hreach.foretells hstart hbegins) hreturned with
    ⟨e, -, hr⟩ | ⟨hhalt, hcompleted, -⟩
  · cases hr
  have hidle : ∀ caller, y.world.callState? caller = none := by
    intro caller
    cases caller with
    | task t lane =>
      cases ht : y.world.job.tasks[t]? with
      | none => exact (htracked.rest t ht).2 lane
      | some task =>
        obtain ⟨v, hstage, -⟩ := hcompleted.finished task (List.mem_of_getElem? ht)
        have hat := htracked.task t task ht
        rw [hstage] at hat
        exact (hat.judged_inv rfl).1 lane
    | feed | solo =>
      refine hreach.callState?_eq_none hstart hbegins ?_ _ nofun
      rw [hreturned]
      nofun
  have hslots := (hsweep.reach.paced hnew).slots
  have hholders : y.world.job.holders = 0 := by
    rw [Job.holders, List.countP_eq_zero]
    intro task htask
    rw [Job.holdsSlot_eq_false_of_isOver (.inr (hcompleted.over task htask))]
    exact Bool.false_ne_true
  rw [hholders, Nat.add_zero] at hslots
  exact
    { setup_eq := htracked.setup_eq
      halt := hhalt
      slots := hslots
      allOver := hcompleted.over
      calls := calls_eq_nil hidle
      solo := htracked.solo
      apart := htracked.ledger.objects.apart
      faults := htracked.ledger.faults trivial
      tokens := hsweep.tokens
      ids := htracked.ledger.uploads.fresh
      scope := htracked.scope_eq
      skips := hcompleted.skips htracked hforce hnone
        (htrace.stamped hstart hbegins htimely) }

end Run

/-- What may happen while no run is going on: time passes, a feed is dropped, and the consumer takes
results or leaves. -/
def WorldAction.isRest : WorldAction → Bool
  | .pass _ | .job (.dropFeed _) | .job .receive | .job .closeResults => true
  | _ => false

/-- Worlds that come about while no run is going on. -/
def Rests : World → World → Prop :=
  Relation.ReflTransGen fun w v => ∃ action t, WorldAction.isRest action = true ∧
    w.act action = some t ∧ t.world = v

/-- Another feed is opened on the job of a world, and its run begins. -/
inductive BeginsAgain (w : World) : Watch → Prop
  | run {opened t : WorldTransition} (hopen : w.act (.job (.openFeed none)) = some opened)
      (hrun : opened.world.act (.job (.run w.job.feeds.length)) = some t) :
      BeginsAgain w ⟨t.world, t.returned⟩

def renewed (w : World) : World :=
  { w with job := { setup := w.job.setup, freeSlots := w.job.freeSlots, results := w.job.results } }

theorem eq_of_isRest {t : WorldTransition} (hrest : WorldAction.isRest action = true)
    (hact : w.act action = some t) : ∃ feeds results now,
      t.world = { w with job := { w.job with feeds, results }, now } := by
  cases act_deed hact with
  | pass seconds => exact ⟨_, _, _, rfl⟩
  | @job jobAction u hinternal hjob =>
    cases jobAction with
    | dropFeed i =>
      obtain ⟨feed, -, hdrop⟩ := Option.bind_eq_some_iff.mp hjob
      cases hactivity : feed.activity with
      | idle =>
        simp only [Job.actOnFeed, hactivity, Option.some.injEq] at hdrop
        subst hdrop
        exact ⟨_, _, _, rfl⟩
      | _ => simp [Job.actOnFeed, hactivity] at hdrop
    | receive =>
      obtain ⟨results, hresults⟩ := exists_results_of_consumer (.inl rfl) hjob
      exact ⟨w.job.feeds, results, w.now, by rw [ofTransition, hresults]⟩
    | closeResults =>
      obtain ⟨results, hresults⟩ := exists_results_of_consumer (.inr rfl) hjob
      exact ⟨w.job.feeds, results, w.now, by rw [ofTransition, hresults]⟩
    | _ => cases hrest
  | aside haction =>
    cases action with
    | job | pass => cases haction
    | _ => cases hrest
  | _ => cases hrest

namespace Settled

variable {b : World}

theorem rests (h : Settled start w) (hrests : Rests w b) : Settled start b := by
  induction hrests with
  | refl => exact h
  | tail _ hstep ih =>
    obtain ⟨action, t, hrest, hact, rfl⟩ := hstep
    obtain ⟨feeds, results, now, heq⟩ := eq_of_isRest hrest hact
    rw [heq]
    exact { ih with }

variable (h : Settled start b)
include h

theorem onto_eq : b.renewed.onto b.job = b := by
  have hcalls := h.calls
  have hhalt := h.halt
  obtain ⟨⟨setup, progress, halt, freeSlots, tasks, feeds, batches, results⟩, stores, now, calls,
    solo⟩ := b
  dsimp only at hcalls hhalt
  subst hcalls hhalt
  simp [renewed, onto, Job.onto, Progress.plus]

theorem fresh (hstart : Fresh start) : Fresh b.renewed where
  job := by
    refine ⟨b.job.results, ?_⟩
    have hvalid := hstart.validate
    rw [← h.setup_eq] at hvalid
    simp only [Job.new?, renewed, hvalid, h.slots, ← h.setup_eq]
  calls := h.calls
  solo := h.solo
  apart := by
    show b.stores.Apart b.job.setup
    rw [h.setup_eq]
    exact h.apart
  faults := h.faults
  tokens := h.tokens
  ids := h.ids

theorem objects_eq : b.renewed.listing.objects = start.listing.objects :=
  h.scope

theorem skips_renewed : ∀ d ∈ b.renewed.listing.objects,
    Skips b.renewed.stores b.renewed.job.setup d := by
  rw [h.objects_eq, show b.renewed.job.setup = start.job.setup from h.setup_eq]
  exact h.skips

end Settled

def begunAgain (w : World) : Watch :=
  let opened : World := { w with job := { w.job with feeds := w.job.feeds ++ [({} : Feed)] } }
  let t := opened.job.turn w.job.feeds.length {}
  ⟨{ opened with job := t.job }, t.returned⟩

theorem beginsAgain (w : World) : BeginsAgain w w.begunAgain := by
  refine .run (t := ofTransition _ _) rfl ?_
  simp [act, isInternal, Job.act, Job.actOnFeed, ofTransition]

theorem BeginsAgain.exists_begins {b : World} (hb : b.renewed.onto b.job = b)
    (h : BeginsAgain b z) : ∃ x, Begins b.renewed x ∧ z = x.onto b.job := by
  obtain @⟨opened, t, hopen, hrun⟩ := h
  have hnobody : ∀ w : World, w.job.tasks = [] → ∀ task ∈ w.job.tasks, task.stage.Spared := by
    intro w htasks
    rw [htasks]
    exact List.forall_mem_nil _
  have hfirst := act_onto b.job (hnobody b.renewed rfl) (.job (.openFeed none))
  rw [hb, show WorldAction.shift b.job (.job (.openFeed none)) = .job (.openFeed none) from rfl,
    hopen] at hfirst
  obtain ⟨opened', hopen', hopened⟩ := Option.map_eq_some_iff.mp hfirst.symm
  have hworld : opened.world = opened'.world.onto b.job := congrArg Prod.fst hopened.symm
  have htasks : opened'.world.job.tasks = [] := by
    cases hopen'
    rfl
  have hsecond := act_onto b.job (hnobody opened'.world htasks) (.job (.run 0))
  rw [← hworld, show WorldAction.shift b.job (.job (.run 0)) = .job (.run b.job.feeds.length) from rfl,
    hrun] at hsecond
  obtain ⟨t', hrun', hresult⟩ := Option.map_eq_some_iff.mp hsecond.symm
  refine ⟨_, .run hopen' hrun', ?_⟩
  exact congrArg (fun r : World × Option Return => (⟨r.1, r.2⟩ : Watch)) hresult.symm

/-- No call is made but to ask what is there, the target is as it was, and when the run has returned,
it has counted the objects once more and has skipped them all. -/
structure CopiesNothing (b : World) (objects : List ObjectDescriptor) (x : Watch) : Prop where
  calls : ∀ side operation, operation.isInquiry = false →
    (x.world.stores.get side).calls operation = (b.stores.get side).calls operation
  target : (x.world.stores.get .target).object? = (b.stores.get .target).object?
  returned : ∀ r, x.returned = some r → r = .ran (.ok x.world.job.snapshot) ∧
    x.world.job.progress =
      { b.job.progress with
        objects := b.job.progress.objects + objects.length
        bytes := b.job.progress.bytes + (objects.map ObjectDescriptor.size).sum
        skipped := b.job.progress.skipped + objects.length }

theorem Sparing.copiesNothing {b : World} (hfresh : Fresh b.renewed)
    (hskips : ∀ d ∈ b.renewed.listing.objects, Skips b.renewed.stores b.renewed.job.setup d)
    (h : Sparing b.renewed x) : CopiesNothing b b.renewed.listing.objects (x.onto b.job) where
  calls := h.stores.calls
  target := h.stores.objects .target
  returned := by
    intro r hr
    obtain ⟨r', hr', rfl⟩ := Option.map_eq_some_iff.mp hr
    obtain ⟨rfl, hobjects, hbytes, hmigrated, hskipped, hlanded⟩ := h.returned hskips hfresh hr'
    refine ⟨rfl, ?_⟩
    show b.job.progress.plus x.world.job.progress = _
    rw [Progress.plus, hobjects, hbytes, hmigrated, hskipped, hlanded]
    rfl

/-- After a run in which no object has failed, and nothing was written before its source, a second run
copies nothing. It can begin, it returns, and all that it does to the stores is to ask what is there. -/
theorem rerun_copies_nothing {b : World} {s : Snapshot} (hstart : Fresh start)
    (hforce : start.job.setup.options.forceOverwrite = false) (hbegins : Begins start x)
    (htrace : Watch.Trace x events y) (htimely : ∀ e ∈ events, e.Timely)
    (hreturned : y.returned = some (.ran (.ok s)))
    (hnone : y.world.job.progress.failures.isEmpty = true) (hrests : Rests y.world b) :
    (∃ z, BeginsAgain b z) ∧ ∀ z, BeginsAgain b z →
      Inevitable (Watch.Cycle (.feed b.job.feeds.length)) (fun w => w.returned ≠ none) z ∧
      ∀ w, Watch.Leads (.feed b.job.feeds.length) z w →
        CopiesNothing b start.listing.objects w := by
  refine ⟨⟨_, b.beginsAgain⟩, ?_⟩
  intro z hagain
  have hsettled := (htrace.settled hstart hbegins hforce htimely hreturned hnone).rests hrests
  have hfresh := hsettled.fresh hstart
  have hskips := hsettled.skips_renewed
  obtain ⟨x', hbegins', rfl⟩ := hagain.exists_begins hsettled.onto_eq
  have hsteady := steady_sparing hfresh hskips
  have hsparing := hfresh.sparing hbegins'
  refine ⟨hsteady.inevitable hsettled.allOver hsparing (hfresh.inevitable hbegins'), ?_⟩
  intro w hleads
  obtain ⟨y', hy', -, rfl⟩ := hsteady.exists_reach hsettled.allOver hsparing hleads
  rw [← hsettled.objects_eq]
  exact hy'.copiesNothing hfresh hskips

def secondTurn : List WorldAction :=
  callSteps (.feed 1) ++ [2, 3].flatMap fun t =>
    [.job (.grant t), .job (.start t)] ++ callSteps (.task t .whole) ++
      callSteps (.task t .whole) ++
      [.job (.release t), .job (.account t), .job (.join 1 t)]

/-- The two objects have been migrated, and a second passes. -/
def betweenRuns : World :=
  let w := (slowly.afterRounds 12 [0, 1] [1, 2]).world
  { w with now := w.now + 1 }

def secondRun : Watch :=
  ((List.replicate 3 secondTurn).flatten).foldl (Watch.attemptTurn (.feed 1)) betweenRuns.begunAgain

theorem old_slowly (key : String) (source : StoredObject)
    (h : (slowly.stores.get .source).object? "from" key = some source) :
    source.lastModified ≤ slowly.now := by
  have hobject : (slowly.stores.get .source).object? "from" key =
      if "from" = "from" ∧ "b" = key then some ⟨⟨#[4]⟩, 0, "", none⟩
      else if "from" = "from" ∧ "a" = key then some ⟨⟨#[1, 2, 3]⟩, 0, "", none⟩
      else none :=
    (Store.object?_write ..).trans (congrArg _ (Store.object?_write ..))
  rw [hobject] at h
  split at h
  · cases h
    exact Int.le_refl _
  · split at h
    · cases h
      exact Int.le_refl _
    · cases h

/-- The second run skips both objects, which the first run has copied. -/
theorem rerun_copies_nothing_slowly :
    ∃ y, Watch.Reach ⟨slowly.running, none⟩ y ∧ y.world.job.progress.migrated = 2 ∧
      Rests y.world betweenRuns ∧ BeginsAgain betweenRuns betweenRuns.begunAgain ∧
      Watch.Leads (.feed 1) betweenRuns.begunAgain secondRun ∧ secondRun.returned.isSome = true ∧
      CopiesNothing betweenRuns slowly.listing.objects secondRun := by
  have hran : (slowly.afterRounds 12 [0, 1] [1, 2]).returned.map snapshot? =
      some (some ⟨2, 4, 2, 0, 4, 0⟩) := by
    decide +kernel
  have hnone : (slowly.afterRounds 12 [0, 1] [1, 2]).world.job.progress.failures.isEmpty = true ∧
      (slowly.afterRounds 12 [0, 1] [1, 2]).world.job.progress.migrated = 2 := by
    decide +kernel
  have hsecond : secondRun.returned.isSome = true ∧ betweenRuns.job.feeds.length = 1 := by
    decide +kernel
  obtain ⟨r, hr, hs⟩ := Option.map_eq_some_iff.mp hran
  have hreach : Watch.Reach ⟨slowly.running, none⟩ (slowly.afterRounds 12 [0, 1] [1, 2]) :=
    Watch.reach_foldl _ _
  obtain ⟨events, htrace⟩ := hreach.exists_trace
  have hleads : Watch.Leads (.feed 1) betweenRuns.begunAgain secondRun :=
    Watch.leads_foldl _ _ _
  cases r with
  | ran outcome =>
    cases outcome with
    | ok s =>
      have hrests : Rests (slowly.afterRounds 12 [0, 1] [1, 2]).world betweenRuns :=
        .single ⟨.pass 1, _, rfl, rfl, rfl⟩
      have hrerun := rerun_copies_nothing fresh_slowly rfl fresh_slowly.begins htrace
        (htrace.timely fresh_slowly fresh_slowly.begins old_slowly) hr hnone.1 hrests
      have hcopies := (hrerun.2 _ betweenRuns.beginsAgain).2 secondRun
      rw [hsecond.2] at hcopies
      exact ⟨_, hreach, hnone.2, hrests, betweenRuns.beginsAgain, hleads, hsecond.1,
        hcopies hleads⟩
    | error => cases hs
  | _ => cases hs

end World

end BucketMigration
