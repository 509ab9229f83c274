import BucketMigration.Proofs.Job.Halt
import BucketMigration.Proofs.World.Forecast
import BucketMigration.Proofs.World.Frame
import BucketMigration.Proofs.World.Working

/-!
# What a run returns is foreseen

While a run over stores that do not fail is not halted, every task ends as it was going to, and the
bytes that have landed and those that are still to come make up what its objects land. The run is
halted only for an object that was doomed from the start. So what a run returns is told by the
objects that are listed and by their forecasts.
-/

namespace BucketMigration

section

variable (S₀ : Stores) (setup : Setup) (object : ObjectDescriptor)

def TaskStage.outlook : TaskStage → Option Verdict
  | queued | granted => forecast S₀ setup object
  | running c => c.outlook S₀ setup
  | released v | publishing v | placed v | finished v => some v
  | panicked _ => none

def TaskStage.unlanded : TaskStage → Nat
  | queued | granted => ObjectCopy.landing object.size (forecast S₀ setup object)
  | running c => c.unlanded S₀ setup
  | released _ | publishing _ | placed _ | finished _ | panicked _ => 0

/-- The object halts the job, by a fatal error or by a panic. -/
def Doomed : Prop :=
  ∀ v, forecast S₀ setup object = some v → ∃ e, v = .error e ∧ e.isFatal = true

end

/-- The tasks of a job end as they were going to, and land what belongs to it. -/
structure Foresight (S₀ : Stores) (setup : Setup) (job : Job) : Prop where
  outlook : ∀ task ∈ job.tasks,
    task.stage.outlook S₀ setup task.object = forecast S₀ setup task.object
  landed : job.progress.landedBytes +
      (job.tasks.map fun task => task.stage.unlanded S₀ setup task.object).sum =
    (job.tasks.map fun task =>
      ObjectCopy.landing task.object.size (forecast S₀ setup task.object)).sum
  bytes : job.progress.bytes = (job.tasks.map fun task => task.object.size).sum

structure TaskForeseen (S₀ : Stores) (setup : Setup) (object : ObjectDescriptor)
    (stage stage' : TaskStage) (p p' : Progress) : Prop where
  outlook : stage'.outlook S₀ setup object = stage.outlook S₀ setup object
  landed : p'.landedBytes + stage'.unlanded S₀ setup object =
    p.landedBytes + stage.unlanded S₀ setup object
  bytes : p'.bytes = p.bytes

section Steps

variable {S₀ : Stores} {setup : Setup} {job next : Job} {object : ObjectDescriptor}
  {stage stage' : TaskStage}

theorem Foresight.same (h : Foresight S₀ setup job) (htasks : next.tasks = job.tasks)
    (hprogress : next.progress = job.progress) : Foresight S₀ setup next where
  outlook := by rw [htasks]; exact h.outlook
  landed := by rw [htasks, hprogress]; exact h.landed
  bytes := by rw [htasks, hprogress]; exact h.bytes

theorem Foresight.spawn (h : Foresight S₀ setup job) (objects : List ObjectDescriptor) :
    Foresight S₀ setup (job.spawn objects) where
  outlook := by
    intro task htask
    rcases List.mem_append.mp htask with hold | hnew
    · exact h.outlook task hold
    · obtain ⟨d, -, rfl⟩ := List.mem_map.mp hnew
      rfl
  landed := by
    rw [Job.progress_spawn, Job.spawn]
    simp only [List.map_append, List.sum_append, List.map_map, ← h.landed, ← Nat.add_assoc]
    rfl
  bytes := by
    rw [Job.progress_spawn, Job.spawn]
    simp only [List.map_append, List.sum_append, List.map_map, ← h.bytes]
    rfl

theorem Foresight.task (h : Foresight S₀ setup job) {t : Nat}
    (ht : job.tasks[t]? = some ⟨object, stage⟩)
    (htasks : next.tasks = (job.setStage t stage').tasks)
    (hforeseen : TaskForeseen S₀ setup object stage stage' job.progress next.progress) :
    Foresight S₀ setup next := by
  obtain ⟨before, after, hsplit, hset⟩ := Job.exists_tasks_setStage ht
  have hnext := htasks.trans (hset stage')
  have hmem : ∀ {task : Task}, task ∈ next.tasks →
      task = ⟨object, stage'⟩ ∨ task ∈ job.tasks := by
    intro task htask
    rw [hnext] at htask
    rw [hsplit]
    rcases List.mem_append.mp htask with hbefore | htask
    · exact .inr (List.mem_append_left _ hbefore)
    · rcases List.mem_cons.mp htask with rfl | hafter
      · exact .inl rfl
      · exact .inr (List.mem_append_right _ (List.mem_cons_of_mem _ hafter))
  constructor
  · intro task htask
    rcases hmem htask with rfl | hold
    · exact hforeseen.outlook.trans (h.outlook _ (List.mem_of_getElem? ht))
    · exact h.outlook task hold
  · have hlanded := h.landed
    have hstep := hforeseen.landed
    have hunlanded : _ + stage.unlanded S₀ setup object = _ + stage'.unlanded S₀ setup object :=
      Job.sum_map_setStage (fun task => task.stage.unlanded S₀ setup task.object) ht stage'
    have hlanding := Nat.add_right_cancel (Job.sum_map_setStage
      (fun task => ObjectCopy.landing task.object.size (forecast S₀ setup task.object)) ht stage')
    rw [htasks]
    omega
  · have hsize := Nat.add_right_cancel
      (Job.sum_map_setStage (fun task => task.object.size) ht stage')
    rw [htasks, hforeseen.bytes, h.bytes, hsize]

theorem taskForeseen_copy {c : ObjectCopy} {next : ObjectCopy.Next}
    (h : c.Foreseen S₀ setup next) (job : Job) :
    TaskForeseen S₀ setup object (.running c) (.running next.1) job.progress
      (job.tally next.2) := by
  have hlanded := h.landed
  refine ⟨h.outlook, ?_, ?_⟩
  · rw [Job.tally_eq, TaskStage.unlanded, TaskStage.unlanded, ← hlanded, Nat.add_assoc]
  · rw [Job.tally_eq]

theorem TaskAt.foreseen {lanes : Lane → Option CallState} {trail : Trail} {action : JobAction}
    {course : Job.Course} (hat : TaskAt S₀ setup True True object stage lanes trail)
    (hsource : ObjectCopy.HasSource S₀ setup object)
    (hgoes : job.Goes object action stage stage' course) (hsetup : job.setup = setup)
    (hhalt : job.halt = none)
    (hreply : ∀ t lane given, action = .reply t lane given →
      lanes lane = some (.answered given))
    (hpanic : ∀ t reason, action = .panic t reason →
      ∃ c : ObjectCopy, stage = .running c ∧ c.phase = .overflowed) :
    TaskForeseen S₀ setup object stage stage' job.progress course.progress := by
  subst hsetup
  cases hgoes with
  | grant => exact ⟨rfl, rfl, rfl⟩
  | refuse _ hhalted =>
    rw [hhalt] at hhalted
    cases hhalted
  | start =>
    have htold := foreseen_start S₀ job.setup object
    refine ⟨rfl, ?_, ?_⟩
    · rw [Job.tally_eq, TaskStage.unlanded, TaskStage.unlanded, ← htold.landed, Nat.add_assoc]
    · rw [Job.tally_eq]
  | @reply t c lane given next hnext =>
    obtain ⟨rfl, hcopy⟩ := hat.running_inv
    exact taskForeseen_copy
      (hcopy.foreseen_deliver trivial hsource trivial (hreply t lane given rfl) hnext) job
  | wake _ hnext => exact taskForeseen_copy (ObjectCopy.foreseen_wake hnext) job
  | startPart _ hnext =>
    obtain ⟨rfl, hcopy⟩ := hat.running_inv
    exact taskForeseen_copy (hcopy.foreseen_startPart trivial hsource hnext) job
  | panic t reason =>
    obtain ⟨c, hstage, hphase⟩ := hpanic t reason rfl
    cases hstage
    refine ⟨?_, ?_, rfl⟩
    · rw [TaskStage.outlook, TaskStage.outlook, ObjectCopy.outlook, hphase]
    · rw [TaskStage.unlanded, TaskStage.unlanded, ObjectCopy.unlanded, ObjectCopy.outlook, hphase]
      rfl
  | @release _ c v hv =>
    have hphase := ObjectCopy.phase_of_verdict? hv
    refine ⟨?_, ?_, rfl⟩
    · rw [TaskStage.outlook, TaskStage.outlook, ObjectCopy.outlook, hphase]
    · rw [TaskStage.unlanded, TaskStage.unlanded, ObjectCopy.unlanded, hphase]
      rfl
  | account t v =>
    obtain ⟨failures, hprogress⟩ := Job.progress_recordVerdict job object v
    have hcourse : (job.recordVerdict object v).1.course.progress =
        { job.progress with failures } := hprogress
    rw [hcourse]
    split <;> exact ⟨rfl, rfl, rfl⟩
  | place => exact ⟨rfl, rfl, rfl⟩
  | finish _ hstage => rcases hstage with rfl | rfl <;> exact ⟨rfl, rfl, rfl⟩

theorem Job.Goes.fatal_of_halt {action : JobAction} {course : Job.Course}
    (hgoes : job.Goes object action stage stage' course) (hhalt : job.halt = none)
    (hhalted : course.halt ≠ none) :
    ∃ e, stage = .released (.error e) ∧ e.isFatal = true := by
  cases hgoes with
  | account t v =>
    have hhalted : (job.recordVerdict object v).1.halt ≠ none := hhalted
    unfold Job.recordVerdict at hhalted
    split at hhalted
    · exact absurd hhalt hhalted
    · split at hhalted
      · exact absurd hhalt hhalted
      · dsimp only at hhalted
        split at hhalted
        · rename_i hfatal
          exact ⟨_, rfl, hfatal⟩
        · exact absurd hhalt hhalted
  | _ => exact absurd hhalt hhalted

end Steps

namespace World

/-- A run is as foreseen until the job is halted, which happens only for a doomed object. -/
structure Foretells (start : World) (job : Job) : Prop where
  going : job.halt = none → Foresight start.stores start.job.setup job
  halted : job.halt ≠ none →
    ∃ d ∈ start.listing.objects, Doomed start.stores start.job.setup d

variable {start : World} {k : Nat} {feed : Feed} {x y : Watch} {action : WorldAction}

theorem hasSource_of_mem {d : ObjectDescriptor} (hd : d ∈ start.listing.objects) :
    ObjectCopy.HasSource start.stores start.job.setup d :=
  (Store.mem_scope_iff.mp hd).2

theorem Foretells.same {job next : Job} (h : Foretells start job) (htasks : next.tasks = job.tasks)
    (hprogress : next.progress = job.progress) (hhalt : next.halt = job.halt) :
    Foretells start next where
  going := by
    intro hnone
    exact (h.going (hhalt.symm.trans hnone)).same htasks hprogress
  halted := by
    rw [hhalt]
    exact h.halted

theorem Foretells.task {w : World} {job' : JobAction} {n : Nat} {u : Transition}
    {trails : Nat → Trail} {writes : List Write} (h : Foretells start w.job)
    (hobjects : ∀ task ∈ w.job.tasks, task.object ∈ start.listing.objects)
    (htracked : Tracked start.stores start.job.setup True True trails writes w)
    (hown : job'.task? = some n) (hact : w.job.act job' = some u)
    (hreply : ∀ t lane given, job' = .reply t lane given →
      w.lanes n lane = some (.answered given))
    (hpanic : ∀ t reason, job' = .panic t reason →
      ∃ c, w.job.stage? n = some (.running c) ∧ c.phase = .overflowed) :
    Foretells start u.job := by
  obtain ⟨object, stage, stage', ht, hgoes, htasks⟩ := Job.act_goes hown hact
  have hobject := hobjects _ (List.mem_of_getElem? ht)
  have hstep : w.job.Step u.job := ⟨_, _, hact, rfl⟩
  cases hhalt : w.job.halt with
  | some e =>
    have hdoomed := h.halted (by rw [hhalt]; exact Option.some_ne_none e)
    refine ⟨?_, fun _ => hdoomed⟩
    intro hnone
    rw [hstep.halt_eq hhalt] at hnone
    cases hnone
  | none =>
    have hforesight := h.going hhalt
    constructor
    · intro _
      refine hforesight.task ht htasks ((htracked.task n _ ht).foreseen (hasSource_of_mem hobject)
        hgoes htracked.setup_eq hhalt hreply ?_)
      intro t reason hreason
      obtain ⟨c, hstage, hphase⟩ := hpanic t reason hreason
      rw [Job.stage?, ht] at hstage
      exact ⟨c, Option.some.inj hstage, hphase⟩
    · intro hhalted
      obtain ⟨e, rfl, hfatal⟩ := hgoes.fatal_of_halt hhalt hhalted
      have hlook := hforesight.outlook _ (List.mem_of_getElem? ht)
      refine ⟨object, hobject, ?_⟩
      intro v hv
      rw [hv] at hlook
      cases hlook
      exact ⟨e, rfl, hfatal⟩

theorem Foretells.join {job joined : Job} {task : Nat} {status : TaskStatus} {logs : List LogLine}
    (h : Foretells start job)
    (hobjects : ∀ task ∈ job.tasks, task.object ∈ start.listing.objects)
    (hjoin : (job.stage? task).bind (job.joinTask task) = some (status, joined, logs)) :
    Foretells start joined := by
  rcases Job.joinTask_cases hjoin with ⟨v, -, -, rfl⟩ | ⟨reason, hstage, -, rfl⟩
  · exact h
  · cases hhalt : job.halt with
    | some e =>
      rw [Job.haltWith_of_halt hhalt]
      exact h
    | none =>
      refine ⟨fun hnone => absurd hnone (Job.halt_haltWith_ne_none _ _), fun _ => ?_⟩
      obtain ⟨t, ht, heq⟩ := Option.map_eq_some_iff.mp hstage
      have hmem := List.mem_of_getElem? ht
      have hlook := (h.going hhalt).outlook t hmem
      refine ⟨t.object, hobjects t hmem, ?_⟩
      intro v hv
      rw [heq, hv] at hlook
      cases hlook

theorem Foretells.undriven {w : World} {t : WorldTransition} (h : Foretells start w.job)
    (hworking : Working start w) (hdeed : RunDeed w {} action t) : Foretells start t.world.job := by
  obtain ⟨trails, events, htracked⟩ := hworking.tracked
  cases hdeed with
  | enter =>
    rw [enter_eq]
    exact h
  | finish | pass => exact h
  | consumer _ _ hresults =>
    obtain ⟨results, heq⟩ := hresults
    show Foretells start (Transition.job _)
    rw [heq]
    exact h.same rfl rfl rfl
  | internal hown hinternal htaken =>
    refine h.task hworking.objects htracked hown htaken ?_ ?_
    · rintro t lane given rfl
      cases hinternal
    · rintro t reason rfl
      cases hinternal
  | reply hanswered htaken =>
    refine h.task hworking.objects htracked rfl htaken ?_ nofun
    intro t lane given heq
    cases heq
    exact hanswered
  | panic htaken hstage hphase =>
    exact h.task hworking.objects htracked rfl htaken nofun fun _ _ _ => ⟨_, hstage, hphase⟩
  | listed hlisting => cases hlisting
  | join hjoining => cases hjoining

/-- What happens in a run was foreseen. -/
theorem Sweep.foretells (hstart : Fresh start) (h : Sweep start k feed x)
    (hjob : Foretells start x.world.job) (hstep : Watch.Step action x y) :
    Foretells start y.world.job := by
  obtain @⟨t, hwaits, hact, hrun⟩ := hstep
  by_cases hnone : action.driver? = none
  · exact hjob.undriven h.working (runDeed_of_undriven {} hact hrun hnone)
  cases act_runDeed h.driven.feeds (h.stage hwaits) h.driven.batches hact hrun with
  | enter =>
    rw [enter_eq]
    exact hjob
  | finish => exact hjob
  | pass | reply | panic => exact absurd rfl hnone
  | consumer haction =>
    rcases haction with rfl | rfl <;> exact absurd rfl hnone
  | internal hown => exact absurd (driver?_eq_none_of_task? hown) hnone
  | listed hlisting hanswered hpage =>
    have hheard := h.heard hwaits
    rw [hanswered, hlisting] at hheard
    cases hheard with
    | told hmore =>
      cases hpage
      obtain ⟨activity, heq⟩ := listed_eq (k := k) x.world.job feed hstart.pageSize.1
      show Foretells start (Transition.job _)
      rw [heq]
      refine ⟨fun hnone => ?_, hjob.halted⟩
      exact ((hjob.going hnone).spawn (start.listing.page k)).same rfl rfl
  | @join task goal status joined logs _ _ hjoin =>
    obtain ⟨activity, -, heq⟩ :=
      Job.steers_joined joined 0 { feed with tasks := feed.tasks.erase task } goal
    show Foretells start (Transition.job (Job.joined _ _ _ _))
    rw [heq]
    exact (hjob.join h.working.objects hjoin).same rfl rfl rfl

end World

section

variable (S₀ : Stores) (setup : Setup) (objects : List ObjectDescriptor)

def foretoldNumber (status : TaskStatus) : Nat :=
  objects.countP fun d => (forecast S₀ setup d).map TaskStatus.ofVerdict = some status

/-- What is read off the tally when all objects have been migrated. -/
def foretoldSnapshot : Snapshot where
  totalObjects := objects.length % Nat.pow 2 64
  totalBytes := (objects.map ObjectDescriptor.size).sum % Nat.pow 2 64
  migratedObjects := foretoldNumber S₀ setup objects .migrated % Nat.pow 2 64
  skippedObjects := foretoldNumber S₀ setup objects .skipped % Nat.pow 2 64
  completedBytes := (objects.map fun d =>
    ObjectCopy.landing d.size (forecast S₀ setup d)).sum % Nat.pow 2 64
  failedObjects := foretoldNumber S₀ setup objects .failed % Nat.pow 2 64

/-- The bytes under a target key when all objects have been migrated: those of the source if an
object is migrated to it, and otherwise those that were there before. -/
def foretoldData? (key : String) : Option ByteArray :=
  match objects.find? fun d => setup.targetKey d.key = key ∧
      (forecast S₀ setup d).map TaskStatus.ofVerdict = some .migrated with
  | some d => ((S₀.get .source).object? setup.source.bucket d.key).map StoredObject.data
  | none => ((S₀.get .target).object? setup.target.bucket key).map StoredObject.data

end

theorem TaskStatus.ofVerdict_eq_migrated_iff {v : Verdict} :
    TaskStatus.ofVerdict v = .migrated ↔ ∃ mode bytes, v = .ok (.migrated mode bytes) := by
  unfold ofVerdict
  split
  · simp
  · simp
  · split <;> simp

namespace World

/-- Every object of the listing is migrated, and as foreseen. -/
structure Completed (start : World) (job : Job) : Prop where
  objects : (job.tasks.map Task.object).Perm start.listing.objects
  finished : ∀ task ∈ job.tasks, ∃ v, task.stage = .finished v ∧
    forecast start.stores start.job.setup task.object = some v
  foresight : Foresight start.stores start.job.setup job
  accounted : job.Accounted
  failures : job.progress.failures.size = job.number .failed

section Completed

variable {start : World} {job : Job} (h : Completed start job)
include h

theorem Completed.number_eq (status : TaskStatus) :
    job.number status =
      foretoldNumber start.stores start.job.setup start.listing.objects status := by
  rw [Job.number, foretoldNumber, ← h.objects.countP_eq, List.countP_map]
  apply List.countP_congr
  intro task htask
  obtain ⟨v, hstage, hforecast⟩ := h.finished task htask
  simp [hstage, TaskStage.group?, hforecast]

theorem Completed.over : ∀ task ∈ job.tasks, task.stage.isOver = true := by
  intro task htask
  obtain ⟨v, hstage, -⟩ := h.finished task htask
  rw [hstage]
  rfl

theorem Completed.unlanded_eq_zero :
    (job.tasks.map fun task =>
      task.stage.unlanded start.stores start.job.setup task.object).sum = 0 := by
  rw [List.sum_eq_zero_iff]
  intro n hn
  obtain ⟨task, htask, rfl⟩ := List.mem_map.mp hn
  obtain ⟨v, hstage, -⟩ := h.finished task htask
  rw [hstage]
  rfl

theorem Completed.progress_objects : job.progress.objects = start.listing.objects.length := by
  rw [h.accounted.objects, ← h.objects.length_eq, List.length_map]

theorem Completed.progress_bytes :
    job.progress.bytes = (start.listing.objects.map ObjectDescriptor.size).sum := by
  rw [h.foresight.bytes, ← (h.objects.map _).sum_nat, List.map_map]
  rfl

theorem Completed.progress_landedBytes :
    job.progress.landedBytes = (start.listing.objects.map fun d =>
      ObjectCopy.landing d.size (forecast start.stores start.job.setup d)).sum := by
  have hsum := h.foresight.landed
  rw [h.unlanded_eq_zero, Nat.add_zero] at hsum
  rw [hsum, ← (h.objects.map _).sum_nat, List.map_map]
  rfl

theorem Completed.snapshot_eq :
    job.snapshot = foretoldSnapshot start.stores start.job.setup start.listing.objects := by
  rw [Job.snapshot, Progress.snapshot, foretoldSnapshot, h.progress_objects, h.progress_bytes,
    h.progress_landedBytes, h.accounted.migrated, h.accounted.skipped, h.failures, h.number_eq,
    h.number_eq, h.number_eq]

theorem Completed.mem_objects_iff {d : ObjectDescriptor} :
    d ∈ start.listing.objects ↔ ∃ task ∈ job.tasks, task.object = d := by
  rw [← h.objects.mem_iff, List.mem_map]

theorem Completed.hasMigrated_iff {task : Task} (htask : task ∈ job.tasks) :
    task.HasMigrated ↔ (forecast start.stores start.job.setup task.object).map
      TaskStatus.ofVerdict = some .migrated := by
  obtain ⟨v, hstage, hforecast⟩ := h.finished task htask
  rw [Task.HasMigrated, hstage, hforecast, Option.map_some, Option.some.injEq,
    TaskStatus.ofVerdict_eq_migrated_iff]
  simp [TaskStage.outcome?]

theorem Completed.data_eq {w : World} (hw : w.job = job) {events : List Event}
    (hframed : Framed start events w) (key : String) :
    ((w.stores.get .target).object? start.job.setup.target.bucket key).map StoredObject.data =
      foretoldData? start.stores start.job.setup start.listing.objects key := by
  subst hw
  have hfront : ∀ task ∈ w.job.tasks,
      Text.hasFront start.job.setup.source.keyPrefix task.object.key = true := by
    intro task htask
    exact (Store.mem_scope_iff.mp (h.mem_objects_iff.mpr ⟨task, htask, rfl⟩)).1
  unfold foretoldData?
  split
  · rename_i d hfind
    have hd := List.mem_of_find?_eq_some hfind
    have hmigrated := List.find?_some hfind
    rw [decide_eq_true_eq] at hmigrated
    obtain ⟨rfl, hmigrated⟩ := hmigrated
    obtain ⟨task, htask, rfl⟩ := h.mem_objects_iff.mp hd
    obtain ⟨e, last, -, hobject, hlast, -, hkey, hstored⟩ :=
      hframed.written _ ⟨task, htask, (h.hasMigrated_iff htask).mpr hmigrated, rfl⟩
    have hlast := List.mem_of_getElem? hlast
    have heq := Setup.targetKey_inj _ (hfront last hlast) (hfront task htask) hkey
    obtain ⟨source, hsource, hdata⟩ := hstored
    obtain ⟨source', hsource', hsize⟩ :=
      hasSource_of_mem (h.mem_objects_iff.mpr ⟨last, hlast, rfl⟩)
    rw [hsource] at hsource'
    cases hsource'
    have hsame : e.object.data = source.data := by
      rcases hdata with ⟨-, hdata⟩ | ⟨-, -, hdata⟩
      · exact hdata
      · rw [hdata, ← hsize, ByteArray.extract_zero_size]
    rw [hobject, ← heq, hsource, Option.map_some, Option.map_some, hsame]
  · rename_i hfind
    rw [hframed.untouched key]
    intro task htask hmigrated hkey
    have hnone := List.find?_eq_none.mp hfind _ (h.mem_objects_iff.mpr ⟨task, htask, rfl⟩)
    rw [decide_eq_true_eq] at hnone
    exact hnone ⟨hkey, (h.hasMigrated_iff htask).mp hmigrated⟩

end Completed

def targetData? (w : World) (key : String) : Option ByteArray :=
  ((w.stores.get .target).object? w.job.setup.target.bucket key).map StoredObject.data

/-- The result of a run, as foreseen: the error of the halt slot when an object is doomed, and
otherwise the tally and the bytes that the objects are going to leave. -/
inductive Foreseen (start : World) (w : World) : Return → Prop
  | halted {e : MigrationError} (hhalt : w.job.halt = some e) (he : e.Halting)
      (hdoomed : ∃ d ∈ start.listing.objects, Doomed start.stores start.job.setup d) :
      Foreseen start w (.ran (.error e))
  | completed (hsafe : ∀ d ∈ start.listing.objects, ¬Doomed start.stores start.job.setup d)
      (hdata : w.targetData? =
        foretoldData? start.stores start.job.setup start.listing.objects) :
      Foreseen start w (.ran (.ok
        (foretoldSnapshot start.stores start.job.setup start.listing.objects)))

section Returns

variable {start w : World} {k : Nat} {feed : Feed} {x : Watch} (hstart : Fresh start)
include hstart

theorem Completed.safe (h : Working start w) (hcompleted : Completed start w.job)
    (hhalt : w.job.halt = none) :
    ∀ d ∈ start.listing.objects, ¬Doomed start.stores start.job.setup d := by
  obtain ⟨results, hnew⟩ := hstart.job
  intro d hd hdoomed
  obtain ⟨task, htask, rfl⟩ := hcompleted.mem_objects_iff.mp hd
  obtain ⟨v, hstage, hforecast⟩ := hcompleted.finished task htask
  apply h.reach.halt_of_fatal hnew task htask ?_ hhalt
  rw [hstage]
  exact hdoomed v hforecast

omit hstart in
theorem Completed.targetData_eq (h : Working start w) (hcompleted : Completed start w.job) :
    w.targetData? = foretoldData? start.stores start.job.setup start.listing.objects := by
  obtain ⟨trails, events, htracked⟩ := h.tracked
  funext key
  rw [targetData?, htracked.setup_eq]
  exact hcompleted.data_eq rfl (htracked.framed hcompleted.over) key

theorem Foretells.completed (h : Working start w) (hjob : Foretells start w.job)
    (hhalt : w.job.halt = none)
    (hobjects : (w.job.tasks.map Task.object).Perm start.listing.objects)
    (hfinished : ∀ task ∈ w.job.tasks, ∃ v, task.stage = .finished v) :
    Completed start w.job := by
  obtain ⟨results, hnew⟩ := hstart.job
  have haccounted := h.reach.accounted hnew
  have hforesight := hjob.going hhalt
  refine ⟨hobjects, ?_, hforesight, haccounted, haccounted.size_failures_eq h.keys⟩
  intro task htask
  obtain ⟨v, hv⟩ := hfinished task htask
  refine ⟨v, hv, ?_⟩
  rw [← hforesight.outlook task htask, hv]
  rfl

theorem Foretells.halting (h : Working start w) (hjob : Foretells start w.job)
    {e : MigrationError} (hhalt : w.job.halt = some e) :
    e.Halting ∧ ∃ d ∈ start.listing.objects, Doomed start.stores start.job.setup d := by
  obtain ⟨results, hnew⟩ := hstart.job
  refine ⟨h.reach.haltSound hnew e hhalt, hjob.halted ?_⟩
  rw [hhalt]
  exact Option.some_ne_none e

variable (h : Sweep start k feed x) (hjob : Foretells start x.world.job)
include h hjob

theorem Sweep.completed (hhalt : x.world.job.halt = none) (hdone : feed.isDone = true)
    (htasks : feed.tasks = []) : Completed start x.world.job := by
  refine hjob.completed hstart h.working hhalt ?_ ?_
  · rw [h.driven.objects, List.take_of_length_le
      (Listing.length_le_of_isDone (h.driven.told.isDone.symm.trans hdone))]
  · intro task htask
    obtain ⟨t, ht⟩ := List.mem_iff_getElem?.mp htask
    have hstage : x.world.job.stage? t = some task.stage := by rw [Job.stage?, ht]; rfl
    rcases h.driven.joined t _ hstage with hmem | hfinished | hhalted
    · rw [htasks] at hmem
      cases hmem
    · exact hfinished
    · exact absurd hhalt hhalted

/-- A run returns the error that its job is halted for, or its tally when all objects have been
migrated. -/
theorem Sweep.returned_cases {r : Return} (hr : x.returned = some r) :
    (∃ e, x.world.job.halt = some e ∧ r = .ran (.error e)) ∨
      x.world.job.halt = none ∧ Completed start x.world.job ∧
        r = .ran (.ok x.world.job.snapshot) := by
  cases h.running with
  | going _ hwaits =>
    rw [hr] at hwaits
    cases hwaits
  | ended hi hreturned htasks houtcome =>
    rw [hr] at hreturned
    cases hreturned
    rw [h.driven.feeds] at hi
    cases hi
    cases houtcome with
    | complete hhalt hdone => exact .inr ⟨hhalt, h.completed hstart hjob hhalt hdone htasks, rfl⟩
    | halted hhalt => exact .inl ⟨_, hhalt, rfl⟩

theorem Sweep.returns {r : Return} (hr : x.returned = some r) : Foreseen start x.world r := by
  rcases h.returned_cases hstart hjob hr with ⟨e, hhalt, rfl⟩ | ⟨hhalt, hcompleted, rfl⟩
  · obtain ⟨he, hdoomed⟩ := hjob.halting hstart h.working hhalt
    exact .halted hhalt he hdoomed
  · rw [hcompleted.snapshot_eq]
    exact .completed (hcompleted.safe hstart h.working hhalt) (hcompleted.targetData_eq h.working)

end Returns

theorem Fresh.foretells_start (hstart : Fresh start) : Foretells start start.job := by
  obtain ⟨results, hnew⟩ := hstart.job
  have hjob := (Job.new?_eq_ok hnew).1
  have htasks : start.job.tasks = [] := by rw [hjob]
  have hprogress : start.job.progress = {} := by rw [hjob]
  have hhalt : start.job.halt = none := by rw [hjob]
  refine ⟨fun _ => ⟨?_, ?_, ?_⟩, fun hhalted => absurd hhalt hhalted⟩
  · rw [htasks]
    nofun
  · rw [htasks, hprogress]
    rfl
  · rw [htasks, hprogress]
    rfl

theorem Fresh.foretells (hstart : Fresh start) (hbegins : Begins start x) :
    Foretells start x.world.job := by
  obtain ⟨rfl, -⟩ := hstart.eq_running hbegins
  exact hstart.foretells_start.same rfl rfl rfl

theorem Watch.Reach.foretells (hstart : Fresh start) (hbegins : Begins start x)
    (hreach : Watch.Reach x y) : Foretells start y.world.job := by
  induction hreach with
  | refl => exact hstart.foretells hbegins
  | tail hreach hstep ih =>
    obtain ⟨k, feed, h⟩ := Watch.Reach.sweep hstart hbegins hreach
    obtain ⟨action, hstep⟩ := hstep
    exact h.foretells hstart ih hstep

theorem Watch.Reach.foreseen (hstart : Fresh start) (hbegins : Begins start x)
    (hreach : Watch.Reach x y) {r : Return} (hr : y.returned = some r) :
    Foreseen start y.world r := by
  obtain ⟨k, feed, h⟩ := Watch.Reach.sweep hstart hbegins hreach
  exact h.returns hstart (Watch.Reach.foretells hstart hbegins hreach) hr

end World

end BucketMigration
