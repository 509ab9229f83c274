import BucketMigration.Proofs.Job.Bytes

/-!
# What tasks report

A task is accounted once, after it has given its slot back. When there is a queue for results, it
then begins to publish its own; and when it has failed, its failure is recorded. So the history of
a job holds one result for each task that has been accounted, all failures that were ever recorded,
and how often each task was counted.
-/

namespace BucketMigration

/-- The verdict of a task, from the moment on that it has been accounted. -/
def TaskStage.accounted? : TaskStage → Option Verdict
  | publishing v | placed v | finished v => some v
  | _ => none

/-- A failure that is recorded for a task, under the key of its object. -/
structure Failure where
  task : Nat
  key : String
  error : MigrationError

namespace Failure

/-- What is recorded of a task that ends with a verdict. -/
def ofVerdict? (t : Nat) (object : ObjectDescriptor) : Verdict → Option Failure
  | .ok _ => none
  | .error e => if e.isSkip then none else some ⟨t, object.key, e⟩

/-- The failures by key after one more has been recorded. -/
def record (failures : Std.TreeMap String MigrationError) (f : Failure) :
    Std.TreeMap String MigrationError :=
  failures.insert f.key f.error

theorem task_of_ofVerdict? {t : Nat} {object : ObjectDescriptor} {v : Verdict} {f : Failure}
    (h : ofVerdict? t object v = some f) : f.task = t := by
  unfold ofVerdict? at h
  split at h
  · cases h
  · split at h
    · cases h
    · cases h
      rfl

end Failure

namespace Job

namespace Event

def publishes? (t : Nat) (e : Event) : Option CopyResult :=
  match e.before.stage? t, (e.before.act e.action).bind fun u => u.job.tasks[t]? with
  | some (.publishing _), _ => none
  | _, some ⟨object, .publishing v⟩ => some (e.before.resultOf object v)
  | _, _ => none

def records? (e : Event) : Option Failure :=
  match e.action with
  | .account t =>
      match e.before.tasks[t]? with
      | some ⟨object, .released v⟩ => Failure.ofVerdict? t object v
      | _ => none
  | _ => none

/-- By how much a task raises a counter of the tally. -/
def raise (counter : Progress → Nat) (t : Nat) (e : Event) : Nat :=
  if e.action.task? = some t then
    match e.before.act e.action with
    | some u => counter u.job.progress - counter e.before.progress
    | none => 0
  else 0

def published (events : List Event) (t : Nat) : List CopyResult :=
  events.filterMap (publishes? t)

/-- The failures that were recorded, the first one first. -/
def recorded (events : List Event) : List Failure :=
  events.filterMap records?

/-- How often a task was counted by a counter of the tally. -/
def counted (counter : Progress → Nat) (events : List Event) (t : Nat) : Nat :=
  (events.map (raise counter t)).sum

theorem published_snoc (events : List Event) (e : Event) (t : Nat) :
    published (events ++ [e]) t = published events t ++ (e.publishes? t).toList :=
  filterMap_snoc (publishes? t) events e

theorem recorded_snoc (events : List Event) (e : Event) :
    recorded (events ++ [e]) = recorded events ++ e.records?.toList :=
  filterMap_snoc records? events e

theorem counted_snoc (counter : Progress → Nat) (events : List Event) (e : Event) (t : Nat) :
    counted counter (events ++ [e]) t = counted counter events t + e.raise counter t := by
  rw [counted, List.map_append, List.sum_append, List.map_singleton, List.sum_singleton]
  rfl

variable {e : Event} {t : Nat} {object : ObjectDescriptor} {stage : TaskStage} {v : Verdict}

theorem task_of_records? {f : Failure} (h : e.records? = some f) :
    e.action.task? = some f.task := by
  unfold records? at h
  split at h
  · rename_i t haction
    split at h
    · rw [haction, Failure.task_of_ofVerdict? h]
      rfl
    · cases h
  · cases h

theorem records?_eq_none (hown : e.action.task? = some t)
    (ht : e.before.tasks[t]? = some ⟨object, stage⟩) (hstage : ∀ v, stage ≠ .released v) :
    e.records? = none := by
  unfold records?
  split
  · rename_i u haction
    rw [haction] at hown
    cases hown
    split
    · rename_i hreleased
      rw [ht] at hreleased
      cases hreleased
      exact absurd rfl (hstage _)
    · rfl
  · rfl

theorem records?_account {job : Job} (ht : job.tasks[t]? = some ⟨object, .released v⟩) :
    records? ⟨job, .account t⟩ = Failure.ofVerdict? t object v := by
  simp only [records?, ht]

end Event

open Event

variable {job next start : Job} {setup : Setup} {results : Option ResultQueue}
  {object : ObjectDescriptor} {stage stage' : TaskStage} {course : Course} {events : List Event}
  {action : JobAction} {t : Nat} {u : Transition}

theorem task_of_own (hown : action.task? = some t) (hact : job.act action = some u) :
    ∃ object stage stage', job.tasks[t]? = some ⟨object, stage⟩ ∧
      u.job.tasks[t]? = some ⟨object, stage'⟩ ∧
      Goes job object action stage stage' u.job.course := by
  obtain ⟨object, stage, stage', ht, hgoes, htasks⟩ := act_goes hown hact
  exact ⟨object, stage, stage', ht, htasks ▸ getElem?_setStage ht stage', hgoes⟩

/-- An action leaves the tasks alone that it is not about, and tasks that come with it wait. -/
theorem task_of_other (hother : action.task? ≠ some t) (hact : job.act action = some u) :
    u.job.tasks[t]? = job.tasks[t]? ∨
      job.tasks[t]? = none ∧ ∃ object, u.job.tasks[t]? = some ⟨object, .queued⟩ := by
  cases haction : action.task? with
  | some v =>
    left
    obtain ⟨object, stage, stage', -, -, htasks⟩ := act_goes haction hact
    have hne : v ≠ t := by
      rintro rfl
      exact hother haction
    rw [htasks, getElem?_tasks_setStage, if_neg hne]
  | none =>
    obtain ⟨base, hwork, htasks, -⟩ := exists_work haction hact
    obtain ⟨objects, hbase, -, -⟩ := hwork.exists_dispatched
    rw [htasks, hbase]
    rcases Nat.lt_or_ge t job.tasks.length with hlt | hle
    · exact .inl (List.getElem?_append_left hlt)
    · rw [List.getElem?_append_right hle, List.getElem?_map, List.getElem?_eq_none hle]
      cases objects[t - job.tasks.length]? with
      | none => exact .inl rfl
      | some object => exact .inr ⟨rfl, object, rfl⟩

theorem Goes.of_released {v : Verdict} (h : Goes job object action (.released v) stage' course) :
    ∃ n, action = .account n ∧ course = (job.recordVerdict object v).1.course ∧
      stage' = if job.results.isSome then .publishing v else .finished v := by
  cases h with
  | account n => exact ⟨n, rfl, rfl, rfl⟩
  | finish _ h => rcases h with h | h <;> cases h

theorem Goes.ne_publishing (h : Goes job object action stage stage' course)
    (hstage : ∀ v, stage ≠ .released v) (v : Verdict) : stage' ≠ .publishing v := by
  cases h with
  | account n v => exact absurd rfl (hstage v)
  | _ => nofun

/-- A task is accounted when it has been released, and never again. -/
theorem Goes.accounted?_eq (h : Goes job object action stage stage' course)
    (hstage : ∀ v, stage ≠ .released v) : stage'.accounted? = stage.accounted? := by
  cases h with
  | account n v => exact absurd rfl (hstage v)
  | finish _ h => rcases h with rfl | rfl <;> rfl
  | _ => rfl

theorem publishes?_account {v : Verdict} (hact : job.act action = some u)
    (ht : job.tasks[t]? = some ⟨object, .released v⟩)
    (ht' : u.job.tasks[t]? = some ⟨object, .publishing v⟩) :
    publishes? t ⟨job, action⟩ = some (job.resultOf object v) := by
  simp only [publishes?, hact, Option.bind_some, stage?, ht, ht', Option.map_some]

theorem publishes?_eq_none (hact : job.act action = some u)
    (ht' : ∀ object v, u.job.tasks[t]? ≠ some ⟨object, .publishing v⟩) :
    publishes? t ⟨job, action⟩ = none := by
  simp only [publishes?, hact, Option.bind_some]
  split
  · rfl
  · rename_i hpublishing _
    exact absurd hpublishing (ht' _ _)
  · rfl

theorem publishes?_of_other (hother : action.task? ≠ some t) (hact : job.act action = some u) :
    publishes? t ⟨job, action⟩ = none := by
  rcases task_of_other hother hact with hsame | ⟨-, object, hqueued⟩
  · simp only [publishes?, hact, Option.bind_some, stage?, hsame]
    split
    · rfl
    · rename_i hpublishing hnot
      rw [hpublishing] at hnot
      exact absurd rfl (hnot _)
    · rfl
  · apply publishes?_eq_none hact
    intro object v hpublishing
    cases hqueued.symm.trans hpublishing

theorem failures_recordVerdict (job : Job) (t : Nat) (object : ObjectDescriptor) (v : Verdict) :
    (job.recordVerdict object v).1.progress.failures =
      (Failure.ofVerdict? t object v).toList.foldl Failure.record job.progress.failures := by
  cases v with
  | ok => rfl
  | error e =>
    unfold recordVerdict Failure.ofVerdict?
    dsimp only
    split
    · rfl
    · split
      · rw [progress_haltWith]
        rfl
      · rfl

theorem Goes.failures_eq (h : Goes job object action stage stage' course)
    (hstage : ∀ v, stage ≠ .released v) : course.progress.failures = job.progress.failures := by
  cases h with
  | account n v => exact absurd rfl (hstage v)
  | refuse | start | reply | wake | startPart =>
    dsimp only
    rw [tally_eq]
  | _ => rfl

theorem failures_of_act (hact : job.act action = some u) :
    u.job.progress.failures =
      (records? ⟨job, action⟩).toList.foldl Failure.record job.progress.failures := by
  cases haction : action.task? with
  | some t =>
    obtain ⟨object, stage, stage', ht, -, hgoes⟩ := task_of_own haction hact
    have hprogress : u.job.course.progress = u.job.progress := rfl
    by_cases hreleased : ∃ v, stage = .released v
    · obtain ⟨v, rfl⟩ := hreleased
      obtain ⟨n, rfl, hcourse, -⟩ := hgoes.of_released
      cases haction
      rw [records?_account ht, ← failures_recordVerdict, ← hprogress, hcourse]
      rfl
    · have hstage := not_exists.mp hreleased
      rw [records?_eq_none (e := ⟨job, action⟩) haction ht hstage, ← hprogress]
      exact hgoes.failures_eq hstage
  | none =>
    have hsilent : records? ⟨job, action⟩ = none := by
      cases hrecords : records? ⟨job, action⟩ with
      | none => rfl
      | some f => cases haction.symm.trans (task_of_records? hrecords)
    obtain ⟨base, hwork, -, hcourse⟩ := exists_work haction hact
    have hprogress : u.job.progress = base.progress := congrArg Course.progress hcourse
    rw [hsilent, hprogress]
    cases hwork with
    | still => rfl
    | spawn objects =>
      rw [progress_spawn]
      rfl
    | halt =>
      rw [progress_haltWith]
      rfl

/-- What the history tells of a task that has come to a stage. -/
structure Told (setup : Setup) (events : List Event) (t : Nat) (object : ObjectDescriptor)
    (stage : TaskStage) : Prop where
  published : published events t =
    (stage.accounted?.map (.ofVerdict object.key (setup.targetKey object.key))).toList
  recorded : (recorded events).filter (fun f => f.task == t) =
    (stage.accounted?.bind (Failure.ofVerdict? t object)).toList
  migrated : counted Progress.migrated events t = if stage.group? = some .migrated then 1 else 0
  skipped : counted Progress.skipped events t = if stage.group? = some .skipped then 1 else 0

theorem filter_recorded_snoc (events : List Event) (e : Event) (t : Nat) :
    (Event.recorded (events ++ [e])).filter (fun f => f.task == t) =
      (Event.recorded events).filter (fun f => f.task == t) ++
        (e.records?.filter fun f => f.task == t).toList := by
  rw [recorded_snoc, List.filter_append]
  cases hfailure : e.records? with
  | none => rfl
  | some f => cases htask : f.task == t <;> simp [Option.filter, htask]

theorem filter_ofVerdict? (t : Nat) (object : ObjectDescriptor) (v : Verdict) :
    ((Failure.ofVerdict? t object v).filter fun f => f.task == t) =
      Failure.ofVerdict? t object v := by
  cases hfailure : Failure.ofVerdict? t object v with
  | none => rfl
  | some f => simp [Option.filter, Failure.task_of_ofVerdict? hfailure]

theorem Told.other (h : Told setup events t object stage) (hother : action.task? ≠ some t)
    (hact : job.act action = some u) :
    Told setup (events ++ [⟨job, action⟩]) t object stage where
  published := by
    rw [published_snoc, publishes?_of_other hother hact, Option.toList_none, List.append_nil,
      h.published]
  recorded := by
    have hnone : ((records? ⟨job, action⟩).filter fun f => f.task == t) = none := by
      rw [Option.filter_eq_none_iff]
      intro f hf htask
      exact hother ((task_of_records? hf).trans (congrArg some (beq_iff_eq.mp htask)))
    rw [filter_recorded_snoc, hnone, Option.toList_none, List.append_nil, h.recorded]
  migrated := by
    rw [counted_snoc, raise, if_neg hother, Nat.add_zero, h.migrated]
  skipped := by
    rw [counted_snoc, raise, if_neg hother, Nat.add_zero, h.skipped]

theorem add_sub_of_counted {group group' : Option TaskStatus} {status : TaskStatus} {n n' : Nat}
    (h : n' + (if group = some status then 1 else 0) = n + if group' = some status then 1 else 0)
    (hkeeps : group = some status → group' = some status) :
    (if group = some status then 1 else 0) + (n' - n) =
      if group' = some status then 1 else 0 := by
  by_cases hgroup : group = some status
  · rw [if_pos hgroup, if_pos (hkeeps hgroup)] at h ⊢
    omega
  · rw [if_neg hgroup] at h ⊢
    omega

theorem Told.own (h : Told job.setup events t object stage) (hown : action.task? = some t)
    (hact : job.act action = some u) (ht : job.tasks[t]? = some ⟨object, stage⟩)
    (ht' : u.job.tasks[t]? = some ⟨object, stage'⟩)
    (hgoes : Goes job object action stage stage' u.job.course)
    (hqueue : job.results.isSome = true) (hsound : stage.Sound) :
    Told job.setup (events ++ [⟨job, action⟩]) t object stage' := by
  have hcounted := hgoes.move.counted hsound
  have hraise : ∀ counter : Progress → Nat, raise counter t ⟨job, action⟩ =
      counter u.job.progress - counter job.progress := by
    intro counter
    rw [raise, if_pos hown, hact]
  have hmigrated : counted Progress.migrated (events ++ [⟨job, action⟩]) t =
      if stage'.group? = some .migrated then 1 else 0 := by
    rw [counted_snoc, hraise, h.migrated]
    exact add_sub_of_counted hcounted.migrated (hcounted.keeps _)
  have hskipped : counted Progress.skipped (events ++ [⟨job, action⟩]) t =
      if stage'.group? = some .skipped then 1 else 0 := by
    rw [counted_snoc, hraise, h.skipped]
    exact add_sub_of_counted hcounted.skipped (hcounted.keeps _)
  -- Either the task is accounted now, or the history tells nothing new of it.
  by_cases hreleased : ∃ v, stage = .released v
  · obtain ⟨v, rfl⟩ := hreleased
    obtain ⟨n, rfl, -, rfl⟩ := hgoes.of_released
    cases hown
    rw [if_pos hqueue] at ht' hmigrated hskipped ⊢
    refine ⟨?_, ?_, hmigrated, hskipped⟩
    · rw [published_snoc, h.published, publishes?_account hact ht ht']
      rfl
    · rw [filter_recorded_snoc, h.recorded, records?_account ht, filter_ofVerdict?]
      rfl
  · have hstage := not_exists.mp hreleased
    have haccounted := hgoes.accounted?_eq hstage
    have hsilent : publishes? t ⟨job, action⟩ = none := by
      apply publishes?_eq_none hact
      intro object' v hpublishing
      cases ht'.symm.trans hpublishing
      exact hgoes.ne_publishing hstage v rfl
    refine ⟨?_, ?_, hmigrated, hskipped⟩
    · rw [published_snoc, h.published, hsilent, haccounted]
      exact List.append_nil _
    · rw [filter_recorded_snoc, h.recorded,
        records?_eq_none (e := ⟨job, action⟩) hown ht hstage, haccounted]
      exact List.append_nil _

/-- The history tells what each task has reported, and of all failures. -/
structure Reported (setup : Setup) (events : List Event) (job : Job) : Prop where
  setup_eq : job.setup = setup
  queue : job.results.isSome = true
  tasks : ∀ (t : Nat) (task : Task), job.tasks[t]? = some task →
    Told setup events t task.object task.stage
  fresh : ∀ t, job.tasks[t]? = none → ∀ object, Told setup events t object .queued
  failures : job.progress.failures = (recorded events).foldl Failure.record {}

theorem reported_new {queue : ResultQueue} (hnew : new? setup (some queue) = .ok start) :
    Reported setup [] start := by
  rw [(new?_eq_ok hnew).1]
  refine ⟨rfl, rfl, ?_, fun t _ object => ⟨rfl, rfl, rfl, rfl⟩, rfl⟩
  intro t task ht
  cases ht

theorem Reported.step (h : Reported setup events job) (hsound : job.Sound)
    (hact : job.act action = some u) : Reported setup (events ++ [⟨job, action⟩]) u.job := by
  obtain ⟨hfixed, -⟩ := (act_deed hact).move
  have hfailures : u.job.progress.failures =
      (recorded (events ++ [⟨job, action⟩])).foldl Failure.record {} := by
    rw [recorded_snoc, List.foldl_append, ← h.failures, failures_of_act hact]
  refine ⟨hfixed.setup.trans h.setup_eq, hfixed.results.trans h.queue, ?_, ?_, hfailures⟩
  · intro t task ht
    by_cases hown : action.task? = some t
    · obtain ⟨object, stage, stage', hold, hmoved, hgoes⟩ := task_of_own hown hact
      rw [hmoved] at ht
      cases ht
      have htold := h.tasks t _ hold
      rw [← h.setup_eq] at htold ⊢
      exact htold.own hown hact hold hmoved hgoes h.queue (hsound _ (List.mem_of_getElem? hold))
    · rcases task_of_other hown hact with hsame | ⟨hnone, object, hqueued⟩
      · rw [hsame] at ht
        exact (h.tasks t task ht).other hown hact
      · rw [hqueued] at ht
        cases ht
        exact (h.fresh t hnone object).other hown hact
  · intro t hnone object
    have hother : action.task? ≠ some t := by
      intro hown
      obtain ⟨_, _, _, _, ht, _⟩ := task_of_own hown hact
      cases hnone.symm.trans ht
    rcases task_of_other hother hact with hsame | ⟨-, _, hqueued⟩
    · exact (h.fresh t (hsame.symm.trans hnone) object).other hother hact
    · cases hnone.symm.trans hqueued

theorem Path.reported {queue : ResultQueue} (hnew : new? setup (some queue) = .ok start)
    (h : Path start events job) : Reported setup events job := by
  induction h with
  | start => exact reported_new hnew
  | step hpath hact ih => exact ih.step (hpath.reach.sound hnew) hact

end Job

end BucketMigration
