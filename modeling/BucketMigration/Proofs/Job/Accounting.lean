import BucketMigration.Proofs.Job.Moves
import Mathlib.Algebra.GroupWithZero.Nat
import Mathlib.Data.List.Dedup

/-!
# Objects are accounted

The tally of a job agrees with its tasks at every moment: it has as many objects as there are tasks,
the migrated and the skipped ones are counted, and the failures are kept under the keys of the
failed ones. A task belongs to one group at most, and it never leaves it.
-/

namespace BucketMigration

/-- The group that a task is counted in by now. A success counts as soon as the copy ends, a failure
as soon as it is recorded. -/
def TaskStage.group? : TaskStage → Option TaskStatus
  | running c => c.status?.filter (· ≠ .failed)
  | released v => (some (TaskStatus.ofVerdict v)).filter (· ≠ .failed)
  | publishing v | placed v | finished v => some (.ofVerdict v)
  | queued | granted | panicked _ => none

/-- How a task has ended, from the end of its copy on. -/
def TaskStage.outcome? : TaskStage → Option Verdict
  | running c => c.verdict?
  | released v | publishing v | placed v | finished v => some v
  | queued | granted | panicked _ => none

theorem TaskStage.exists_outcome_of_group? {stage : TaskStage} {status : TaskStatus}
    (h : stage.group? = some status) :
    ∃ v, stage.outcome? = some v ∧ .ofVerdict v = status := by
  cases stage with
  | running c =>
    rw [group?, Option.filter_eq_some_iff] at h
    exact Option.map_eq_some_iff.mp h.1
  | released v =>
    rw [group?, Option.filter_eq_some_iff] at h
    exact ⟨v, rfl, Option.some.inj h.1⟩
  | publishing v | placed v | finished v => exact ⟨v, rfl, Option.some.inj h⟩
  | queued | granted | panicked => cases h

/-- The bytes that an effect adds to those that have landed. -/
def Effect.landed : Effect → Nat
  | land bytes => bytes
  | _ => 0

/-- The errors that a stage holds are errors of an object. -/
def TaskStage.Sound : TaskStage → Prop
  | running c => c.phase.Sound
  | released v | publishing v | placed v | finished v => ∀ e, v = .error e → e.key? ≠ none
  | queued | granted | panicked _ => True

namespace Job

/-- The number of tasks that are counted in a group. -/
def number (job : Job) (status : TaskStatus) : Nat :=
  job.tasks.countP fun task => task.stage.group? = some status

structure Accounted (job : Job) : Prop where
  objects : job.progress.objects = job.tasks.length
  migrated : job.progress.migrated = job.number .migrated
  skipped : job.progress.skipped = job.number .skipped
  failures : ∀ key, key ∈ job.progress.failures ↔
    ∃ task ∈ job.tasks, task.object.key = key ∧ task.stage.group? = some .failed
  size_failures : job.progress.failures.size ≤ job.number .failed

variable {job next start : Job}

theorem foldl_count (p : Progress) (effects : List Effect) :
    effects.foldl Effect.count p =
      { p with
        migrated := p.migrated + effects.count .countMigrated
        skipped := p.skipped + effects.count .countSkipped
        landedBytes := p.landedBytes + (effects.map Effect.landed).sum } := by
  induction effects generalizing p with
  | nil => rfl
  | cons effect rest ih =>
    rw [List.foldl_cons, ih, List.map_cons, List.sum_cons]
    cases effect with
    | log line => simp [Effect.count, Effect.landed]
    | countMigrated =>
      simp [Effect.count, Effect.landed, Progress.countMigrated, Nat.add_assoc, Nat.add_comm 1]
    | countSkipped =>
      simp [Effect.count, Effect.landed, Progress.countSkipped, Nat.add_assoc, Nat.add_comm 1]
    | land bytes => simp [Effect.count, Effect.landed, Progress.land, Nat.add_assoc]

theorem tally_eq (job : Job) (effects : List Effect) :
    job.tally effects =
      { job.progress with
        migrated := job.progress.migrated + effects.count .countMigrated
        skipped := job.progress.skipped + effects.count .countSkipped
        landedBytes := job.progress.landedBytes + (effects.map Effect.landed).sum } :=
  foldl_count job.progress effects

/-- The bearing of a task on the tally, before and after it comes to its next stage. -/
structure Counted (object : ObjectDescriptor) (group group' : Option TaskStatus)
    (p p' : Progress) : Prop where
  objects : p'.objects = p.objects
  migrated : p'.migrated + (if group = some .migrated then 1 else 0) =
    p.migrated + if group' = some .migrated then 1 else 0
  skipped : p'.skipped + (if group = some .skipped then 1 else 0) =
    p.skipped + if group' = some .skipped then 1 else 0
  failures : ∀ key, key ∈ p'.failures ↔
    key ∈ p.failures ∨ (group = none ∧ group' = some .failed ∧ object.key = key)
  size_failures : p'.failures.size + (if group = some .failed then 1 else 0) ≤
    p.failures.size + if group' = some .failed then 1 else 0
  keeps : ∀ status, group = some status → group' = some status

variable {object : ObjectDescriptor} {stage stage' : TaskStage} {p p' : Progress}

theorem Counted.refl (object : ObjectDescriptor) (group : Option TaskStatus) (p : Progress) :
    Counted object group group p p where
  objects := rfl
  migrated := rfl
  skipped := rfl
  failures := by
    intro key
    constructor
    · exact .inl
    · rintro (hold | ⟨hnone, hsome, -⟩)
      · exact hold
      · cases hnone.symm.trans hsome
  size_failures := Nat.le_refl _
  keeps := fun _ => id

theorem Counted.failed_iff {group group' : Option TaskStatus}
    (h : Counted object group group' p p') :
    group' = some .failed ↔ group = some .failed ∨ (group = none ∧ group' = some .failed) := by
  constructor
  · intro hfailed
    cases hgroup : group with
    | none => exact .inr ⟨rfl, hfailed⟩
    | some status =>
      have hkept := h.keeps status hgroup
      rw [hfailed] at hkept
      cases hkept
      exact .inl rfl
  · rintro (hfailed | ⟨-, hfailed⟩)
    · exact h.keeps _ hfailed
    · exact hfailed

theorem counted_of_counts {next : ObjectCopy.Next} (h : ObjectCopy.Counts next) :
    Counted object none (TaskStage.running next.1).group? job.progress (job.tally next.2) := by
  have hmigrated := h.migrated
  have hskipped := h.skipped
  have hgroup : (TaskStage.running next.1).group? = next.1.status?.filter (· ≠ .failed) := rfl
  rw [hgroup, tally_eq]
  generalize next.1.status? = status at hmigrated hskipped ⊢
  refine ⟨rfl, ?_, ?_, ?_, ?_, ?_⟩
  · simp [hmigrated, Option.filter_eq_some_iff]
  · simp [hskipped, Option.filter_eq_some_iff]
  · intro key
    simp
  · simp
  · intro status hnone
    cases hnone

theorem counted_of_account (v : Verdict) :
    Counted object (TaskStage.released v).group? (some (.ofVerdict v)) job.progress
      (job.recordVerdict object v).1.progress := by
  unfold recordVerdict
  split
  · rename_i outcome
    have hgroup : (TaskStage.released (.ok outcome)).group? = some (.ofVerdict (.ok outcome)) := by
      cases outcome <;> rfl
    rw [hgroup]
    exact Counted.refl ..
  · rename_i e
    split
    · rename_i hskip
      have hstatus : TaskStatus.ofVerdict (.error e) = .skipped := if_pos hskip
      have hgroup : (TaskStage.released (.error e)).group? = some .skipped := by
        simp [TaskStage.group?, hstatus]
      rw [hgroup, hstatus]
      exact Counted.refl ..
    · rename_i hskip
      have hstatus : TaskStatus.ofVerdict (.error e) = .failed := if_neg hskip
      have hgroup : (TaskStage.released (.error e)).group? = none := by
        simp [TaskStage.group?, hstatus]
      have hprogress : ∀ failed : Job,
          (if e.isFatal then failed.haltWith e else (failed, [])).1.progress = failed.progress := by
        intro failed
        split
        · exact progress_haltWith ..
        · rfl
      rw [hgroup, hstatus, hprogress]
      refine ⟨rfl, by simp [Progress.fail], by simp [Progress.fail], ?_, ?_, ?_⟩
      · intro key
        simp [Progress.fail, Std.TreeMap.mem_insert, Std.LawfulEqCmp.compare_eq_iff_eq, or_comm]
      · exact Std.TreeMap.size_insert_le
      · intro status hnone
        cases hnone

theorem TaskMove.counted {course : Course} (h : TaskMove job object stage stage' course)
    (hsound : stage.Sound) :
    Counted object stage.group? stage'.group? job.progress course.progress := by
  cases h with
  | grant => exact Counted.refl ..
  | refuse => exact counted_of_counts (ObjectCopy.counts_refuse ..)
  | start => exact counted_of_counts (ObjectCopy.counts_start ..)
  | @copy c next h =>
    have hgroup : (TaskStage.running c).group? = none := by
      simp [TaskStage.group?, ObjectCopy.status?, h.verdict?_eq_none]
    rw [hgroup]
    exact counted_of_counts (h.counts hsound)
  | @panic c reason h =>
    have hgroup : (TaskStage.running c).group? = none := by
      simp [TaskStage.group?, ObjectCopy.status?, h]
    rw [hgroup]
    exact Counted.refl ..
  | @release c v h =>
    have hgroup : (TaskStage.running c).group? = (TaskStage.released v).group? := by
      simp [TaskStage.group?, ObjectCopy.status?, h]
    rw [hgroup]
    exact Counted.refl ..
  | account => split <;> exact counted_of_account _
  | place => exact Counted.refl ..
  | finish h => rcases h with rfl | rfl <;> exact Counted.refl ..

theorem key?_of_verdict? {c : ObjectCopy} {v : Verdict} (hsound : c.phase.Sound)
    (h : c.verdict? = some v) : ∀ e, v = .error e → e.key? ≠ none := by
  rintro e rfl
  rw [ObjectCopy.phase_of_verdict? h] at hsound
  exact hsound

theorem TaskMove.sound {course : Course} (h : TaskMove job object stage stage' course)
    (hsound : stage.Sound) : stage'.Sound := by
  cases h with
  | grant | panic => trivial
  | refuse => exact (ObjectCopy.counts_refuse ..).sound
  | start => exact (ObjectCopy.counts_start ..).sound
  | copy h => exact (h.counts hsound).sound
  | release h => exact key?_of_verdict? hsound h
  | account => split <;> exact hsound
  | place => exact hsound
  | finish h => rcases h with rfl | rfl <;> exact hsound

theorem exists_mem_middle {before after : List Task} {task : Task} {P : Task → Prop} :
    (∃ x ∈ before ++ task :: after, P x) ↔ P task ∨ ∃ x ∈ before ++ after, P x := by
  simp only [List.mem_append, List.mem_cons, or_and_right, exists_or, exists_eq_left]
  exact or_left_comm

theorem Accounted.still (h : job.Accounted) (htasks : next.tasks = job.tasks)
    (hprogress : next.progress = job.progress) : next.Accounted where
  objects := by rw [hprogress, htasks, h.objects]
  migrated := by rw [hprogress, h.migrated, number, number, htasks]
  skipped := by rw [hprogress, h.skipped, number, number, htasks]
  failures := by rw [hprogress, htasks]; exact h.failures
  size_failures := by
    rw [hprogress, number, htasks]
    exact h.size_failures

theorem progress_spawn (job : Job) (objects : List ObjectDescriptor) :
    (job.spawn objects).progress =
      { job.progress with
        objects := job.progress.objects + objects.length
        bytes := job.progress.bytes + (objects.map ObjectDescriptor.size).sum } := by
  suffices h : ∀ (ds : List ObjectDescriptor) (p : Progress),
      ds.foldl (fun p d => p.dispatch d.size) p =
        { p with
          objects := p.objects + ds.length
          bytes := p.bytes + (ds.map ObjectDescriptor.size).sum } from
    h objects job.progress
  intro ds
  induction ds with
  | nil => intro p; rfl
  | cons d rest ih =>
      intro p
      rw [List.foldl_cons, ih, List.length_cons, List.map_cons, List.sum_cons]
      simp only [Progress.dispatch, Progress.countObject, Progress.addBytes, Nat.add_assoc,
        Nat.add_comm 1]

theorem number_spawn (job : Job) (objects : List ObjectDescriptor) (status : TaskStatus) :
    (job.spawn objects).number status = job.number status :=
  countP_spawn (fun stage => stage.group? = some status) rfl job objects

theorem Accounted.spawn (h : job.Accounted) (objects : List ObjectDescriptor) :
    (job.spawn objects).Accounted where
  objects := by rw [progress_spawn, length_tasks_spawn, h.objects]
  migrated := by rw [progress_spawn, number_spawn, h.migrated]
  skipped := by rw [progress_spawn, number_spawn, h.skipped]
  failures := by
    intro key
    rw [progress_spawn, h.failures]
    constructor
    · rintro ⟨task, htask, hkey, hgroup⟩
      exact ⟨task, List.mem_append_left _ htask, hkey, hgroup⟩
    · rintro ⟨task, htask, hkey, hgroup⟩
      rcases List.mem_append.mp htask with hold | hnew
      · exact ⟨task, hold, hkey, hgroup⟩
      · obtain ⟨d, -, rfl⟩ := List.mem_map.mp hnew
        cases hgroup
  size_failures := by
    rw [progress_spawn, number_spawn]
    exact h.size_failures

theorem Accounted.task (h : job.Accounted) {t : Nat} (ht : job.tasks[t]? = some ⟨object, stage⟩)
    (hcounted : Counted object stage.group? stage'.group? job.progress next.progress)
    (htasks : next.tasks = (job.setStage t stage').tasks) : next.Accounted := by
  obtain ⟨before, after, hsplit, hset⟩ := exists_tasks_setStage ht
  have hnext := htasks.trans (hset stage')
  have hnumber : ∀ status, job.number status + (if stage'.group? = some status then 1 else 0) =
      next.number status + if stage.group? = some status then 1 else 0 := by
    intro status
    have hcount := countP_setStage (fun stage => stage.group? = some status) ht stage'
    simp only [decide_eq_true_eq] at hcount
    rw [number, number, htasks]
    exact hcount.symm
  constructor
  · rw [hcounted.objects, h.objects, htasks, length_tasks_setStage]
  · have := hcounted.migrated
    have := hnumber .migrated
    have := h.migrated
    omega
  · have := hcounted.skipped
    have := hnumber .skipped
    have := h.skipped
    omega
  · intro key
    rw [hcounted.failures, h.failures, hsplit, hnext]
    rw [exists_mem_middle, exists_mem_middle]
    constructor
    · rintro ((⟨hkey, hold⟩ | hother) | ⟨-, hnew, hkey⟩)
      · exact .inl ⟨hkey, hcounted.keeps _ hold⟩
      · exact .inr hother
      · exact .inl ⟨hkey, hnew⟩
    · rintro (⟨hkey, hfailed⟩ | hother)
      · rcases hcounted.failed_iff.mp hfailed with hold | ⟨hnone, hnew⟩
        · exact .inl (.inl ⟨hkey, hold⟩)
        · exact .inr ⟨hnone, hnew, hkey⟩
      · exact .inl (.inr hother)
  · have := hcounted.size_failures
    have := hnumber .failed
    have := h.size_failures
    omega

/-- Every stage that a task may be in holds errors of its object only. -/
def Sound (job : Job) : Prop :=
  ∀ task ∈ job.tasks, task.stage.Sound

theorem Move.sound (h : job.Move next) (hsound : job.Sound) : next.Sound := by
  refine h.forall_stage trivial ?_ hsound
  intro object stage stage' course hmove
  exact hmove.sound

theorem Move.accounted (h : job.Move next) (hsound : job.Sound) (hjob : job.Accounted) :
    next.Accounted := by
  cases h with
  | work hwork htasks hcourse =>
    have hprogress := congrArg Course.progress hcourse
    cases hwork with
    | still => exact hjob.still htasks hprogress
    | spawn objects => exact (hjob.spawn objects).still htasks hprogress
    | halt =>
      exact hjob.still (htasks.trans (tasks_haltWith ..)) (hprogress.trans (progress_haltWith ..))
  | task ht hmove htasks =>
    exact hjob.task ht (hmove.counted (hsound _ (List.mem_of_getElem? ht))) htasks

section

variable {setup : Setup} {results : Option ResultQueue}

theorem Reach.sound (hnew : new? setup results = .ok start) (h : Reach start job) : job.Sound := by
  apply h.invariant hnew
  · intro task htask
    cases htask
  · intro job next _ hstep hjob
    exact hstep.move.2.sound hjob

/-- The tally agrees with the tasks, whatever the replies are and in whatever order things happen. -/
theorem Reach.accounted (hnew : new? setup results = .ok start) (h : Reach start job) :
    job.Accounted := by
  apply h.invariant hnew
  · constructor
    · rfl
    · rfl
    · rfl
    · simp
    · simp
  · intro job next hreach hstep hjob
    exact hstep.move.2.accounted (hreach.sound hnew) hjob

end

/-- The keys of the tasks that are counted as failed. -/
def failedKeys (job : Job) : List String :=
  (job.tasks.filter fun task => task.stage.group? = some .failed).map fun task => task.object.key

theorem length_failedKeys (job : Job) : job.failedKeys.length = job.number .failed := by
  rw [failedKeys, List.length_map, number, List.countP_eq_length_filter]

theorem Accounted.size_failures_eq_dedup (h : job.Accounted) :
    job.progress.failures.size = job.failedKeys.dedup.length := by
  have hperm : job.progress.failures.keys.Perm job.failedKeys.dedup := by
    rw [List.perm_ext_iff_of_nodup Std.TreeMap.nodup_keys (List.nodup_dedup _)]
    intro key
    rw [Std.TreeMap.mem_keys, h.failures, List.mem_dedup, failedKeys]
    simp only [List.mem_map, List.mem_filter, decide_eq_true_eq]
    constructor
    · rintro ⟨task, htask, hkey, hgroup⟩
      exact ⟨task, ⟨htask, hgroup⟩, hkey⟩
    · rintro ⟨task, ⟨htask, hgroup⟩, hkey⟩
      exact ⟨task, htask, hkey, hgroup⟩
  rw [← Std.TreeMap.length_keys, hperm.length_eq]

theorem Accounted.size_failures_eq (h : job.Accounted)
    (hkeys : (job.tasks.map fun task => task.object.key).Nodup) :
    job.progress.failures.size = job.number .failed := by
  have hfailed : job.failedKeys.Nodup := hkeys.sublist (List.filter_sublist.map _)
  rw [h.size_failures_eq_dedup, hfailed.dedup, length_failedKeys]

/-- The number of tasks that are not counted in any group. -/
def uncounted (job : Job) : Nat :=
  job.tasks.countP fun task => task.stage.group? = none

theorem number_add_eq (job : Job) :
    job.number .migrated + job.number .skipped + job.number .failed + job.uncounted =
      job.tasks.length := by
  unfold number uncounted
  induction job.tasks with
  | nil => rfl
  | cons task rest ih =>
    simp only [List.countP_cons, List.length_cons, decide_eq_true_eq]
    rcases task.stage.group? with _ | _ | _ | _ <;> simp <;> omega

theorem number_add_le (job : Job) :
    job.number .migrated + job.number .skipped + job.number .failed ≤ job.tasks.length :=
  Nat.le.intro job.number_add_eq

theorem Accounted.sum_le (h : job.Accounted) :
    job.progress.migrated + job.progress.skipped + job.progress.failures.size ≤
      job.progress.objects := by
  rw [h.migrated, h.skipped, h.objects]
  have := h.size_failures
  have := job.number_add_le
  omega

structure SnapshotAccounted (job : Job) : Prop where
  totalObjects : job.snapshot.totalObjects = job.tasks.length
  migratedObjects : job.snapshot.migratedObjects = job.number .migrated
  skippedObjects : job.snapshot.skippedObjects = job.number .skipped
  failedObjects : job.snapshot.failedObjects = job.progress.failures.size

theorem Accounted.snapshot (h : job.Accounted) (hfew : job.tasks.length < 2 ^ 64) :
    job.SnapshotAccounted := by
  have hsum := h.sum_le
  rw [h.objects] at hsum
  have hword : ∀ n ≤ job.tasks.length, n % Nat.pow 2 64 = n := by
    intro n hn
    exact Nat.mod_eq_of_lt (Nat.lt_of_le_of_lt hn hfew)
  constructor
  · exact (hword _ (by rw [h.objects])).trans h.objects
  · exact (hword _ (by omega)).trans h.migrated
  · exact (hword _ (by omega)).trans h.skipped
  · exact hword _ (by omega)

end Job

end BucketMigration
