import BucketMigration.Proofs.Job.Batches

/-!
# What stays pending

A reading of the tally calls pending what is left of all objects without those that it has as migrated,
skipped or failed. As long as a task is not counted its object is pending. But failures are kept by
key, one for each: an object that failed is pending for good when another one with its key fails too.
So a job whose tasks have all finished has nothing pending exactly when no key has failed twice.
-/

namespace BucketMigration

instance decidableFinished : (stage : TaskStage) → Decidable (∃ v, stage = .finished v)
  | .finished v => .isTrue ⟨v, rfl⟩
  | .queued | .granted | .running _ | .released _ | .publishing _ | .placed _ | .panicked _ =>
    .isFalse fun ⟨_, h⟩ => nomatch h

namespace Job

variable {job start : Job}

/-- The failures that another one under the same key has taken the place of. -/
def replacedFailures (job : Job) : Nat :=
  job.failedKeys.length - job.failedKeys.dedup.length

def AllFinished (job : Job) : Prop :=
  ∀ task ∈ job.tasks, ∃ v, task.stage = .finished v

instance : Decidable job.AllFinished :=
  inferInstanceAs (Decidable (∀ task ∈ job.tasks, _))

/-- Every object that was dispatched is in one group of the tally. -/
def AllGrouped (s : Snapshot) : Prop :=
  s.migratedObjects + s.skippedObjects + s.failedObjects = s.totalObjects
deriving Decidable

theorem replacedFailures_eq_zero_iff : job.replacedFailures = 0 ↔ job.failedKeys.Nodup := by
  have hsublist := List.dedup_sublist job.failedKeys
  rw [replacedFailures, Nat.sub_eq_zero_iff_le, ← List.dedup_eq_self]
  constructor
  · exact fun hle => hsublist.eq_of_length_le hle
  · intro heq
    rw [heq]

theorem AllFinished.uncounted_eq_zero (h : job.AllFinished) : job.uncounted = 0 := by
  rw [uncounted, List.countP_eq_zero]
  intro task htask
  obtain ⟨v, hv⟩ := h task htask
  simp [hv, TaskStage.group?]

/-- Every object is in a group, not counted yet, or replaced by a failure under the same key. -/
theorem Accounted.objects_eq (h : job.Accounted) :
    job.progress.migrated + job.progress.skipped + job.progress.failures.size +
      (job.uncounted + job.replacedFailures) = job.progress.objects := by
  have hnumber := job.number_add_eq
  have hfailed := job.length_failedKeys
  have hle := (List.dedup_sublist job.failedKeys).length_le
  rw [h.migrated, h.skipped, h.objects, h.size_failures_eq_dedup, replacedFailures]
  omega

theorem Accounted.pendingObjects_eq (h : job.Accounted) (hfew : job.tasks.length < 2 ^ 64) :
    job.snapshot.pendingObjects = job.uncounted + job.replacedFailures := by
  have hsnapshot := h.snapshot hfew
  have hobjects := h.objects_eq
  rw [Snapshot.pendingObjects, hsnapshot.totalObjects, hsnapshot.migratedObjects,
    hsnapshot.skippedObjects, hsnapshot.failedObjects, ← h.objects, ← h.migrated, ← h.skipped]
  omega

theorem Accounted.allGrouped_iff (h : job.Accounted) (hfew : job.tasks.length < 2 ^ 64) :
    AllGrouped job.snapshot ↔ job.snapshot.pendingObjects = 0 := by
  have hsnapshot := h.snapshot hfew
  have hsum := h.sum_le
  rw [AllGrouped, Snapshot.pendingObjects, hsnapshot.totalObjects, hsnapshot.migratedObjects,
    hsnapshot.skippedObjects, hsnapshot.failedObjects, ← h.objects, ← h.migrated, ← h.skipped]
  omega

/-- The objects that are pending are those not counted yet and the failures that were replaced. When
all tasks have finished, nothing is pending if and only if no key has failed twice. -/
theorem pending_when_finished {setup : Setup} {results : Option ResultQueue}
    (hnew : new? setup results = .ok start) (hreach : Reach start job)
    (hfew : job.tasks.length < 2 ^ 64) :
    job.snapshot.pendingObjects = job.uncounted + job.replacedFailures ∧
      (AllGrouped job.snapshot ↔ job.snapshot.pendingObjects = 0) ∧
      (job.AllFinished → job.uncounted = 0 ∧
        (job.snapshot.pendingObjects = 0 ↔ job.failedKeys.Nodup)) := by
  have haccounted := hreach.accounted hnew
  have hpending := haccounted.pendingObjects_eq hfew
  refine ⟨hpending, haccounted.allGrouped_iff hfew, fun hfinished => ?_⟩
  have hcounted := hfinished.uncounted_eq_zero
  refine ⟨hcounted, ?_⟩
  rw [hpending, hcounted, Nat.zero_add, replacedFailures_eq_zero_iff]

def idleJob : Job :=
  { setup :=
      { source := { bucket := "from" }
        target := { bucket := "to" } }
    freeSlots := 10 }

/-- A task finds that there is no such object at the source, and fails. -/
def failsToFind (t : Nat) : List JobAction :=
  [.grant t, .start t, .reply t .whole (.ok (.metadata none)), .release t, .account t]

def bothFail : List JobAction :=
  failsToFind 0 ++ failsToFind 1

theorem pending_when_finished_two_keys :
    ∃ job, Reach idleJob job ∧ job.tasks.length < 2 ^ 64 ∧ job.AllFinished ∧
      job.snapshot.failedObjects = 2 ∧ job.snapshot.pendingObjects = 0 := by
  have hrun : (idleJob.after? (.batch ["a|1", "b|1"] :: bothFail)).any
      (fun job => job.tasks.length < 2 ^ 64 ∧ job.AllFinished ∧ job.snapshot.failedObjects = 2 ∧
        job.failedKeys.Nodup) = true := by
    decide +kernel
  simp only [Option.any_eq_true, decide_eq_true_eq] at hrun
  obtain ⟨job, hafter, hfew, hfinished, hfailed, hkeys⟩ := hrun
  have hreach := reach_of_after? hafter
  have hnew : new? idleJob.setup none = .ok idleJob := rfl
  have hpending := (pending_when_finished hnew hreach hfew).2.2 hfinished
  exact ⟨job, hreach, hfew, hfinished, hfailed, hpending.2.mpr hkeys⟩

/-- A batch that names one key twice returns. Both of its objects have failed, and one of them is
still pending. -/
theorem key_that_fails_twice_stays_pending :
    ∃ job, Reach idleJob job ∧ idleJob.BatchReturns ["a|1", "a|1"] (.ok ⟨2, 0, 0, 2⟩) job ∧
      job.AllFinished ∧ job.snapshot.pendingObjects = 1 ∧ ¬AllGrouped job.snapshot := by
  have hbegin : idleJob.act (.batch ["a|1", "a|1"]) =
      some (idleJob.beginBatch ["a|1", "a|1"]) := rfl
  have hrun : ((idleJob.beginBatch ["a|1", "a|1"]).job.after?
      (bothFail ++ [.joinBatch 0 0])).any (fun later =>
        (later.act (.joinBatch 0 1)).any fun u => u.job.AllFinished ∧
          u.job.snapshot.pendingObjects = 1 ∧ ¬AllGrouped u.job.snapshot) = true := by
    decide +kernel
  have hreturns : ((idleJob.beginBatch ["a|1", "a|1"]).job.after?
      (bothFail ++ [.joinBatch 0 0])).bind (fun later =>
        (later.act (.joinBatch 0 1)).map Transition.returned) =
      some (some (.batch (.ok ⟨2, 0, 0, 2⟩))) := rfl
  simp only [Option.any_eq_true, decide_eq_true_eq] at hrun
  obtain ⟨later, hafter, u, hjoin, hfinished, hpending, hgroups⟩ := hrun
  rw [hafter, Option.bind_some, hjoin, Option.map_some, Option.some.injEq] at hreturns
  have hlater := reach_of_after? hafter
  have hreach := (hlater.head ⟨_, _, hbegin, rfl⟩).step ⟨_, _, hjoin, rfl⟩
  have hbatch := BatchReturns.joined hbegin rfl hlater hjoin hreturns
  exact ⟨u.job, hreach, hbatch, hfinished, hpending, hgroups⟩

end Job

end BucketMigration
