import BucketMigration.Proofs.Job.Accounting

/-!
# Batches are accounted

A call for a batch that returns a summary has joined every task of the batch, and all of them have
finished. Each object of the batch is counted once in the summary, in the group that its task is
counted in.
-/

namespace BucketMigration

theorem Batch.length_entriesFrom {number : Nat} {lines : List String} {ds : List ObjectDescriptor}
    (h : entriesFrom number lines = .ok ds) :
    ds.length = (lines.filter fun line => !Text.isBlankText line.toList).length := by
  induction lines generalizing number ds with
  | nil =>
    cases h
    rfl
  | cons line rest ih =>
    unfold entriesFrom at h
    cases hblank : Text.isBlankText line.toList with
    | true =>
      rw [if_pos hblank] at h
      rw [List.filter_cons_of_neg (by simp [hblank])]
      exact ih h
    | false =>
      rw [hblank, if_neg Bool.false_ne_true] at h
      rw [List.filter_cons_of_pos (by simp [hblank]), List.length_cons]
      split at h
      · cases h
      · split at h
        · cases h
        · rename_i hrest
          cases h
          rw [List.length_cons, ih hrest]

def BatchSummary.number (s : BatchSummary) : TaskStatus → Nat
  | .migrated => s.migrated
  | .skipped => s.skipped
  | .failed => s.failed

theorem BatchSummary.number_count (s : BatchSummary) (status group : TaskStatus) :
    (s.count status).number group = s.number group + if status = group then 1 else 0 := by
  cases status <;> cases group <;> rfl

namespace Job

/-- A call for a batch, begun in `job`, returns. It does so at once, or when the last task of the
batch is joined. -/
inductive BatchReturns (job : Job) (lines : List String) (outcome : Except MigrationError BatchSummary) :
    Job → Prop
  | atOnce {t : Transition} (hact : job.act (.batch lines) = some t)
      (hreturned : t.returned = some (.batch outcome)) : BatchReturns job lines outcome t.job
  | joined {t u : Transition} {later : Job} {task : Nat} (hact : job.act (.batch lines) = some t)
      (hwaits : t.returned = none) (hreach : Reach t.job later)
      (hjoin : later.act (.joinBatch job.batches.length task) = some u)
      (hreturned : u.returned = some (.batch outcome)) : BatchReturns job lines outcome u.job

/-- The tasks among `own` that are counted in a group. -/
def numberAmong (job : Job) (own : List Nat) (status : TaskStatus) : Nat :=
  own.countP fun t => (job.stage? t).bind TaskStage.group? = some status

def HasFinished (job : Job) (t : Nat) : Prop :=
  ∃ v, job.stage? t = some (.finished v)

/-- What a summary says of a call for a batch that was begun in `job` and has returned in `final`. The
tasks of the batch are those that were spawned for it. -/
structure BatchAccounted (job final : Job) (lines : List String) (s : BatchSummary) : Prop where
  dispatched : s.dispatched = (lines.filter fun line => !Text.isBlankText line.toList).length
  total : s.dispatched = s.migrated + s.skipped + s.failed
  entries : ∃ objects, Batch.entries lines = .ok objects ∧ objects.length = s.dispatched ∧
    ∀ (k : Nat) (object : ObjectDescriptor), objects[k]? = some object →
      (final.tasks[job.tasks.length + k]?).map Task.object = some object
  finished : ∀ t ∈ job.nextTasks s.dispatched, final.HasFinished t
  number : ∀ status, s.number status = final.numberAmong (job.nextTasks s.dispatched) status

/-- A batch under way has counted the tasks that were joined. Once the job is halted its summary does
not matter any more. -/
structure Tallied (job : Job) (own joined : List Nat) (batch : BatchRun) : Prop where
  perm : own.Perm (joined ++ batch.tasks)
  dispatched : batch.summary.dispatched = own.length
  finished : job.halt = none → ∀ t ∈ joined, job.HasFinished t
  number : job.halt = none → ∀ status, batch.summary.number status = job.numberAmong joined status

variable {job next start : Job}

theorem Step.hasFinished (h : job.Step next) {t : Nat} (ht : job.HasFinished t) :
    next.HasFinished t := by
  obtain ⟨v, hv⟩ := ht
  exact ⟨v, h.stage?_of_isOver hv rfl⟩

theorem Step.numberAmong_eq (h : job.Step next) {own : List Nat}
    (hown : ∀ t ∈ own, job.HasFinished t) (status : TaskStatus) :
    next.numberAmong own status = job.numberAmong own status := by
  apply List.countP_congr
  intro t ht
  obtain ⟨v, hv⟩ := hown t ht
  rw [hv, h.stage?_of_isOver hv rfl]

theorem Tallied.step {own joined : List Nat} {batch : BatchRun} (h : job.Tallied own joined batch)
    (hstep : job.Step next) : next.Tallied own joined batch where
  perm := h.perm
  dispatched := h.dispatched
  finished := by
    intro hnone t ht
    exact hstep.hasFinished (h.finished (hstep.halt_eq_none hnone) t ht)
  number := by
    intro hnone status
    have hold := hstep.halt_eq_none hnone
    rw [hstep.numberAmong_eq (h.finished hold) status]
    exact h.number hold status

theorem Tallied.reach {own joined : List Nat} {batch : BatchRun} (h : job.Tallied own joined batch)
    (hreach : Reach job next) : next.Tallied own joined batch := by
  induction hreach with
  | refl => exact h
  | step _ hstep ih => exact ih.step hstep

theorem drainBatch_cases (job : Job) (i : Nat) (batch : BatchRun) :
    (batch.tasks = [] ∧ (job.drainBatch i batch).job = job.setBatch i { batch with isOver := true } ∧
      (job.drainBatch i batch).returned =
        some (.batch (job.checkHalted.map fun _ => batch.summary))) ∨
    (batch.tasks ≠ [] ∧ (job.drainBatch i batch).job = job.setBatch i batch ∧
      (job.drainBatch i batch).returned = none) := by
  unfold drainBatch
  split
  · rename_i hempty
    exact .inl ⟨List.isEmpty_iff.mp hempty, rfl, rfl⟩
  · rename_i htasks
    exact .inr ⟨fun hempty => htasks (List.isEmpty_iff.mpr hempty), rfl, rfl⟩

theorem Tallied.join {own joined : List Nat} {batch : BatchRun} (h : job.Tallied own joined batch)
    {task : Nat} (hmem : task ∈ batch.tasks) {status : TaskStatus} {after : Job}
    {logs : List LogLine}
    (hjoin : (job.stage? task).bind (job.joinTask task) = some (status, after, logs)) :
    after.Tallied own (task :: joined)
      { batch with tasks := batch.tasks.erase task, summary := batch.summary.count status } := by
  have hperm : own.Perm (task :: joined ++ batch.tasks.erase task) := by
    apply h.perm.trans
    apply ((List.perm_cons_erase hmem).append_left joined).trans
    exact List.perm_middle
  have hdispatched : (batch.summary.count status).dispatched = own.length := by
    rw [← h.dispatched]
    cases status <;> rfl
  rcases joinTask_cases hjoin with ⟨v, hstage, rfl, rfl⟩ | ⟨reason, -, -, rfl⟩
  · refine ⟨hperm, hdispatched, ?_, ?_⟩
    · intro hnone t ht
      rcases List.mem_cons.mp ht with rfl | hold
      · exact ⟨v, hstage⟩
      · exact h.finished hnone t hold
    · intro hnone group
      rw [BatchSummary.number_count, numberAmong, List.countP_cons, h.number hnone, hstage]
      simp [TaskStage.group?, numberAmong]
  · have hhalted := job.halt_haltWith_ne_none (.taskFailed (panicMessage task reason))
    exact ⟨hperm, hdispatched, fun hnone => absurd hnone hhalted, fun hnone => absurd hnone hhalted⟩

theorem act_batches {action : JobAction} {t : Transition} (h : job.act action = some t) {i : Nat}
    (hi : i < job.batches.length) (hother : ∀ task, action ≠ .joinBatch i task) :
    t.job.batches[i]? = job.batches[i]? := by
  cases act_deed h with
  | task _ _ _ _ hframe => rw [hframe.batches]
  | feed _ _ hmove hnext =>
    rw [hnext]
    exact congrArg (·[i]?) hmove.work.drivers.2
  | other _ _ _ _ _ _ _ _ _ hbatches => exact hbatches i hi hother

section

variable {own joined : List Nat} {batch : BatchRun} {i : Nat}

theorem drainBatch_returned {s : BatchSummary}
    (h : (job.drainBatch i batch).returned = some (.batch (.ok s))) :
    batch.tasks = [] ∧ job.halt = none ∧ s = batch.summary ∧
      (job.drainBatch i batch).job = job.setBatch i { batch with isOver := true } := by
  rcases job.drainBatch_cases i batch with ⟨hempty, hjob, hreturned⟩ | ⟨-, -, hreturned⟩
  · rw [hreturned, checkHalted] at h
    cases hhalt : job.halt with
    | none =>
      rw [hhalt] at h
      cases h
      exact ⟨hempty, rfl, rfl, hjob⟩
    | some e =>
      rw [hhalt] at h
      cases h
  · rw [hreturned] at h
    cases h

theorem Tallied.drainBatch (h : job.Tallied own joined batch) (hi : i < job.batches.length) :
    ∃ batch', (job.drainBatch i batch).job.batches[i]? = some batch' ∧
      (job.drainBatch i batch).job.Tallied own joined batch' := by
  rcases job.drainBatch_cases i batch with ⟨-, hjob, -⟩ | ⟨-, hjob, -⟩
  · rw [hjob]
    exact ⟨_, List.getElem?_set_self hi, h.perm, h.dispatched, h.finished, h.number⟩
  · rw [hjob]
    exact ⟨_, List.getElem?_set_self hi, h.perm, h.dispatched, h.finished, h.number⟩

theorem exists_join_of_act {task : Nat} {u : Transition}
    (hact : job.act (.joinBatch i task) = some u) (hi : job.batches[i]? = some batch)
    (h : job.Tallied own joined batch) :
    ∃ (after : Job) (batch' : BatchRun) (logs : List LogLine),
      i < after.batches.length ∧ after.Tallied own (task :: joined) batch' ∧
      u = (after.drainBatch i batch').after logs := by
  simp only [act, hi, Option.bind_some] at hact
  obtain ⟨hmem, status, after, logs, hjoin, rfl⟩ := joinInBatch_eq hact
  refine ⟨after, _, logs, ?_, h.join hmem hjoin, rfl⟩
  rw [(work_of_joinTask hjoin).drivers.2]
  exact (List.getElem?_eq_some_iff.mp hi).1

theorem Reach.tallied (h : Reach start job) (hi : start.batches[i]? = some batch)
    (hstart : start.Tallied own joined batch) :
    ∃ joined' batch', job.batches[i]? = some batch' ∧ job.Tallied own joined' batch' := by
  induction h with
  | refl => exact ⟨joined, batch, hi, hstart⟩
  | @step job next _ hstep ih =>
    obtain ⟨joined', batch', hbatch, htallied⟩ := ih
    have hstep' := hstep
    obtain ⟨action, t, hact, rfl⟩ := hstep
    by_cases hown : ∃ task, action = .joinBatch i task
    · obtain ⟨task, rfl⟩ := hown
      obtain ⟨after, drained, logs, hlt, hafter, rfl⟩ := exists_join_of_act hact hbatch htallied
      exact ⟨_, hafter.drainBatch hlt⟩
    · refine ⟨joined', batch', ?_, htallied.step hstep'⟩
      rw [act_batches hact (List.getElem?_eq_some_iff.mp hbatch).1 (not_exists.mp hown), hbatch]

theorem numberAmong_add (hown : ∀ t ∈ own, job.HasFinished t) :
    job.numberAmong own .migrated + job.numberAmong own .skipped + job.numberAmong own .failed =
      own.length := by
  induction own with
  | nil => rfl
  | cons t rest ih =>
    have hrest := ih fun u hu => hown u (List.mem_cons_of_mem t hu)
    obtain ⟨v, hv⟩ := hown t List.mem_cons_self
    unfold numberAmong at hrest ⊢
    simp only [List.countP_cons, List.length_cons, hv, Option.bind_some, TaskStage.group?,
      Option.some.injEq, decide_eq_true_eq]
    cases TaskStatus.ofVerdict v <;> simp <;> omega

end

/-- All tasks of a batch have been joined while the job was not halted. -/
structure Settled (job : Job) (own : List Nat) (s : BatchSummary) : Prop where
  dispatched : s.dispatched = own.length
  finished : ∀ t ∈ own, job.HasFinished t
  number : ∀ status, s.number status = job.numberAmong own status

theorem Tallied.settled {own joined : List Nat} {batch : BatchRun} {i : Nat} {s : BatchSummary}
    (h : job.Tallied own joined batch)
    (hreturned : (job.drainBatch i batch).returned = some (.batch (.ok s))) :
    (job.drainBatch i batch).job.Settled own s := by
  obtain ⟨hempty, hnone, rfl, hjob⟩ := drainBatch_returned hreturned
  have hperm := h.perm
  rw [hempty, List.append_nil] at hperm
  rw [hjob]
  refine ⟨h.dispatched, fun t ht => h.finished hnone t (hperm.mem_iff.mp ht), fun status => ?_⟩
  exact (h.number hnone status).trans (hperm.countP_eq _).symm

theorem tallied_withBatch (job : Job) (objects : List ObjectDescriptor) :
    (job.withBatch objects).Tallied (job.nextTasks objects.length) []
      (job.newBatch objects.length) := by
  refine ⟨List.Perm.refl _, List.length_range'.symm, ?_, ?_⟩
  · intro _ t ht
    cases ht
  · intro _ status
    cases status <;> rfl

theorem exists_begun_batch {lines : List String} {t : Transition}
    (hact : job.act (.batch lines) = some t) (hfine : ∀ e, t.returned ≠ some (.batch (.error e))) :
    ∃ objects, Batch.entries lines = .ok objects ∧
      (job.withBatch objects).Tallied (job.nextTasks objects.length) []
        (job.newBatch objects.length) ∧
      t = (job.withBatch objects).drainBatch job.batches.length (job.newBatch objects.length) := by
  have hbegin : job.beginBatch lines = t := Option.some.inj hact
  rcases job.beginBatch_cases lines with ⟨e, heq⟩ | ⟨objects, hentries, -, heq⟩
  · rw [← hbegin, heq] at hfine
    exact absurd rfl (hfine e)
  · exact ⟨objects, hentries, job.tallied_withBatch objects, hbegin.symm.trans heq⟩

theorem BatchReturns.exists_settled {lines : List String} {s : BatchSummary} {final : Job}
    (h : job.BatchReturns lines (.ok s) final) :
    ∃ (objects : List ObjectDescriptor) (begun : Job), Batch.entries lines = .ok objects ∧
      begun.tasks = (job.spawn objects).tasks ∧ Reach begun final ∧
      final.Settled (job.nextTasks objects.length) s := by
  cases h with
  | @atOnce t hact hreturned =>
    obtain ⟨objects, hentries, htallied, rfl⟩ := exists_begun_batch hact (by simp [hreturned])
    obtain ⟨batch', hjob⟩ := exists_drainBatch_eq (job.withBatch objects) job.batches.length
      (job.newBatch objects.length)
    refine ⟨objects, _, hentries, ?_, .refl, htallied.settled hreturned⟩
    rw [hjob]
    rfl
  | @joined t u later task hact hwaits hreach hjoin hreturned =>
    obtain ⟨objects, hentries, htallied, rfl⟩ := exists_begun_batch hact (by simp [hwaits])
    obtain ⟨batch', hjob⟩ := exists_drainBatch_eq (job.withBatch objects) job.batches.length
      (job.newBatch objects.length)
    have hlt : job.batches.length < (job.withBatch objects).batches.length := by
      rw [withBatch, List.length_append]
      exact Nat.lt_succ_self _
    obtain ⟨waiting, hwaiting, htallied'⟩ := htallied.drainBatch hlt
    obtain ⟨joined, current, hcurrent, htallied''⟩ := hreach.tallied hwaiting htallied'
    obtain ⟨after, drained, logs, -, hafter, rfl⟩ := exists_join_of_act hjoin hcurrent htallied''
    refine ⟨objects, _, hentries, ?_, hreach.step ⟨_, _, hjoin, rfl⟩, hafter.settled hreturned⟩
    rw [hjob]
    rfl

theorem Settled.sum {own : List Nat} {s : BatchSummary} (h : job.Settled own s) :
    s.dispatched = s.migrated + s.skipped + s.failed := by
  have hsum := numberAmong_add h.finished
  rw [← h.number, ← h.number, ← h.number, ← h.dispatched] at hsum
  exact hsum.symm

theorem BatchReturns.accounted {lines : List String} {s : BatchSummary} {final : Job}
    (h : job.BatchReturns lines (.ok s) final) : job.BatchAccounted final lines s := by
  obtain ⟨objects, begun, hentries, htasks, hreach, hsettled⟩ := h.exists_settled
  have hdispatched : s.dispatched = objects.length :=
    hsettled.dispatched.trans List.length_range'
  refine ⟨?_, hsettled.sum, ⟨objects, hentries, hdispatched.symm, ?_⟩, ?_, ?_⟩
  · rw [hdispatched]
    exact Batch.length_entriesFrom hentries
  · intro k object hk
    apply hreach.object_eq
    rw [htasks, Job.spawn, List.getElem?_append_right (Nat.le_add_right ..), Nat.add_sub_cancel_left,
      List.getElem?_map, hk]
    rfl
  · rw [hdispatched]
    exact hsettled.finished
  · rw [hdispatched]
    exact hsettled.number

/-- Objects are accounted. At every moment of a job the tally agrees with the tasks, each task that
has finished is in one group, and one that has panicked or not yet ended is in none. A batch that
returns a summary has counted its own entries. -/
theorem object_accounting {setup : Setup} {results : Option ResultQueue}
    (hnew : new? setup results = .ok start) (hreach : Reach start job) :
    job.Accounted ∧
      job.progress.migrated + job.progress.skipped + job.progress.failures.size ≤
        job.progress.objects ∧
      (job.tasks.length < 2 ^ 64 → job.SnapshotAccounted) ∧
      (∀ task ∈ job.tasks, ∀ v, task.stage = .finished v →
        task.stage.group? = some (.ofVerdict v)) ∧
      (∀ task ∈ job.tasks, ∀ status, task.stage.group? = some status →
        ∃ v, task.stage.outcome? = some v ∧ .ofVerdict v = status) ∧
      ∀ lines s final, job.BatchReturns lines (.ok s) final → job.BatchAccounted final lines s := by
  have haccounted := hreach.accounted hnew
  have hsum := haccounted.sum_le
  refine ⟨haccounted, hsum, haccounted.snapshot, ?_, ?_, fun lines s final => BatchReturns.accounted⟩
  · intro task _ v hstage
    rw [hstage]
    rfl
  · intro task _ status hgroup
    exact TaskStage.exists_outcome_of_group? hgroup

def skippingJob : Job :=
  { setup :=
      { source := { bucket := "from" }
        target := { bucket := "to" }
        options := { skipSize := 5 } }
    freeSlots := 10 }

/-- The one task of a batch panics and is not joined. -/
def lostEntry : List JobAction :=
  [.batch ["lost|1"], .grant 0, .start 0, .panic 0 "reason"]

def mixedEntries : List String := ["big|9", "", "new|1", "gone|1"]

/-- One entry of a batch is skipped, the next one migrated, and the last one fails. -/
def mixedEnds : List JobAction :=
  [.grant 1, .start 1, .release 1, .account 1, .joinBatch 1 1,
    .grant 2, .start 2, .reply 2 .whole (.ok (.metadata (some ⟨1, none, none, none⟩))),
    .reply 2 .whole (.ok (.metadata none)), .reply 2 .whole (.ok (.content ⟨#[7]⟩)),
    .reply 2 .whole (.ok .done), .release 2, .account 2, .joinBatch 1 2,
    .grant 3, .start 3, .reply 3 .whole (.ok (.metadata none)), .release 3, .account 3]

theorem object_accounting_mixed_entries :
    ∃ job final, Reach skippingJob job ∧ Reach skippingJob final ∧ final.Accounted ∧
      final.tasks.length = 4 ∧ final.number .migrated = 1 ∧ final.number .skipped = 1 ∧
      final.number .failed = 1 ∧ job.BatchReturns mixedEntries (.ok ⟨3, 1, 1, 1⟩) final ∧
      job.BatchAccounted final mixedEntries ⟨3, 1, 1, 1⟩ := by
  have hnew : new? skippingJob.setup none = .ok skippingJob := rfl
  obtain ⟨job, t, later, u, hlost, hbatch, hwaits, hends, hjoin, hreturned, hnumbers⟩ :
      ∃ job t later u, skippingJob.after? lostEntry = some job ∧
        job.act (.batch mixedEntries) = some t ∧ t.returned = none ∧
        t.job.after? mixedEnds = some later ∧ later.act (.joinBatch job.batches.length 3) = some u ∧
        u.returned = some (.batch (.ok ⟨3, 1, 1, 1⟩)) ∧ u.job.tasks.length = 4 ∧
        u.job.number .migrated = 1 ∧ u.job.number .skipped = 1 ∧ u.job.number .failed = 1 :=
    ⟨_, _, _, _, rfl, rfl, rfl, rfl, rfl, rfl, rfl, rfl, rfl, rfl⟩
  have hreach := reach_of_after? hlost
  have hlater := reach_of_after? hends
  have hreturns : job.BatchReturns mixedEntries (.ok ⟨3, 1, 1, 1⟩) u.job :=
    .joined hbatch hwaits hlater hjoin hreturned
  have hfinal := hreach.trans ((hlater.head ⟨_, _, hbatch, rfl⟩).step ⟨_, _, hjoin, rfl⟩)
  obtain ⟨htasks, hmigrated, hskipped, hfailed⟩ := hnumbers
  exact ⟨job, u.job, hreach, hfinal, (object_accounting hnew hfinal).1, htasks, hmigrated, hskipped,
    hfailed, hreturns, (object_accounting hnew hreach).2.2.2.2.2 _ _ _ hreturns⟩

end Job

end BucketMigration
