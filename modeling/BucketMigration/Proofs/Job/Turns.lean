import BucketMigration.Proofs.Copy.Advance
import BucketMigration.Proofs.Job.Accounting

/-!
# Tasks go on until they are over

A task that is not over goes on by itself, unless it waits for a slot; and while no slot is free, the
tasks that hold the slots go on. Every move of a task leaves less to do.
-/

namespace BucketMigration

namespace TaskStage

/-- A copy under way is orderly, and results are only delivered when there is a queue for them. -/
def Orderly (queue : Bool) : TaskStage → Prop
  | running c => c.phase.Orderly
  | publishing _ | placed _ => queue = true
  | _ => True

def toDo (setup : Setup) : TaskStage → Nat
  | queued => ObjectCopy.toDoAtMost setup + 7
  | granted => ObjectCopy.toDoAtMost setup + 6
  | running c => c.toDo setup + 5
  | released _ => 4
  | publishing _ => 3
  | placed _ => 2
  | finished _ | panicked _ => 0

/-- What is left of a task, when a call takes `full` steps and `left` of them are left to a lane. -/
def remaining (full : Nat) (left : Lane → Nat) (setup : Setup) : TaskStage → Nat
  | queued => ObjectCopy.remainingAtMost full setup + 7
  | granted => ObjectCopy.remainingAtMost full setup + 6
  | running c => c.remaining full left setup + 5
  | released _ => 4
  | publishing _ => 3
  | placed _ => 2
  | finished _ | panicked _ => 0

theorem toDo_eq (setup : Setup) (stage : TaskStage) :
    stage.toDo setup = stage.remaining 1 (fun _ => 1) setup := by
  cases stage <;> rfl

end TaskStage

namespace Job

def toDo (job : Job) : Nat :=
  (job.tasks.map fun task => task.stage.toDo job.setup).sum

def holders (job : Job) : Nat :=
  job.tasks.countP fun task => task.stage.holdsSlot

variable {job next start : Job} {object : ObjectDescriptor} {stage stage' : TaskStage}
  {course : Course} {setup : Setup} {results : Option ResultQueue}

theorem TaskMove.orderly (h : TaskMove job object stage stage' course)
    (hstage : stage.Orderly job.results.isSome) : stage'.Orderly job.results.isSome := by
  cases h with
  | grant | refuse | panic | release => trivial
  | start => exact ObjectCopy.orderly_start ..
  | copy h => exact h.orderly hstage
  | account =>
    split
    · rename_i hsome
      exact hsome
    · trivial
  | place => exact hstage
  | finish => trivial

theorem TaskMove.remaining_lt {full : Nat} {left : Lane → Nat}
    (h : TaskMove job object stage stage' course) (hstage : stage.Orderly job.results.isSome)
    (hpos : ∀ l, 0 < left l) (hfull : ∀ l, left l ≤ full) :
    stage'.remaining full left job.setup < stage.remaining full left job.setup := by
  cases h with
  | grant => exact Nat.lt_succ_self _
  | @refuse cause hhalt =>
    have hnone : (ObjectCopy.refuse object cause).1.remaining full left job.setup = 0 := rfl
    simp only [TaskStage.remaining, hnone]
    omega
  | start =>
    have hle := ObjectCopy.remaining_start_le (hfull .whole) job.setup object
    simp only [TaskStage.remaining]
    omega
  | copy h => exact Nat.add_lt_add_right (h.remaining_lt hstage hpos hfull) 5
  | panic | release =>
    simp only [TaskStage.remaining]
    omega
  | account => split <;> simp [TaskStage.remaining]
  | place => simp [TaskStage.remaining]
  | finish h => rcases h with rfl | rfl <;> simp [TaskStage.remaining]

theorem TaskMove.toDo_lt (h : TaskMove job object stage stage' course)
    (hstage : stage.Orderly job.results.isSome) : stage'.toDo job.setup < stage.toDo job.setup := by
  rw [TaskStage.toDo_eq, TaskStage.toDo_eq]
  exact h.remaining_lt hstage (fun _ => Nat.one_pos) fun _ => Nat.le_refl _

theorem holdsSlot_eq_false_of_verdict (v : Verdict) (queue : Bool) :
    (if queue then TaskStage.publishing v else .finished v).holdsSlot = false := by
  cases queue <;> rfl

theorem TaskMove.slots (h : TaskMove job object stage stage' course) :
    course.slots + (if stage'.holdsSlot then 1 else 0) =
      job.freeSlots + if stage.holdsSlot then 1 else 0 := by
  cases h with
  | grant hfree =>
    simp only [TaskStage.holdsSlot, if_true, Bool.false_eq_true, if_false]
    omega
  | account =>
    obtain ⟨progress, halt, heq⟩ := job.recordVerdict_eq object _
    rw [heq, holdsSlot_eq_false_of_verdict]
    rfl
  | finish h => rcases h with rfl | rfl <;> rfl
  | refuse | start | copy | panic | release | place => rfl

theorem Step.forall_orderly (h : job.Step next)
    (hjob : ∀ task ∈ job.tasks, task.stage.Orderly job.results.isSome) :
    ∀ task ∈ next.tasks, task.stage.Orderly next.results.isSome := by
  rw [h.move.1.results]
  refine h.move.2.forall_stage trivial ?_ hjob
  intro object stage stage' course hmove
  exact hmove.orderly

theorem Reach.forall_orderly (hnew : new? setup results = .ok start) (h : Reach start job) :
    ∀ task ∈ job.tasks, task.stage.Orderly job.results.isSome := by
  apply h.invariant hnew
  · intro task htask
    cases htask
  · intro job next _ hstep hjob
    exact hstep.forall_orderly hjob

theorem holders_spawn (job : Job) (objects : List ObjectDescriptor) :
    (job.spawn objects).holders = job.holders :=
  countP_spawn TaskStage.holdsSlot rfl job objects

theorem Step.slots (h : job.Step next) :
    next.freeSlots + next.holders = job.freeSlots + job.holders := by
  cases h.move.2 with
  | work hwork htasks hcourse =>
    have hslots := congrArg Course.slots hcourse
    cases hwork with
    | still =>
      rw [holders, htasks]
      exact congrArg (· + job.holders) hslots
    | spawn objects =>
      rw [holders, htasks, ← holders, holders_spawn]
      exact congrArg (· + job.holders) hslots
    | halt =>
      rw [haltWith_eq] at hslots
      rw [holders, htasks, tasks_haltWith]
      exact congrArg (· + job.holders) hslots
  | @task t object stage stage' ht hmove htasks =>
    have hholders := countP_setStage TaskStage.holdsSlot ht stage'
    have hslots : next.freeSlots + _ = job.freeSlots + _ := hmove.slots
    rw [holders, holders, htasks]
    omega

theorem Reach.slots_pos (hnew : new? setup results = .ok start) (h : Reach start job) :
    0 < job.freeSlots + job.holders := by
  apply h.invariant hnew
  · exact (MigrationOptions.valid_of_validate (new?_eq_ok hnew).2).concurrency
  · intro job next _ hstep hjob
    rw [hstep.slots]
    exact hjob

def Turn (job : Job) (next : Job) : Prop :=
  ∃ action t, action.task? ≠ none ∧ job.act action = some t ∧ t.job = next

theorem act_of_task {t : Nat} {action : JobAction} (hown : action.task? = some t)
    (ht : job.tasks[t]? = some ⟨object, stage⟩) :
    job.act action = job.actOnTask action t object stage := by
  cases action <;> cases hown <;> simp only [act, ht, Option.bind_some]

theorem exists_act_of_task {t : Nat} (action : JobAction) (hown : action.task? = some t)
    (ht : job.tasks[t]? = some ⟨object, stage⟩)
    (hsome : (job.actOnTask action t object stage).isSome = true) :
    ∃ action, action.task? = some t ∧ (job.act action).isSome = true := by
  refine ⟨action, hown, ?_⟩
  rw [act_of_task hown ht]
  exact hsome

theorem exists_act_of_running {t : Nat} {c : ObjectCopy}
    (ht : job.tasks[t]? = some ⟨object, .running c⟩) (hc : c.phase.Orderly) :
    ∃ action, action.task? = some t ∧ (job.act action).isSome = true := by
  cases hverdict : c.verdict? with
  | some v =>
    apply exists_act_of_task (.release t) rfl ht
    simp only [actOnTask, hverdict, Option.map_some, Option.isSome_some]
  | none =>
    by_cases hflow : c.phase = .overflowed
    · apply exists_act_of_task (.panic t "") rfl ht
      simp only [actOnTask, hflow, Option.isSome_some]
    · rcases ObjectCopy.exists_moves job.setup hc hverdict hflow with
        ⟨lane, reply, next, hnext⟩ | ⟨next, hnext⟩ | ⟨next, hnext⟩
      · apply exists_act_of_task (.reply t lane reply) rfl ht
        simp only [actOnTask, hnext, Option.map_some, Option.isSome_some]
      · apply exists_act_of_task (.wake t) rfl ht
        simp only [actOnTask, hnext, Option.map_some, Option.isSome_some]
      · apply exists_act_of_task (.startPart t) rfl ht
        simp only [actOnTask, hnext, Option.map_some, Option.isSome_some]

theorem exists_act_of_publishing {t : Nat} {v : Verdict}
    (ht : job.tasks[t]? = some ⟨object, .publishing v⟩) (hqueue : job.results.isSome = true) :
    ∃ action, action.task? = some t ∧ (job.act action).isSome = true := by
  obtain ⟨queue, hresults⟩ := Option.isSome_iff_exists.mp hqueue
  cases hopen : queue.isOpen with
  | false =>
    apply exists_act_of_task (.discard t) rfl ht
    simp only [actOnTask, hresults, Option.bind_some, discard, hopen]
    rfl
  | true =>
    cases hroom : queue.hasRoom with
    | true =>
      apply exists_act_of_task (.place t) rfl ht
      simp only [actOnTask, hresults, hopen, hroom]
      rfl
    | false =>
      apply exists_act_of_task (.discard t) rfl ht
      simp only [actOnTask, hresults, Option.bind_some, discard, hopen, hroom]
      rfl

theorem exists_act_of_placed {t : Nat} {v : Verdict}
    (ht : job.tasks[t]? = some ⟨object, .placed v⟩) (hqueue : job.results.isSome = true) :
    ∃ action, action.task? = some t ∧ (job.act action).isSome = true := by
  obtain ⟨queue, hresults⟩ := Option.isSome_iff_exists.mp hqueue
  cases hopen : queue.isOpen with
  | false =>
    apply exists_act_of_task (.discard t) rfl ht
    simp only [actOnTask, hresults, Option.bind_some, discard, hopen]
    rfl
  | true =>
    apply exists_act_of_task (.publish t) rfl ht
    simp only [actOnTask, hresults, hopen]
    rfl

theorem exists_act {t : Nat} (ht : job.tasks[t]? = some ⟨object, stage⟩)
    (hstage : stage.Orderly job.results.isSome) (hover : stage.isOver = false)
    (hslot : stage = .queued → 0 < job.freeSlots) :
    ∃ action, action.task? = some t ∧ (job.act action).isSome = true := by
  cases stage with
  | queued =>
    apply exists_act_of_task (.grant t) rfl ht
    simp only [actOnTask, hslot rfl, if_true, Option.isSome_some]
  | granted =>
    apply exists_act_of_task (.start t) rfl ht
    cases hhalt : job.halt <;> simp only [actOnTask, hhalt, Option.isSome_some]
  | running c => exact exists_act_of_running ht hstage
  | released v =>
    apply exists_act_of_task (.account t) rfl ht
    rfl
  | publishing v => exact exists_act_of_publishing ht hstage
  | placed v => exact exists_act_of_placed ht hstage
  | finished | panicked => cases hover

theorem Reach.exists_ready (hnew : new? setup results = .ok start) (h : Reach start job) {t : Nat}
    (ht : job.stage? t = some stage) (hover : stage.isOver = false) :
    ∃ (u : Nat) (task : Task), job.tasks[u]? = some task ∧ task.stage.isOver = false ∧
      (task.stage = .queued → 0 < job.freeSlots) := by
  obtain ⟨task, htask, rfl⟩ := Option.map_eq_some_iff.mp ht
  by_cases hfree : 0 < job.freeSlots
  · exact ⟨t, task, htask, hover, fun _ => hfree⟩
  · have hholders : 0 < job.holders := by
      have := h.slots_pos hnew
      omega
    obtain ⟨holder, hmem, hholds⟩ := List.countP_pos_iff.mp hholders
    obtain ⟨u, hu⟩ := List.mem_iff_getElem?.mp hmem
    refine ⟨u, holder, hu, ?_, ?_⟩
    · cases hstage : holder.stage <;> simp_all [TaskStage.holdsSlot, TaskStage.isOver]
    · intro hqueued
      rw [hqueued] at hholds
      cases hholds

/-- While a task is not over, some task takes a turn. -/
theorem Reach.exists_turn (hnew : new? setup results = .ok start) (h : Reach start job) {t : Nat}
    (ht : job.stage? t = some stage) (hover : stage.isOver = false) : ∃ next, job.Turn next := by
  obtain ⟨u, task, hu, hgoes, hslot⟩ := h.exists_ready hnew ht hover
  obtain ⟨action, hown, hsome⟩ :=
    exists_act hu (h.forall_orderly hnew task (List.mem_of_getElem? hu)) hgoes hslot
  obtain ⟨v, hact⟩ := Option.isSome_iff_exists.mp hsome
  exact ⟨v.job, action, v, by simp [hown], hact, rfl⟩

end Job

end BucketMigration
