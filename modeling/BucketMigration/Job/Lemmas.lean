import BucketMigration.Job.Action

/-!
# What small changes do to a job

A job is read through the stages of its tasks, its tally and its halt slot. The changes that
actions are made of touch one of these views each: setting a stage moves one task, spawning adds
queued tasks behind the others, and halting fills an empty slot.
-/

namespace BucketMigration.Job

variable (job : Job)

theorem stage?_setStage (task : Nat) (stage : TaskStage) (t : Nat) :
    (job.setStage task stage).stage? t =
      if task = t then (job.stage? t).map fun _ => stage else job.stage? t := by
  simp only [stage?, setStage, List.getElem?_modify]
  cases job.tasks[t]? with
  | none => split <;> rfl
  | some u => split <;> rfl

theorem stage?_eq_none_iff {task : Nat} : job.stage? task = none ↔ job.tasks.length ≤ task := by
  simp [stage?]

theorem stage?_spawn_of_lt (objects : List ObjectDescriptor) {task : Nat}
    (h : task < job.tasks.length) : (job.spawn objects).stage? task = job.stage? task := by
  simp only [stage?, spawn, List.getElem?_append_left h]

@[simp] theorem length_tasks_setStage (task : Nat) (stage : TaskStage) :
    (job.setStage task stage).tasks.length = job.tasks.length :=
  List.length_modify ..

@[simp] theorem length_tasks_spawn (objects : List ObjectDescriptor) :
    (job.spawn objects).tasks.length = job.tasks.length + objects.length := by
  simp [spawn]

theorem getElem?_tasks_setStage (task : Nat) (stage : TaskStage) (t : Nat) :
    (job.setStage task stage).tasks[t]? =
      if task = t then (job.tasks[t]?).map fun u => { u with stage } else job.tasks[t]? := by
  rw [setStage, List.getElem?_modify]
  by_cases heq : task = t
  · simp [heq]
  · simp [heq]

theorem map_object_setStage (t : Nat) (stage : TaskStage) :
    (job.setStage t stage).tasks.map Task.object = job.tasks.map Task.object := by
  apply List.ext_getElem?
  intro u
  rw [List.getElem?_map, List.getElem?_map, getElem?_tasks_setStage]
  cases job.tasks[u]? with
  | none => split <;> rfl
  | some task => split <;> rfl

theorem halt_haltWith (error : MigrationError) :
    (job.haltWith error).1.halt = some (job.halt.getD error) := by
  unfold haltWith
  cases h : job.halt with
  | none => rfl
  | some e => exact h

theorem halt_haltWith_ne_none (error : MigrationError) : (job.haltWith error).1.halt ≠ none := by
  rw [halt_haltWith]
  exact Option.some_ne_none _

@[simp] theorem tasks_haltWith (error : MigrationError) :
    (job.haltWith error).1.tasks = job.tasks := by
  unfold haltWith
  split <;> rfl

@[simp] theorem progress_haltWith (error : MigrationError) :
    (job.haltWith error).1.progress = job.progress := by
  unfold haltWith
  split <;> rfl

end BucketMigration.Job
