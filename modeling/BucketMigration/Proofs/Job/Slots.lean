import BucketMigration.Proofs.Copy.Lanes
import BucketMigration.Proofs.Job.Turns
import Mathlib.Data.List.Perm.Subperm

/-!
# What is under way at once

A slot is free or it is held by one task, and a task holds its slot from the grant on until its copy
has ended or panicked. So no more tasks copy at once than there are slots, and each of them waits for
no more data than it may have parts under way.
-/

namespace BucketMigration

namespace TaskStage

def Within (limit : Nat) : TaskStage → Prop
  | running c => c.phase.Within limit
  | _ => True

def dataLanes : TaskStage → List Lane
  | running c => c.dataLanes
  | _ => []

theorem length_dataLanes_le {setup : Setup} {stage : TaskStage}
    (h : stage.Within setup.options.effectivePartConcurrency) :
    stage.dataLanes.length ≤
      (if stage.holdsSlot then 1 else 0) * setup.options.effectivePartConcurrency := by
  cases stage with
  | running c =>
    rw [holdsSlot, if_pos rfl, Nat.one_mul]
    exact ObjectCopy.length_dataLanes_le h
  | _ => exact Nat.zero_le _

end TaskStage

namespace Job

def dataLanes (job : Job) : List (Nat × Lane) :=
  job.tasks.zipIdx.flatMap fun task => task.1.stage.dataLanes.map fun lane => (task.2, lane)

/-- The most data calls that the tasks of a job may wait for. -/
def mostDataCalls (options : MigrationOptions) : Nat :=
  options.concurrency * options.effectivePartConcurrency

/-- Every slot is free or held, and no copy has more parts under way than it may have. -/
structure Paced (setup : Setup) (job : Job) : Prop where
  setup_eq : job.setup = setup
  slots : job.freeSlots + job.holders = setup.options.concurrency
  within : ∀ task ∈ job.tasks, task.stage.Within setup.options.effectivePartConcurrency
  orderly : ∀ task ∈ job.tasks, task.stage.Orderly job.results.isSome

/-- No more is under way in a job than its options allow. -/
structure WithinBounds (setup : Setup) (job : Job) : Prop where
  /-- The slots that are not free are held, one by each task that has been granted one. -/
  slots : job.freeSlots + job.holders = setup.options.concurrency
  /-- A task that has given its slot back, to be accounted or to publish its result, holds none. -/
  without : ∀ (t : Nat) (stage : TaskStage), job.stage? t = some stage →
    stage.verdict?.isSome = true ∨ stage.isOver = true → stage.holdsSlot = false
  /-- Whatever takes a task out of its slot, the slot is free again. -/
  returns : ∀ (action : JobAction) (u : Transition), job.act action = some u →
    ∀ (t : Nat) (stage stage' : TaskStage), job.stage? t = some stage → stage.holdsSlot = true →
      u.job.stage? t = some stage' → stage'.holdsSlot = false → u.job.freeSlots = job.freeSlots + 1
  /-- A copy that has ended gives its slot back, whatever its verdict is. -/
  release : ∀ (t : Nat) (c : ObjectCopy) (v : Verdict), job.stage? t = some (.running c) →
    c.verdict? = some v → ∃ u, job.act (.release t) = some u ∧
      u.job.stage? t = some (.released v) ∧ u.job.freeSlots = job.freeSlots + 1
  /-- So does a copy that panics before it has ended. -/
  panic : ∀ (t : Nat) (c : ObjectCopy) (reason : String), job.stage? t = some (.running c) →
    c.verdict? = none → ∃ u, job.act (.panic t reason) = some u ∧
      u.job.stage? t = some (.panicked reason) ∧ u.job.freeSlots = job.freeSlots + 1
  parts : ∀ (t : Nat) (c : ObjectCopy) (s : Session), job.stage? t = some (.running c) →
    c.phase = .copying s → s.active.length ≤ setup.options.effectivePartConcurrency
  dataCalls : ∀ callers : List (Nat × Lane), callers.Nodup →
    (∀ c ∈ callers, ∃ call, job.taskCall? c.1 c.2 = some call ∧ call.request.movesData = true) →
    callers.length ≤ mostDataCalls setup.options

variable {job next start : Job} {setup : Setup} {results : Option ResultQueue}
  {object : ObjectDescriptor} {stage stage' : TaskStage} {course : Course}

theorem TaskMove.within (h : TaskMove job object stage stage' course)
    (hstage : stage.Within job.setup.options.effectivePartConcurrency) :
    stage'.Within job.setup.options.effectivePartConcurrency := by
  cases h with
  | start => exact ObjectCopy.within_start ..
  | copy h => exact h.within hstage
  | account => split <;> trivial
  | _ => trivial

theorem Move.within (h : job.Move next)
    (hall : ∀ task ∈ job.tasks, task.stage.Within job.setup.options.effectivePartConcurrency) :
    ∀ task ∈ next.tasks, task.stage.Within job.setup.options.effectivePartConcurrency := by
  intro task htask
  rcases h.mem_tasks htask with hold | hnew | ⟨stage, hmem, hmoved⟩
  · exact hall task hold
  · rw [hnew]
    trivial
  · exact hmoved.within (hall _ hmem)

theorem Paced.step (h : Paced setup job) (hstep : job.Step next) : Paced setup next where
  setup_eq := hstep.move.1.setup.trans h.setup_eq
  slots := hstep.slots.trans h.slots
  within := by
    have hwithin := h.within
    rw [← h.setup_eq] at hwithin ⊢
    exact hstep.move.2.within hwithin
  orderly := hstep.forall_orderly h.orderly

theorem paced_new (hnew : new? setup results = .ok start) : Paced setup start := by
  rw [(new?_eq_ok hnew).1]
  refine ⟨rfl, rfl, ?_, ?_⟩ <;>
  · intro task htask
    cases htask

theorem holdsSlot_eq_false_of_isOver (h : stage.verdict?.isSome = true ∨ stage.isOver = true) :
    stage.holdsSlot = false := by
  cases stage with
  | queued | granted | running => rcases h with h | h <;> cases h
  | _ => rfl

theorem Step.freeSlots_eq (hstep : job.Step next) {t : Nat} (ht : job.stage? t = some stage)
    (hholds : stage.holdsSlot = true) (ht' : next.stage? t = some stage')
    (hnot : stage'.holdsSlot = false) : next.freeSlots = job.freeSlots + 1 := by
  obtain ⟨task, htask, rfl⟩ := Option.map_eq_some_iff.mp ht
  rcases hstep.move.2.task_cases htask with hsame | ⟨last, hmove, hmoved⟩
  · rw [stage?, hsame, Option.map_some, Option.some.injEq] at ht'
    rw [ht', hnot] at hholds
    cases hholds
  · rw [stage?, hmoved, Option.map_some, Option.some.injEq] at ht'
    subst ht'
    have hslots := hmove.slots
    rw [hholds, hnot] at hslots
    exact hslots

theorem exists_release {t : Nat} {c : ObjectCopy} {v : Verdict}
    (ht : job.stage? t = some (.running c)) (hv : c.verdict? = some v) :
    ∃ u, job.act (.release t) = some u ∧ u.job.stage? t = some (.released v) ∧
      u.job.freeSlots = job.freeSlots + 1 := by
  obtain ⟨⟨object, stage⟩, htask, rfl⟩ := Option.map_eq_some_iff.mp ht
  refine ⟨{ job := { job with freeSlots := job.freeSlots + 1 }.setStage t (.released v) }, ?_, ?_, rfl⟩
  · rw [act_of_task rfl htask]
    simp only [actOnTask, hv, Option.map_some]
  · rw [stage?_setStage, if_pos rfl]
    exact congrArg (Option.map fun _ => TaskStage.released v) ht

theorem exists_panic {t : Nat} {c : ObjectCopy} (reason : String)
    (ht : job.stage? t = some (.running c)) (hnone : c.verdict? = none) :
    ∃ u, job.act (.panic t reason) = some u ∧ u.job.stage? t = some (.panicked reason) ∧
      u.job.freeSlots = job.freeSlots + 1 := by
  obtain ⟨⟨object, stage⟩, htask, rfl⟩ := Option.map_eq_some_iff.mp ht
  refine ⟨{ job := { job with freeSlots := job.freeSlots + 1 }.setStage t (.panicked reason) }, ?_, ?_,
    rfl⟩
  · rw [act_of_task rfl htask]
    unfold ObjectCopy.verdict? at hnone
    split at hnone
    · cases hnone
    · simp only [actOnTask]
  · rw [stage?_setStage, if_pos rfl]
    exact congrArg (Option.map fun _ => TaskStage.panicked reason) ht

theorem length_flatMap_dataLanes_le (tasks : List Task) (n : Nat)
    (h : ∀ task ∈ tasks, task.stage.Within setup.options.effectivePartConcurrency) :
    ((tasks.zipIdx n).flatMap fun task =>
        task.1.stage.dataLanes.map fun lane => (task.2, lane)).length ≤
      (tasks.countP fun task => task.stage.holdsSlot) * setup.options.effectivePartConcurrency := by
  induction tasks generalizing n with
  | nil => exact Nat.zero_le _
  | cons task tasks ih =>
    have hfirst := TaskStage.length_dataLanes_le (h task List.mem_cons_self)
    have hrest := ih (n + 1) fun other hother => h other (List.mem_cons_of_mem _ hother)
    rw [List.zipIdx_cons, List.flatMap_cons, List.length_append, List.length_map, List.countP_cons,
      Nat.add_comm, Nat.add_mul]
    exact Nat.add_le_add hrest hfirst

theorem Paced.length_dataLanes_le (h : Paced setup job) :
    job.dataLanes.length ≤ mostDataCalls setup.options := by
  have hholders : job.holders ≤ setup.options.concurrency := by
    have hslots := h.slots
    omega
  exact Nat.le_trans (length_flatMap_dataLanes_le job.tasks 0 h.within)
    (Nat.mul_le_mul_right _ hholders)

theorem mem_dataLanes {t : Nat} {lane : Lane} {call : Call} (hcall : job.taskCall? t lane = some call)
    (hdata : call.request.movesData = true) : (t, lane) ∈ job.dataLanes := by
  unfold taskCall? at hcall
  split at hcall
  · rename_i c hstage
    obtain ⟨task, htask, hrunning⟩ := Option.map_eq_some_iff.mp hstage
    apply List.mem_flatMap.mpr
    refine ⟨(task, t), List.mk_mem_zipIdx_iff_getElem?.mpr htask, ?_⟩
    rw [hrunning]
    exact List.mem_map.mpr ⟨lane, ObjectCopy.mem_dataLanes hcall hdata, rfl⟩
  · cases hcall

theorem Paced.withinBounds (h : Paced setup job) : WithinBounds setup job where
  slots := h.slots
  without := fun _ _ _ => holdsSlot_eq_false_of_isOver
  returns := fun _ u hact _ _ _ => Step.freeSlots_eq ⟨_, u, hact, rfl⟩
  release := fun _ _ _ => exists_release
  panic := fun _ _ reason => exists_panic reason
  parts := by
    intro t c s ht hphase
    obtain ⟨task, htask, hstage⟩ := Option.map_eq_some_iff.mp ht
    have hwithin := h.within task (List.mem_of_getElem? htask)
    rw [hstage, TaskStage.Within, hphase] at hwithin
    exact hwithin
  dataCalls := by
    intro callers hnodup hcalls
    have hsub : callers ⊆ job.dataLanes := by
      intro c hc
      obtain ⟨call, hcall, hdata⟩ := hcalls c hc
      exact mem_dataLanes hcall hdata
    exact Nat.le_trans (List.subperm_of_subset hnodup hsub).length_le h.length_dataLanes_le

theorem Reach.paced (hnew : new? setup results = .ok start) (h : Reach start job) :
    Paced setup job := by
  induction h with
  | refl => exact paced_new hnew
  | step _ hstep ih => exact ih.step hstep

end Job

end BucketMigration
