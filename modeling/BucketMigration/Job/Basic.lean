import BucketMigration.Batch
import BucketMigration.Copy.Step
import BucketMigration.Progress

/-!
# Jobs

A job is the migration of many objects between two endpoints. Every object is a task. A task waits
for one of a fixed number of slots, runs the copy of its object, gives the slot back, is accounted
and hands its result to a consumer. Two kinds of drivers dispatch tasks and join them again: a
feed pages through the listing of the source, a batch has its objects given. The first fatal error
halts the job; it stays in the halt slot.

A job is described as a state on which actions are done one at a time, in any order that the state
allows. This module has the state and its small changes; `Job.Action` has the actions.
-/

namespace BucketMigration

/-- How far a task has come. It holds a slot from the grant on until it is released. A `placed` task
has been promised a place in the result queue. -/
inductive TaskStage
  | queued
  | granted
  | running (copy : ObjectCopy)
  | released (verdict : Verdict)
  | publishing (verdict : Verdict)
  | placed (verdict : Verdict)
  | finished (verdict : Verdict)
  | panicked (reason : String)
deriving Inhabited

namespace TaskStage

def holdsSlot : TaskStage → Bool
  | granted | running _ => true
  | _ => false

def isOver : TaskStage → Bool
  | finished _ | panicked _ => true
  | _ => false

/-- The verdict of a task, from the moment on that it has given its slot back. -/
def verdict? : TaskStage → Option Verdict
  | released v | publishing v | placed v | finished v => some v
  | _ => none

end TaskStage

structure Task where
  object : ObjectDescriptor
  stage : TaskStage := .queued
deriving Inhabited

/-- Results on their way to a consumer: at most `capacity` of them wait or have a place promised. -/
structure ResultQueue where
  capacity : Nat
  waiting : List CopyResult := []
  promised : Nat := 0
  isOpen : Bool := true

namespace ResultQueue

/-- A queue holds at least one result. -/
def ofCapacity (capacity : Nat) : ResultQueue :=
  { capacity := max capacity 1 }

def hasRoom (q : ResultQueue) : Bool :=
  q.waiting.length + q.promised < q.capacity

end ResultQueue

/-- What a feed joins tasks for: to return from a call to wait, to have room for another page, to
finish a run, or to return from a run with an error. -/
inductive Goal
  | wait
  | room
  | finish
  | giveUp (error : MigrationError)
deriving DecidableEq, Repr, Inhabited

inductive Activity
  | idle
  /-- A page was asked for, by a run or by a single call. -/
  | listing (inRun : Bool)
  | joining (goal : Goal)
  /-- The feed was dropped; its tasks go on by themselves. -/
  | dropped
deriving DecidableEq, Repr, Inhabited

/-- A driver that pages through the source listing. `tasks` are those not joined yet. -/
structure Feed where
  token : Option String := none
  isDone : Bool := false
  tasks : List Nat := []
  activity : Activity := .idle
deriving DecidableEq, Repr, Inhabited

/-- A driver with given objects. -/
structure BatchRun where
  tasks : List Nat
  summary : BatchSummary
  isOver : Bool := false
deriving DecidableEq, Repr, Inhabited

structure PageOutcome where
  dispatched : Nat
  isDone : Bool
  nextToken : Option String
deriving DecidableEq, Repr, Inhabited

/-- What a call to a driver, or to the consumer's end of the result queue, returns. -/
inductive Return
  | page (outcome : Except MigrationError PageOutcome)
  | waited (outcome : Except MigrationError Unit)
  | ran (outcome : Except MigrationError Snapshot)
  | batch (outcome : Except MigrationError BatchSummary)
  | received (result : CopyResult)

structure Job where
  setup : Setup
  progress : Progress := {}
  halt : Option MigrationError := none
  freeSlots : Nat
  tasks : List Task := []
  feeds : List Feed := []
  batches : List BatchRun := []
  results : Option ResultQueue := none

/-- The state after an action, the lines it logged and what it returned to a caller. -/
structure Transition where
  job : Job
  logs : List LogLine := []
  returned : Option Return := none

namespace Transition

def after (t : Transition) (logs : List LogLine) : Transition :=
  { t with logs := logs ++ t.logs }

end Transition

namespace Effect

def line? : Effect → Option LogLine
  | log line => some line
  | _ => none

def count (p : Progress) : Effect → Progress
  | log _ => p
  | countSkipped => p.countSkipped
  | countMigrated => p.countMigrated
  | land bytes => p.land bytes

end Effect

namespace Job

def new? (setup : Setup) (results : Option ResultQueue) : Except MigrationError Job :=
  match setup.options.validate with
  | .error e => .error e
  | .ok () => .ok { setup, freeSlots := setup.options.concurrency, results }

def snapshot (job : Job) : Snapshot :=
  job.progress.snapshot

def checkHalted (job : Job) : Except MigrationError Unit :=
  match job.halt with
  | some e => .error e
  | none => .ok ()

/-- Halt the job, unless it has been halted before. -/
def haltWith (job : Job) (error : MigrationError) : Job × List LogLine :=
  match job.halt with
  | some _ => (job, [])
  | none =>
      ({ job with halt := some error }, [⟨.error, "Halting migration: " ++ error.message⟩])

def setStage (job : Job) (task : Nat) (stage : TaskStage) : Job :=
  { job with tasks := job.tasks.modify task fun t => { t with stage } }

def setFeed (job : Job) (i : Nat) (feed : Feed) : Job :=
  { job with feeds := job.feeds.set i feed }

def setBatch (job : Job) (i : Nat) (batch : BatchRun) : Job :=
  { job with batches := job.batches.set i batch }

/-- Count what a copy has done, and pass on what it has logged. -/
def absorb (job : Job) (effects : List Effect) : Job × List LogLine :=
  ({ job with progress := effects.foldl Effect.count job.progress }, effects.filterMap Effect.line?)

def nextTasks (job : Job) (n : Nat) : List Nat :=
  List.range' job.tasks.length n

def spawn (job : Job) (objects : List ObjectDescriptor) : Job :=
  { job with
    progress := objects.foldl (fun p d => p.dispatch d.size) job.progress
    tasks := job.tasks ++ objects.map fun d => ⟨d, .queued⟩ }

def panicMessage (task : Nat) (reason : String) : String :=
  s!"task {task} panicked with message " ++ Text.quoted reason

/-- Take note of a task that is over. A panic halts the job. -/
def joinTask (job : Job) (task : Nat) : TaskStage → Option (TaskStatus × Job × List LogLine)
  | .finished v => some (.ofVerdict v, job, [])
  | .panicked reason =>
      some (.failed, job.haltWith (.taskFailed (panicMessage task reason)))
  | _ => none

end Job

end BucketMigration
