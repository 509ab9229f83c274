import BucketMigration.Job.Driver

/-!
# Actions on a job

Everything that can happen to a job. Replies of storage calls, panics and the passing of time come
from outside, and so does the order of all actions: whatever the tasks, the clients and the
drivers do at the same time is some sequence of actions. An action that the state does not allow
has no result.
-/

namespace BucketMigration

inductive JobAction
  /-- A new feed that starts after a token. -/
  | openFeed (token : Option String)
  | dropFeed (feed : Nat)
  | nextPage (feed : Nat)
  | wait (feed : Nat)
  | run (feed : Nat)
  | listed (feed : Nat) (reply : Reply)
  | join (feed task : Nat)
  | batch (lines : List String)
  | joinBatch (batch task : Nat)
  /-- Give a free slot to a queued task. -/
  | grant (task : Nat)
  | start (task : Nat)
  | reply (task : Nat) (lane : Lane) (reply : Reply)
  | wake (task : Nat)
  | startPart (task : Nat)
  /-- A client call of the task panics, or its layout overflows. -/
  | panic (task : Nat) (reason : String)
  | release (task : Nat)
  | account (task : Nat)
  /-- Promise a place in the result queue to a publishing task. -/
  | place (task : Nat)
  | publish (task : Nat)
  /-- A task stops waiting for a place. -/
  | discard (task : Nat)
  | receive
  | closeResults
deriving Inhabited

namespace Job

variable (job : Job)

def stage? (task : Nat) : Option TaskStage :=
  (job.tasks[task]?).map Task.stage

def runOn (task : Nat) (next : ObjectCopy.Next) : Transition :=
  let (job, logs) := job.absorb next.2
  { job := job.setStage task (.running next.1), logs }

/-- The line that tells how an object ended; a skip has been told before. -/
def verdictLine? (object : ObjectDescriptor) : Verdict → Option LogLine
  | .ok (.migrated mode bytes) =>
      let targetKey := job.setup.targetKey object.key
      some ⟨if job.setup.options.verbose then .info else .debug,
        s!"Migrated {object.key} -> {targetKey} ({bytes} bytes, {mode.title})"⟩
  | .ok .targetCurrent => none
  | .error e =>
      if e.isSkip then none
      else some ⟨.warn, s!"Failed to migrate {object.key}: " ++ e.message⟩

/-- Record the failure of an object. A fatal one halts the job. -/
def recordVerdict (object : ObjectDescriptor) : Verdict → Job × List LogLine
  | .ok _ => (job, [])
  | .error e =>
      if e.isSkip then (job, [])
      else
        let job := { job with progress := job.progress.fail object.key e }
        if e.isFatal then job.haltWith e else (job, [])

def account (task : Nat) (object : ObjectDescriptor) (verdict : Verdict) : Transition :=
  let lines := (job.verdictLine? object verdict).toList
  let (job, logs) := job.recordVerdict object verdict
  let stage := if job.results.isSome then .publishing verdict else .finished verdict
  { job := job.setStage task stage, logs := lines ++ logs }

def resultOf (object : ObjectDescriptor) (verdict : Verdict) : CopyResult :=
  .ofVerdict object.key (job.setup.targetKey object.key) verdict

def dropResult (task : Nat) (object : ObjectDescriptor) (verdict : Verdict) (queue : ResultQueue)
    (reason : String) : Transition :=
  { job := { job with results := some queue }.setStage task (.finished verdict)
    logs := [⟨.warn, s!"Dropping result for {object.key}: " ++ reason⟩] }

/-- A task stops waiting for a place: the queue is closed, or it was full for too long. -/
def discard (task : Nat) (object : ObjectDescriptor) (queue : ResultQueue) :
    TaskStage → Option Transition
  | .publishing verdict =>
      if !queue.isOpen then some (job.dropResult task object verdict queue "channel closed")
      else if queue.hasRoom then none
      else some (job.dropResult task object verdict queue
        ("channel full for " ++ Text.duration job.setup.options.publishTimeoutMs))
  | .placed verdict =>
      if queue.isOpen then none
      else some (job.dropResult task object verdict { queue with promised := queue.promised - 1 }
        "channel closed")
  | _ => none

def actOnTask (action : JobAction) (task : Nat) (object : ObjectDescriptor) (stage : TaskStage) :
    Option Transition :=
  match action, stage with
  | .grant _, .queued =>
      if 0 < job.freeSlots then
        some { job := { job with freeSlots := job.freeSlots - 1 }.setStage task .granted }
      else none
  | .start _, .granted =>
      match job.halt with
      | some cause => some (job.runOn task (ObjectCopy.refuse object cause))
      | none => some (job.runOn task (ObjectCopy.start job.setup object))
  | .reply _ lane reply, .running copy =>
      (copy.resume job.setup lane reply).map (job.runOn task)
  | .wake _, .running copy => copy.wake.map (job.runOn task)
  | .startPart _, .running copy => (copy.startPart job.setup).map (job.runOn task)
  | .panic _ reason, .running copy =>
      match copy.phase with
      | .ended _ => none
      | _ =>
          some { job :=
            { job with freeSlots := job.freeSlots + 1 }.setStage task (.panicked reason) }
  | .release _, .running copy =>
      copy.verdict?.map fun verdict =>
        { job := { job with freeSlots := job.freeSlots + 1 }.setStage task (.released verdict) }
  | .account _, .released verdict => some (job.account task object verdict)
  | .place _, .publishing verdict =>
      match job.results with
      | some queue =>
          if queue.isOpen && queue.hasRoom then
            let queue := { queue with promised := queue.promised + 1 }
            some { job := { job with results := some queue }.setStage task (.placed verdict) }
          else none
      | none => none
  | .publish _, .placed verdict =>
      match job.results with
      | some queue =>
          if queue.isOpen then
            let queue :=
              { queue with
                promised := queue.promised - 1
                waiting := queue.waiting ++ [job.resultOf object verdict] }
            some { job := { job with results := some queue }.setStage task (.finished verdict) }
          else none
      | none => none
  | .discard _, stage => job.results.bind fun queue => job.discard task object queue stage
  | _, _ => none

/-- What an action does to a feed that is in a certain activity. -/
def actOnFeed (action : JobAction) (i : Nat) (feed : Feed) : Option Transition :=
  match action, feed.activity with
  | .dropFeed _, .idle =>
      some { job := job.setFeed i { feed with tasks := [], activity := .dropped } }
  | .nextPage _, .idle => some (job.beginPage i feed)
  | .wait _, .idle => some (job.drain i feed .wait)
  | .run _, .idle => some (job.turn i feed)
  | .listed _ reply, .listing inRun => (Reply.page? reply).map (job.listed i feed inRun)
  | .join _ task, .joining goal =>
      if task ∈ feed.tasks then
        match (job.stage? task).bind (job.joinTask task) with
        | some (_, job, logs) =>
            some ((job.joined i { feed with tasks := feed.tasks.erase task } goal).after logs)
        | none => none
      else none
  | _, _ => none

def joinInBatch (i task : Nat) (batch : BatchRun) : Option Transition :=
  if task ∈ batch.tasks then
    match (job.stage? task).bind (job.joinTask task) with
    | some (status, job, logs) =>
        some ((job.drainBatch i
          { batch with
            tasks := batch.tasks.erase task
            summary := batch.summary.count status }).after logs)
    | none => none
  else none

/-- The consumer takes the result that has waited longest. -/
def receive : Option Transition :=
  match job.results with
  | none => none
  | some queue =>
      match queue.waiting with
      | [] => none
      | result :: waiting =>
          some { job := { job with results := some { queue with waiting } }
                 returned := some (.received result) }

/-- The consumer leaves; results that still wait are lost. -/
def closeResults : Option Transition :=
  job.results.map fun queue =>
    { job := { job with results := some { queue with isOpen := false, waiting := [] } } }

def act (action : JobAction) : Option Transition :=
  match action with
  | .openFeed token => some { job := { job with feeds := job.feeds ++ [{ token }] } }
  | .batch lines => some (job.beginBatch lines)
  | .joinBatch i task => job.batches[i]?.bind (job.joinInBatch i task)
  | .receive => job.receive
  | .closeResults => job.closeResults
  | .dropFeed i | .nextPage i | .wait i | .run i | .listed i _ | .join i _ =>
      job.feeds[i]?.bind (job.actOnFeed action i)
  | .grant t | .start t | .reply t _ _ | .wake t | .startPart t | .panic t _ | .release t
  | .account t | .place t | .publish t | .discard t =>
      job.tasks[t]?.bind fun task => job.actOnTask action t task.object task.stage

def feedCall? (i : Nat) : Option Call :=
  match job.feeds[i]? with
  | some feed =>
      match feed.activity with
      | .listing _ =>
          some ⟨.source, .list job.setup.source.bucket job.setup.source.keyPrefix feed.token
            job.setup.options.pageSize⟩
      | _ => none
  | none => none

def taskCall? (task : Nat) (lane : Lane) : Option Call :=
  match job.stage? task with
  | some (.running copy) => copy.call? job.setup lane
  | _ => none

def Step (job next : Job) : Prop :=
  ∃ action t, job.act action = some t ∧ t.job = next

/-- Jobs that can come about from `start` by actions in some order. -/
inductive Reach (start : Job) : Job → Prop
  | refl : Reach start start
  | step {job next : Job} : Reach start job → job.Step next → Reach start next

end Job

end BucketMigration
