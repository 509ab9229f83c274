import BucketMigration.Job.Basic

/-!
# Drivers of a job

How feeds and batches dispatch tasks and join them. A feed lists a page at a time, so a caller may
pace it and resume it from a saved token. A run of a feed dispatches every page that is left and
then waits for all tasks; it lists the next page only while fewer tasks than a page may hold are
unfinished. On an error it still waits for the tasks that were dispatched.
-/

namespace BucketMigration

namespace Job

variable (job : Job) (i : Nat) (feed : Feed)

def returnFrom (value : Return) : Transition :=
  { job := job.setFeed i { feed with activity := .idle }, returned := some value }

def conclude : Goal → Transition
  | .wait => job.returnFrom i feed (.waited job.checkHalted)
  | .giveUp error => job.returnFrom i feed (.ran (.error error))
  | .room | .finish =>
      match job.halt with
      | some error => job.returnFrom i feed (.ran (.error error))
      | none =>
          (job.returnFrom i feed (.ran (.ok job.snapshot))).after
            [⟨.info, "Migration finished: " ++ job.snapshot.text⟩]

def drain (goal : Goal) : Transition :=
  if feed.tasks.isEmpty then job.conclude i feed goal
  else { job := job.setFeed i { feed with activity := .joining goal } }

/-- The next turn of a run: another page, unless all have been listed or the job is halted. -/
def turn : Transition :=
  if feed.isDone then job.drain i feed .finish
  else
    match job.halt with
    | some error => job.drain i feed (.giveUp error)
    | none => { job := job.setFeed i { feed with activity := .listing true } }

/-- Go on with a run when there is room for another page. -/
def turnIfRoom : Transition :=
  if feed.tasks.length < job.setup.options.highWater then job.turn i feed
  else { job := job.setFeed i { feed with activity := .joining .room } }

def beginPage : Transition :=
  match job.halt with
  | some error => job.returnFrom i feed (.page (.error error))
  | none =>
      if feed.isDone then job.returnFrom i feed (.page (.ok ⟨0, true, none⟩))
      else { job := job.setFeed i { feed with activity := .listing false } }

def failPage (inRun : Bool) (error : MigrationError) : Transition :=
  if inRun then job.drain i feed (.giveUp error)
  else job.returnFrom i feed (.page (.error error))

def acceptPage (inRun : Bool) (page : ListPage) : Transition :=
  let source := job.setup.source
  let isDone := !page.isTruncated
  let feed : Feed :=
    { token := if isDone then none else page.nextToken
      isDone
      tasks := feed.tasks ++ job.nextTasks page.objects.length
      activity := .idle }
  let job := job.spawn page.objects
  let line : LogLine := ⟨.info, s!"Dispatched {page.objects.length} objects from "
    ++ s!"s3://{source.bucket}/{source.keyPrefix} ({feed.tasks.length} in flight)"⟩
  let next :=
    if inRun then job.turnIfRoom i feed
    else job.returnFrom i feed (.page (.ok ⟨page.objects.length, feed.isDone, feed.token⟩))
  next.after [line]

/-- The reply to a listing. A truncated page without a token halts the job. -/
def listed (inRun : Bool) : Except StorageError ListPage → Transition
  | .error error => job.failPage i feed inRun (.listing job.setup.source.bucket error)
  | .ok page =>
      if page.lacksToken then
        let error := .missingContinuationToken job.setup.source.bucket
        let (job, logs) := job.haltWith error
        (job.failPage i feed inRun error).after logs
      else job.acceptPage i feed inRun page

def joined (goal : Goal) : Transition :=
  match goal with
  | .room => job.turnIfRoom i feed
  | goal => job.drain i feed goal

def concludeBatch (batch : BatchRun) : Transition :=
  { job := job.setBatch i { batch with isOver := true }
    logs := [⟨.info, "Batch finished: " ++ batch.summary.text⟩]
    returned := some (.batch (job.checkHalted.map fun _ => batch.summary)) }

def drainBatch (batch : BatchRun) : Transition :=
  if batch.tasks.isEmpty then job.concludeBatch i batch
  else { job := job.setBatch i batch }

/-- Migrate a batch. It is read as a whole before any object of it is dispatched. -/
def beginBatch (lines : List String) : Transition :=
  match job.halt with
  | some error => { job, returned := some (.batch (.error error)) }
  | none =>
      match Batch.entries lines with
      | .error error => { job, returned := some (.batch (.error error)) }
      | .ok objects =>
          let batch : BatchRun :=
            { tasks := job.nextTasks objects.length, summary := { dispatched := objects.length } }
          let i := job.batches.length
          let job := job.spawn objects
          { job with batches := job.batches ++ [batch] }.drainBatch i batch

end Job

def BatchSummary.count (s : BatchSummary) : TaskStatus → BatchSummary
  | .migrated => { s with migrated := s.migrated + 1 }
  | .skipped => { s with skipped := s.skipped + 1 }
  | .failed => { s with failed := s.failed + 1 }

end BucketMigration
