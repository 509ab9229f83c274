import BucketMigration.Rehearsal.Task

/-!
# The caller of a rehearsal

What a caller can do: drive feeds and batches of a job, migrate a single object, make storage
calls itself, sleep, and take results. Tasks go on only while the caller waits.
-/

namespace BucketMigration.Rehearsal

variable (r : Rehearsal)

/-- Let the tasks of a job from number `first` on ask for slots. -/
def greet (job first : Nat) : Rehearsal :=
  match r.world? job with
  | none => r
  | some w =>
      (List.range' first (w.job.tasks.length - first)).foldl
        (fun r task => r.notify (.task job task) .acquire) r

/-- Do an action of a job and let the tasks that it has dispatched ask for slots. -/
def actAndGreet (job : Nat) (action : WorldAction) : Rehearsal × Option Return :=
  let first := ((r.world? job).map fun w => w.job.tasks.length).getD 0
  match r.act? job action with
  | none => (r, none)
  | some (r, returned) => (r.greet job first, returned)

def joinable? (job : Nat) (tasks : List Nat) : Option Nat :=
  (r.ended.find? fun p => p.1 == job && tasks.contains p.2).map Prod.snd

def feed? (job feed : Nat) : Option Feed :=
  (r.world? job).bind fun w => w.job.feeds[feed]?

def batch? (job batch : Nat) : Option BatchRun :=
  (r.world? job).bind fun w => w.job.batches[batch]?

def feedJoinable? (job feed : Nat) : Option Nat :=
  (r.feed? job feed).bind fun f => r.joinable? job f.tasks

def batchJoinable? (job batch : Nat) : Option Nat :=
  (r.batch? job batch).bind fun b => r.joinable? job b.tasks

def attend (job feed : Nat) : Nat → Rehearsal → Option Return → Rehearsal × Option Return
  | _, r, some returned => (r, some returned)
  | 0, r, none => (r, none)
  | fuel + 1, r, none =>
      match (r.feed? job feed).map Feed.activity with
      | some (.listing _) =>
          let (r, exchange) := r.exchange job (.feed feed) .caller .slept
          match exchange with
          | .replied =>
              let (r, returned) := r.actAndGreet job (.deliver (.feed feed))
              attend job feed fuel r returned
          | .waits => (r, none)
          | .panicked _ => ({ r with hasPanicked := true }, none)
      | some (.joining _) =>
          match r.feedJoinable? job feed with
          | some task =>
              let (r, returned) := r.actAndGreet job (.job (.join feed task))
              attend job feed fuel r returned
          | none =>
              let r := pump (fun r => (r.feedJoinable? job feed).isSome) budget r
              if (r.feedJoinable? job feed).isSome then attend job feed fuel r none else (r, none)
      | _ => (r, none)

def callFeed (job feed : Nat) (action : JobAction) : Rehearsal × Option Return :=
  let (r, returned) := r.actAndGreet job (.job action)
  attend job feed budget r returned

def attendBatch (job batch : Nat) : Nat → Rehearsal → Option Return → Rehearsal × Option Return
  | _, r, some returned => (r, some returned)
  | 0, r, none => (r, none)
  | fuel + 1, r, none =>
      match r.batchJoinable? job batch with
      | some task =>
          let (r, returned) := r.actAndGreet job (.job (.joinBatch batch task))
          attendBatch job batch fuel r returned
      | none =>
          let r := pump (fun r => (r.batchJoinable? job batch).isSome) budget r
          if (r.batchJoinable? job batch).isSome then attendBatch job batch fuel r none
          else (r, none)

def callBatch (job : Nat) (lines : List String) : Rehearsal × Option Return :=
  let batch := ((r.world? job).map fun w => w.job.batches.length).getD 0
  let (r, returned) := r.actAndGreet job (.job (.batch lines))
  attendBatch job batch budget r returned

def openFeed (job : Nat) (token : Option String) : Rehearsal × Nat :=
  let feed := ((r.world? job).map fun w => w.job.feeds.length).getD 0
  (r.act job (.job (.openFeed token)), feed)

def sleep (ms : Nat) : Rehearsal :=
  if ms = 0 then r
  else
    let r := pump (fun _ => false) budget (r.setTimer ms .caller .slept)
    r.silence .caller

def attendCopy : Nat → Rehearsal → Rehearsal
  | 0, r => r
  | fuel + 1, r =>
      let r := takeTurn budget r .caller
      match (r.copy? .caller).bind ObjectCopy.verdict? with
      | some _ => r
      | none =>
          let r := pump (fun _ => false) budget r
          if r.hasSignal .caller then attendCopy fuel r else r

def migrateObject (object : ObjectDescriptor) : Rehearsal × Option ObjectCopy :=
  let job := r.managers.length - 1
  let r := attendCopy budget (drive budget (r.act job (.soloStart object)) .caller .whole)
  let copy := r.copy? .caller
  (r.act job .soloEnd, copy)

/-- Everything that can be taken from the result queue now, in order. A place that is freed goes
to the task that has waited longest. -/
def takeResults : Nat → Rehearsal → List CopyResult → Rehearsal × List CopyResult
  | 0, r, taken => (r, taken.reverse)
  | fuel + 1, r, taken =>
      match r.act? (r.managers.length - 1) (.job .receive) with
      | some (r, some (.received result)) => takeResults fuel r.handPlace (result :: taken)
      | _ => (r, taken.reverse)

def receiveAll : Rehearsal × List CopyResult :=
  takeResults budget r []

def closeResults : Rehearsal :=
  let r := r.act (r.managers.length - 1) (.job .closeResults)
  let waiting := r.placeLine
  waiting.foldl (fun r p => r.notify (.task p.1 p.2) .queue) r

/-- Storage calls made at once, with the replies that have come. -/
abbrev DirectCalls := List (Call × Option Reply)

/-- Make a storage call without a job. A data call may wait for the latency of its store. -/
def enterDirect (index : Nat) (call : Call) : Rehearsal × Option Reply :=
  let store := r.stores.get call.side
  let delay := store.delayMs call.request
  let (entered, store) := store.enter call.request
  let r := { r with stores := r.stores.set call.side store }
  match entered with
  | .error e => (r, some (.error e))
  | .ok () =>
      if delay = 0 then
        let (reply, store) := store.finish r.now call.request
        ({ r with stores := r.stores.set call.side store }, some reply)
      else (r.setTimer delay .caller (.call index), none)

def enterAll (index : Nat) : List Call → Rehearsal → Rehearsal × DirectCalls
  | [], r => (r, [])
  | call :: rest, r =>
      let (r, reply) := r.enterDirect index call
      let (r, calls) := enterAll (index + 1) rest r
      (r, (call, reply) :: calls)

def finishDirect (index : Nat) (calls : DirectCalls) : Rehearsal × DirectCalls :=
  match calls[index]? with
  | some (call, none) =>
      let (reply, store) := (r.stores.get call.side).finish r.now call.request
      ({ r with stores := r.stores.set call.side store }, calls.set index (call, some reply))
  | _ => (r, calls)

def attendCalls : Nat → Rehearsal → DirectCalls → Rehearsal × DirectCalls
  | 0, r, calls => (r, calls)
  | fuel + 1, r, calls =>
      match r.nextSignal? .caller with
      | some (.call index, r) =>
          let (r, calls) := r.finishDirect index calls
          attendCalls fuel r calls
      | some (_, r) => attendCalls fuel r calls
      | none =>
          if calls.all fun c => c.2.isSome then (r, calls)
          else
            let r := pump (fun _ => false) budget r
            if r.hasSignal .caller then attendCalls fuel r calls else (r, calls)

def callStores (calls : List Call) : Rehearsal × List Reply :=
  let (r, calls) := enterAll 0 calls r
  let (r, calls) := attendCalls budget r calls
  (r, calls.filterMap Prod.snd)

end BucketMigration.Rehearsal
