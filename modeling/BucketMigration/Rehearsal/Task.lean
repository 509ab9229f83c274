import BucketMigration.Rehearsal.Basic

/-!
# Tasks in a rehearsal

How a task goes on when its turn comes. A copy in parts fills the room that its part concurrency
leaves, the parts being started in order; a part that ends makes room for one more, which goes on
after those that can go on already. Slots and places are handed to those who have waited longest:
a slot as soon as it is given back, a place as soon as a result is taken.
-/

namespace BucketMigration.Rehearsal

variable (r : Rehearsal)

/-- The job whose copy an actor runs; the caller runs copies of the newest one. -/
def jobOf : Actor → Nat
  | .caller => r.managers.length - 1
  | .task job _ => job

def callerOf (actor : Actor) (lane : Lane) : Caller :=
  match actor with
  | .caller => .solo lane
  | .task _ task => .task task lane

def copy? (actor : Actor) : Option ObjectCopy :=
  match r.world? (r.jobOf actor) with
  | none => none
  | some w =>
      match actor with
      | .caller => w.solo
      | .task _ task =>
          match w.job.stage? task with
          | some (.running copy) => some copy
          | _ => none

def wakeAction : Actor → WorldAction
  | .caller => .soloWake
  | .task _ task => .job (.wake task)

def partAction : Actor → WorldAction
  | .caller => .soloPart
  | .task _ task => .job (.startPart task)

def conclude (job task : Nat) : Rehearsal :=
  let r := r.silence (.task job task)
  { r with ended := r.ended ++ [(job, task)] }

/-- Give a slot to the task of a job that has waited longest for one. -/
def handSlot (job : Nat) : Rehearsal :=
  match r.slotLine.find? fun p => p.1 == job with
  | none => r
  | some p =>
      let r := { r with slotLine := r.slotLine.erase p }
      (r.act job (.job (.grant p.2))).notify (.task job p.2) .start

/-- Give a place to the task that has waited longest for one. -/
def handPlace : Rehearsal :=
  match r.placeLine with
  | [] => r
  | p :: rest =>
      match r.act? p.1 (.job (.place p.2)) with
      | none => r
      | some (r, _) => { r with placeLine := rest }.notify (.task p.1 p.2) .queue

/-- Let a task deliver its result if it has a place, and give up if it may not wait any longer. -/
def settlePublishing (job task : Nat) (mayWait : Bool) : Rehearsal :=
  match r.act? job (.job (.publish task)) with
  | some (r, _) => r.conclude job task
  | none =>
      let isOpen := r.results.any ResultQueue.isOpen
      if isOpen && mayWait then r
      else
        match r.act? job (.job (.discard task)) with
        | none => r
        | some (r, _) =>
            { r with placeLine := r.placeLine.erase (job, task) }.conclude job task

def publish (job task : Nat) : Rehearsal :=
  match r.act? job (.job (.place task)) with
  | some (r, _) => r.settlePublishing job task false
  | none =>
      let timeout := ((r.world? job).map fun w => w.job.setup.options.publishTimeoutMs).getD 0
      let isOpen := r.results.any ResultQueue.isOpen
      if isOpen && timeout != 0 then
        { r with placeLine := r.placeLine ++ [(job, task)] }.setTimer timeout (.task job task)
          .expire
      else r.settlePublishing job task false

/-- A task whose copy has ended gives its slot back, is accounted and hands its result over. -/
def finishTask (job task : Nat) : Rehearsal :=
  let r := (r.act job (.job (.release task))).handSlot job
  let r := r.act job (.job (.account task))
  match (r.world? job).bind fun w => w.job.stage? task with
  | some (.publishing _) => r.publish job task
  | _ => r.conclude job task

def panic (reason : String) : Actor → Rehearsal
  | .caller => { r with hasPanicked := true }
  | .task job task => ((r.act job (.panic task reason)).handSlot job).conclude job task

def refill (actor : Actor) (copy : ObjectCopy) : Rehearsal :=
  let setup := (r.world? (r.jobOf actor)).map fun w => w.job.setup
  let startable := (setup.map fun setup => copy.startableParts setup).getD 0
  let started := r.signals.count (actor, .part)
  (List.range (startable - started)).foldl (fun r _ => r.notify actor .part) r

/-- Let an actor go on with its copy in a lane, as far as it gets without waiting. -/
def drive : Nat → Rehearsal → Actor → Lane → Rehearsal
  | 0, r, _, _ => r
  | fuel + 1, r, actor, lane =>
      let job := r.jobOf actor
      let goOn (lane : Lane) : Rehearsal :=
        let (r, exchange) := r.exchange job (callerOf actor lane) actor (.lane lane)
        match exchange with
        | .replied => drive fuel (r.act job (.deliver (callerOf actor lane))) actor lane
        | .waits => r
        | .panicked reason => r.panic reason actor
      match r.copy? actor with
      | none => r
      | some copy =>
          match copy.phase with
          | .ended _ =>
              match actor with
              | .caller => r
              | .task job task => r.finishTask job task
          | .overflowed => r.panic "attempt to add with overflow" actor
          | .pausing _ =>
              let setup := (r.world? job).map fun w => w.job.setup
              match (setup.bind fun setup => copy.pauseMs? setup).getD 0 with
              | 0 => drive fuel (r.act job (wakeAction actor)) actor .whole
              | ms => r.setTimer ms actor .wake
          | .copying s =>
              match lane with
              | .part number =>
                  if (s.active? number).isSome then goOn (.part number) else r.refill actor copy
              | .whole => r.refill actor copy
          | _ => goOn .whole

def nextPart? (copy : ObjectCopy) : Option Nat :=
  match copy.phase with
  | .copying s => s.waiting.head?.map PartRange.number
  | _ => none

def follow (actor : Actor) (signal : Signal) : Rehearsal :=
  let job := r.jobOf actor
  match signal, actor with
  | .acquire, .task job task =>
      match r.act? job (.job (.grant task)) with
      | some (r, _) => drive budget (r.act job (.job (.start task))) actor .whole
      | none => { r with slotLine := r.slotLine ++ [(job, task)] }
  | .start, .task job task => drive budget (r.act job (.job (.start task))) actor .whole
  | .queue, .task job task => r.settlePublishing job task true
  | .expire, .task job task => r.settlePublishing job task false
  | .lane lane, actor =>
      let caller := callerOf actor lane
      drive budget ((r.act job (.finish caller)).act job (.deliver caller)) actor lane
  | .wake, actor => drive budget (r.act job (wakeAction actor)) actor .whole
  | .part, actor =>
      match (r.copy? actor).bind nextPart? with
      | some number => drive budget (r.act job (partAction actor)) actor (.part number)
      | none => r
  | _, _ => r

def takeTurn : Nat → Rehearsal → Actor → Rehearsal
  | 0, r, _ => r
  | fuel + 1, r, actor =>
      match r.nextSignal? actor with
      | none => r
      | some (signal, r) => takeTurn fuel (r.follow actor signal) actor

/-- Let the tasks take turns, and the clock move, until the caller can go on. It can when one of
its timers has fired, or when nobody stands in line and it has what it waits for. -/
def pump (isReady : Rehearsal → Bool) : Nat → Rehearsal → Rehearsal
  | 0, r => r
  | fuel + 1, r =>
      match r.line with
      | actor :: line => pump isReady fuel (takeTurn budget { r with line } actor)
      | [] =>
          if isReady r then r
          else
            match r.advance? with
            | none => r
            | some r => if r.hasSignal .caller then r else pump isReady fuel r

end BucketMigration.Rehearsal
