import BucketMigration.World.Basic

/-!
# Rehearsals

A rehearsal runs jobs over stores in memory, on a clock of its own, in one fixed order. It only
ever does actions of a `World`; what it adds is the choice of the next one.

One caller and the tasks of all jobs take turns. A task that can go on stands in line and goes on,
when its turn comes, until it has to wait. The caller goes on when it has what it waits for and
nobody stands in line. When nobody can go on, the clock moves to the next deadline; timers that
are due together fire in the order in which they were set.

This module has the state, the clock, the answers that are given in place of a store, and the call
of a storage operation.
-/

namespace BucketMigration

/-- Who takes turns: the caller, and the tasks of every job. -/
inductive Actor
  | caller
  | task (job task : Nat)
deriving DecidableEq, Repr, Inhabited

inductive Signal
  | acquire
  | start
  /-- The call of a lane can finish. -/
  | lane (lane : Lane)
  | wake
  | part
  /-- A place in the result queue was promised, or the queue was closed. -/
  | queue
  /-- A place has been waited for long enough. -/
  | expire
  | slept
  /-- A storage call that the caller made itself can finish. -/
  | call (index : Nat)
deriving DecidableEq, Repr, Inhabited

structure Timer where
  deadline : Nat
  actor : Actor
  signal : Signal
deriving DecidableEq, Repr, Inhabited

inductive Response
  | reply (reply : Reply)
  | panic (reason : String)
deriving Inhabited

/-- An answer in place of a store, for the calls that it names. What is left out matches every
call; a missing budget is endless. -/
structure Script where
  operation : Operation
  side : Option Side := none
  key : Option String := none
  part : Option Int := none
  budget : Option Nat := none
  response : Response
deriving Inhabited

namespace Script

def applies (s : Script) (c : Call) : Bool :=
  s.operation == c.request.operation && s.budget != some 0 && s.side.all (· == c.side)
    && s.key.all (· == c.request.key) && s.part.all fun part => c.request.part? == some part

/-- The response of the first script that applies, which loses one unit of its budget. -/
def respond? (c : Call) : List Script → Option (Response × List Script)
  | [] => none
  | s :: rest =>
      if s.applies c then some (s.response, { s with budget := s.budget.map (· - 1) } :: rest)
      else (respond? c rest).map fun (response, rest) => (response, s :: rest)

end Script

structure Manager where
  world : World
  tally : Nat

/-- The state of a rehearsal. Stores, results and tallies are shared by all jobs, so they are kept
here and put into the world of a job for each action. Trace and logs have the newest entry
first. -/
structure Rehearsal where
  stores : Stores
  now : Int
  results : Option ResultQueue := none
  tallies : List Progress := []
  managers : List Manager := []
  clockMs : Nat := 0
  /-- The tasks that can go on, in order. -/
  line : List Actor := []
  signals : List (Actor × Signal) := []
  /-- The tasks that wait for a slot, by job and number. -/
  slotLine : List (Nat × Nat) := []
  /-- The tasks that wait for a place in the result queue. -/
  placeLine : List (Nat × Nat) := []
  timers : List Timer := []
  /-- The tasks that are over, in the order in which they ended. -/
  ended : List (Nat × Nat) := []
  scripts : List Script := []
  trace : List Call := []
  logs : List LogLine := []
  hasPanicked : Bool := false

namespace Rehearsal

variable (r : Rehearsal)

/-- More steps than a rehearsal is ever meant to take without waiting for its caller. -/
def budget : Nat := 10000000

def world? (job : Nat) : Option World :=
  (r.managers[job]?).map fun m =>
    let progress := r.tallies.getD m.tally {}
    { m.world with
      job := { m.world.job with progress, results := r.results }
      stores := r.stores
      now := r.now }

def setWorld (job : Nat) (world : World) : Rehearsal :=
  match r.managers[job]? with
  | none => r
  | some m =>
      { r with
        managers := r.managers.set job { m with world }
        tallies := r.tallies.set m.tally world.job.progress
        results := world.job.results
        stores := world.stores }

def act? (job : Nat) (action : WorldAction) : Option (Rehearsal × Option Return) := do
  let world ← r.world? job
  let t ← world.act action
  let r := r.setWorld job t.world
  return ({ r with logs := t.logs.reverse ++ r.logs }, t.returned)

def act (job : Nat) (action : WorldAction) : Rehearsal :=
  ((r.act? job action).map Prod.fst).getD r

def addManager (job : Job) (tally : Option Nat) : Rehearsal :=
  let world : World := { job, stores := r.stores, now := r.now }
  match tally with
  | some tally => { r with managers := r.managers ++ [⟨world, tally⟩] }
  | none =>
      { r with
        managers := r.managers ++ [⟨world, r.tallies.length⟩]
        tallies := r.tallies ++ [{}] }

/-- Tell an actor that it can go on. A task stands in line for that. -/
def notify (actor : Actor) (signal : Signal) : Rehearsal :=
  let line :=
    match actor with
    | .caller => r.line
    | .task .. => if actor ∈ r.line then r.line else r.line ++ [actor]
  { r with signals := r.signals ++ [(actor, signal)], line }

def nextSignal? (actor : Actor) : Option (Signal × Rehearsal) :=
  match r.signals.find? fun s => s.1 == actor with
  | none => none
  | some s => some (s.2, { r with signals := r.signals.erase s })

def hasSignal (actor : Actor) : Bool :=
  r.signals.any fun s => s.1 == actor

def setTimer (ms : Nat) (actor : Actor) (signal : Signal) : Rehearsal :=
  { r with timers := r.timers ++ [⟨r.clockMs + ms, actor, signal⟩] }

def silence (actor : Actor) : Rehearsal :=
  { r with
    signals := r.signals.filter fun s => s.1 != actor
    timers := r.timers.filter fun t => t.actor != actor }

/-- Move the clock to the next deadline and fire the timers that are due. -/
def advance? : Option Rehearsal :=
  match (r.timers.map Timer.deadline).min? with
  | none => none
  | some deadline =>
      let due := r.timers.filter fun t => t.deadline ≤ deadline
      let r :=
        { r with
          clockMs := max r.clockMs deadline
          timers := r.timers.filter fun t => !(t.deadline ≤ deadline) }
      some (due.foldl (fun r t => r.notify t.actor t.signal) r)

inductive Exchange
  | replied
  | waits
  | panicked (reason : String)
deriving Inhabited

/-- Make the call that a caller waits for. It is traced first. A script may answer it; a store may
let it wait, and then the actor is told when it can finish. -/
def exchange (job : Nat) (caller : Caller) (actor : Actor) (signal : Signal) :
    Rehearsal × Exchange :=
  match (r.world? job).bind fun w => w.call? caller with
  | none => (r, .waits)
  | some call =>
      let r := { r with trace := call :: r.trace }
      match Script.respond? call r.scripts with
      | some (.panic reason, scripts) => ({ r with scripts }, .panicked reason)
      | some (.reply reply, scripts) =>
          let r := { r with scripts }
          (r.act job (.answer caller reply), .replied)
      | none =>
          let delay := (r.stores.get call.side).delayMs call.request
          let r := r.act job (.enter caller)
          match (r.world? job).bind fun w => w.callState? caller with
          | some (.answered _) => (r, .replied)
          | _ =>
              if delay = 0 then (r.act job (.finish caller), .replied)
              else (r.setTimer delay actor signal, .waits)

end Rehearsal

end BucketMigration
