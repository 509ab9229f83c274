import BucketMigration.Job.Action
import BucketMigration.Store.Basic

/-!
# Worlds

A job together with the stores that its calls go to. A call is made in two halves: it enters a
store, and it is answered when its work is done, which for a data call may be later. The reply is
then handed to the task or feed that waits for it. A reply may also come from somewhere else than
a store. As for jobs, the order of actions is free.

Beside the tasks of the job there may be one object that is migrated on its own, without a slot,
a result or a recorded failure.
-/

namespace BucketMigration

/-- The stores behind the two sides of a migration. -/
inductive Stores
  | shared (store : Store)
  | separate (source target : Store)

namespace Stores

def get : Stores → Side → Store
  | shared store, _ => store
  | separate source _, .source => source
  | separate _ target, .target => target

def set : Stores → Side → Store → Stores
  | shared _, _, store => shared store
  | separate _ target, .source, store => separate store target
  | separate source _, .target, store => separate source store

@[simp] theorem get_set (s : Stores) (side : Side) (store : Store) :
    (s.set side store).get side = store := by
  cases s <;> cases side <;> rfl

end Stores

inductive Caller
  | task (task : Nat) (lane : Lane)
  | feed (feed : Nat)
  | solo (lane : Lane)
deriving DecidableEq, Repr, Inhabited

/-- A call that was made and whose reply has not been handed over. -/
inductive CallState
  | entered
  | answered (reply : Reply)
deriving Inhabited

structure World where
  job : Job
  stores : Stores
  /-- The time that objects are stamped with. -/
  now : Int
  calls : List (Caller × CallState) := []
  solo : Option ObjectCopy := none

inductive WorldAction
  | job (action : JobAction)
  /-- A call enters the store of its side. -/
  | enter (caller : Caller)
  /-- The store does the work of a call that has entered. -/
  | finish (caller : Caller)
  /-- A call is answered without a store. -/
  | answer (caller : Caller) (reply : Reply)
  /-- The reply is handed to the caller. -/
  | deliver (caller : Caller)
  /-- A client call of a task panics; calls of the task that are under way are given up. -/
  | panic (task : Nat) (reason : String)
  | pass (seconds : Nat)
  | soloStart (object : ObjectDescriptor)
  | soloWake
  | soloPart
  | soloEnd
deriving Inhabited

structure WorldTransition where
  world : World
  logs : List LogLine := []
  returned : Option Return := none

namespace World

variable (w : World)

def call? : Caller → Option Call
  | .task task lane => w.job.taskCall? task lane
  | .feed feed => w.job.feedCall? feed
  | .solo lane => w.solo.bind fun copy => copy.call? w.job.setup lane

def callState? (caller : Caller) : Option CallState :=
  (w.calls.find? fun c => c.1 == caller).map Prod.snd

def setCall (caller : Caller) (state : CallState) : World :=
  { w with calls := (caller, state) :: w.calls.filter fun c => c.1 != caller }

def clearCall (caller : Caller) : World :=
  { w with calls := w.calls.filter fun c => c.1 != caller }

def clearTask (task : Nat) : World :=
  { w with calls := w.calls.filter fun c =>
      match c.1 with
      | .task t _ => t != task
      | _ => true }

def ofTransition (t : Transition) : WorldTransition :=
  { world := { w with job := t.job }, logs := t.logs, returned := t.returned }

def runSolo (next : ObjectCopy.Next) : WorldTransition :=
  let (job, logs) := w.job.absorb next.2
  { world := { w with job, solo := some next.1 }, logs }

/-- A call enters the store of its side; a fault answers it there and then. -/
def enter (caller : Caller) (call : Call) : World :=
  let (result, store) := (w.stores.get call.side).enter call.request
  let w := { w with stores := w.stores.set call.side store }
  match result with
  | .error e => w.setCall caller (.answered (.error e))
  | .ok () => w.setCall caller .entered

def finish (caller : Caller) (call : Call) : World :=
  let (reply, store) := (w.stores.get call.side).finish w.now call.request
  { w with stores := w.stores.set call.side store }.setCall caller (.answered reply)

def deliver (caller : Caller) (reply : Reply) : Option WorldTransition :=
  let w := w.clearCall caller
  match caller with
  | .task task lane => (w.job.act (.reply task lane reply)).map w.ofTransition
  | .feed feed => (w.job.act (.listed feed reply)).map w.ofTransition
  | .solo lane => w.solo.bind fun copy => (copy.resume w.job.setup lane reply).map w.runSolo

/-- The actions of a job that the world leaves to it. Replies come through `deliver` and panics
through `panic`. -/
def isInternal : JobAction → Bool
  | .reply .. | .listed .. | .panic .. => false
  | _ => true

def act (action : WorldAction) : Option WorldTransition :=
  match action with
  | .job action => if isInternal action then (w.job.act action).map w.ofTransition else none
  | .enter caller =>
      match w.call? caller, w.callState? caller with
      | some call, none => some { world := w.enter caller call }
      | _, _ => none
  | .finish caller =>
      match w.call? caller, w.callState? caller with
      | some call, some .entered => some { world := w.finish caller call }
      | _, _ => none
  | .answer caller reply =>
      match w.call? caller, w.callState? caller with
      | some _, none => some { world := w.setCall caller (.answered reply) }
      | _, _ => none
  | .deliver caller =>
      match w.callState? caller with
      | some (.answered reply) => w.deliver caller reply
      | _ => none
  | .panic task reason => (w.job.act (.panic task reason)).map (w.clearTask task).ofTransition
  | .pass seconds => some { world := { w with now := w.now + seconds } }
  | .soloStart object =>
      if w.solo.isSome then none else some (w.runSolo (ObjectCopy.start w.job.setup object))
  | .soloWake => w.solo.bind fun copy => copy.wake.map w.runSolo
  | .soloPart => w.solo.bind fun copy => (copy.startPart w.job.setup).map w.runSolo
  | .soloEnd =>
      w.solo.bind fun copy =>
        copy.verdict?.map fun _ => { world := { w with solo := none } }

def Step (w next : World) : Prop :=
  ∃ action t, w.act action = some t ∧ t.world = next

/-- Worlds that can come about from `start` by actions in some order. -/
inductive Reach (start : World) : World → Prop
  | refl : Reach start start
  | step {w next : World} : Reach start w → w.Step next → Reach start next

end World

end BucketMigration
