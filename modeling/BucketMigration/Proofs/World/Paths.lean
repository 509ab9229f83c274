import BucketMigration.Proofs.Job.Waits
import BucketMigration.Proofs.World.Solo

/-!
# What an action does to a world

Most actions of a world are actions of its job, or halves of a call to a store. `World.act_deed` says
once what each of them does. A path keeps every action together with the world that it was done to
and with what came of it.
-/

namespace BucketMigration

namespace WorldAction

def feed? : WorldAction → Option Nat
  | job action => action.feed?
  | enter (.feed i) | finish (.feed i) | answer (.feed i) _ | deliver (.feed i) => some i
  | _ => none

/-- What the object that is migrated on its own does, but for its calls. -/
def isAside : WorldAction → Bool
  | soloStart _ | soloWake | soloPart | soloEnd | deliver (.solo _) => true
  | _ => false

end WorldAction

namespace World

/-- An action, with the world before it and what came of it. -/
structure Event where
  before : World
  action : WorldAction
  after : WorldTransition

/-- What happens one after the other from `start` on. -/
inductive Path (start : World) : List Event → World → Prop
  | start : Path start [] start
  | step {events : List Event} {w : World} {action : WorldAction} {t : WorldTransition}
      (h : Path start events w) (hact : w.act action = some t) :
      Path start (events ++ [⟨w, action, t⟩]) t.world

/-- The events of some actions one after the other, if the worlds allow them. -/
def run? (w : World) : List WorldAction → Option (List Event × World)
  | [] => some ([], w)
  | action :: rest =>
      (w.act action).bind fun t =>
        (t.world.run? rest).map fun (events, last) => (⟨w, action, t⟩ :: events, last)

/-- What only touches the object that is migrated on its own, and the tally. -/
structure Aside (w v : World) : Prop where
  job : ∃ progress, v.job = { w.job with progress }
  stores : v.stores = w.stores
  calls : ∀ caller, (∀ lane, caller ≠ .solo lane) → v.callState? caller = w.callState? caller

inductive Deed (w : World) : WorldAction → WorldTransition → Prop
  | job {action : JobAction} {t : Transition} (hinternal : isInternal action = true)
      (hact : w.job.act action = some t) : Deed w (.job action) (w.ofTransition t)
  | enter {caller : Caller} {call : Call} (hcall : w.call? caller = some call)
      (hfree : w.callState? caller = none) : Deed w (.enter caller) { world := w.enter caller call }
  | finish {caller : Caller} {call : Call} (hcall : w.call? caller = some call)
      (hentered : w.callState? caller = some .entered) :
      Deed w (.finish caller) { world := w.finish caller call }
  | answer {caller : Caller} {call : Call} (reply : Reply) (hcall : w.call? caller = some call)
      (hfree : w.callState? caller = none) :
      Deed w (.answer caller reply) { world := w.setCall caller (.answered reply) }
  | toTask {task : Nat} {lane : Lane} {reply : Reply} {t : Transition}
      (hanswered : w.callState? (.task task lane) = some (.answered reply))
      (hact : w.job.act (.reply task lane reply) = some t) :
      Deed w (.deliver (.task task lane)) ((w.clearCall (.task task lane)).ofTransition t)
  | toFeed {i : Nat} {reply : Reply} {t : Transition}
      (hanswered : w.callState? (.feed i) = some (.answered reply))
      (hact : w.job.act (.listed i reply) = some t) :
      Deed w (.deliver (.feed i)) ((w.clearCall (.feed i)).ofTransition t)
  | panic {task : Nat} {reason : String} {t : Transition}
      (hact : w.job.act (.panic task reason) = some t) :
      Deed w (.panic task reason) ((w.clearTask task).ofTransition t)
  | pass (seconds : Nat) : Deed w (.pass seconds) { world := { w with now := w.now + seconds } }
  | aside {action : WorldAction} {t : WorldTransition} (haction : action.isAside = true)
      (haside : w.Aside t.world) (hreturned : t.returned = none) : Deed w action t

variable {w start : World} {action : WorldAction} {t : WorldTransition}

theorem aside_runSolo (w : World) (next : ObjectCopy.Next) : w.Aside (w.runSolo next).world :=
  ⟨⟨_, rfl⟩, rfl, fun _ _ => rfl⟩

theorem deliver_deed {caller : Caller} {reply : Reply}
    (hanswered : w.callState? caller = some (.answered reply))
    (h : w.deliver caller reply = some t) : w.Deed (.deliver caller) t := by
  unfold deliver at h
  cases caller with
  | task task lane =>
    obtain ⟨u, hact, rfl⟩ := Option.map_eq_some_iff.mp h
    exact .toTask hanswered hact
  | feed i =>
    obtain ⟨u, hact, rfl⟩ := Option.map_eq_some_iff.mp h
    exact .toFeed hanswered hact
  | solo lane =>
    obtain ⟨copy, -, hnext⟩ := Option.bind_eq_some_iff.mp h
    obtain ⟨next, -, rfl⟩ := Option.map_eq_some_iff.mp hnext
    refine .aside rfl ⟨⟨_, rfl⟩, rfl, fun caller hcaller => ?_⟩ rfl
    have hclear := callState?_clearCall w (.solo lane) caller
    rw [if_neg (hcaller lane)] at hclear
    exact hclear

theorem act_deed (h : w.act action = some t) : w.Deed action t := by
  unfold act at h
  cases action with
  | job action =>
    dsimp only at h
    split at h
    · rename_i hinternal
      obtain ⟨u, hact, rfl⟩ := Option.map_eq_some_iff.mp h
      exact .job hinternal hact
    · cases h
  | enter caller =>
    dsimp only at h
    split at h
    · rename_i hcall hfree
      cases h
      exact .enter hcall hfree
    · cases h
  | finish caller =>
    dsimp only at h
    split at h
    · rename_i hcall hentered
      cases h
      exact .finish hcall hentered
    · cases h
  | answer caller reply =>
    dsimp only at h
    split at h
    · rename_i hcall hfree
      cases h
      exact .answer reply hcall hfree
    · cases h
  | deliver caller =>
    dsimp only at h
    split at h
    · rename_i hanswered
      exact deliver_deed hanswered h
    · cases h
  | panic task reason =>
    obtain ⟨u, hact, rfl⟩ := Option.map_eq_some_iff.mp h
    exact .panic hact
  | pass seconds =>
    cases h
    exact .pass seconds
  | soloStart object =>
    dsimp only at h
    split at h
    · cases h
    · cases h
      exact .aside rfl (aside_runSolo ..) rfl
  | soloWake | soloPart =>
    obtain ⟨copy, -, hnext⟩ := Option.bind_eq_some_iff.mp h
    obtain ⟨next, -, rfl⟩ := Option.map_eq_some_iff.mp hnext
    exact .aside rfl (aside_runSolo ..) rfl
  | soloEnd =>
    obtain ⟨copy, -, hend⟩ := Option.bind_eq_some_iff.mp h
    obtain ⟨verdict, -, rfl⟩ := Option.map_eq_some_iff.mp hend
    exact .aside rfl ⟨⟨_, rfl⟩, rfl, fun _ _ => rfl⟩ rfl

theorem Path.run {before events : List Event} {v : World} {actions : List WorldAction}
    (h : Path start before w) (hrun : w.run? actions = some (events, v)) :
    Path start (before ++ events) v := by
  induction actions generalizing before events w with
  | nil =>
    cases hrun
    rw [List.append_nil]
    exact h
  | cons action rest ih =>
    obtain ⟨t, hact, hrest⟩ := Option.bind_eq_some_iff.mp hrun
    obtain ⟨⟨tail, last⟩, htail, heq⟩ := Option.map_eq_some_iff.mp hrest
    cases heq
    rw [List.append_cons]
    exact ih (h.step hact) htail

theorem path_of_run? {events : List Event} {actions : List WorldAction}
    (hrun : start.run? actions = some (events, w)) : Path start events w :=
  Path.start.run hrun

theorem Deed.job_cases (h : w.Deed action t) (haside : action.isAside = false) :
    t.world.job = w.job ∨ w.job.Step t.world.job := by
  cases h with
  | job _ hact => exact .inr ⟨_, _, hact, rfl⟩
  | enter => exact .inl (by rw [enter_eq]; rfl)
  | finish | answer | pass => exact .inl rfl
  | toTask _ hact => exact .inr ⟨_, _, hact, rfl⟩
  | toFeed _ hact => exact .inr ⟨_, _, hact, rfl⟩
  | panic hact => exact .inr ⟨_, _, hact, rfl⟩
  | aside haction =>
    rw [haction] at haside
    cases haside

theorem Deed.setup_eq (h : w.Deed action t) : t.world.job.setup = w.job.setup := by
  cases h with
  | job _ hact => exact (Job.act_deed hact).move.1.setup
  | enter => rw [enter_eq]; rfl
  | finish | answer | pass => rfl
  | toTask _ hact => exact (Job.act_deed hact).move.1.setup
  | toFeed _ hact => exact (Job.act_deed hact).move.1.setup
  | panic hact => exact (Job.act_deed hact).move.1.setup
  | aside _ haside =>
    obtain ⟨progress, hjob⟩ := haside.job
    rw [hjob]

theorem callState?_clearTask_self (w : World) (task : Nat) (lane : Lane) :
    (w.clearTask task).callState? (.task task lane) = none := by
  unfold callState? clearTask
  rw [List.find?_filter, Option.map_eq_none_iff, List.find?_eq_none]
  intro c _
  by_cases hc : c.1 = .task task lane
  · simp [hc]
  · simp [hc]

theorem callState?_clearTask_of_ne (w : World) {task : Nat} {caller : Caller}
    (h : ∀ lane, caller ≠ .task task lane) :
    (w.clearTask task).callState? caller = w.callState? caller := by
  unfold callState? clearTask
  rw [List.find?_filter]
  congr 2
  funext c
  by_cases hc : c.1 = caller
  · subst hc
    split
    · rename_i other lane heq
      have hne : other ≠ task := by
        rintro rfl
        exact h lane heq
      simp [hne]
    · simp
  · simp [hc]

theorem Deed.feed_eq (h : w.Deed action t) {i : Nat} (hother : action.feed? ≠ some i) {feed : Feed}
    (hi : w.job.feeds[i]? = some feed) :
    t.world.job.feeds[i]? = some feed ∧ t.world.callState? (.feed i) = w.callState? (.feed i) := by
  cases h with
  | job _ hact => exact ⟨(Job.act_deed hact).feeds_eq hother hi, rfl⟩
  | @enter caller =>
    refine ⟨by rw [enter_eq]; exact hi, ?_⟩
    rw [enter_eq, callState?_setCall, if_neg]
    · rfl
    · rintro rfl
      exact hother rfl
  | @finish caller =>
    refine ⟨hi, ?_⟩
    rw [World.finish, callState?_setCall, if_neg]
    · rfl
    · rintro rfl
      exact hother rfl
  | @answer caller =>
    refine ⟨hi, ?_⟩
    rw [callState?_setCall, if_neg]
    rintro rfl
    exact hother rfl
  | @toTask task lane reply u _ hact =>
    have hclear := callState?_clearCall w (.task task lane) (.feed i)
    rw [if_neg Caller.noConfusion] at hclear
    exact ⟨(Job.act_deed hact).feeds_eq (by simp [JobAction.feed?]) hi, hclear⟩
  | @toFeed j reply u _ hact =>
    have hne : Caller.feed i ≠ .feed j := by
      intro heq
      cases heq
      exact hother rfl
    have hclear := callState?_clearCall w (.feed j) (.feed i)
    rw [if_neg hne] at hclear
    exact ⟨(Job.act_deed hact).feeds_eq hother hi, hclear⟩
  | @panic task reason u hact =>
    exact ⟨(Job.act_deed hact).feeds_eq (by simp [JobAction.feed?]) hi,
      callState?_clearTask_of_ne w fun _ => Caller.noConfusion⟩
  | pass => exact ⟨hi, rfl⟩
  | aside _ haside =>
    obtain ⟨progress, hjob⟩ := haside.job
    rw [hjob]
    exact ⟨hi, haside.calls _ fun _ => Caller.noConfusion⟩

end World

end BucketMigration
