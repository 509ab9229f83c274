import BucketMigration.Proofs.World.Paths
import BucketMigration.Proofs.World.Tracks

/-!
# What the tasks of a world have left

Every task has left what its stage tells, and the stores hold what they held at first and what the
tasks have left. Each action of a job over stores keeps this, whatever fails and however tasks and parts
take turns.
-/

namespace BucketMigration

namespace Job

variable {job : Job}

theorem Work.exists_spawned {base : Job} (h : job.Work base) :
    ∃ objects : List ObjectDescriptor,
      base.tasks = job.tasks ++ objects.map fun d => ⟨d, .queued⟩ := by
  cases h with
  | still => exact ⟨[], by simp⟩
  | spawn objects => exact ⟨objects, rfl⟩
  | halt => exact ⟨[], by simp⟩

theorem exists_spawned {action : JobAction} {t : Transition} (hown : action.task? = none)
    (h : job.act action = some t) :
    ∃ objects : List ObjectDescriptor,
      t.job.tasks = job.tasks ++ objects.map fun d => ⟨d, .queued⟩ := by
  cases act_deed h with
  | task hsome =>
    rw [hown] at hsome
    cases hsome
  | feed _ _ hmove hnext =>
    obtain ⟨objects, hobjects⟩ := hmove.work.exists_spawned
    rw [hnext]
    exact ⟨objects, hobjects⟩
  | other _ _ _ hwork _ htasks =>
    rw [htasks]
    exact hwork.exists_spawned

end Job

section TaskAt

variable {S₀ : Stores} {setup : Setup} {calm alone : Prop} {object : ObjectDescriptor}
  {lanes : Lane → Option CallState} {trail : Trail}

theorem TaskAt.running_inv {c : ObjectCopy}
    (h : TaskAt S₀ setup calm alone object (.running c) lanes trail) :
    c.object = object ∧ CopyAt S₀ setup calm alone object c lanes trail := by
  cases h with
  | running hobject h => exact ⟨hobject, h⟩
  | judged hstage => cases hstage

theorem TaskAt.judged_inv {stage : TaskStage} {v : Verdict} (hstage : stage.verdict? = some v)
    (h : TaskAt S₀ setup calm alone object stage lanes trail) :
    (∀ lane, lanes lane = none) ∧ Final S₀ setup calm object v trail := by
  cases h with
  | judged hstage' hidle h =>
    rw [hstage] at hstage'
    cases hstage'
    exact ⟨hidle, h⟩
  | queued | granted | running | panicked => cases hstage

theorem CopyAt.of_verdict? {c : ObjectCopy} {v : Verdict}
    (h : CopyAt S₀ setup calm alone object c lanes trail) (hv : c.verdict? = some v) :
    (∀ lane, lanes lane = none) ∧ Final S₀ setup calm object v trail := by
  have hphase := ObjectCopy.phase_of_verdict? hv
  cases h with
  | ended hphase' hidle hfinal =>
    rw [hphase] at hphase'
    cases hphase'
    exact ⟨hidle, hfinal⟩
  | calling hcall => simp [ObjectCopy.call?, hphase] at hcall
  | pausing hphase' | copying hphase' | overflowed hphase' =>
    rw [hphase] at hphase'
    cases hphase'

theorem CopyAt.trail_of_overflowed {c : ObjectCopy}
    (h : CopyAt S₀ setup calm alone object c lanes trail) (hphase : c.phase = .overflowed) :
    trail = {} := by
  cases h with
  | overflowed _ _ htrail => exact htrail
  | calling hcall => simp [ObjectCopy.call?, hphase] at hcall
  | pausing hphase' | copying hphase' | ended hphase' =>
    rw [hphase] at hphase'
    cases hphase'

theorem Ready.written_eq_none {phase : Phase} (h : Ready S₀ setup object phase trail) :
    trail.written = none := by
  cases h <;> rfl

theorem Deal.written_key {call : Call} {reply : Reply} {before : Trail}
    (h : Deal S₀ setup object before alone call reply trail) (hnone : before.written = none)
    {x : String × StoredObject} (hx : trail.written = some x) : x.1 = setup.targetKey object.key := by
  have hold : ∀ {other : Trail}, other.written = none → ¬other.written = some x := by
    intro other hother hsome
    rw [hother] at hsome
    cases hsome
  cases h with
  | put | complete =>
    cases hx
    rfl
  | describe | compare | read | create | part | abort => exact absurd hx (hold hnone)

theorem Final.written_key {v : Verdict} (h : Final S₀ setup calm object v trail)
    {x : String × StoredObject} (hx : trail.written = some x) : x.1 = setup.targetKey object.key := by
  cases h with
  | direct | inParts =>
    cases hx
    rfl
  | current | failed | left => cases hx

theorem CopyAt.written_key {c : ObjectCopy} (h : CopyAt S₀ setup calm alone object c lanes trail)
    {x : String × StoredObject} (hx : trail.written = some x) : x.1 = setup.targetKey object.key := by
  cases h with
  | calling _ hready _ hcalling =>
    have hnone := hready.written_eq_none
    generalize lanes .whole = state at hcalling
    cases hcalling with
    | due | entered | refused =>
      rw [hnone] at hx
      cases hx
    | answered hdeal => exact hdeal.written_key hnone hx
  | copying _ _ _ hpieces =>
    rw [hpieces.trail] at hx
    cases hx
  | pausing _ _ htrail | overflowed _ _ htrail =>
    rw [htrail] at hx
    cases hx
  | ended _ _ hfinal => exact hfinal.written_key hx

theorem TaskAt.written_key {stage : TaskStage} (h : TaskAt S₀ setup calm alone object stage lanes trail)
    {x : String × StoredObject} (hx : trail.written = some x) : x.1 = setup.targetKey object.key := by
  cases h with
  | queued | granted | panicked => cases hx
  | running _ h => exact h.written_key hx
  | judged _ _ h => exact h.written_key hx

theorem TaskAt.goes {job : Job} (hsetup : job.setup = setup) {action : JobAction}
    (hinternal : World.isInternal action = true) {stage stage' : TaskStage} {course : Job.Course}
    (h : TaskAt S₀ setup calm alone object stage lanes trail)
    (hgoes : job.Goes object action stage stage' course) :
    TaskAt S₀ setup calm alone object stage' lanes trail := by
  subst hsetup
  cases hgoes with
  | grant =>
    cases h with
    | queued hidle => exact .granted hidle
    | judged hstage => cases hstage
  | refuse =>
    cases h with
    | granted hidle => exact .running rfl (copyAt_refuse hidle _)
    | judged hstage => cases hstage
  | start =>
    cases h with
    | granted hidle => exact .running (ObjectCopy.object_start ..) (copyAt_start hidle)
    | judged hstage => cases hstage
  | reply | panic => cases hinternal
  | wake _ hnext =>
    obtain ⟨hobject, hcopy⟩ := h.running_inv
    have hmoves : ObjectCopy.Moves job.setup _ _ := .wake hnext
    exact .running (hmoves.object_eq.trans hobject) (hcopy.wake hnext)
  | startPart _ hnext =>
    obtain ⟨hobject, hcopy⟩ := h.running_inv
    have hmoves : ObjectCopy.Moves job.setup _ _ := .startPart hnext
    exact .running (hmoves.object_eq.trans hobject) (hcopy.startPart hobject hnext)
  | release _ hv =>
    obtain ⟨hidle, hfinal⟩ := h.running_inv.2.of_verdict? hv
    exact .judged rfl hidle hfinal
  | account =>
    obtain ⟨hidle, hfinal⟩ := h.judged_inv rfl
    refine .judged ?_ hidle hfinal
    split <;> rfl
  | place =>
    obtain ⟨hidle, hfinal⟩ := h.judged_inv rfl
    exact .judged rfl hidle hfinal
  | finish _ hstage =>
    obtain ⟨hidle, hfinal⟩ := h.judged_inv (by rcases hstage with rfl | rfl <;> rfl)
    exact .judged rfl hidle hfinal

end TaskAt

namespace World

def lanes (w : World) (t : Nat) (lane : Lane) : Option CallState :=
  w.callState? (.task t lane)

namespace Event

/-- Whether this happens to a job over stores: each call is answered by its store, nothing but the
tasks of the job is migrated, and a task panics only when no layout could be computed for it. -/
def isServed (e : Event) : Bool :=
  match e.action with
  | .answer .. => false
  | .panic task _ =>
      match e.before.job.stage? task with
      | some (.running c) => (c.phase matches .overflowed)
      | _ => false
  | action => !action.isAside

/-- What a call of a task has written when its store has worked on it. -/
def write? (e : Event) : Option Write :=
  match e.action with
  | .finish (.task t lane) =>
      match e.before.call? (.task t lane), e.after.world.lanes t lane with
      | some call, some (.answered reply) => call.write? t reply e.after.world.stores
      | _, _ => none
  | _ => none

def writes (events : List Event) : List Write :=
  events.filterMap write?

theorem writes_snoc (events : List Event) (e : Event) :
    writes (events ++ [e]) = writes events ++ e.write?.toList := by
  rw [writes, List.filterMap_append]
  cases hwrite : e.write? <;> simp [hwrite, writes]

variable {e : Event}

theorem isAside_eq_false (h : e.isServed = true) : e.action.isAside = false := by
  obtain ⟨before, action, after⟩ := e
  cases action with
  | soloStart | soloWake | soloPart | soloEnd => cases h
  | deliver caller =>
    cases caller with
    | solo => cases h
    | task | feed => rfl
  | _ => rfl

theorem exists_overflowed {task : Nat} {reason : String} (h : e.isServed = true)
    (haction : e.action = .panic task reason) :
    ∃ c, e.before.job.stage? task = some (.running c) ∧ c.phase = .overflowed := by
  simp only [isServed, haction] at h
  split at h
  · rename_i c hstage
    split at h
    · exact ⟨c, hstage, ‹_›⟩
    · cases h
  · cases h

end Event

def KeysApart (w : World) : Prop :=
  ∀ (t u : Nat) (task other : Task), w.job.tasks[t]? = some task → w.job.tasks[u]? = some other → t ≠ u →
    w.job.setup.targetKey task.object.key ≠ w.job.setup.targetKey other.object.key

/-- The tasks of a world have left `trails`, and the stores hold these. -/
structure Tracked (S₀ : Stores) (setup : Setup) (calm alone : Prop) (trails : Nat → Trail)
    (writes : List Write) (w : World) : Prop where
  setup_eq : w.job.setup = setup
  solo : w.solo = none
  ledger : Ledger S₀ setup calm trails writes w.stores
  task : ∀ t task, w.job.tasks[t]? = some task →
    TaskAt S₀ setup calm alone task.object task.stage (w.lanes t) (trails t)
  rest : ∀ t, w.job.tasks[t]? = none → trails t = {} ∧ ∀ lane, w.lanes t lane = none

section Tracked

variable {S₀ : Stores} {setup : Setup} {calm alone : Prop} {trails : Nat → Trail}
  {writes : List Write} {w v : World}

theorem tracked_start (htasks : w.job.tasks = []) (hcalls : w.calls = []) (hsolo : w.solo = none)
    (hapart : w.stores.Apart w.job.setup) (hfresh : (w.stores.get .target).FreshIds)
    (hfaults : calm → ∀ side, (w.stores.get side).faults = []) :
    Tracked w.stores w.job.setup calm alone (fun _ => {}) [] w where
  setup_eq := rfl
  solo := hsolo
  ledger := ledger_start hapart hfresh hfaults
  task := by
    intro t task ht
    rw [htasks] at ht
    cases ht
  rest := by
    intro t _
    refine ⟨rfl, fun lane => ?_⟩
    rw [lanes, callState?, hcalls]
    rfl

theorem Tracked.spawn (h : Tracked S₀ setup calm alone trails writes w) {objects : List ObjectDescriptor}
    (htasks : v.job.tasks = w.job.tasks ++ objects.map fun d => ⟨d, .queued⟩)
    (hsetup : v.job.setup = w.job.setup) (hsolo : v.solo = w.solo)
    (hledger : Ledger S₀ setup calm trails writes v.stores) (hlanes : ∀ t, v.lanes t = w.lanes t) :
    Tracked S₀ setup calm alone trails writes v where
  setup_eq := hsetup.trans h.setup_eq
  solo := hsolo.trans h.solo
  ledger := hledger
  task := by
    intro t task ht
    rw [hlanes]
    rw [htasks] at ht
    by_cases hlt : t < w.job.tasks.length
    · rw [List.getElem?_append_left hlt] at ht
      exact h.task t task ht
    · obtain ⟨htrail, hidle⟩ := h.rest t (List.getElem?_eq_none (Nat.le_of_not_lt hlt))
      rw [List.getElem?_append_right (Nat.le_of_not_lt hlt), List.getElem?_map,
        Option.map_eq_some_iff] at ht
      obtain ⟨d, -, rfl⟩ := ht
      rw [htrail]
      exact .queued hidle
  rest := by
    intro t ht
    rw [hlanes]
    rw [htasks, List.getElem?_append, ite_eq_iff] at ht
    rcases ht with ⟨-, hnone⟩ | ⟨hge, -⟩
    · exact h.rest t hnone
    · exact h.rest t (List.getElem?_eq_none (Nat.le_of_not_lt hge))

theorem Tracked.change (h : Tracked S₀ setup calm alone trails writes w) {t : Nat}
    {object : ObjectDescriptor} {stage stage' : TaskStage} {trail : Trail} {writes' : List Write}
    (ht : w.job.tasks[t]? = some ⟨object, stage⟩)
    (htasks : ∀ u, v.job.tasks[u]? =
      if u = t then some ⟨object, stage'⟩ else w.job.tasks[u]?)
    (hsetup : v.job.setup = w.job.setup) (hsolo : v.solo = w.solo)
    (hledger : Ledger S₀ setup calm (Function.update trails t trail) writes' v.stores)
    (hlanes : ∀ u, u ≠ t → v.lanes u = w.lanes u)
    (hat : TaskAt S₀ setup calm alone object stage' (v.lanes t) trail) :
    Tracked S₀ setup calm alone (Function.update trails t trail) writes' v where
  setup_eq := hsetup.trans h.setup_eq
  solo := hsolo.trans h.solo
  ledger := hledger
  task := by
    intro u task hu
    rw [htasks] at hu
    split at hu
    · rename_i heq
      subst heq
      cases hu
      rw [Function.update_self]
      exact hat
    · rename_i hne
      rw [Function.update_of_ne hne, hlanes u hne]
      exact h.task u task hu
  rest := by
    intro u hu
    rw [htasks] at hu
    split at hu
    · cases hu
    · rename_i hne
      rw [Function.update_of_ne hne, hlanes u hne]
      exact h.rest u hu

theorem Tracked.goes (h : Tracked S₀ setup calm alone trails writes w) {t : Nat}
    {object : ObjectDescriptor} {stage stage' : TaskStage}
    (ht : w.job.tasks[t]? = some ⟨object, stage⟩)
    (htasks : v.job.tasks = (w.job.setStage t stage').tasks) (hsetup : v.job.setup = w.job.setup)
    (hsolo : v.solo = w.solo) (hstores : v.stores = w.stores)
    (hlanes : ∀ u, u ≠ t → v.lanes u = w.lanes u)
    (hat : TaskAt S₀ setup calm alone object stage' (v.lanes t) (trails t)) :
    Tracked S₀ setup calm alone trails writes v := by
  have hchange : Tracked S₀ setup calm alone (Function.update trails t (trails t)) writes v := by
    refine h.change ht ?_ hsetup hsolo ?_ hlanes hat
    · intro u
      rw [htasks, Job.setStage, List.getElem?_modify]
      by_cases heq : u = t
      · subst heq
        simp [ht]
      · simp [heq, Ne.symm heq]
    · rw [Function.update_eq_self, hstores]
      exact h.ledger
  rwa [Function.update_eq_self] at hchange

theorem lanes_setCall_self (w : World) (t : Nat) (lane : Lane) (state : CallState) :
    (w.setCall (.task t lane) state).lanes t = Function.update (w.lanes t) lane (some state) := by
  funext l
  rw [lanes, callState?_setCall]
  by_cases hl : l = lane
  · subst hl
    rw [if_pos rfl, Function.update_self]
  · rw [if_neg (by simpa using hl), Function.update_of_ne hl]
    rfl

theorem lanes_setCall_of_ne (w : World) {caller : Caller} {t : Nat}
    (h : ∀ lane, caller ≠ .task t lane) (state : CallState) :
    (w.setCall caller state).lanes t = w.lanes t := by
  funext l
  rw [lanes, callState?_setCall, if_neg (Ne.symm (h l))]
  rfl

theorem lanes_clearCall_self (w : World) (t : Nat) (lane : Lane) :
    (w.clearCall (.task t lane)).lanes t = Function.update (w.lanes t) lane none := by
  funext l
  rw [lanes, callState?_clearCall]
  by_cases hl : l = lane
  · subst hl
    rw [if_pos rfl, Function.update_self]
  · rw [if_neg (by simpa using hl), Function.update_of_ne hl]
    rfl

theorem lanes_clearCall_of_ne (w : World) {caller : Caller} {t : Nat}
    (h : ∀ lane, caller ≠ .task t lane) : (w.clearCall caller).lanes t = w.lanes t := by
  funext l
  rw [lanes, callState?_clearCall, if_neg (Ne.symm (h l))]
  rfl

theorem task_ne {t u : Nat} (h : u ≠ t) (lane l : Lane) : Caller.task t lane ≠ .task u l := by
  intro heq
  cases heq
  exact h rfl

theorem exists_running {t : Nat} {lane : Lane} {call : Call} (h : w.call? (.task t lane) = some call) :
    ∃ object c, w.job.tasks[t]? = some ⟨object, .running c⟩ ∧
      c.call? w.job.setup lane = some call := by
  simp only [call?, Job.taskCall?, Job.stage?] at h
  cases ht : w.job.tasks[t]? with
  | none =>
    rw [ht] at h
    cases h
  | some task =>
    obtain ⟨object, stage⟩ := task
    rw [ht] at h
    dsimp only [Option.map_some] at h
    split at h
    · rename_i c heq
      cases heq
      exact ⟨object, c, rfl, h⟩
    · cases h

theorem exists_list {i : Nat} {call : Call} (hcall : w.call? (.feed i) = some call) :
    ∃ bucket keyPrefix token maxKeys, call = ⟨.source, .list bucket keyPrefix token maxKeys⟩ := by
  simp only [call?, Job.feedCall?] at hcall
  split at hcall
  · split at hcall
    · cases hcall
      exact ⟨_, _, _, _, rfl⟩
    · cases hcall
  · cases hcall

section Step

variable (h : Tracked S₀ setup calm alone trails writes w)
include h

theorem Tracked.keep {t : Nat} {object : ObjectDescriptor} {stage : TaskStage} {trail : Trail}
    {writes' : List Write} (ht : w.job.tasks[t]? = some ⟨object, stage⟩) (hjob : v.job = w.job)
    (hsolo : v.solo = w.solo)
    (hledger : Ledger S₀ setup calm (Function.update trails t trail) writes' v.stores)
    (hlanes : ∀ u, u ≠ t → v.lanes u = w.lanes u)
    (hat : TaskAt S₀ setup calm alone object stage (v.lanes t) trail) :
    Tracked S₀ setup calm alone (Function.update trails t trail) writes' v := by
  refine h.change ht ?_ (by rw [hjob]) hsolo hledger hlanes hat
  intro u
  rw [hjob]
  split
  · rename_i heq
    rw [heq, ht]
  · rfl

theorem Tracked.job {action : JobAction} {u : Transition} (hinternal : isInternal action = true)
    (hact : w.job.act action = some u) :
    Tracked S₀ setup calm alone trails writes (w.ofTransition u).world := by
  have hsetup := (Job.act_deed hact).move.1.setup
  cases hown : action.task? with
  | none =>
    obtain ⟨objects, htasks⟩ := Job.exists_spawned hown hact
    exact h.spawn htasks hsetup rfl h.ledger fun _ => rfl
  | some t =>
    obtain ⟨object, stage, stage', ht, hgoes, htasks⟩ := Job.act_goes hown hact
    exact h.goes ht htasks hsetup rfl rfl (fun _ _ => rfl)
      ((h.task t _ ht).goes h.setup_eq hinternal hgoes)

theorem Tracked.enter {t : Nat} {lane : Lane} {call : Call}
    (hcall : w.call? (.task t lane) = some call) (hfree : w.lanes t lane = none) :
    Tracked S₀ setup calm alone trails writes (w.enter (.task t lane) call) := by
  obtain ⟨object, c, ht, hcopy⟩ := exists_running hcall
  obtain ⟨hobject, hat⟩ := (h.task t _ ht).running_inv
  rw [h.setup_eq] at hcopy
  have hkeep : Tracked S₀ setup calm alone (Function.update trails t (trails t)) writes
      (w.enter (.task t lane) call) := by
    rw [enter_eq]
    refine h.keep ht rfl rfl ?_ (fun u hu => lanes_setCall_of_ne _ (task_ne hu lane) _) ?_
    · rw [Function.update_eq_self]
      exact h.ledger.still (Store.still_enter _ _)
    · rw [lanes_setCall_self]
      exact .running hobject
        (hat.enter hobject hcopy hfree (fun hcalm => h.ledger.faults hcalm _) call.request)
  rwa [Function.update_eq_self] at hkeep

theorem Tracked.finish {t : Nat} {lane : Lane} {call : Call} {after : WorldTransition}
    (hcall : w.call? (.task t lane) = some call) (hentered : w.lanes t lane = some .entered)
    (halone : alone → w.KeysApart) (hafter : after.world = w.finish (.task t lane) call) :
    ∃ trails', Tracked S₀ setup calm alone trails'
      (writes ++ (Event.write? ⟨w, .finish (.task t lane), after⟩).toList) after.world := by
  obtain ⟨object, c, ht, hcopy⟩ := exists_running hcall
  obtain ⟨hobject, hat⟩ := (h.task t _ ht).running_inv
  rw [h.setup_eq] at hcopy
  have hfits := hat.fits hobject hcopy hentered
  have hapart : alone → ∀ u x, (trails u).written = some x → u ≠ t →
      x.1 ≠ setup.targetKey object.key := by
    intro ha u x hx hne
    cases hu : w.job.tasks[u]? with
    | none =>
      rw [(h.rest u hu).1] at hx
      cases hx
    | some other =>
      rw [(h.task u other hu).written_key hx]
      have hkeys := halone ha u t other _ hu ht hne
      rwa [h.setup_eq] at hkeys
  obtain ⟨trail', hdeal, hledger⟩ := h.ledger.finish hfits hapart w.now
  refine ⟨Function.update trails t trail', ?_⟩
  have hlanes : (w.finish (.task t lane) call).lanes t =
      Function.update (w.lanes t) lane
        (some (.answered ((w.stores.get call.side).finish w.now call.request).1)) :=
    lanes_setCall_self ..
  have hwrite : Event.write? ⟨w, .finish (.task t lane), after⟩ =
      call.write? t ((w.stores.get call.side).finish w.now call.request).1
        (w.stores.set call.side ((w.stores.get call.side).finish w.now call.request).2) := by
    simp only [Event.write?, hcall, hafter, hlanes, Function.update_self]
    rfl
  rw [hwrite, hafter]
  refine h.keep ht rfl rfl hledger (fun u hu => lanes_setCall_of_ne _ (task_ne hu lane) _) ?_
  rw [hlanes]
  exact .running hobject (hat.finish hobject hcopy hentered hdeal)

theorem Tracked.deliver {t : Nat} {lane : Lane} {reply : Reply} {u : Transition}
    (hanswered : w.lanes t lane = some (.answered reply))
    (hact : w.job.act (.reply t lane reply) = some u) :
    Tracked S₀ setup calm alone trails writes
      ((w.clearCall (.task t lane)).ofTransition u).world := by
  obtain ⟨object, stage, stage', ht, hgoes, htasks⟩ := Job.act_goes rfl hact
  have hat := h.task t _ ht
  refine h.goes ht htasks (Job.act_deed hact).move.1.setup rfl rfl
    (fun u hu => lanes_clearCall_of_ne _ (task_ne hu lane)) ?_
  have hlanes := lanes_clearCall_self w t lane
  generalize u.job.course = course at hgoes
  cases hgoes with
  | @reply _ c _ _ next hnext =>
    obtain ⟨hobject, hcopy⟩ := hat.running_inv
    have hmoves : ObjectCopy.Moves w.job.setup c next := .reply hnext
    rw [h.setup_eq] at hnext
    refine .running (hmoves.object_eq.trans hobject) ?_
    have hdeliver := hcopy.deliver hobject hanswered hnext
    rw [← hlanes] at hdeliver
    exact hdeliver
  | finish _ hstage =>
    obtain ⟨hidle, -⟩ := hat.judged_inv (by rcases hstage with rfl | rfl <;> rfl)
    rw [hidle] at hanswered
    cases hanswered

theorem Tracked.panic {t : Nat} {reason : String} {u : Transition}
    (hact : w.job.act (.panic t reason) = some u)
    (hoverflowed : ∃ c, w.job.stage? t = some (.running c) ∧ c.phase = .overflowed) :
    Tracked S₀ setup calm alone trails writes ((w.clearTask t).ofTransition u).world := by
  obtain ⟨c, hstage, hphase⟩ := hoverflowed
  obtain ⟨object, stage, stage', ht, hgoes, htasks⟩ := Job.act_goes rfl hact
  rw [Job.stage?, ht] at hstage
  cases hstage
  obtain ⟨hobject, hcopy⟩ := (h.task t _ ht).running_inv
  have htrail : trails t = {} := hcopy.trail_of_overflowed hphase
  refine h.goes ht htasks (Job.act_deed hact).move.1.setup rfl rfl ?_ ?_
  · intro u hu
    funext l
    exact callState?_clearTask_of_ne w (task_ne (Ne.symm hu) l)
  · rw [htrail]
    generalize u.job.course = course at hgoes
    cases hgoes with
    | panic => exact .panicked _ (callState?_clearTask_self w t)
    | finish _ hstage => rcases hstage with hstage | hstage <;> cases hstage

theorem Tracked.elsewhere (hjob : v.job = w.job)
    (hsolo : v.solo = w.solo) (hledger : Ledger S₀ setup calm trails writes v.stores)
    (hlanes : ∀ t, v.lanes t = w.lanes t) : Tracked S₀ setup calm alone trails writes v :=
  have htasks : v.job.tasks = w.job.tasks ++ ([] : List ObjectDescriptor).map fun d => ⟨d, .queued⟩ := by
    rw [hjob, List.map_nil, List.append_nil]
  h.spawn htasks (congrArg Job.setup hjob) hsolo hledger hlanes

end Step

/-- Each action keeps what the tasks have left in agreement with what the stores hold. -/
theorem Tracked.step (h : Tracked S₀ setup calm alone trails writes w) {action : WorldAction}
    {t : WorldTransition} (hact : w.act action = some t)
    (hserved : (⟨w, action, t⟩ : Event).isServed = true) (halone : alone → w.KeysApart) :
    ∃ trails', Tracked S₀ setup calm alone trails'
      (writes ++ (Event.write? ⟨w, action, t⟩).toList) t.world := by
  have hread : Event.write? ⟨w, action, t⟩ = none → Tracked S₀ setup calm alone trails writes t.world →
      ∃ trails', Tracked S₀ setup calm alone trails'
        (writes ++ (Event.write? ⟨w, action, t⟩).toList) t.world := by
    intro hnone hnext
    rw [hnone, Option.toList_none, List.append_nil]
    exact ⟨trails, hnext⟩
  have hsolo : ∀ lane, w.call? (.solo lane) = none := by
    intro lane
    simp only [call?, h.solo, Option.bind_none]
  cases act_deed hact with
  | job hinternal hjob => exact hread rfl (h.job hinternal hjob)
  | @enter caller call hcall hfree =>
    cases caller with
    | task u lane => exact hread rfl (h.enter hcall hfree)
    | feed i =>
      refine hread rfl (h.elsewhere ?_ ?_ ?_ ?_)
      · rw [enter_eq]
        rfl
      · rw [enter_eq]
        rfl
      · rw [enter_eq]
        exact h.ledger.still (Store.still_enter _ _)
      · intro u
        rw [enter_eq]
        exact lanes_setCall_of_ne _ (fun _ => Caller.noConfusion) _
    | solo lane =>
      rw [hsolo] at hcall
      cases hcall
  | @finish caller call hcall hentered =>
    cases caller with
    | task u lane => exact h.finish hcall hentered halone rfl
    | feed i =>
      obtain ⟨bucket, keyPrefix, token, maxKeys, rfl⟩ := exists_list hcall
      refine hread rfl (h.elsewhere rfl rfl ?_ ?_)
      · exact h.ledger.still (Store.Alike.refl _).still
      · exact fun u => lanes_setCall_of_ne _ (fun _ => Caller.noConfusion) _
    | solo lane =>
      rw [hsolo] at hcall
      cases hcall
  | answer => cases hserved
  | toTask hanswered hjob => exact hread rfl (h.deliver hanswered hjob)
  | @toFeed i reply u hanswered hjob =>
    obtain ⟨objects, htasks⟩ := Job.exists_spawned rfl hjob
    refine hread rfl (h.spawn htasks (Job.act_deed hjob).move.1.setup rfl h.ledger ?_)
    exact fun u => lanes_clearCall_of_ne _ fun _ => Caller.noConfusion
  | panic hjob => exact hread rfl (h.panic hjob (Event.exists_overflowed hserved rfl))
  | pass => exact hread rfl (h.elsewhere rfl rfl h.ledger fun _ => rfl)
  | aside haction =>
    rw [Event.isAside_eq_false hserved] at haction
    cases haction

theorem Path.tracked {start : World} {events : List Event} (hpath : Path start events w)
    (hstart : Tracked S₀ setup calm alone trails [] start) (hserved : ∀ e ∈ events, e.isServed = true)
    (halone : alone → ∀ e ∈ events, e.before.KeysApart) :
    ∃ trails', Tracked S₀ setup calm alone trails' (Event.writes events) w := by
  induction hpath with
  | start => exact ⟨trails, hstart⟩
  | @step events w action t _ hact ih =>
    obtain ⟨trails', hw⟩ := ih (fun e he => hserved e (List.mem_append_left _ he))
      (fun ha e he => halone ha e (List.mem_append_left _ he))
    have hlast : (⟨w, action, t⟩ : Event) ∈ events ++ [⟨w, action, t⟩] :=
      List.mem_append_right _ List.mem_cons_self
    obtain ⟨trails'', hnext⟩ := hw.step hact (hserved _ hlast) fun ha => halone ha _ hlast
    refine ⟨trails'', ?_⟩
    rw [Event.writes_snoc]
    exact hnext

end Tracked

end World

end BucketMigration
