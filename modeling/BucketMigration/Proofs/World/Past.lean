import BucketMigration.Proofs.Job.Past
import BucketMigration.Proofs.World.Completion

/-!
# Worlds with a past

The job of a world goes on where another one has ended. Its tasks and feeds make the same calls under
other numbers, so the stores cannot tell it from a new job.
-/

namespace BucketMigration

/-- The same caller in a job that goes on where another one has ended. -/
def Caller.shift (past : Job) : Caller → Caller
  | task t lane => task (past.tasks.length + t) lane
  | feed i => feed (past.feeds.length + i)
  | solo lane => solo lane

def Driver.shift (past : Job) : Driver → Driver
  | feed i => feed (past.feeds.length + i)
  | batch i => batch (past.batches.length + i)

def WorldAction.shift (past : Job) : WorldAction → WorldAction
  | job action => job (action.shift past)
  | enter caller => enter (caller.shift past)
  | finish caller => finish (caller.shift past)
  | answer caller reply => answer (caller.shift past) reply
  | deliver caller => deliver (caller.shift past)
  | panic t reason => panic (past.tasks.length + t) reason
  | action => action

/-- A world whose job goes on where another one has ended. -/
def World.onto (past : Job) (w : World) : World :=
  { w with
    job := past.onto w.job
    calls := w.calls.map fun c => (c.1.shift past, c.2) }

namespace WorldTransition

/-- What becomes of the world and what is returned, without the lines that are logged. -/
def result (t : WorldTransition) : World × Option Return :=
  (t.world, t.returned)

def resultOnto (past : Job) (t : WorldTransition) : World × Option Return :=
  (t.world.onto past, t.returned.map (Return.onto (past.onto t.world.job)))

end WorldTransition

namespace World

variable {past : Job} {w : World}

theorem shift_injective (past : Job) : Function.Injective (Caller.shift past) := by
  intro a b h
  cases a with
  | task t lane =>
    cases b with
    | task u other =>
      rw [Caller.shift, Caller.shift, Caller.task.injEq] at h
      obtain ⟨ht, rfl⟩ := h
      rw [Nat.add_left_cancel ht]
    | feed | solo => cases h
  | feed i =>
    cases b with
    | feed j =>
      rw [Caller.shift, Caller.shift, Caller.feed.injEq] at h
      rw [Nat.add_left_cancel h]
    | task | solo => cases h
  | solo lane =>
    cases b with
    | solo other => exact h
    | task | feed => cases h

theorem callState?_onto (caller : Caller) :
    (w.onto past).callState? (caller.shift past) = w.callState? caller := by
  have hsame : ∀ c : Caller × CallState,
      (c.1.shift past == caller.shift past) = (c.1 == caller) := by
    intro c
    rw [Bool.eq_iff_iff, beq_iff_eq, beq_iff_eq, (shift_injective past).eq_iff]
  simp only [callState?, onto, List.find?_map, Option.map_map, Function.comp_def, hsame]

theorem call?_onto (caller : Caller) : (w.onto past).call? (caller.shift past) = w.call? caller := by
  cases caller with
  | task t lane =>
    simp only [Caller.shift, call?, Job.taskCall?]
    rw [show (w.onto past).job = past.onto w.job from rfl, Job.stage?_onto]
    rfl
  | feed i =>
    simp only [Caller.shift, call?, Job.feedCall?]
    rw [show (w.onto past).job = past.onto w.job from rfl, Job.getElem?_feeds_onto]
    cases w.job.feeds[i]? with
    | none => rfl
    | some feed => rfl
  | solo lane => rfl

theorem filter_onto {p q : Caller → Bool} (h : ∀ caller, p (caller.shift past) = q caller)
    (calls : List (Caller × CallState)) :
    (calls.map fun c => (c.1.shift past, c.2)).filter (fun c => p c.1) =
      (calls.filter fun c => q c.1).map fun c => (c.1.shift past, c.2) := by
  rw [List.filter_map]
  congr 1
  apply List.filter_congr
  intro c _
  exact h c.1

theorem bne_shift (caller other : Caller) :
    (other.shift past != caller.shift past) = (other != caller) := by
  rw [Bool.eq_iff_iff, bne_iff_ne, bne_iff_ne, Ne, Ne, (shift_injective past).eq_iff]

theorem setCall_onto (caller : Caller) (state : CallState) :
    (w.onto past).setCall (caller.shift past) state = (w.setCall caller state).onto past := by
  simp only [setCall, onto, List.map_cons,
    filter_onto (p := (· != caller.shift past)) (bne_shift caller)]

theorem clearCall_onto (caller : Caller) :
    (w.onto past).clearCall (caller.shift past) = (w.clearCall caller).onto past := by
  simp only [clearCall, onto, filter_onto (p := (· != caller.shift past)) (bne_shift caller)]

theorem clearTask_onto (t : Nat) :
    (w.onto past).clearTask (past.tasks.length + t) = (w.clearTask t).onto past := by
  simp only [clearTask, onto, List.filter_map]
  congr 2
  apply List.filter_congr
  rintro ⟨caller, state⟩ -
  cases caller with
  | task u lane => simp [Caller.shift, bne, Nat.add_left_cancel_iff]
  | feed | solo => rfl

theorem enter_onto (caller : Caller) (call : Call) :
    (w.onto past).enter (caller.shift past) call = (w.enter caller call).onto past := by
  rw [enter_eq, enter_eq, ← setCall_onto]
  rfl

theorem finish_onto (caller : Caller) (call : Call) :
    (w.onto past).finish (caller.shift past) call = (w.finish caller call).onto past := by
  rw [finish, finish, ← setCall_onto]
  rfl

theorem map_ofTransition_onto {x x' : Option Transition}
    (h : x'.map Transition.result = x.map (Transition.resultOnto past)) :
    (x'.map (w.onto past).ofTransition).map WorldTransition.result =
      (x.map w.ofTransition).map (WorldTransition.resultOnto past) := by
  have hg := congrArg (Option.map fun r => ({ w.onto past with job := r.1 }, r.2)) h
  rw [Option.map_map, Option.map_map] at hg ⊢
  exact hg

theorem runSolo_onto (next : ObjectCopy.Next) :
    ((w.onto past).runSolo next).result = (w.runSolo next).resultOnto past := by
  have habsorb : ((past.onto w.job).absorb next.2).1 = past.onto (w.job.absorb next.2).1 :=
    Job.absorb_onto ..
  exact congrArg (fun job => ({ w.onto past with job, solo := some next.1 }, none)) habsorb

theorem isInternal_shift (action : JobAction) : isInternal (action.shift past) = isInternal action := by
  cases action <;> rfl

theorem map_runSolo_onto (x : Option ObjectCopy.Next) :
    (x.map (w.onto past).runSolo).map WorldTransition.result =
      (x.map w.runSolo).map (WorldTransition.resultOnto past) := by
  rw [Option.map_map, Option.map_map]
  exact congrArg (fun k => x.map k) (funext runSolo_onto)

theorem bind_solo_onto {f g : ObjectCopy → Option WorldTransition}
    (h : ∀ copy, (f copy).map WorldTransition.result =
      (g copy).map (WorldTransition.resultOnto past)) :
    (w.solo.bind f).map WorldTransition.result =
      (w.solo.bind g).map (WorldTransition.resultOnto past) := by
  cases w.solo with
  | none => rfl
  | some copy => exact h copy

theorem deliver_onto (hspared : ∀ task ∈ w.job.tasks, task.stage.Spared) (caller : Caller)
    (reply : Reply) :
    ((w.onto past).deliver (caller.shift past) reply).map WorldTransition.result =
      (w.deliver caller reply).map (WorldTransition.resultOnto past) := by
  simp only [deliver, clearCall_onto]
  cases caller with
  | task t lane =>
    exact map_ofTransition_onto (w := w.clearCall (.task t lane))
      (Job.act_onto past hspared (.reply t lane reply))
  | feed i =>
    exact map_ofTransition_onto (w := w.clearCall (.feed i))
      (Job.act_onto past hspared (.listed i reply))
  | solo lane =>
    exact bind_solo_onto (w := w.clearCall (.solo lane)) fun copy =>
      map_runSolo_onto (w := w.clearCall (.solo lane)) (copy.resume w.job.setup lane reply)

variable (past) in
/-- Whatever a world does, it does the same when its job has a past, as long as no task fails. -/
theorem act_onto (hspared : ∀ task ∈ w.job.tasks, task.stage.Spared) (action : WorldAction) :
    ((w.onto past).act (action.shift past)).map WorldTransition.result =
      (w.act action).map (WorldTransition.resultOnto past) := by
  have hjob : (w.onto past).job = past.onto w.job := rfl
  cases action with
  | job action =>
    simp only [WorldAction.shift, act, isInternal_shift]
    split
    · exact map_ofTransition_onto (Job.act_onto past hspared action)
    · rfl
  | enter caller =>
    simp only [WorldAction.shift, act, call?_onto, callState?_onto]
    cases w.call? caller with
    | none => rfl
    | some call =>
      cases w.callState? caller with
      | none => exact congrArg some (Prod.ext (enter_onto caller call) rfl)
      | some state => rfl
  | finish caller =>
    simp only [WorldAction.shift, act, call?_onto, callState?_onto]
    cases w.call? caller with
    | none => rfl
    | some call =>
      rcases w.callState? caller with - | - | reply
      · rfl
      · exact congrArg some (Prod.ext (finish_onto caller call) rfl)
      · rfl
  | answer caller reply =>
    simp only [WorldAction.shift, act, call?_onto, callState?_onto]
    cases w.call? caller with
    | none => rfl
    | some call =>
      cases w.callState? caller with
      | none => exact congrArg some (Prod.ext (setCall_onto caller (.answered reply)) rfl)
      | some state => rfl
  | deliver caller =>
    simp only [WorldAction.shift, act, callState?_onto]
    rcases w.callState? caller with - | - | reply
    · rfl
    · rfl
    · exact deliver_onto hspared caller reply
  | panic t reason =>
    simp only [WorldAction.shift, act, clearTask_onto]
    exact map_ofTransition_onto (w := w.clearTask t) (Job.act_onto past hspared (.panic t reason))
  | pass seconds => rfl
  | soloStart object =>
    simp only [WorldAction.shift, act]
    rw [show (w.onto past).solo = w.solo from rfl]
    split
    · rfl
    · exact congrArg some (runSolo_onto _)
  | soloWake => exact bind_solo_onto fun copy => map_runSolo_onto copy.wake
  | soloPart => exact bind_solo_onto fun copy => map_runSolo_onto (copy.startPart w.job.setup)
  | soloEnd =>
    refine bind_solo_onto fun copy => ?_
    rw [Option.map_map, Option.map_map]
    rfl

theorem le_of_going (hover : ∀ task ∈ past.tasks, task.stage.isOver = true) {job : Job} {t : Nat}
    {task : Task} (ht : (past.onto job).tasks[t]? = some task) (hgoing : task.stage.isOver = false) :
    ∃ u, t = past.tasks.length + u := by
  apply Nat.exists_eq_add_of_le
  by_contra hlt
  have hold : (past.onto job).tasks[t]? = past.tasks[t]? :=
    List.getElem?_append_left (Nat.lt_of_not_le hlt)
  rw [hold] at ht
  rw [hover task (List.mem_of_getElem? ht)] at hgoing
  cases hgoing

theorem exists_shift_of_task (hover : ∀ task ∈ past.tasks, task.stage.isOver = true) {job : Job}
    {action : JobAction} {t : Nat} {u : Transition} (hown : action.task? = some t)
    (hact : (past.onto job).act action = some u) :
    ∃ action' : JobAction, action = action'.shift past := by
  obtain ⟨object, stage, stage', ht, hgoes, -⟩ := Job.act_goes hown hact
  obtain ⟨n, rfl⟩ := le_of_going hover ht hgoes.move.not_isOver
  cases action with
  | grant => cases hown; exact ⟨.grant n, rfl⟩
  | start => cases hown; exact ⟨.start n, rfl⟩
  | reply _ lane given => cases hown; exact ⟨.reply n lane given, rfl⟩
  | wake => cases hown; exact ⟨.wake n, rfl⟩
  | startPart => cases hown; exact ⟨.startPart n, rfl⟩
  | panic _ reason => cases hown; exact ⟨.panic n reason, rfl⟩
  | release => cases hown; exact ⟨.release n, rfl⟩
  | account => cases hown; exact ⟨.account n, rfl⟩
  | place => cases hown; exact ⟨.place n, rfl⟩
  | publish => cases hown; exact ⟨.publish n, rfl⟩
  | discard => cases hown; exact ⟨.discard n, rfl⟩
  | _ => cases hown

theorem exists_shift_of_feed {job : Job} {action : JobAction} {i : Nat} {u : Transition}
    (hown : action.feed? = some (past.feeds.length + i))
    (hact : (past.onto job).act action = some u) :
    ∃ action' : JobAction, action = action'.shift past := by
  cases action with
  | dropFeed => cases hown; exact ⟨.dropFeed i, rfl⟩
  | nextPage => cases hown; exact ⟨.nextPage i, rfl⟩
  | wait => cases hown; exact ⟨.wait i, rfl⟩
  | run => cases hown; exact ⟨.run i, rfl⟩
  | listed _ given => cases hown; exact ⟨.listed i given, rfl⟩
  | join _ t =>
    cases hown
    -- A feed joins its own tasks, and these are new.
    obtain ⟨feed, hfeed, hjoin⟩ := Option.bind_eq_some_iff.mp hact
    rw [Job.getElem?_feeds_onto] at hfeed
    obtain ⟨feed, -, rfl⟩ := Option.map_eq_some_iff.mp hfeed
    obtain ⟨n, -, rfl⟩ := List.mem_map.mp (Job.mem_of_join hjoin)
    exact ⟨.join i n, rfl⟩
  | _ => cases hown

variable (past w) in
theorem isOfRun_shift (action : WorldAction) (t t' : WorldTransition) :
    (⟨w.onto past, action.shift past, t'⟩ : Event).isOfRun =
      (⟨w, action, t⟩ : Event).isOfRun := by
  cases action with
  | job action => cases action <;> rfl
  | panic n reason =>
    simp only [Event.isOfRun, Event.isServed, WorldAction.shift]
    rw [show (w.onto past).job = past.onto w.job from rfl, Job.stage?_onto]
  | enter | finish | answer | pass | soloStart | soloWake | soloPart | soloEnd => rfl
  | deliver caller => cases caller <;> rfl

theorem driver?_shift (action : WorldAction) :
    (action.shift past).driver? = action.driver?.map (Driver.shift past) := by
  cases action with
  | job action => cases action <;> rfl
  | enter caller | finish caller | answer caller | deliver caller => cases caller <;> rfl
  | pass | panic | soloStart | soloWake | soloPart | soloEnd => rfl

theorem isIdle_shift (action : WorldAction) : (action.shift past).isIdle = action.isIdle := by
  cases action with
  | job action => cases action <;> rfl
  | _ => rfl

theorem feed?_eq_some_iff {action : WorldAction} {i : Nat} :
    action.feed? = some i ↔ action.driver? = some (.feed i) := by
  cases action with
  | job action => cases action <;> simp [WorldAction.feed?, WorldAction.driver?, JobAction.feed?]
  | enter caller | finish caller | answer caller | deliver caller =>
    cases caller <;> simp [WorldAction.feed?, WorldAction.driver?]
  | _ => simp [WorldAction.feed?, WorldAction.driver?]

theorem eq_of_isDrivenBy {d : Driver} {e : Event} (h : e.isDrivenBy d = true) :
    e.isOfRun = true ∧ (e.action.driver? = none ∨ e.action.driver? = some d) := by
  simpa [Event.isDrivenBy] using h

section Shift

variable (hover : ∀ task ∈ past.tasks, task.stage.isOver = true)
include hover

theorem exists_caller_shift {caller : Caller} {call : Call}
    (hcall : (w.onto past).call? caller = some call)
    (hfeed : ∀ i, caller = .feed i → i = past.feeds.length) :
    ∃ caller' : Caller, caller = caller'.shift past := by
  cases caller with
  | task t lane =>
    obtain ⟨object, c, ht, -⟩ := exists_running hcall
    obtain ⟨n, rfl⟩ := le_of_going hover ht rfl
    exact ⟨.task n lane, rfl⟩
  | feed i =>
    cases hfeed i rfl
    exact ⟨.feed 0, rfl⟩
  | solo lane => exact ⟨.solo lane, rfl⟩

theorem exists_shift {action : WorldAction} {t : WorldTransition}
    (hact : (w.onto past).act action = some t)
    (hdriven : (⟨w.onto past, action, t⟩ : Event).isDrivenBy (.feed past.feeds.length) = true) :
    ∃ action' : WorldAction, action = action'.shift past := by
  obtain ⟨hrun, hdriver⟩ := eq_of_isDrivenBy hdriven
  have hfeed : ∀ i, action.feed? = some i → i = past.feeds.length := by
    intro i hi
    rw [feed?_eq_some_iff.mp hi] at hdriver
    simpa using hdriver
  cases act_deed hact with
  | @job jobAction u hinternal hjob =>
    cases htask : jobAction.task? with
    | some n =>
      obtain ⟨action', rfl⟩ := exists_shift_of_task hover htask hjob
      exact ⟨.job action', rfl⟩
    | none =>
      cases hown : jobAction.feed? with
      | some i =>
        cases hfeed i hown
        obtain ⟨action', rfl⟩ := exists_shift_of_feed (i := 0) hown hjob
        exact ⟨.job action', rfl⟩
      | none =>
        cases jobAction with
        | receive => exact ⟨.job .receive, rfl⟩
        | closeResults => exact ⟨.job .closeResults, rfl⟩
        | openFeed | batch => cases hrun
        | joinBatch => simp [WorldAction.driver?] at hdriver
        | dropFeed | nextPage | wait | run | listed | join => cases hown
        | grant | start | reply | wake | startPart | panic | release | account | place | publish
        | discard => cases htask
  | @enter caller call hcall =>
    obtain ⟨caller', rfl⟩ := exists_caller_shift hover hcall fun i hi => hfeed i (by rw [hi]; rfl)
    exact ⟨.enter caller', rfl⟩
  | @finish caller call hcall =>
    obtain ⟨caller', rfl⟩ := exists_caller_shift hover hcall fun i hi => hfeed i (by rw [hi]; rfl)
    exact ⟨.finish caller', rfl⟩
  | answer => cases hrun
  | @toTask n lane reply u _ hjob =>
    obtain ⟨object, stage, stage', ht, hgoes, -⟩ := Job.act_goes rfl hjob
    obtain ⟨n, rfl⟩ := le_of_going hover ht hgoes.move.not_isOver
    exact ⟨.deliver (.task n lane), rfl⟩
  | @toFeed i =>
    cases hfeed i rfl
    exact ⟨.deliver (.feed 0), rfl⟩
  | @panic n reason u hjob =>
    obtain ⟨object, stage, stage', ht, hgoes, -⟩ := Job.act_goes rfl hjob
    obtain ⟨n, rfl⟩ := le_of_going hover ht hgoes.move.not_isOver
    exact ⟨.panic n reason, rfl⟩
  | pass seconds => exact ⟨.pass seconds, rfl⟩
  | aside haction =>
    rw [Event.isAside_eq_false (isOfRun_isServed hrun)] at haction
    cases haction

end Shift

end World

/-- A watch over a world whose job goes on where another one has ended. -/
def World.Watch.onto (past : Job) (x : World.Watch) : World.Watch :=
  ⟨x.world.onto past, x.returned.map (Return.onto (past.onto x.world.job))⟩

namespace World

section Watch

variable {x y : Watch} {action : WorldAction}

theorem Watch.returned_onto_eq_none : (x.onto past).returned = none ↔ x.returned = none :=
  Option.map_eq_none_iff

theorem Watch.eq_onto_of_result {t t' : WorldTransition} (h : t'.result = t.resultOnto past)
    (hdriver : action.driver? = none ∨ action.driver? = some (.feed 0)) :
    (⟨t'.world, if (action.shift past).driver? = some (.feed past.feeds.length) then t'.returned
      else none⟩ : Watch) =
      Watch.onto past ⟨t.world, if action.feed? = some 0 then t.returned else none⟩ := by
  have hworld : t'.world = t.world.onto past := congrArg Prod.fst h
  have hreturned : t'.returned = t.returned.map (Return.onto (past.onto t.world.job)) :=
    congrArg Prod.snd h
  rw [driver?_shift, hworld, hreturned]
  rcases hdriver with hnone | hfeed
  · have hown : action.feed? ≠ some 0 := by
      rw [Ne, feed?_eq_some_iff, hnone]
      nofun
    rw [hnone, Watch.onto, if_neg hown]
    rfl
  · rw [hfeed, if_pos (feed?_eq_some_iff.mpr hfeed)]
    exact congrArg (Watch.mk _) (if_pos rfl)

variable (hspared : ∀ task ∈ x.world.job.tasks, task.stage.Spared)
include hspared

theorem Watch.Step.onto (hdriver : action.driver? = none ∨ action.driver? = some (.feed 0))
    (h : Watch.Step action x y) :
    Watch.Turn (.feed past.feeds.length) (action.shift past) (x.onto past) (y.onto past) := by
  obtain @⟨t, hwaits, hact, hrun⟩ := h
  have hsame := act_onto past hspared action
  rw [hact] at hsame
  obtain ⟨t', hact', hresult⟩ := Option.map_eq_some_iff.mp hsame
  rw [← Watch.eq_onto_of_result hresult hdriver]
  refine .turn (Watch.returned_onto_eq_none.mpr hwaits) hact' ?_
  have hrun' := hrun
  rw [← isOfRun_shift past x.world action t t'] at hrun'
  simp only [Event.isDrivenBy, Watch.onto, hrun', driver?_shift, Bool.true_and]
  rcases hdriver with hnone | hfeed
  · simp [hnone]
  · simp [hfeed, Driver.shift]

theorem Watch.Turn.exists_step (hover : ∀ task ∈ past.tasks, task.stage.isOver = true)
    {action : WorldAction} {z : Watch}
    (h : Watch.Turn (.feed past.feeds.length) action (x.onto past) z) :
    ∃ action' y, action = action'.shift past ∧ Watch.Step action' x y ∧ z = y.onto past := by
  obtain @⟨t', hwaits, hact', hdriven⟩ := h
  obtain ⟨action', rfl⟩ := exists_shift hover hact' hdriven
  have hsame := act_onto past hspared action'
  rw [show (x.world.onto past).act (action'.shift past) = some t' from hact'] at hsame
  obtain ⟨t, hact, hresult⟩ := Option.map_eq_some_iff.mp hsame.symm
  obtain ⟨hrun, hdriver⟩ := eq_of_isDrivenBy hdriven
  have hdriver' : action'.driver? = none ∨ action'.driver? = some (.feed 0) := by
    rw [driver?_shift] at hdriver
    refine hdriver.imp Option.map_eq_none_iff.mp fun hfeed => ?_
    obtain ⟨d, hd, heq⟩ := Option.map_eq_some_iff.mp hfeed
    cases d with
    | feed i =>
      rw [hd]
      simpa [Driver.shift] using heq
    | batch => cases heq
  refine ⟨action', _, rfl, .step (Watch.returned_onto_eq_none.mp hwaits) hact ?_,
    Watch.eq_onto_of_result hresult.symm hdriver'⟩
  rw [← isOfRun_shift past x.world action' t t']
  exact hrun

end Watch

/-- An invariant of a run under which no task fails, and which nothing but feed 0 drives. -/
structure Steady (Inv : Watch → Prop) : Prop where
  spared : ∀ x, Inv x → ∀ task ∈ x.world.job.tasks, task.stage.Spared
  driver : ∀ x y action, Inv x → Watch.Step action x y →
    action.driver? = none ∨ action.driver? = some (.feed 0)
  step : ∀ x y action, Inv x → Watch.Step action x y → Inv y

section Steady

variable {Inv : Watch → Prop} (hsteady : Steady Inv) {x : Watch}
include hsteady

variable (past) in
theorem Steady.leads (hx : Inv x) {y : Watch} (h : Watch.Reach x y) :
    Inv y ∧ Watch.Leads (.feed past.feeds.length) (x.onto past) (y.onto past) := by
  induction h with
  | refl => exact ⟨hx, .refl⟩
  | tail _ hstep ih =>
    obtain ⟨action, hstep⟩ := hstep
    exact ⟨hsteady.step _ _ _ ih.1 hstep, ih.2.tail
      ⟨_, hstep.onto (hsteady.spared _ ih.1) (hsteady.driver _ _ _ ih.1 hstep)⟩⟩

theorem Steady.exists_reach (hover : ∀ task ∈ past.tasks, task.stage.isOver = true) (hx : Inv x)
    {z : Watch} (h : Watch.Leads (.feed past.feeds.length) (x.onto past) z) :
    ∃ y, Inv y ∧ Watch.Reach x y ∧ z = y.onto past := by
  induction h with
  | refl => exact ⟨x, hx, .refl, rfl⟩
  | tail _ hturn ih =>
    obtain ⟨y, hy, hreach, rfl⟩ := ih
    obtain ⟨_, hturn⟩ := hturn
    obtain ⟨action, y', -, hstep, rfl⟩ := hturn.exists_step (hsteady.spared y hy) hover
    exact ⟨y', hsteady.step _ _ _ hy hstep, hreach.tail ⟨action, hstep⟩, rfl⟩

theorem Steady.inevitable (hover : ∀ task ∈ past.tasks, task.stage.isOver = true) (hx : Inv x)
    (h : Inevitable Watch.Round (fun y => y.returned ≠ none) x) :
    Inevitable (Watch.Cycle (.feed past.feeds.length)) (fun y => y.returned ≠ none)
      (x.onto past) := by
  refine h.of_simulation (fun y z => Inv y ∧ z = y.onto past) ?_ ?_ ?_ ⟨hx, rfl⟩
  · rintro y z ⟨-, rfl⟩ hreturned
    exact mt Watch.returned_onto_eq_none.mp hreturned
  · rintro y z ⟨hy, rfl⟩ ⟨y', m, action, hreach, hstep, hidle⟩
    obtain ⟨hm, hleads⟩ := hsteady.leads past hy hreach
    refine ⟨_, m.onto past, _, hleads,
      hstep.onto (hsteady.spared m hm) (hsteady.driver _ _ _ hm hstep), ?_⟩
    rw [isIdle_shift]
    exact hidle
  · rintro y z z' ⟨hy, rfl⟩ ⟨m, action, hleads, hturn, hidle⟩
    obtain ⟨m', hm, hreach, rfl⟩ := hsteady.exists_reach hover hy hleads
    obtain ⟨action', y', rfl, hstep, rfl⟩ := hturn.exists_step (hsteady.spared m' hm) hover
    rw [isIdle_shift] at hidle
    exact ⟨y', ⟨m', action', hreach, hstep, hidle⟩, hsteady.step _ _ _ hm hstep, rfl⟩

end Steady

end World

end BucketMigration
