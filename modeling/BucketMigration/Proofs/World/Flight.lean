import BucketMigration.Proofs.Job.Slots
import BucketMigration.Proofs.Store.Gauge
import BucketMigration.Proofs.World.Tracked

/-!
# Calls under way

A call that a task has made is waited for until its reply is handed over or the task panics. A store
that serves nothing but one job therefore has under way what the tasks of the job wait for, and never
more of it than the options allow.
-/

namespace BucketMigration

namespace Job

variable {job : Job} {action : JobAction} {u : Transition} {t : Nat} {stage stage' : TaskStage}

theorem stage?_of_act (hact : job.act action = some u) (hother : action.task? ≠ some t)
    (ht : job.stage? t = some stage) : u.job.stage? t = some stage := by
  obtain ⟨task, htask, rfl⟩ := Option.map_eq_some_iff.mp ht
  obtain ⟨hlt, -⟩ := List.getElem?_eq_some_iff.mp htask
  cases hown : action.task? with
  | none =>
    obtain ⟨objects, htasks⟩ := exists_spawned hown hact
    rw [stage?, htasks, List.getElem?_append_left hlt, htask]
    rfl
  | some n =>
    obtain ⟨object', stage, stage', -, -, htasks⟩ := act_goes hown hact
    have hne : n ≠ t := by
      rintro rfl
      exact hother hown
    have hset := job.stage?_setStage n stage' t
    rw [if_neg hne, ht] at hset
    rw [stage?, htasks]
    exact hset

theorem Goes.exists_call? {object : ObjectDescriptor} {c : ObjectCopy} {course : Course}
    (h : Goes job object action (.running c) stage' course) (hown : action.task? = some t)
    (hc : c.phase.Orderly) {lane : Lane} {call : Call} (hcall : c.call? job.setup lane = some call)
    (hreply : ∀ reply, action ≠ .reply t lane reply) (hpanic : ∀ reason, action ≠ .panic t reason) :
    ∃ c', stage' = .running c' ∧ c'.call? job.setup lane = some call := by
  cases h with
  | @reply n c other given next hnext =>
    refine ⟨_, rfl, ObjectCopy.call?_resume hnext ?_ hcall⟩
    rintro rfl
    cases hown
    exact hreply given rfl
  | wake n hnext =>
    rw [ObjectCopy.call?_of_wake hnext] at hcall
    cases hcall
  | startPart n hnext => exact ⟨_, rfl, ObjectCopy.call?_startPart hnext hc hcall⟩
  | panic n reason =>
    cases hown
    exact absurd rfl (hpanic reason)
  | release n hv =>
    rw [ObjectCopy.call?_ended (ObjectCopy.phase_of_verdict? hv)] at hcall
    cases hcall
  | finish action h => rcases h with h | h <;> cases h

theorem exists_running_of_taskCall? {lane : Lane} {call : Call}
    (h : job.taskCall? t lane = some call) :
    ∃ c, job.stage? t = some (.running c) ∧ c.call? job.setup lane = some call := by
  unfold taskCall? at h
  split at h
  · rename_i c hstage
    exact ⟨c, hstage, h⟩
  · cases h

theorem taskCall?_of_running {lane : Lane} {c : ObjectCopy}
    (h : job.stage? t = some (.running c)) : job.taskCall? t lane = c.call? job.setup lane := by
  rw [taskCall?, h]

theorem taskCall?_of_act (horderly : ∀ task ∈ job.tasks, task.stage.Orderly job.results.isSome)
    (hact : job.act action = some u) {lane : Lane} {call : Call}
    (hcall : job.taskCall? t lane = some call) (hreply : ∀ reply, action ≠ .reply t lane reply)
    (hpanic : ∀ reason, action ≠ .panic t reason) : u.job.taskCall? t lane = some call := by
  have hsetup : u.job.setup = job.setup := (act_deed hact).move.1.setup
  obtain ⟨c, hstage, hc⟩ := exists_running_of_taskCall? hcall
  by_cases hown : action.task? = some t
  · obtain ⟨object, stage, stage', htask, hgoes, htasks⟩ := act_goes hown hact
    have hrunning : stage = .running c := by
      rw [stage?, htask] at hstage
      exact Option.some.inj hstage
    subst hrunning
    have hphase : c.phase.Orderly := horderly _ (List.mem_of_getElem? htask)
    obtain ⟨c', rfl, hc'⟩ := hgoes.exists_call? hown hphase hc hreply hpanic
    have hset := job.stage?_setStage t (.running c') t
    rw [if_pos rfl, hstage] at hset
    rw [taskCall?_of_running (c := c') (by rw [stage?, htasks]; exact hset), hsetup]
    exact hc'
  · rw [taskCall?_of_running (stage?_of_act hact hown hstage), hsetup]
    exact hc

end Job

namespace Stores

def serves (S : Stores) (side : Side) (call : Call) : Bool :=
  match S with
  | .shared _ => true
  | .separate .. => decide (call.side = side)

theorem serves_side (S : Stores) (call : Call) : S.serves call.side call = true := by
  cases S with
  | shared => rfl
  | separate => exact decide_eq_true rfl

@[simp] theorem serves_set (S : Stores) (side : Side) (store : Store) :
    (S.set side store).serves = S.serves := by
  cases S with
  | shared => rfl
  | separate => cases side <;> rfl

theorem get_of_serves {S : Stores} {side : Side} {call : Call} (h : S.serves side call = true) :
    S.get side = S.get call.side := by
  cases S with
  | shared => rfl
  | separate => rw [of_decide_eq_true h]

theorem get_set_serves (S : Stores) (side : Side) (call : Call) (store : Store) :
    (S.set call.side store).get side = if S.serves side call then store else S.get side := by
  cases S with
  | shared => rfl
  | separate s t =>
    obtain ⟨own, request⟩ := call
    cases own <;> cases side <;> rfl

end Stores

namespace World

/-- Whether a call moves data and the store of a side works on it. -/
def moves (w : World) (side : Side) (c : Caller × CallState) : Bool :=
  (c.2 matches .entered) && (w.call? c.1).any fun call =>
    w.stores.serves side call && call.request.movesData

/-- How many data calls the store of a side works on. -/
def underWay (w : World) (side : Side) : Nat :=
  w.calls.countP (w.moves side)

/-- The slots of the job are held as they should be, and its tasks wait for the calls they made. -/
structure Waited (setup : Setup) (w : World) : Prop where
  paced : Job.Paced setup w.job
  waits : ∀ (t : Nat) (lane : Lane) (state : CallState), w.callState? (.task t lane) = some state →
    ∃ call, w.call? (.task t lane) = some call

/-- What the stores count as under way is what they work on for the job. -/
structure Busy (setup : Setup) (peak : Side → Nat) (w : World) : Prop extends Waited setup w where
  solo : w.solo = none
  nodup : (w.calls.map Prod.fst).Nodup
  inFlight : ∀ side, (w.stores.get side).inFlight = w.underWay side
  peak : ∀ side, (w.stores.get side).peakInFlight ≤
    max (peak side) (Job.mostDataCalls setup.options)

variable {setup : Setup} {w v : World} {caller : Caller} {call : Call} {side : Side}

theorem call?_congr (hjob : v.job = w.job) (hsolo : v.solo = w.solo) : v.call? = w.call? := by
  funext caller
  cases caller <;> simp only [call?, hjob, hsolo]

theorem moves_congr (hjob : v.job = w.job) (hsolo : v.solo = w.solo)
    (hserves : v.stores.serves = w.stores.serves) : v.moves = w.moves := by
  funext side c
  simp only [moves, call?_congr hjob hsolo, hserves]

theorem moves_entered (hcall : w.call? caller = some call) :
    w.moves side (caller, .entered) = (w.stores.serves side call && call.request.movesData) := by
  simp only [moves, hcall, Option.any_some, Bool.true_and]

theorem moves_answered (w : World) (side : Side) (caller : Caller) (reply : Reply) :
    w.moves side (caller, .answered reply) = false := rfl

theorem exists_task_of_moves (hsolo : w.solo = none) {c : Caller × CallState}
    (h : w.moves side c = true) :
    ∃ t lane call, c = (.task t lane, .entered) ∧ w.call? (.task t lane) = some call ∧
      call.request.movesData = true := by
  obtain ⟨caller, state⟩ := c
  cases state with
  | answered reply => cases h
  | entered =>
    obtain ⟨call, hcall, hmoves⟩ := (Option.any_eq_true _ _).mp (Bool.and_eq_true_iff.mp h).2
    have hdata := (Bool.and_eq_true_iff.mp hmoves).2
    cases caller with
    | task t lane => exact ⟨t, lane, call, rfl, hcall, hdata⟩
    | feed i =>
      obtain ⟨bucket, keyPrefix, token, maxKeys, rfl⟩ := exists_list hcall
      cases hdata
    | solo lane =>
      simp only [call?, hsolo, Option.bind_none, reduceCtorEq] at hcall

theorem callState?_of_mem {c : Caller × CallState} (hnodup : (w.calls.map Prod.fst).Nodup)
    (hc : c ∈ w.calls) : w.callState? c.1 = some c.2 := by
  obtain ⟨before, after, hcalls⟩ := List.append_of_mem hc
  rw [hcalls, List.map_append, List.map_cons, List.nodup_append] at hnodup
  have hnone : before.find? (fun d => d.1 == c.1) = none := by
    rw [List.find?_eq_none]
    intro d hd heq
    exact hnodup.2.2 d.1 (List.mem_map_of_mem hd) c.1 List.mem_cons_self (beq_iff_eq.mp heq)
  rw [callState?, hcalls, List.find?_append, hnone, Option.none_or, List.find?_cons_of_pos (by simp)]
  rfl

theorem countP_calls (p : Caller × CallState → Bool) (caller : Caller)
    {calls : List (Caller × CallState)} (hnodup : (calls.map Prod.fst).Nodup) :
    calls.countP p = (calls.filter fun c => c.1 != caller).countP p +
      if ((calls.find? fun c => c.1 == caller).map Prod.snd).any (fun state => p (caller, state))
        then 1 else 0 := by
  induction calls with
  | nil => rfl
  | cons d calls ih =>
    obtain ⟨hd, hrest⟩ := List.nodup_cons.mp hnodup
    by_cases heq : d.1 = caller
    · subst heq
      have hothers : (calls.filter fun c => c.1 != d.1) = calls := by
        apply List.filter_eq_self.mpr
        intro c hc
        rw [bne_iff_ne]
        intro hcd
        exact hd (hcd ▸ List.mem_map_of_mem hc)
      rw [List.filter_cons_of_neg (by simp), hothers, List.find?_cons_of_pos (by simp),
        List.countP_cons]
      rfl
    · rw [List.filter_cons_of_pos (by simpa using heq), List.find?_cons_of_neg (by simpa using heq),
        List.countP_cons, List.countP_cons, ih hrest]
      omega

def underWayFor (w : World) (side : Side) (caller : Caller) (state : Option CallState) : Nat :=
  if state.any (fun state => w.moves side (caller, state)) then 1 else 0

theorem underWay_eq (hnodup : (w.calls.map Prod.fst).Nodup) (side : Side) (caller : Caller) :
    w.underWay side = (w.calls.filter fun c => c.1 != caller).countP (w.moves side) +
      w.underWayFor side caller (w.callState? caller) :=
  countP_calls (w.moves side) caller hnodup

theorem nodup_filter (hnodup : (w.calls.map Prod.fst).Nodup) (p : Caller × CallState → Bool) :
    ((w.calls.filter p).map Prod.fst).Nodup :=
  (List.filter_sublist.map Prod.fst).nodup hnodup

theorem nodup_setCall (hnodup : (w.calls.map Prod.fst).Nodup) (caller : Caller) (state : CallState) :
    ((w.setCall caller state).calls.map Prod.fst).Nodup := by
  rw [setCall, List.map_cons, List.nodup_cons]
  refine ⟨?_, nodup_filter hnodup _⟩
  intro hmem
  obtain ⟨c, hc, heq⟩ := List.mem_map.mp hmem
  have hne := (List.mem_filter.mp hc).2
  simp [heq] at hne

theorem Waited.underWay_le (h : Waited setup w) (hsolo : w.solo = none)
    (hnodup : (w.calls.map Prod.fst).Nodup) (side : Side) :
    w.underWay side ≤ Job.mostDataCalls setup.options := by
  have hsub : ((w.calls.filter (w.moves side)).map Prod.fst) ⊆
      w.job.dataLanes.map fun c => Caller.task c.1 c.2 := by
    intro caller hcaller
    obtain ⟨c, hc, rfl⟩ := List.mem_map.mp hcaller
    obtain ⟨t, lane, call, rfl, hcall, hdata⟩ :=
      exists_task_of_moves hsolo (List.mem_filter.mp hc).2
    exact List.mem_map.mpr ⟨(t, lane), Job.mem_dataLanes hcall hdata, rfl⟩
  have hle := (List.subperm_of_subset (nodup_filter hnodup _) hsub).length_le
  rw [List.length_map, List.length_map] at hle
  rw [underWay, List.countP_eq_length_filter]
  exact Nat.le_trans hle h.paced.length_dataLanes_le

/-- How a call comes to its state: a half of it is done, or it is answered without a store. -/
inductive Comes (w : World) (caller : Caller) (call : Call) : WorldAction → CallState → Prop
  | failed {e : StorageError} (h : ((w.stores.get call.side).enter call.request).1 = .error e) :
      Comes w caller call (.enter caller) (.answered (.error e))
  | entered (h : ((w.stores.get call.side).enter call.request).1 = .ok ()) :
      Comes w caller call (.enter caller) .entered
  | finished : Comes w caller call (.finish caller)
      (.answered ((w.stores.get call.side).finish w.now call.request).1)
  | told (reply : Reply) : Comes w caller call (.answer caller reply) (.answered reply)

theorem Waited.same (h : Waited setup w) (hjob : v.job = w.job) {t : Nat} {lane : Lane}
    {state : CallState} (hstate : w.callState? (.task t lane) = some state) :
    ∃ call, w.call? (.task t lane) = some call ∧ v.call? (.task t lane) = some call := by
  obtain ⟨call, hcall⟩ := h.waits t lane state hstate
  refine ⟨call, hcall, ?_⟩
  simp only [call?, hjob]
  exact hcall

theorem Waited.act (h : Waited setup w) {action : JobAction} {u : Transition}
    (hact : w.job.act action = some u) (hjob : v.job = u.job) {t : Nat} {lane : Lane}
    {state : CallState} (hstate : w.callState? (.task t lane) = some state)
    (hreply : ∀ reply, action ≠ .reply t lane reply) (hpanic : ∀ reason, action ≠ .panic t reason) :
    ∃ call, w.call? (.task t lane) = some call ∧ v.call? (.task t lane) = some call := by
  obtain ⟨call, hcall⟩ := h.waits t lane state hstate
  refine ⟨call, hcall, ?_⟩
  simp only [call?, hjob]
  exact Job.taskCall?_of_act h.paced.orderly hact hcall hreply hpanic

theorem Waited.ask (h : Waited setup w) (hjob : v.job = w.job) (hcall : w.call? caller = some call)
    {state : CallState} (hset : ∀ other, v.callState? other =
      if other = caller then some state else w.callState? other)
    {action : WorldAction} (hcomes : w.Comes caller call action state) {t : Nat} {lane : Lane}
    {state' : CallState} (hstate : v.callState? (.task t lane) = some state') :
    ∃ call, w.call? (.task t lane) = some call ∧ v.call? (.task t lane) = some call ∧
      (w.callState? (.task t lane) = some state' ∨ w.Comes (.task t lane) call action state') := by
  rw [hset] at hstate
  by_cases heq : Caller.task t lane = caller
  · subst heq
    rw [if_pos rfl] at hstate
    cases hstate
    refine ⟨call, hcall, ?_, .inr hcomes⟩
    simp only [call?, hjob]
    exact hcall
  · rw [if_neg heq] at hstate
    obtain ⟨call', hbefore, hafter⟩ := h.same hjob hstate
    exact ⟨call', hbefore, hafter, .inl hstate⟩

theorem ne_reply_of_isInternal {action : JobAction} (h : isInternal action = true) (t : Nat)
    (lane : Lane) (reply : Reply) : action ≠ .reply t lane reply := by
  rintro rfl
  cases h

theorem ne_panic_of_isInternal {action : JobAction} (h : isInternal action = true) (t : Nat)
    (reason : String) : action ≠ .panic t reason := by
  rintro rfl
  cases h

theorem Waited.call_cases (h : Waited setup w) {action : WorldAction} {next : WorldTransition}
    (hact : w.act action = some next) {t : Nat} {lane : Lane} {state : CallState}
    (hstate : next.world.callState? (.task t lane) = some state) :
    ∃ call, w.call? (.task t lane) = some call ∧ next.world.call? (.task t lane) = some call ∧
      (w.callState? (.task t lane) = some state ∨ w.Comes (.task t lane) call action state) := by
  have hold : w.callState? (.task t lane) = some state →
      (∃ call, w.call? (.task t lane) = some call ∧ next.world.call? (.task t lane) = some call) →
      ∃ call, w.call? (.task t lane) = some call ∧ next.world.call? (.task t lane) = some call ∧
        (w.callState? (.task t lane) = some state ∨ w.Comes (.task t lane) call action state) := by
    rintro hstate ⟨call, hbefore, hafter⟩
    exact ⟨call, hbefore, hafter, .inl hstate⟩
  cases act_deed hact with
  | job hinternal hjob =>
    exact hold hstate (h.act hjob rfl hstate (ne_reply_of_isInternal hinternal t lane)
      (ne_panic_of_isInternal hinternal t))
  | @enter caller call hcall =>
    have hjob : (w.enter caller call).job = w.job := by rw [enter_eq]; rfl
    refine h.ask hjob hcall (fun other => by rw [enter_eq, callState?_setCall]; rfl) ?_ hstate
    split
    · rename_i hfailed
      exact .failed hfailed
    · rename_i hentered
      exact .entered hentered
  | @finish caller call hcall =>
    have hjob : (w.finish caller call).job = w.job := rfl
    exact h.ask hjob hcall (fun other => callState?_setCall ..) .finished hstate
  | @answer caller call reply hcall =>
    have hjob : (w.setCall caller (.answered reply)).job = w.job := rfl
    exact h.ask hjob hcall (fun other => callState?_setCall ..) (.told reply) hstate
  | @toTask task other reply u hanswered hjob =>
    have hclear := callState?_clearCall w (.task task other) (.task t lane)
    by_cases heq : Caller.task t lane = .task task other
    · rw [if_pos heq] at hclear
      cases hclear.symm.trans hstate
    · rw [if_neg heq] at hclear
      have hbefore := hclear.symm.trans hstate
      refine hold hbefore (h.act hjob rfl hbefore ?_ fun reason => JobAction.noConfusion)
      intro given hsame
      cases hsame
      exact heq rfl
  | @toFeed i reply u hanswered hjob =>
    have hclear := callState?_clearCall w (.feed i) (.task t lane)
    rw [if_neg Caller.noConfusion] at hclear
    have hbefore := hclear.symm.trans hstate
    exact hold hbefore (h.act hjob rfl hbefore (fun given => JobAction.noConfusion)
      fun reason => JobAction.noConfusion)
  | @panic task reason u hjob =>
    by_cases heq : t = task
    · subst heq
      cases (callState?_clearTask_self w t lane).symm.trans hstate
    · have hne : ∀ l, Caller.task t lane ≠ .task task l := fun l hsame =>
        heq (Caller.task.inj hsame).1
      have hbefore := (callState?_clearTask_of_ne w hne).symm.trans hstate
      refine hold hbefore (h.act hjob rfl hbefore (fun given => JobAction.noConfusion) ?_)
      intro other hsame
      cases hsame
      exact heq rfl
  | pass => exact hold hstate (h.same rfl hstate)
  | aside _ haside =>
    obtain ⟨progress, hjob⟩ := haside.job
    rw [haside.calls _ fun _ => Caller.noConfusion] at hstate
    obtain ⟨call, hcall⟩ := h.waits t lane state hstate
    refine hold hstate ⟨call, hcall, ?_⟩
    simp only [call?, hjob]
    exact hcall

theorem Waited.step (h : Waited setup w) {action : WorldAction} {t : WorldTransition}
    (hact : w.act action = some t) : Waited setup t.world where
  paced := by
    cases act_deed hact with
    | enter =>
      rw [enter_eq]
      exact h.paced
    | finish | answer | pass => exact h.paced
    | job _ hjob => exact h.paced.step ⟨_, _, hjob, rfl⟩
    | toTask _ hjob => exact h.paced.step ⟨_, _, hjob, rfl⟩
    | toFeed _ hjob => exact h.paced.step ⟨_, _, hjob, rfl⟩
    | panic hjob => exact h.paced.step ⟨_, _, hjob, rfl⟩
    | aside _ haside =>
      obtain ⟨progress, hjob⟩ := haside.job
      rw [hjob]
      exact ⟨h.paced.setup_eq, h.paced.slots, h.paced.within, h.paced.orderly⟩
  waits := by
    intro task lane state hstate
    obtain ⟨call, -, hcall, -⟩ := h.call_cases hact hstate
    exact ⟨call, hcall⟩

theorem waited_start {results : Option ResultQueue} (hnew : Job.new? setup results = .ok w.job)
    (hcalls : w.calls = []) : Waited setup w := by
  refine ⟨Job.paced_new hnew, ?_⟩
  intro t lane state hstate
  rw [callState?, hcalls] at hstate
  cases hstate

variable {peak : Side → Nat}

/-- What a call adds to what its store has under way. -/
def load (call : Call) (state : Option CallState) : Nat :=
  if call.request.movesData && state matches some .entered then 1 else 0

theorem load_entered (call : Call) :
    load call (some .entered) = if call.request.movesData = true then 1 else 0 := by
  simp only [load, Bool.and_true]

theorem load_answered (call : Call) (reply : Reply) : load call (some (.answered reply)) = 0 := by
  simp only [load, Bool.and_false, Bool.false_eq_true, if_false]

theorem load_none (call : Call) : load call none = 0 := by
  simp only [load, Bool.and_false, Bool.false_eq_true, if_false]

theorem underWayFor_of_call (hcall : w.call? caller = some call) (state : Option CallState) :
    w.underWayFor side caller state = if w.stores.serves side call then load call state else 0 := by
  cases state with
  | none => rw [load_none, ite_self, underWayFor, Option.any_none, if_neg Bool.false_ne_true]
  | some state =>
    cases state with
    | entered =>
      rw [underWayFor, Option.any_some, moves_entered hcall, load_entered]
      cases w.stores.serves side call <;> simp
    | answered reply =>
      rw [load_answered, ite_self, underWayFor, Option.any_some, moves_answered,
        if_neg Bool.false_ne_true]

/-- A call enters or is worked on. What its store counts changes by what the call adds to it. -/
theorem Busy.ask (h : Busy setup peak w) (hwaited : Waited setup v) (hjob : v.job = w.job)
    (hsolo : v.solo = w.solo) (hcall : w.call? caller = some call) {state : CallState} {store : Store}
    (hcalls : v.calls = (w.setCall caller state).calls)
    (hstores : v.stores = w.stores.set call.side store)
    (hload : store.inFlight + load call (w.callState? caller) =
      (w.stores.get call.side).inFlight + load call (some state))
    (hpeak : store.peakInFlight ≤ max (w.stores.get call.side).peakInFlight store.inFlight) :
    Busy setup peak v := by
  have hnodup : (v.calls.map Prod.fst).Nodup := hcalls ▸ nodup_setCall h.nodup caller state
  have hmoves : v.moves = w.moves := moves_congr hjob hsolo (by rw [hstores, Stores.serves_set])
  have hunder : ∀ side, v.underWay side + w.underWayFor side caller (w.callState? caller) =
      w.underWay side + w.underWayFor side caller (some state) := by
    intro side
    rw [underWay_eq h.nodup side caller, underWay, hmoves, hcalls, setCall, List.countP_cons]
    simp only [underWayFor, Option.any_some]
    omega
  have hin : ∀ side, (v.stores.get side).inFlight = v.underWay side := by
    intro side
    have hbefore := h.inFlight side
    have hunder := hunder side
    rw [underWayFor_of_call hcall, underWayFor_of_call hcall] at hunder
    rw [hstores, Stores.get_set_serves]
    cases hserves : w.stores.serves side call with
    | true =>
      rw [Stores.get_of_serves hserves] at hbefore
      rw [hserves, if_pos rfl, if_pos rfl] at hunder
      rw [if_pos rfl]
      omega
    | false =>
      rw [hserves, if_neg Bool.false_ne_true, if_neg Bool.false_ne_true] at hunder
      rw [if_neg Bool.false_ne_true]
      omega
  refine ⟨hwaited, hsolo.trans h.solo, hnodup, hin, ?_⟩
  intro side
  have hle := hwaited.underWay_le (hsolo.trans h.solo) hnodup side
  have hbefore := h.peak side
  rw [← hin side] at hle
  rw [hstores, Stores.get_set_serves] at hle ⊢
  cases hserves : w.stores.serves side call with
  | true =>
    rw [hserves, if_pos rfl] at hle
    rw [Stores.get_of_serves hserves] at hbefore
    rw [if_pos rfl]
    omega
  | false =>
    rw [if_neg Bool.false_ne_true]
    exact hbefore

theorem Busy.load_le (h : Busy setup peak w) (hcall : w.call? caller = some call) :
    load call (w.callState? caller) ≤ (w.stores.get call.side).inFlight := by
  rw [h.inFlight, underWay_eq h.nodup call.side caller, underWayFor_of_call hcall,
    if_pos (Stores.serves_side ..)]
  exact Nat.le_add_left ..

theorem moves_feed (w : World) (side : Side) (i : Nat) (state : CallState) :
    w.moves side (.feed i, state) = false := by
  rw [Bool.eq_false_iff]
  intro h
  obtain ⟨call, hcall, hmoves⟩ := (Option.any_eq_true _ _).mp (Bool.and_eq_true_iff.mp h).2
  obtain ⟨bucket, keyPrefix, token, maxKeys, rfl⟩ := exists_list hcall
  cases (Bool.and_eq_true_iff.mp hmoves).2

/-- The job goes on. Calls that end thereby have been answered, and tasks wait for the others as
before. -/
theorem Busy.act (h : Busy setup peak w) (hwaited : Waited setup v) (hsolo : v.solo = w.solo)
    (hstores : v.stores = w.stores) {p : Caller × CallState → Bool} (hcalls : v.calls = w.calls.filter p)
    (hgone : ∀ c ∈ w.calls, p c = false → ∀ side, w.moves side c = false)
    (hsame : ∀ (t : Nat) (lane : Lane), (Caller.task t lane, .entered) ∈ v.calls →
      v.call? (.task t lane) = w.call? (.task t lane)) : Busy setup peak v := by
  have hmoves : ∀ side, ∀ c ∈ v.calls, v.moves side c = w.moves side c := by
    rintro side ⟨caller, state⟩ hc
    cases state with
    | answered => rfl
    | entered =>
      cases caller with
      | task t lane => simp only [moves, hstores, hsame t lane hc]
      | feed i => rw [moves_feed, moves_feed]
      | solo lane => simp only [moves, call?, hsolo, h.solo, Option.bind_none, Option.any_none]
  have hunder : ∀ side, v.underWay side = w.underWay side := by
    intro side
    have hkept : v.underWay side = v.calls.countP (w.moves side) :=
      List.countP_congr fun c hc => by rw [hmoves side c hc]
    rw [hkept, hcalls, List.countP_filter]
    apply List.countP_congr
    intro c hc
    cases hpc : p c with
    | true => rw [Bool.and_true]
    | false => simp only [hgone c hc hpc, Bool.and_false]
  refine ⟨hwaited, hsolo.trans h.solo, hcalls ▸ nodup_filter h.nodup p, ?_, ?_⟩
  · intro side
    rw [hstores, hunder]
    exact h.inFlight side
  · intro side
    rw [hstores]
    exact h.peak side

theorem Busy.call?_eq (h : Busy setup peak w) {jobAction : JobAction} {u : Transition}
    (hact : w.job.act jobAction = some u) (hjob : v.job = u.job) {t : Nat} {lane : Lane}
    {state : CallState} (hc : (Caller.task t lane, state) ∈ w.calls)
    (hreply : ∀ reply, jobAction ≠ .reply t lane reply) (hpanic : ∀ reason, jobAction ≠ .panic t reason) :
    v.call? (.task t lane) = w.call? (.task t lane) := by
  obtain ⟨call, hbefore, hafter⟩ :=
    h.toWaited.act hact hjob (callState?_of_mem h.nodup hc) hreply hpanic
  exact hafter.trans hbefore.symm

theorem finish_eq (w : World) (caller : Caller) (call : Call) :
    w.finish caller call =
      { w with
        stores := w.stores.set call.side ((w.stores.get call.side).finish w.now call.request).2 }.setCall
        caller (.answered ((w.stores.get call.side).finish w.now call.request).1) := rfl

theorem Busy.step (h : Busy setup peak w) {action : WorldAction} {t : WorldTransition}
    (hact : w.act action = some t) (hserved : (⟨w, action, t⟩ : Event).isServed = true) :
    Busy setup peak t.world := by
  have hwaited := h.toWaited.step hact
  cases act_deed hact with
  | job hinternal hjob =>
    refine h.act hwaited rfl rfl (p := fun _ => true) (List.filter_true _).symm ?_ ?_
    · intro c _ hfalse
      cases hfalse
    · intro t lane hc
      exact h.call?_eq hjob rfl hc (ne_reply_of_isInternal hinternal t lane)
        (ne_panic_of_isInternal hinternal t)
  | @enter caller call hcall hfree =>
    rw [enter_eq] at hwaited ⊢
    rcases (w.stores.get call.side).inFlight_enter call.request with
      ⟨e, herror, hflight, hpeak⟩ | ⟨hok, hflight, hpeak⟩
    · refine h.ask hwaited rfl rfl hcall rfl rfl ?_ ?_
      · rw [hflight, hfree, herror, load_none, load_answered]
      · rw [hpeak]
        exact Nat.le_max_left ..
    · refine h.ask hwaited rfl rfl hcall rfl rfl ?_ ?_
      · rw [hflight, hfree, hok, load_none, load_entered]
        rfl
      · rw [hpeak, hflight]
        refine max_le_max_left _ ?_
        split
        · exact Nat.le_refl _
        · exact Nat.zero_le _
  | @finish caller call hcall hentered =>
    rw [finish_eq] at hwaited ⊢
    obtain ⟨hflight, hpeak⟩ := (w.stores.get call.side).inFlight_finish call.request w.now
    refine h.ask hwaited rfl rfl hcall rfl rfl ?_ ?_
    · have hcounted := h.load_le hcall
      rw [hentered, load_entered] at hcounted
      rw [hflight, hentered, load_entered, load_answered]
      exact Nat.sub_add_cancel hcounted
    · rw [hpeak]
      exact Nat.le_max_left ..
  | answer => cases hserved
  | @toTask task lane reply u hanswered hjob =>
    refine h.act hwaited rfl rfl rfl ?_ ?_
    · intro c hc hgone side
      rw [bne_eq_false_iff_eq] at hgone
      have hstate := callState?_of_mem h.nodup hc
      rw [hgone, hanswered, Option.some.injEq] at hstate
      rw [← Prod.eta c, ← hstate]
      rfl
    · intro t l hc
      obtain ⟨hmem, hne⟩ := List.mem_filter.mp hc
      refine h.call?_eq hjob rfl hmem ?_ fun reason => JobAction.noConfusion
      intro given hsame
      cases hsame
      simp at hne
  | @toFeed i reply u hanswered hjob =>
    refine h.act hwaited rfl rfl rfl ?_ ?_
    · intro c hc hgone side
      rw [bne_eq_false_iff_eq] at hgone
      rw [← Prod.eta c, hgone, moves_feed]
    · intro t l hc
      exact h.call?_eq hjob rfl (List.mem_filter.mp hc).1 (fun given => JobAction.noConfusion)
        fun reason => JobAction.noConfusion
  | @panic task reason u hjob =>
    obtain ⟨c, hstage, hphase⟩ := Event.exists_overflowed hserved rfl
    refine h.act hwaited rfl rfl rfl ?_ ?_
    · rintro ⟨caller, state⟩ hc hgone
      cases caller with
      | task t lane =>
        rw [bne_eq_false_iff_eq] at hgone
        subst hgone
        -- A task whose layout overflows waits for no call.
        obtain ⟨call, hcall⟩ := h.waits t lane state (callState?_of_mem h.nodup hc)
        obtain ⟨c', hstage', hcall⟩ := Job.exists_running_of_taskCall? hcall
        cases hstage.symm.trans hstage'
        rw [ObjectCopy.call?_overflowed hphase] at hcall
        cases hcall
      | feed | solo => cases hgone
    · intro t l hc
      obtain ⟨hmem, hne⟩ := List.mem_filter.mp hc
      refine h.call?_eq hjob rfl hmem (fun given => JobAction.noConfusion) ?_
      intro other hsame
      cases hsame
      simp at hne
  | pass => exact ⟨hwaited, h.solo, h.nodup, h.inFlight, h.peak⟩
  | aside haction =>
    rw [Event.isAside_eq_false hserved] at haction
    cases haction

/-- Whatever the drivers, the tasks and the clients do, no more tasks hold a slot than the options
allow, every slot comes back, and a copy has only so many parts under way; so the tasks of a job
wait for a bounded number of data calls, and what is under way is waited for. Stores that only serve
this job, without a call that panics, never have more under way. -/
theorem concurrency_bounds {setup : Setup} {results : Option ResultQueue} {start w : World}
    {events : List Event} (hnew : Job.new? setup results = .ok start.job) (hcalls : start.calls = [])
    (hsolo : start.solo = none) (hpath : Path start events w) :
    Job.WithinBounds setup w.job ∧
      (∀ (t : Nat) (lane : Lane), w.callState? (.task t lane) ≠ none → w.call? (.task t lane) ≠ none) ∧
      ((∀ e ∈ events, e.isServed = true) → (∀ side, (start.stores.get side).inFlight = 0) →
        ∀ side, (w.stores.get side).inFlight ≤ Job.mostDataCalls setup.options ∧
          (w.stores.get side).peakInFlight ≤
            max (start.stores.get side).peakInFlight (Job.mostDataCalls setup.options)) := by
  have hwaited : Waited setup start := waited_start hnew hcalls
  have hw : Waited setup w := by
    induction hpath with
    | start => exact hwaited
    | step _ hact ih => exact ih.step hact
  refine ⟨hw.paced.withinBounds, ?_, ?_⟩
  · intro t lane hstate
    obtain ⟨state, hstate⟩ := Option.ne_none_iff_exists'.mp hstate
    obtain ⟨call, hcall⟩ := hw.waits t lane state hstate
    rw [hcall]
    exact Option.some_ne_none _
  · intro hserved hidle side
    have hbusy : Busy setup (fun side => (start.stores.get side).peakInFlight) w := by
      clear hw
      induction hpath with
      | start =>
        refine ⟨hwaited, hsolo, by rw [hcalls]; exact .nil, ?_, fun side => Nat.le_max_left ..⟩
        intro side
        rw [hidle, underWay, hcalls]
        rfl
      | @step events w action t _ hact ih =>
        have hlast : (⟨w, action, t⟩ : Event) ∈ events ++ [⟨w, action, t⟩] :=
          List.mem_append_right _ List.mem_cons_self
        exact (ih fun e he => hserved e (List.mem_append_left _ he)).step hact (hserved _ hlast)
    refine ⟨?_, hbusy.peak side⟩
    rw [hbusy.inFlight]
    exact hbusy.underWay_le hbusy.solo hbusy.nodup side

/-- Three objects to migrate with two slots, one call of each task at a time. -/
def twoSlots : World where
  job :=
    { setup :=
        { source := { bucket := "from" }
          target := { bucket := "to" }
          options := { concurrency := 2, partConcurrency := some 1, forceOverwrite := true } }
      freeSlots := 2 }
  stores := .shared (["a", "b", "c"].foldl
    (fun store key => store.write "from" key ⟨⟨#[1, 2, 3]⟩, 0, "", none⟩) {})
  now := 0

def untilReading (t : Nat) : List WorldAction :=
  [.job (.grant t), .job (.start t), .enter (.task t .whole), .finish (.task t .whole),
    .deliver (.task t .whole), .enter (.task t .whole)]

/-- The objects are listed, and two of them are being read. -/
def bothReading : List WorldAction :=
  [.job (.openFeed none), .job (.nextPage 0), .enter (.feed 0), .finish (.feed 0), .deliver (.feed 0)] ++
    untilReading 2 ++ untilReading 0

/-- The bound is met. -/
theorem concurrency_bounds_two_slots :
    ∃ events w, Path twoSlots events w ∧ (w.stores.get .source).inFlight = 2 ∧
      Job.mostDataCalls twoSlots.job.setup.options = 2 ∧ Job.WithinBounds twoSlots.job.setup w.job ∧
      (w.stores.get .source).peakInFlight ≤ 2 := by
  have hrun : (twoSlots.run? bothReading).map (fun run =>
      (run.1.all Event.isServed, (run.2.stores.get .source).inFlight)) = some (true, 2) := by
    decide +kernel
  obtain ⟨⟨events, w⟩, hrun, heq⟩ := Option.map_eq_some_iff.mp hrun
  simp only [Prod.mk.injEq, List.all_eq_true] at heq
  obtain ⟨hserved, htwo⟩ := heq
  have hpath := path_of_run? hrun
  have hnew : Job.new? twoSlots.job.setup none = .ok twoSlots.job := rfl
  obtain ⟨hbounds, -, hpeak⟩ := concurrency_bounds hnew rfl rfl hpath
  exact ⟨events, w, hpath, htwo, rfl, hbounds,
    (hpeak hserved (fun side => by cases side <;> rfl) .source).2⟩

end World

end BucketMigration
