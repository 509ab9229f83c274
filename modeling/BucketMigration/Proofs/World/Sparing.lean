import BucketMigration.Proofs.World.Foresight
import BucketMigration.Proofs.World.Past

/-!
# Runs that copy nothing

When every object of the listing is going to be skipped, a run never comes further with an object than
to compare it. So it asks what is there, and leaves the rest of the stores alone.
-/

namespace BucketMigration

def Operation.isInquiry : Operation → Bool
  | list | head => true
  | _ => false

/-- Stores that have been asked what is there, and nothing else. -/
structure Stores.Asked (S T : Stores) : Prop where
  objects : ∀ side, (T.get side).object? = (S.get side).object?
  calls : ∀ side operation, operation.isInquiry = false →
    (T.get side).calls operation = (S.get side).calls operation

theorem TaskStatus.isSkip_of_skipped {e : MigrationError}
    (h : TaskStatus.ofVerdict (.error e) = .skipped) : e.isSkip = true := by
  by_contra hnot
  simp [TaskStatus.ofVerdict, hnot] at h

theorem ObjectCopy.landing_of_skipped {v : Verdict} (h : TaskStatus.ofVerdict v = .skipped)
    (size : Nat) : landing size (some v) = 0 := by
  rcases v with e | ⟨mode, bytes⟩ | -
  · have he := TaskStatus.isSkip_of_skipped h
    cases e with
    | skipLimitExceeded => rfl
    | _ => cases he
  · cases h
  · rfl

def Skips (S₀ : Stores) (setup : Setup) (object : ObjectDescriptor) : Prop :=
  ∃ v, forecast S₀ setup object = some v ∧ TaskStatus.ofVerdict v = .skipped

/-- A copy that has come no further than to compare its object, or has ended. -/
def Phase.Sparing : Phase → Prop
  | describing _ | pausing _ | comparing | ended _ => True
  | _ => False

def TaskStage.Sparing : TaskStage → Prop
  | running c => c.phase.Sparing
  | _ => True

namespace Stores.Asked

variable {S T U : Stores}

theorem refl (S : Stores) : S.Asked S :=
  ⟨fun _ => rfl, fun _ _ _ => rfl⟩

theorem trans (h : S.Asked T) (h' : T.Asked U) : S.Asked U where
  objects := fun side => (h'.objects side).trans (h.objects side)
  calls := fun side operation hop => (h'.calls side operation hop).trans (h.calls side operation hop)

theorem set {side : Side} {store : Store} (hobjects : store.object? = (S.get side).object?)
    (hcalls : ∀ operation, operation.isInquiry = false →
      store.calls operation = (S.get side).calls operation) : S.Asked (S.set side store) where
  objects := by
    intro other
    rcases S.get_set_or side other store with ⟨hset, hget⟩ | hset
    · rw [hset, hobjects, hget]
    · rw [hset]
  calls := by
    intro other operation hop
    rcases S.get_set_or side other store with ⟨hset, hget⟩ | hset
    · rw [hset, hcalls operation hop, hget]
    · rw [hset]

theorem enter {call : Call} (hcall : call.request.operation.isInquiry = true) :
    S.Asked (S.set call.side ((S.get call.side).enter call.request).2) := by
  refine set (Store.object?_enter ..) ?_
  intro operation hop
  have hne : call.request.operation ≠ operation := by
    rintro rfl
    rw [hcall] at hop
    cases hop
  rw [Store.calls_enter, if_neg hne, Nat.add_zero]

theorem finish {call : Call} (hcall : call.request.operation.isInquiry = true) (now : Int) :
    S.Asked (S.set call.side ((S.get call.side).finish now call.request).2) := by
  have hsame : ((S.get call.side).finish now call.request).2 = S.get call.side := by
    cases hrequest : call.request with
    | list | head => rfl
    | _ =>
      rw [hrequest] at hcall
      cases hcall
  rw [hsame]
  exact set rfl fun _ _ => rfl

end Stores.Asked

namespace ObjectCopy

variable {S₀ : Stores} {setup : Setup} {c : ObjectCopy} {next : Next}

theorem sparing_start (object : ObjectDescriptor) : (start setup object).1.phase.Sparing := by
  unfold start
  dsimp only
  split
  · trivial
  · split <;> trivial

theorem sparing_transfer {v : Verdict} (hv : (c.transfer setup).1.outlook S₀ setup = some v)
    (hskip : TaskStatus.ofVerdict v = .skipped) : (c.transfer setup).1.phase.Sparing := by
  rcases transfer_cases setup c with h | h | ⟨e, h⟩ | ⟨plan, h⟩
  · rw [h] at hv
    cases hv
    cases hskip
  · rw [h] at hv
    cases hv
  · rw [h]
    trivial
  · rw [h] at hv
    simp only [outlook, go, partsOutlook, Option.some.injEq] at hv
    subst hv
    split at hskip <;> cases hskip

theorem sparing_described (attempt : Nat) (result : Except StorageError (Option ObjectMetadata))
    {v : Verdict} (hv : (c.described setup attempt result).1.outlook S₀ setup = some v)
    (hskip : TaskStatus.ofVerdict v = .skipped) :
    (c.described setup attempt result).1.phase.Sparing := by
  unfold described at hv ⊢
  split at hv
  · dsimp only at hv ⊢
    split at hv
    · rename_i hforce
      rw [if_pos hforce]
      exact sparing_transfer hv hskip
    · rename_i hforce
      rw [if_neg hforce]
      trivial
  · trivial
  · dsimp only
    split
    · trivial
    · split <;> trivial

theorem sparing_compared (result : Except StorageError (Option ObjectMetadata)) {v : Verdict}
    (hv : (c.compared setup result).1.outlook S₀ setup = some v)
    (hskip : TaskStatus.ofVerdict v = .skipped) : (c.compared setup result).1.phase.Sparing := by
  unfold compared at hv ⊢
  split at hv
  · trivial
  · split at hv
    · rename_i hcurrent
      rw [if_pos hcurrent]
      trivial
    · rename_i hcurrent
      rw [if_neg hcurrent]
      exact sparing_transfer hv hskip

theorem Moves.sparing {v : Verdict} (h : c.Moves setup next) (hc : c.phase.Sparing)
    (hv : next.1.outlook S₀ setup = some v) (hskip : TaskStatus.ofVerdict v = .skipped) :
    next.1.phase.Sparing := by
  cases h with
  | @reply lane given _ h =>
    cases hphase : c.phase with
    | describing attempt =>
      obtain ⟨-, result, -, rfl⟩ := resume_describing hphase h
      exact sparing_described attempt result hv hskip
    | comparing =>
      obtain ⟨-, result, -, rfl⟩ := resume_comparing hphase h
      exact sparing_compared result hv hskip
    | pausing =>
      unfold resume at h
      rw [hphase] at h
      cases lane <;> cases h
    | ended =>
      rw [resume_ended hphase] at h
      cases h
    | _ =>
      rw [hphase] at hc
      exact hc.elim
  | wake h =>
    unfold ObjectCopy.wake at h
    split at h
    · cases h
      trivial
    · cases h
  | startPart h =>
    obtain ⟨s, part, waiting, hphase, -⟩ := startPart_eq_some h
    rw [hphase] at hc
    exact hc.elim

theorem isInquiry_of_call? {lane : Lane} {call : Call} (hc : c.phase.Sparing)
    (hcall : c.call? setup lane = some call) : call.request.operation.isInquiry = true := by
  unfold call? at hcall
  cases hphase : c.phase with
  | describing | comparing =>
    rw [hphase] at hcall
    cases lane <;> cases hcall
    rfl
  | pausing | ended =>
    rw [hphase] at hcall
    cases lane <;> cases hcall
  | _ =>
    rw [hphase] at hc
    exact hc.elim

end ObjectCopy

namespace Job

variable {S₀ : Stores} {job next : Job}

/-- Tasks that spare the target still do after a step, when their objects are going to be skipped. -/
theorem Move.sparing (h : job.Move next) (hhalt : job.halt = none)
    (hlook : ∀ task ∈ next.tasks, ∃ v, task.stage.outlook S₀ job.setup task.object = some v ∧
      TaskStatus.ofVerdict v = .skipped)
    (hall : ∀ task ∈ job.tasks, task.stage.Sparing) : ∀ task ∈ next.tasks, task.stage.Sparing := by
  intro task htask
  obtain ⟨v, hv, hskip⟩ := hlook task htask
  rcases h.mem_tasks htask with hold | hnew | ⟨stage, hmem, hmove⟩
  · exact hall task hold
  · rw [hnew]
    trivial
  · obtain ⟨object, stage'⟩ := task
    have hstage := hall _ hmem
    dsimp only at hmove hv ⊢
    generalize next.course = course at hmove
    cases hmove with
    | refuse hhalted =>
      rw [hhalt] at hhalted
      cases hhalted
    | start => exact ObjectCopy.sparing_start object
    | copy hmoves => exact hmoves.sparing hstage hv hskip
    | account => split <;> trivial
    | grant | panic | release | place | finish => trivial

end Job

section Foretold

variable {S₀ : Stores} {setup : Setup} {objects : List ObjectDescriptor}
  (hskips : ∀ d ∈ objects, Skips S₀ setup d)
include hskips

theorem foretoldNumber_skipped : foretoldNumber S₀ setup objects .skipped = objects.length := by
  rw [foretoldNumber, List.countP_eq_length]
  intro d hd
  obtain ⟨v, hv, hskip⟩ := hskips d hd
  simp [hv, hskip]

theorem foretoldNumber_migrated : foretoldNumber S₀ setup objects .migrated = 0 := by
  rw [foretoldNumber, List.countP_eq_zero]
  intro d hd
  obtain ⟨v, hv, hskip⟩ := hskips d hd
  simp [hv, hskip]

theorem sum_landing_eq_zero :
    (objects.map fun d => ObjectCopy.landing d.size (forecast S₀ setup d)).sum = 0 := by
  rw [List.sum_eq_zero_iff]
  intro n hn
  obtain ⟨d, hd, rfl⟩ := List.mem_map.mp hn
  obtain ⟨v, hv, hskip⟩ := hskips d hd
  rw [hv]
  exact ObjectCopy.landing_of_skipped hskip d.size

end Foretold

namespace World

/-- A run that has asked the stores and has done nothing else to them. -/
structure Sparing (start : World) (x : Watch) : Prop where
  sweep : ∃ k feed, Sweep start k feed x
  foretells : Foretells start x.world.job
  tasks : ∀ task ∈ x.world.job.tasks, task.stage.Sparing
  stores : start.stores.Asked x.world.stores

variable {start w : World} {x y : Watch} {action : WorldAction} {t : WorldTransition}

theorem isInquiry_of_call? {caller : Caller} {call : Call} (hsolo : w.solo = none)
    (htasks : ∀ task ∈ w.job.tasks, task.stage.Sparing) (hcall : w.call? caller = some call) :
    call.request.operation.isInquiry = true := by
  cases caller with
  | task t lane =>
    obtain ⟨object, c, ht, hcopy⟩ := exists_running hcall
    exact ObjectCopy.isInquiry_of_call? (htasks _ (List.mem_of_getElem? ht)) hcopy
  | feed i =>
    obtain ⟨bucket, keyPrefix, token, maxKeys, rfl⟩ := exists_list hcall
    rfl
  | solo lane =>
    simp only [call?, hsolo, Option.bind_none] at hcall
    cases hcall

theorem Deed.asked (h : w.Deed action t) (haside : action.isAside = false)
    (hcalls : ∀ caller call, w.call? caller = some call →
      call.request.operation.isInquiry = true) : w.stores.Asked t.world.stores := by
  cases h with
  | enter hcall =>
    rw [enter_eq]
    exact .enter (hcalls _ _ hcall)
  | finish hcall => exact .finish (hcalls _ _ hcall) _
  | job | answer | toTask | toFeed | panic | pass => exact .refl _
  | aside haction =>
    rw [haction] at haside
    cases haside

section Skips

variable (hskips : ∀ d ∈ start.listing.objects, Skips start.stores start.job.setup d)
include hskips

theorem Foretells.halt_eq_none {job : Job} (h : Foretells start job) : job.halt = none := by
  by_contra hhalted
  obtain ⟨d, hd, hdoomed⟩ := h.halted hhalted
  obtain ⟨v, hv, hskip⟩ := hskips d hd
  obtain ⟨e, rfl, hfatal⟩ := hdoomed v hv
  rw [MigrationError.isFatal_eq_false_of_isSkip (TaskStatus.isSkip_of_skipped hskip)] at hfatal
  cases hfatal

theorem Working.exists_outlook (h : Working start w) (hjob : Foretells start w.job) :
    ∀ task ∈ w.job.tasks,
      ∃ v, task.stage.outlook start.stores start.job.setup task.object = some v ∧
        TaskStatus.ofVerdict v = .skipped := by
  intro task htask
  obtain ⟨v, hv, hskip⟩ := hskips _ (h.objects task htask)
  refine ⟨v, ?_, hskip⟩
  rw [(hjob.going (hjob.halt_eq_none hskips)).outlook task htask, hv]

theorem Sparing.step (hstart : Fresh start) (h : Sparing start x) (hstep : Watch.Step action x y) :
    Sparing start y := by
  obtain ⟨k, feed, hsweep⟩ := h.sweep
  have hnext := hsweep.step hstart hstep
  have hjob := hsweep.foretells hstart h.foretells hstep
  obtain ⟨k', feed', hsweep'⟩ := hnext
  obtain ⟨trails, events, htracked⟩ := hsweep.tracked
  have hlook := hsweep'.working.exists_outlook hskips hjob
  obtain @⟨t, hwaits, hact, hrun⟩ := hstep
  have haside := Event.isAside_eq_false (isOfRun_isServed hrun)
  refine ⟨⟨k', feed', hsweep'⟩, hjob, ?_, ?_⟩
  · rcases (act_deed hact).job_cases haside with hsame | hmoved
    · dsimp only
      rw [hsame]
      exact h.tasks
    · rw [← htracked.setup_eq] at hlook
      exact hmoved.move.2.sparing (h.foretells.halt_eq_none hskips) hlook h.tasks
  · exact h.stores.trans ((act_deed hact).asked haside fun caller call =>
      isInquiry_of_call? htracked.solo h.tasks)

omit hskips in
theorem Fresh.sparing (hstart : Fresh start) (hbegins : Begins start x) : Sparing start x := by
  have hsweep := hstart.sweep hbegins
  have hjob := hstart.foretells hbegins
  obtain ⟨rfl, -⟩ := hstart.eq_running hbegins
  obtain ⟨results, hnew⟩ := hstart.job
  have htasks : start.running.job.tasks = [] := by
    rw [running, (Job.new?_eq_ok hnew).1]
  refine ⟨⟨0, hsweep⟩, hjob, ?_, .refl _⟩
  rw [htasks]
  exact List.forall_mem_nil _

theorem Sparing.spared (h : Sparing start x) :
    ∀ task ∈ x.world.job.tasks, task.stage.Spared := by
  obtain ⟨k, feed, hsweep⟩ := h.sweep
  intro task htask
  obtain ⟨v, hv, hskip⟩ := hsweep.working.exists_outlook hskips h.foretells task htask
  cases hstage : task.stage with
  | panicked reason =>
    rw [hstage] at hv
    cases hv
  | released verdict =>
    rw [hstage] at hv
    cases hv
    cases v with
    | ok => trivial
    | error e => exact TaskStatus.isSkip_of_skipped hskip
  | _ => trivial

theorem Sparing.returned (hstart : Fresh start) (h : Sparing start x) {r : Return}
    (hr : x.returned = some r) :
    r = .ran (.ok x.world.job.snapshot) ∧
      x.world.job.progress.objects = start.listing.objects.length ∧
      x.world.job.progress.bytes = (start.listing.objects.map ObjectDescriptor.size).sum ∧
      x.world.job.progress.migrated = 0 ∧
      x.world.job.progress.skipped = start.listing.objects.length ∧
      x.world.job.progress.landedBytes = 0 := by
  obtain ⟨k, feed, hsweep⟩ := h.sweep
  rcases hsweep.returned_cases hstart h.foretells hr with ⟨e, hhalt, -⟩ | ⟨-, hcompleted, rfl⟩
  · rw [h.foretells.halt_eq_none hskips] at hhalt
    cases hhalt
  · refine ⟨rfl, hcompleted.progress_objects, hcompleted.progress_bytes, ?_, ?_, ?_⟩
    · rw [hcompleted.accounted.migrated, hcompleted.number_eq]
      exact foretoldNumber_migrated hskips
    · rw [hcompleted.accounted.skipped, hcompleted.number_eq]
      exact foretoldNumber_skipped hskips
    · rw [hcompleted.progress_landedBytes]
      exact sum_landing_eq_zero hskips

end Skips

section Driver

variable {k : Nat} {feed : Feed} (h : Sweep start k feed x)
include h

theorem Sweep.caller_cases {caller : Caller} {call : Call}
    (hcall : x.world.call? caller = some call) :
    caller = .feed 0 ∨ ∃ t lane, caller = .task t lane := by
  obtain ⟨trails, events, htracked⟩ := h.tracked
  cases caller with
  | task t lane => exact .inr ⟨t, lane, rfl⟩
  | feed i =>
    left
    by_contra hne
    have hi : i ≠ 0 := fun hi => hne (by rw [hi])
    simp [call?, Job.feedCall?, h.driven.feeds, hi] at hcall
  | solo lane =>
    simp only [call?, htracked.solo, Option.bind_none] at hcall
    cases hcall

theorem Sweep.driver_cases (hstep : Watch.Step action x y) :
    action.driver? = none ∨ action.driver? = some (.feed 0) := by
  obtain @⟨t, hwaits, hact, hrun⟩ := hstep
  cases act_runDeed h.driven.feeds (h.stage hwaits) h.driven.batches hact hrun with
  | enter hcall =>
    rcases h.caller_cases hcall with rfl | ⟨n, lane, rfl⟩
    · exact .inr rfl
    · exact .inl rfl
  | finish hcall =>
    rcases h.caller_cases hcall with rfl | ⟨n, lane, rfl⟩
    · exact .inr rfl
    · exact .inl rfl
  | consumer haction => rcases haction with rfl | rfl <;> exact .inl rfl
  | internal hown => exact .inl (driver?_eq_none_of_task? hown)
  | pass | reply | panic => exact .inl rfl
  | listed | join => exact .inr rfl

end Driver

theorem steady_sparing (hstart : Fresh start)
    (hskips : ∀ d ∈ start.listing.objects, Skips start.stores start.job.setup d) :
    Steady (Sparing start) where
  spared := fun _ hx => hx.spared hskips
  driver := by
    rintro x y action hx hstep
    obtain ⟨k, feed, hsweep⟩ := hx.sweep
    exact hsweep.driver_cases hstep
  step := fun _ _ _ hx => hx.step hskips hstart

end World

end BucketMigration
