import BucketMigration.Proofs.Batch.Lines
import BucketMigration.Proofs.Job.Batches
import BucketMigration.Proofs.World.Foresight

/-!
# A batch over a whole listing

A batch that names the objects of the listing, in any order, is migrated on a new job over stores that
do not fail, and nothing else drives the job. All its tasks are there from the start. They are joined
one after the other, until the call returns.
-/

namespace BucketMigration

namespace Job

variable {job : Job}

theorem numberAmong_range (job : Job) (status : TaskStatus) :
    job.numberAmong (List.range job.tasks.length) status = job.number status := by
  have hmap : (List.range job.tasks.length).map job.stage? = job.tasks.map fun task =>
      some task.stage := by
    apply List.ext_getElem?
    intro t
    by_cases hlt : t < job.tasks.length
    · simp [hlt, stage?]
    · rw [List.getElem?_eq_none (by simpa using Nat.le_of_not_lt hlt),
        List.getElem?_eq_none (by simpa using Nat.le_of_not_lt hlt)]
  have hcount := congrArg
    (List.countP fun stage? => decide (stage?.bind TaskStage.group? = some status)) hmap
  rw [List.countP_map, List.countP_map] at hcount
  exact hcount

theorem isSome_joinInBatch {i task : Nat} {batch : BatchRun} {stage : TaskStage}
    (hmem : task ∈ batch.tasks) (hstage : job.stage? task = some stage)
    (hover : stage.isOver = true) : (job.joinInBatch i task batch).isSome = true := by
  simp only [joinInBatch, if_pos hmem, hstage]
  cases stage with
  | finished | panicked => rfl
  | _ => cases hover

end Job

namespace World

inductive BeginsBatch (start : World) (lines : List String) : Watch → Prop
  | batch {t : WorldTransition} (hact : start.act (.job (.batch lines)) = some t) :
      BeginsBatch start lines ⟨t.world, t.returned⟩

/-- A batch with objects of the listing has joined some of its tasks. -/
structure Batched (start : World) (joined : List Nat) (batch : BatchRun) (x : Watch) : Prop where
  working : Working start x.world
  objects : (x.world.job.tasks.map Task.object).Perm start.listing.objects
  feeds : x.world.job.feeds = []
  batches : x.world.job.batches = [batch]
  tallied : x.world.job.Tallied (List.range x.world.job.tasks.length) joined batch
  returned : x.returned = if batch.tasks = [] then
    some (.batch (x.world.job.checkHalted.map fun _ => batch.summary)) else none

variable {start v w : World} {joined : List Nat} {batch : BatchRun} {x y : Watch}
  {action : WorldAction} {lines : List String}

theorem batched_of_drain {mid : Job} (hworking : Working start v)
    (hobjects : (mid.tasks.map Task.object).Perm start.listing.objects) (hfeeds : mid.feeds = [])
    (hbatches : mid.batches.length = 1)
    (htallied : mid.Tallied (List.range mid.tasks.length) joined batch)
    (hjob : v.job = (mid.drainBatch 0 batch).job) :
    ∃ batch', batch'.tasks = batch.tasks ∧
      Batched start joined batch' ⟨v, (mid.drainBatch 0 batch).returned⟩ := by
  obtain ⟨old, hold⟩ := List.length_eq_one_iff.mp hbatches
  have hset : ∀ batch', (mid.setBatch 0 batch').batches = [batch'] := by
    intro batch'
    rw [Job.setBatch, hold]
    rfl
  rcases mid.drainBatch_cases 0 batch with ⟨hempty, hdrained, hreturned⟩ |
    ⟨hne, hdrained, hreturned⟩
  · rw [hdrained] at hjob
    refine ⟨{ batch with isOver := true }, rfl, hworking, ?_, ?_, ?_, ?_, ?_⟩
    · exact hjob ▸ hobjects
    · exact hjob ▸ hfeeds
    · exact hjob ▸ hset _
    · rw [hjob]
      exact ⟨htallied.perm, htallied.dispatched, htallied.finished, htallied.number⟩
    · rw [hjob, if_pos hempty, hreturned]
      rfl
  · rw [hdrained] at hjob
    refine ⟨batch, rfl, hworking, ?_, ?_, ?_, ?_, ?_⟩
    · exact hjob ▸ hobjects
    · exact hjob ▸ hfeeds
    · exact hjob ▸ hset _
    · rw [hjob]
      exact ⟨htallied.perm, htallied.dispatched, htallied.finished, htallied.number⟩
    · rw [if_neg hne, hreturned]

section Step

variable (h : Batched start joined batch x) (hwaits : x.returned = none)
include h hwaits

theorem Batched.tasks_ne_nil : batch.tasks ≠ [] := by
  intro hnil
  have hreturned := h.returned
  rw [hwaits, if_pos hnil] at hreturned
  cases hreturned

theorem Batched.other (hreach : Job.Reach x.world.job v.job)
    (hfeeds : v.job.feeds = x.world.job.feeds) (hbatches : v.job.batches = x.world.job.batches)
    (hobjects : v.job.tasks.map Task.object = x.world.job.tasks.map Task.object)
    (htracked : ∃ trails events,
      Tracked start.stores start.job.setup True True trails (Event.writes events) v) :
    Batched start joined batch ⟨v, none⟩ where
  working := h.working.of_reach hreach hobjects htracked
  objects := hobjects ▸ h.objects
  feeds := hfeeds.trans h.feeds
  batches := hbatches.trans h.batches
  tallied := by
    have hlength : v.job.tasks.length = x.world.job.tasks.length := by
      simpa using congrArg List.length hobjects
    rw [hlength]
    exact h.tallied.reach hreach
  returned := (if_neg (h.tasks_ne_nil hwaits)).symm

theorem Batched.undriven {t : WorldTransition} (hdeed : RunDeed x.world {} action t)
    (htracked : ∃ trails events,
      Tracked start.stores start.job.setup True True trails (Event.writes events) t.world) :
    Batched start joined batch ⟨t.world, none⟩ := by
  have htask : ∀ {jobAction : JobAction} {n : Nat} {u : Transition}, jobAction.task? = some n →
      x.world.job.act jobAction = some u → t.world.job = u.job →
      Batched start joined batch ⟨t.world, none⟩ := by
    intro jobAction n u hown hact hjob
    have hframe := Job.frame_of_task hown hact
    obtain ⟨object, stage, stage', -, -, htasks⟩ := Job.act_goes hown hact
    refine h.other hwaits ?_ ?_ ?_ ?_ htracked
    · rw [hjob]
      exact Job.Reach.refl.step ⟨_, _, hact, rfl⟩
    · rw [hjob, hframe.feeds]
    · rw [hjob, hframe.batches]
    · rw [hjob, htasks, Job.map_object_setStage]
  cases hdeed with
  | enter =>
    have hjob : ∀ {caller : Caller} {call : Call},
        (x.world.enter caller call).job = x.world.job := by
      intro caller call
      rw [enter_eq]
      rfl
    exact h.other hwaits (hjob ▸ .refl) (by rw [hjob]) (by rw [hjob]) (by rw [hjob]) htracked
  | finish | pass => exact h.other hwaits .refl rfl rfl rfl htracked
  | consumer _ hact hresults =>
    obtain ⟨results, heq⟩ := hresults
    refine h.other hwaits (Job.Reach.refl.step ⟨_, _, hact, rfl⟩) ?_ ?_ ?_ htracked
    all_goals
      show _ = _
      rw [ofTransition, heq]
  | internal hown _ hact => exact htask hown hact rfl
  | reply _ hact => exact htask rfl hact rfl
  | panic hact => exact htask rfl hact rfl
  | listed hlisting => cases hlisting
  | join hjoining => cases hjoining

omit hwaits in
theorem Batched.join {task : Nat} {u : Transition}
    (hact : x.world.job.act (.joinBatch 0 task) = some u) (hjob : v.job = u.job)
    (htracked : ∃ trails events,
      Tracked start.stores start.job.setup True True trails (Event.writes events) v) :
    ∃ batch', Batched start (task :: joined) batch' ⟨v, u.returned⟩ ∧
      batch'.tasks.length < batch.tasks.length ∧ v.job.tasks = x.world.job.tasks := by
  have hreach : Job.Reach x.world.job v.job := by
    rw [hjob]
    exact Job.Reach.refl.step ⟨_, _, hact, rfl⟩
  simp only [Job.act, h.batches, List.getElem?_cons_zero, Option.bind_some] at hact
  obtain ⟨hmem, status, after, logs, hjoin, rfl⟩ := Job.joinInBatch_eq hact
  have hwork := Job.work_of_joinTask hjoin
  have htasks := Job.tasks_of_joinTask hjoin
  have htallied := h.tallied.join hmem hjoin
  rw [← htasks] at htallied
  have hsame : v.job.tasks = x.world.job.tasks := by
    obtain ⟨batch', hdrained⟩ := Job.exists_drainBatch_eq after 0
      { batch with tasks := batch.tasks.erase task, summary := batch.summary.count status }
    rw [hjob, Transition.after, hdrained]
    exact htasks
  obtain ⟨batch', hbatch', hnext⟩ := batched_of_drain
    (h.working.of_reach hreach (by rw [hsame]) htracked) (htasks ▸ h.objects)
    (hwork.drivers.1.trans h.feeds) (by rw [hwork.drivers.2, h.batches]; rfl) htallied hjob
  refine ⟨batch', hnext, ?_, hsame⟩
  rw [hbatch', List.length_erase_of_mem hmem]
  exact Nat.sub_one_lt (Nat.ne_of_gt (List.length_pos_of_mem hmem))

end Step

theorem Watch.Turn.batch_cases (hturn : Watch.Turn (.batch 0) action x y) :
    x.returned = none ∧
    ∃ t, x.world.act action = some t ∧ (⟨x.world, action, t⟩ : Event).isServed = true ∧
      y.world = t.world ∧
      (RunDeed x.world {} action t ∧ y.returned = none ∨
      ∃ task u, action = .job (.joinBatch 0 task) ∧ x.world.job.act (.joinBatch 0 task) = some u ∧
        t = x.world.ofTransition u ∧ y.returned = u.returned) := by
  obtain @⟨t, hwaits, hact, hdriven⟩ := hturn
  obtain ⟨hrun, hdriver⟩ := Bool.and_eq_true_iff.mp hdriven
  simp only [Bool.or_eq_true, decide_eq_true_eq] at hdriver
  refine ⟨hwaits, t, hact, isOfRun_isServed hrun, rfl, ?_⟩
  rcases hdriver with hnone | hsome
  · refine .inl ⟨runDeed_of_undriven {} hact hrun hnone, ?_⟩
    rw [hnone]
    rfl
  · right
    rw [if_pos hsome]
    cases act_deed hact with
    | @job jobAction u hinternal hjob =>
      cases jobAction with
      | joinBatch i task =>
        cases hsome
        exact ⟨task, u, rfl, hjob, rfl, rfl⟩
      | _ => cases hsome
    | @enter caller | @finish caller | @answer caller => cases caller <;> cases hsome
    | toTask | toFeed | panic | pass => cases hsome
    | aside haction =>
      rw [Event.isAside_eq_false (isOfRun_isServed hrun)] at haction
      cases haction

/-- Whatever happens next, the batch goes on or it has returned. -/
theorem Batched.step (h : Batched start joined batch x) (hjob : Foretells start x.world.job)
    (hturn : Watch.Turn (.batch 0) action x y) :
    (∃ joined' batch', Batched start joined' batch' y) ∧ Foretells start y.world.job := by
  obtain ⟨hwaits, t, hact, hserved, hworld, hcases⟩ := hturn.batch_cases
  obtain ⟨v, returned⟩ := y
  cases hworld
  have htracked := h.working.exists_tracked hact hserved
  rcases hcases with ⟨hdeed, hreturned⟩ | ⟨task, u, rfl, htaken, rfl, hreturned⟩
  · cases hreturned
    exact ⟨⟨joined, batch, h.undriven hwaits hdeed htracked⟩, hjob.undriven h.working hdeed⟩
  · cases hreturned
    obtain ⟨batch', hnext, -⟩ := h.join htaken rfl htracked
    refine ⟨⟨_, batch', hnext⟩, ?_⟩
    simp only [Job.act, h.batches, List.getElem?_cons_zero, Option.bind_some] at htaken
    obtain ⟨-, status, after, logs, hjoin, rfl⟩ := Job.joinInBatch_eq htaken
    obtain ⟨drained, heq⟩ := Job.exists_drainBatch_eq after 0
      { batch with tasks := batch.tasks.erase task, summary := batch.summary.count status }
    change Foretells start (after.drainBatch 0 _).job
    rw [heq]
    exact (hjob.join h.working.objects hjoin).same rfl rfl rfl

theorem Fresh.batched (hstart : Fresh start)
    (hwritable : ∀ d ∈ start.listing.objects, Batch.Writable d)
    (hlines : (lines.filter fun line => !Text.isBlankText line.toList).Perm
      (start.listing.objects.map Batch.line)) (hbegins : BeginsBatch start lines x) :
    (∃ joined batch, Batched start joined batch x) ∧ Foretells start x.world.job := by
  obtain ⟨results, hnew⟩ := hstart.job
  have hjob := (Job.new?_eq_ok hnew).1
  have htasks : start.job.tasks = [] := by rw [hjob]
  have hbatches : start.job.batches = [] := by rw [hjob]
  have hhalt : start.job.halt = none := by rw [hjob]
  obtain ⟨ds, hperm, hentries⟩ := Batch.entries_of_perm hwritable hlines
  have hbegin := Job.beginBatch_eq hhalt hentries
  rw [hbatches, List.length_nil] at hbegin
  obtain ⟨drained, hdrained⟩ := Job.exists_drainBatch_eq (start.job.withBatch ds) 0
    (start.job.newBatch ds.length)
  have hspawned : (start.job.withBatch ds).tasks = ds.map fun d => ⟨d, .queued⟩ := by
    simp only [Job.withBatch, Job.spawn, htasks, List.nil_append]
  have hobjects : (start.job.withBatch ds).tasks.map Task.object = ds := by
    rw [hspawned, List.map_map]
    exact List.map_id _
  have hfeeds : (start.job.withBatch ds).feeds = [] := by
    rw [hjob]
    rfl
  have hown : start.job.nextTasks ds.length =
      List.range (start.job.withBatch ds).tasks.length := by
    rw [Job.nextTasks, htasks, hspawned, List.length_map]
    exact List.range_eq_range'.symm
  obtain @⟨t, hact⟩ := hbegins
  obtain rfl : start.ofTransition (start.job.beginBatch lines) = t := Option.some.inj hact
  have hsame : (start.job.beginBatch lines).job.tasks = (start.job.withBatch ds).tasks := by
    rw [hbegin, hdrained]
    rfl
  have hworking : Working start (start.ofTransition (start.job.beginBatch lines)).world := by
    refine ⟨Job.Reach.refl.step ⟨.batch lines, _, rfl, rfl⟩, ?_, ?_,
      hstart.working.exists_tracked hact rfl⟩
    · intro task htask
      have hmem := List.mem_map_of_mem (f := Task.object) (hsame ▸ htask)
      rw [hobjects] at hmem
      exact hperm.mem_iff.mp hmem
    · have hkeys := congrArg (List.map ObjectDescriptor.key) hobjects
      rw [List.map_map, ← hsame] at hkeys
      exact hkeys ▸ (hperm.map ObjectDescriptor.key).nodup_iff.mpr (Store.nodup_keys_scope ..)
  have htallied := start.job.tallied_withBatch ds
  rw [hown] at htallied
  constructor
  · obtain ⟨batch', -, hbatched⟩ := batched_of_drain hworking (hobjects.symm ▸ hperm) hfeeds
      (by rw [Job.withBatch, hbatches]; rfl) htallied (congrArg Transition.job hbegin)
    rw [← hbegin] at hbatched
    exact ⟨[], batch', hbatched⟩
  · show Foretells start (start.job.beginBatch lines).job
    rw [hbegin, hdrained]
    refine ⟨fun _ => ?_, fun hhalted => absurd hhalt hhalted⟩
    exact ((hstart.foretells_start.going hhalt).spawn ds).same rfl rfl

/-- What is left of a batch: the work of its tasks, and to join them. -/
def batchLeft (w : World) : Nat :=
  w.tasksLeft + (w.job.batches.map fun batch => batch.tasks.length).sum

theorem Batched.batchLeft_eq (h : Batched start joined batch x) :
    x.world.batchLeft = x.world.tasksLeft + batch.tasks.length := by
  rw [batchLeft, h.batches]
  rfl

section Return

variable (hstart : Fresh start)
include hstart

theorem Working.tasksLeft_lt_or (h : Working start w) (hfeeds : w.job.feeds = [])
    {t : WorldTransition} (hdeed : RunDeed w {} action t) :
    t.world.tasksLeft < w.tasksLeft ∨
      action.isIdle = true ∧ t.world.tasksLeft = w.tasksLeft := by
  have hcaller : ∀ {caller : Caller} {call : Call}, w.call? caller = some call →
      ∃ n lane, caller = .task n lane := by
    intro caller call hcall
    cases caller with
    | task n lane => exact ⟨n, lane, rfl⟩
    | feed i => simp [call?, Job.feedCall?, hfeeds] at hcall
    | solo lane =>
      obtain ⟨trails, events, htracked⟩ := h.tracked
      simp [call?, htracked.solo] at hcall
  cases hdeed with
  | enter hcall hfree =>
    obtain ⟨n, lane, rfl⟩ := hcaller hcall
    exact .inl (tasksLeft_lt_of_call hcall (by rw [enter_eq]; rfl)
      (fun _ => callState?_enter_of_ne _) (stepsLeft_enter _ hfree))
  | finish hcall hentered =>
    obtain ⟨n, lane, rfl⟩ := hcaller hcall
    exact .inl (tasksLeft_lt_of_call hcall rfl (fun _ => callState?_finish_of_ne _)
      (stepsLeft_finish _ hentered))
  | pass => exact .inr ⟨rfl, rfl⟩
  | consumer haction _ hresults =>
    obtain ⟨results, heq⟩ := hresults
    refine .inr ⟨by rcases haction with rfl | rfl <;> rfl, ?_⟩
    refine tasksLeft_congr ?_ rfl ?_
    all_goals
      show _ = _
      rw [ofTransition, heq]
  | internal hown _ htaken => exact .inl (h.tasksLeft_lt_of_internal hstart hown htaken)
  | reply _ htaken => exact .inl (h.tasksLeft_lt_of_reply hstart htaken)
  | panic htaken => exact .inl (tasksLeft_lt_of_panic htaken)
  | listed hlisting => cases hlisting
  | join hjoining => cases hjoining

theorem Batched.left_lt_or (h : Batched start joined batch x)
    (hturn : Watch.Turn (.batch 0) action x y) : y.world.batchLeft < x.world.batchLeft ∨
      action.isIdle = true ∧ y.world.batchLeft = x.world.batchLeft := by
  obtain ⟨hwaits, t, hact, hserved, hworld, hcases⟩ := hturn.batch_cases
  obtain ⟨v, returned⟩ := y
  cases hworld
  have htracked := h.working.exists_tracked hact hserved
  rw [h.batchLeft_eq]
  rcases hcases with ⟨hdeed, -⟩ | ⟨task, u, rfl, htaken, rfl, -⟩
  · rw [(h.undriven hwaits hdeed htracked).batchLeft_eq]
    rcases h.working.tasksLeft_lt_or hstart h.feeds hdeed with hless | ⟨hidle, hsame⟩
    · exact .inl (Nat.add_lt_add_right hless _)
    · exact .inr ⟨hidle, by rw [hsame]⟩
  · obtain ⟨batch', hnext, hfewer, htasks⟩ := h.join htaken rfl htracked
    have hsetup := (Job.act_deed htaken).move.1.setup
    have hsame : (x.world.ofTransition u).world.tasksLeft = x.world.tasksLeft :=
      tasksLeft_congr htasks rfl hsetup
    rw [hnext.batchLeft_eq, hsame]
    exact .inl (Nat.add_lt_add_left hfewer _)

theorem Batched.goes (h : Batched start joined batch x) (hwaits : x.returned = none) :
    ∃ action y, Watch.Turn (.batch 0) action x y ∧ action.isIdle = false := by
  obtain ⟨task, hmem⟩ := List.exists_mem_of_ne_nil _ (h.tasks_ne_nil hwaits)
  have hlt : task < x.world.job.tasks.length :=
    List.mem_range.mp (h.tallied.perm.mem_iff.mpr (List.mem_append_right _ hmem))
  obtain ⟨stage, hstage⟩ : ∃ stage, x.world.job.stage? task = some stage := by
    rw [Job.stage?, List.getElem?_eq_getElem hlt]
    exact ⟨_, rfl⟩
  cases hover : stage.isOver with
  | true =>
    obtain ⟨u, hjoin⟩ := Option.isSome_iff_exists.mp
      (Job.isSome_joinInBatch (i := 0) hmem hstage hover)
    have hact : x.world.act (.job (.joinBatch 0 task)) = some (x.world.ofTransition u) := by
      simp only [act, isInternal, Job.act, h.batches, List.getElem?_cons_zero, Option.bind_some,
        hjoin, if_true, Option.map_some]
    exact ⟨_, _, .turn hwaits hact rfl, rfl⟩
  | false => exact Watch.exists_turn _ hwaits (h.working.goes hstart hstage hover)

def BatchedAt (start : World) (x : Watch) : Prop :=
  (∃ joined batch, Batched start joined batch x) ∧ Foretells start x.world.job

omit hstart in
theorem BatchedAt.step (h : BatchedAt start x) (hturn : Watch.Turn (.batch 0) action x y) :
    BatchedAt start y := by
  obtain ⟨⟨joined, batch, hbatched⟩, hjob⟩ := h
  exact hbatched.step hjob hturn

theorem Watch.Leads.batchedAt (h : BatchedAt start x) (hleads : Watch.Leads (.batch 0) x y) :
    BatchedAt start y ∧ y.world.batchLeft ≤ x.world.batchLeft := by
  induction hleads with
  | refl => exact ⟨h, Nat.le_refl _⟩
  | tail _ hturn ih =>
    obtain ⟨action, hturn⟩ := hturn
    obtain ⟨⟨joined, batch, hbatched⟩, hjob⟩ := ih.1
    refine ⟨ih.1.step hturn, ?_⟩
    rcases hbatched.left_lt_or hstart hturn with hless | ⟨-, hsame⟩
    · exact hless.le.trans ih.2
    · exact hsame.le.trans ih.2

/-- A batch over stores that do not fail returns, as long as the tasks go on and are joined from time
to time. -/
theorem BatchedAt.inevitable (h : BatchedAt start x) :
    Inevitable (Watch.Cycle (.batch 0)) (fun y => y.returned ≠ none) x := by
  refine Inevitable.of_measure (BatchedAt start) (fun y => y.world.batchLeft) ?_ ?_ h
  · rintro y z hy ⟨m, action, hleads, hturn, hidle⟩
    obtain ⟨hm, hle⟩ := Watch.Leads.batchedAt hstart hy hleads
    refine ⟨hm.step hturn, ?_⟩
    obtain ⟨joined, batch, hbatched⟩ := hm.1
    rcases hbatched.left_lt_or hstart hturn with hless | ⟨htrue, -⟩
    · exact hless.trans_le hle
    · rw [hidle] at htrue
      cases htrue
  · rintro y ⟨⟨joined, batch, hbatched⟩, -⟩ hnot
    obtain ⟨action, z, hturn, hidle⟩ := hbatched.goes hstart (not_not.mp hnot)
    exact ⟨z, y, action, .refl, hturn, hidle⟩

/-- A batch returns the error that its job is halted for, or the numbers of its job when all objects
have been migrated. -/
theorem Batched.returned_cases (h : Batched start joined batch x)
    (hjob : Foretells start x.world.job) {r : Return} (hr : x.returned = some r) :
    (∃ e, x.world.job.halt = some e ∧ r = .batch (.error e)) ∨
      x.world.job.halt = none ∧ Completed start x.world.job ∧ ∃ s : BatchSummary,
        r = .batch (.ok s) ∧ s.dispatched = x.world.job.tasks.length ∧
          ∀ status, s.number status = x.world.job.number status := by
  have hreturned := h.returned
  rw [hr] at hreturned
  split at hreturned
  · rename_i hempty
    cases hreturned
    have hperm := h.tallied.perm
    rw [hempty, List.append_nil] at hperm
    cases hhalt : x.world.job.halt with
    | some e => exact .inl ⟨e, rfl, by rw [Job.checkHalted, hhalt]; rfl⟩
    | none =>
      refine .inr ⟨rfl, ?_, batch.summary, by rw [Job.checkHalted, hhalt]; rfl, ?_, ?_⟩
      · refine hjob.completed hstart h.working hhalt h.objects ?_
        intro task htask
        obtain ⟨t, ht⟩ := List.mem_iff_getElem?.mp htask
        have hlt := (List.getElem?_eq_some_iff.mp ht).1
        obtain ⟨v, hv⟩ := h.tallied.finished hhalt t (hperm.mem_iff.mp (List.mem_range.mpr hlt))
        rw [Job.stage?, ht] at hv
        exact ⟨v, Option.some.inj hv⟩
      · rw [h.tallied.dispatched, List.length_range]
      · intro status
        rw [h.tallied.number hhalt, ← Job.numberAmong_range, Job.numberAmong, Job.numberAmong]
        exact (hperm.countP_eq _).symm
  · cases hreturned

end Return

end World

end BucketMigration
