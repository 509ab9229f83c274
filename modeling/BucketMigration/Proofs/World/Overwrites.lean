import BucketMigration.Proofs.World.Batched
import BucketMigration.Proofs.World.TargetKeys

/-!
# Copies that are written over

A batch may name any keys. When two of them come to one target key, their tasks write to it one after the
other, both are told to have been migrated, and only the later copy is left. This comes about for two
keys just if one of them shadows the other.
-/

namespace BucketMigration

namespace Store

variable {s : Store}

theorem call_of_faults_eq_nil (h : s.faults = []) (now : Int) (r : Request) :
    ∃ mid, s.Alike mid ∧ s.call now r = mid.finish now r := by
  obtain ⟨hok, halike⟩ := enter_of_faults_eq_nil h r
  refine ⟨(s.enter r).2, halike, ?_⟩
  unfold call
  split
  · rename_i henter
    rw [henter] at hok
    cases hok
  · rename_i henter
    rw [henter]

theorem call_head (h : s.faults = []) (now : Int) (bucket key : String) : ∃ t,
    s.call now (.head bucket key) = (.ok (.metadata (s.head bucket key)), t) ∧
      t.faults = [] ∧ t.object? = s.object? := by
  obtain ⟨mid, halike, hcall⟩ := call_of_faults_eq_nil h now (.head bucket key)
  refine ⟨mid, hcall.trans ?_, halike.faults.trans h, halike.objects⟩
  rw [← head_congr (congrFun (congrFun halike.objects bucket) key)]
  rfl

theorem call_get (h : s.faults = []) (now : Int) {bucket key : String} {object : StoredObject}
    (hobject : s.object? bucket key = some object) : ∃ t,
    s.call now (.get bucket key none) = (.ok (.content object.data), t) ∧
      t.faults = [] ∧ t.object? = s.object? := by
  obtain ⟨mid, halike, hcall⟩ := call_of_faults_eq_nil h now (.get bucket key none)
  rw [← halike.objects] at hobject
  rw [finish_get, get_whole hobject] at hcall
  exact ⟨mid.land, hcall, halike.faults.trans h,
    (alike_land mid).objects.trans halike.objects⟩

theorem call_put (h : s.faults = []) (now : Int) (bucket key : String) (data : ByteArray) : ∃ t stored,
    s.call now (.put bucket key data) = (.ok .done, t) ∧ t.faults = [] ∧
      stored.data = data ∧ stored.lastModified = now ∧
      ∀ b k, t.object? b k = if bucket = b ∧ key = k then some stored else s.object? b k := by
  obtain ⟨mid, halike, hcall⟩ := call_of_faults_eq_nil h now (.put bucket key data)
  refine ⟨(mid.insert bucket key data now).land, ⟨data, now, mid.etag data.size, none⟩, hcall,
    halike.faults.trans h, rfl, rfl, fun b k => ?_⟩
  rw [(alike_land _).objects, object?_insert, halike.objects]

end Store

namespace Stores

variable {S : Stores}

theorem set_set (S : Stores) (side : Side) (s t : Store) :
    (S.set side s).set side t = S.set side t := by
  cases S <;> cases side <;> rfl

def Parted (S : Stores) : Prop :=
  ∃ source target, S = .separate source target

theorem Parted.set (h : S.Parted) (side : Side) (store : Store) : (S.set side store).Parted := by
  obtain ⟨source, target, rfl⟩ := h
  cases side <;> exact ⟨_, _, rfl⟩

theorem Parted.get_set_of_ne (h : S.Parted) {side other : Side} (hne : other ≠ side)
    {store : Store} : (S.set side store).get other = S.get other := by
  obtain ⟨source, target, rfl⟩ := h
  cases side <;> cases other <;> first | rfl | exact absurd rfl hne

end Stores

theorem ObjectCopy.transfer_empty {setup : Setup} {c : ObjectCopy} (hsize : c.object.size = 0)
    (hthreshold : 0 < setup.options.multipartThreshold) : c.transfer setup = c.go .reading := by
  have hmode : TransferMode.ofSize c.object.size setup.options.multipartThreshold = .direct := by
    rw [hsize, TransferMode.ofSize, if_neg (Nat.not_le.mpr hthreshold)]
  rw [transfer, hmode]

namespace World

variable {w v u : World} {a b : List Write}

theorem Path.trans {start : World} {before after : List Event} (h : Path start before w)
    (h' : Path w after v) : Path start (before ++ after) v := by
  induction h' with
  | start => rwa [List.append_nil]
  | step _ hact ih =>
    rw [← List.append_assoc]
    exact ih.step hact

/-- While a batch is at work a world comes to another one, and some is written. -/
def Proceeds (w : World) (written : List Write) (v : World) : Prop :=
  ∃ events, Path w events v ∧ (∀ e ∈ events, e.isDrivenBy (.batch 0) = true) ∧
    Event.writes events = written

theorem Proceeds.trans (h : Proceeds w a v) (h' : Proceeds v b u) : Proceeds w (a ++ b) u := by
  obtain ⟨before, hbefore, hdriven, rfl⟩ := h
  obtain ⟨after, hafter, hdriven', rfl⟩ := h'
  refine ⟨before ++ after, hbefore.trans hafter, fun e he => ?_, List.filterMap_append⟩
  exact (List.mem_append.mp he).elim (hdriven e) (hdriven' e)

theorem act_of_internal {jobAction : JobAction} {t : Transition}
    (hinternal : isInternal jobAction = true) (hact : w.job.act jobAction = some t) :
    w.act (.job jobAction) = some (w.ofTransition t) := by
  simp only [act, hinternal, if_true, hact, Option.map_some]

theorem isDrivenBy_of_task {e : Event} {jobAction : JobAction} {n : Nat}
    (he : e.action = .job jobAction) (hown : jobAction.task? = some n)
    (hinternal : isInternal jobAction = true) : e.isDrivenBy (.batch 0) = true := by
  obtain ⟨before, action, after⟩ := e
  cases he
  cases jobAction <;> cases hown <;> cases hinternal <;> rfl

theorem isDrivenBy_of_join {e : Event} {task : Nat} (he : e.action = .job (.joinBatch 0 task)) :
    e.isDrivenBy (.batch 0) = true := by
  obtain ⟨before, action, after⟩ := e
  cases he
  rfl

theorem proceeds_of_act {jobAction : JobAction} {t : Transition}
    (hdriven : ∀ e : Event, e.action = .job jobAction → e.isDrivenBy (.batch 0) = true)
    (hinternal : isInternal jobAction = true) (hact : w.job.act jobAction = some t) :
    Proceeds w [] { w with job := t.job } := by
  refine ⟨_, Path.start.step (act_of_internal hinternal hact), ?_, rfl⟩
  intro e he
  obtain rfl := List.mem_singleton.mp he
  exact hdriven _ rfl

theorem proceeds_of_call {n : Nat} {call : Call} {reply : Reply} {store : Store} {t : Transition}
    (hcalls : w.calls = []) (hcall : w.call? (.task n .whole) = some call)
    (hfaults : (w.stores.get call.side).faults = [])
    (hreply : (w.stores.get call.side).call w.now call.request = (reply, store))
    (hact : w.job.act (.reply n .whole reply) = some t) :
    Proceeds w (call.write? n reply (w.stores.set call.side store)).toList
      { w with job := t.job, stores := w.stores.set call.side store, calls := [] } := by
  obtain ⟨mid, hmid⟩ : ∃ mid, (w.stores.get call.side).enter call.request = (.ok (), mid) :=
    ⟨_, Prod.ext (Store.enter_of_faults_eq_nil hfaults call.request).1 rfl⟩
  simp only [Store.call, hmid] at hreply
  let entered : World :=
    { w with stores := w.stores.set call.side mid, calls := [(.task n .whole, .entered)] }
  let answered : World :=
    { w with
      stores := w.stores.set call.side store
      calls := [(.task n .whole, .answered reply)] }
  have hentered : entered.callState? (.task n .whole) = some .entered := by
    simp [entered, callState?]
  have hanswered : answered.callState? (.task n .whole) = some (.answered reply) := by
    simp [answered, callState?]
  have henter : w.act (.enter (.task n .whole)) = some { world := entered } := by
    have hfree : w.callState? (.task n .whole) = none := by rw [callState?, hcalls]; rfl
    simp only [act, hcall, hfree, enter_eq, hmid, setCall, hcalls]
    rfl
  have hfinish : entered.act (.finish (.task n .whole)) = some { world := answered } := by
    simp only [act, show entered.call? (.task n .whole) = some call from hcall, hentered,
      World.finish, entered, Stores.get_set, hreply, Stores.set_set, setCall]
    simp [answered]
  have hdeliver : answered.act (.deliver (.task n .whole)) =
      some (({ answered with calls := [] } : World).ofTransition t) := by
    simp only [act, hanswered, deliver, clearCall, answered, hact]
    simp
  have hwrite : Event.write? ⟨entered, .finish (.task n .whole), { world := answered }⟩ =
      call.write? n reply (w.stores.set call.side store) := by
    simp only [Event.write?, show entered.call? (.task n .whole) = some call from hcall, lanes,
      hanswered]
    rfl
  refine ⟨_, ((Path.start.step henter).step hfinish).step hdeliver, ?_, ?_⟩
  · intro e he
    simp only [List.nil_append, List.cons_append, List.mem_cons, List.not_mem_nil, or_false] at he
    rcases he with rfl | rfl | rfl <;> rfl
  · rw [Event.writes_snoc, Event.writes_snoc, Event.writes_snoc, hwrite]
    exact List.append_nil _

end World

namespace Job

variable {setup : Setup} {slots n : Nat} {tasks : List Task} {batches : List BatchRun} {job : Job}
  {d : ObjectDescriptor} {stage : TaskStage}

/-- A job with these tasks and batches that is not halted, and whose results nobody takes. -/
structure Stands (setup : Setup) (slots : Nat) (tasks : List Task) (batches : List BatchRun)
    (job : Job) : Prop where
  setup : job.setup = setup
  halt : job.halt = none
  results : job.results = none
  slots : job.freeSlots = slots
  tasks : job.tasks = tasks
  batches : job.batches = batches

theorem Stands.setStage (h : job.Stands setup slots tasks batches)
    (hn : tasks[n]? = some ⟨d, stage⟩) (stage' : TaskStage) :
    (job.setStage n stage').Stands setup slots (tasks.set n ⟨d, stage'⟩) batches where
  setup := h.setup
  halt := h.halt
  results := h.results
  slots := h.slots
  batches := h.batches
  tasks := by
    obtain ⟨hlt, hget⟩ := List.getElem?_eq_some_iff.mp hn
    rw [Job.setStage, h.tasks, List.modify_eq_set_get _ hlt, List.get_eq_getElem, hget]

theorem Stands.act_eq (h : job.Stands setup slots tasks batches) (hn : tasks[n]? = some ⟨d, stage⟩)
    {action : JobAction} (hown : action.task? = some n) :
    job.act action = job.actOnTask action n d stage := by
  rw [← h.tasks] at hn
  cases action with
  | grant | start | reply | wake | startPart | panic | release | account | place | publish | discard =>
    cases hown
    simp only [act, hn, Option.bind_some]
  | _ => cases hown

theorem Stands.grant (h : job.Stands setup (slots + 1) tasks batches)
    (hn : tasks[n]? = some ⟨d, .queued⟩) : ∃ t, job.act (.grant n) = some t ∧
      t.job.Stands setup slots (tasks.set n ⟨d, .granted⟩) batches := by
  have hfree : 0 < job.freeSlots := by rw [h.slots]; exact slots.succ_pos
  refine ⟨_, (h.act_eq hn rfl).trans (if_pos hfree), ?_⟩
  have htaken : ({ job with freeSlots := job.freeSlots - 1 } : Job).Stands setup slots tasks batches :=
    { h with slots := by rw [h.slots]; rfl }
  exact htaken.setStage hn .granted

theorem Stands.runOn (h : job.Stands setup slots tasks batches) (hn : tasks[n]? = some ⟨d, stage⟩)
    (next : ObjectCopy.Next) :
    (job.runOn n next).job.Stands setup slots (tasks.set n ⟨d, .running next.1⟩) batches := by
  have habsorbed : (job.absorb next.2).1.Stands setup slots tasks batches := { h with }
  exact habsorbed.setStage hn (.running next.1)

theorem Stands.start (h : job.Stands setup slots tasks batches) (hn : tasks[n]? = some ⟨d, .granted⟩) :
    ∃ t, job.act (.start n) = some t ∧
      t.job.Stands setup slots (tasks.set n ⟨d, .running (ObjectCopy.start setup d).1⟩) batches := by
  refine ⟨job.runOn n (ObjectCopy.start setup d), ?_, h.runOn hn _⟩
  rw [h.act_eq hn rfl]
  simp only [actOnTask, h.halt, h.setup]

theorem Stands.reply {c : ObjectCopy} (h : job.Stands setup slots tasks batches)
    (hn : tasks[n]? = some ⟨d, .running c⟩) {lane : Lane} {reply : Reply} {next : ObjectCopy.Next}
    (hnext : c.resume setup lane reply = some next) :
    ∃ t, job.act (.reply n lane reply) = some t ∧
      t.job.Stands setup slots (tasks.set n ⟨d, .running next.1⟩) batches := by
  refine ⟨job.runOn n next, ?_, h.runOn hn next⟩
  rw [h.act_eq hn rfl]
  simp only [actOnTask, h.setup, hnext, Option.map_some]

theorem Stands.release {c : ObjectCopy} (h : job.Stands setup slots tasks batches)
    (hn : tasks[n]? = some ⟨d, .running c⟩) {v : Verdict} (hv : c.verdict? = some v) :
    ∃ t, job.act (.release n) = some t ∧
      t.job.Stands setup (slots + 1) (tasks.set n ⟨d, .released v⟩) batches := by
  refine ⟨{ job := { job with freeSlots := job.freeSlots + 1 }.setStage n (.released v) }, ?_, ?_⟩
  · rw [h.act_eq hn rfl]
    simp only [actOnTask, hv, Option.map_some]
  · have hgiven :
        ({ job with freeSlots := job.freeSlots + 1 } : Job).Stands setup (slots + 1) tasks batches :=
      { h with slots := by rw [h.slots] }
    exact hgiven.setStage hn (.released v)

theorem Stands.account {outcome : Outcome} (h : job.Stands setup slots tasks batches)
    (hn : tasks[n]? = some ⟨d, .released (.ok outcome)⟩) :
    ∃ t, job.act (.account n) = some t ∧
      t.job.Stands setup slots (tasks.set n ⟨d, .finished (.ok outcome)⟩) batches := by
  refine ⟨job.account n d (.ok outcome), (h.act_eq hn rfl).trans rfl, ?_⟩
  simp only [Job.account, recordVerdict, h.results]
  exact h.setStage hn _

/-- The task is over and tells that it has migrated the object of a key. -/
def Migrated (job : Job) (n : Nat) (key : String) : Prop :=
  ∃ size mode bytes, job.tasks[n]? = some ⟨⟨key, size⟩, .finished (.ok (.migrated mode bytes))⟩

theorem Migrated.key_eq {key : String} (h : job.Migrated n key)
    (hd : (job.tasks[n]?).map Task.object = some d) : d.key = key := by
  obtain ⟨size, mode, bytes, hn⟩ := h
  rw [hn] at hd
  cases hd
  rfl

theorem stands_of_batch {lines : List String} {ds : List ObjectDescriptor}
    (hnew : new? setup none = .ok job) (hentries : Batch.entries lines = .ok ds) (hne : ds ≠ []) :
    ∃ t, job.act (.batch lines) = some t ∧
      t.job.Stands setup setup.options.concurrency (ds.map fun d => ⟨d, .queued⟩)
        [{ tasks := List.range ds.length, summary := { dispatched := ds.length } }] := by
  obtain rfl := (new?_eq_ok hnew).1
  let new : Job := { setup, freeSlots := setup.options.concurrency }
  have hbegin : new.beginBatch lines = (new.withBatch ds).drainBatch 0 (new.newBatch ds.length) :=
    beginBatch_eq rfl hentries
  refine ⟨_, congrArg some hbegin, ?_⟩
  rcases (new.withBatch ds).drainBatch_cases 0 (new.newBatch ds.length) with
    ⟨hempty, -, -⟩ | ⟨-, hjob, -⟩
  · exact absurd (List.range'_eq_nil_iff.mp hempty) (mt List.length_eq_zero_iff.mp hne)
  · refine ⟨congrArg Job.setup hjob, congrArg halt hjob, congrArg results hjob,
      congrArg freeSlots hjob, congrArg Job.tasks hjob, (congrArg Job.batches hjob).trans ?_⟩
    rw [List.range_eq_range']
    rfl

theorem Stands.join {batch : BatchRun} {v : Verdict}
    (h : job.Stands setup slots tasks [batch]) (next : BatchRun) (hmem : n ∈ batch.tasks)
    (hn : tasks[n]? = some ⟨d, .finished v⟩)
    (hnext : next = { batch with
      tasks := batch.tasks.erase n
      summary := batch.summary.count (.ofVerdict v) }) :
    ∃ t, job.act (.joinBatch 0 n) = some t ∧
      (next.tasks ≠ [] → t.job.Stands setup slots tasks [next]) ∧
      (next.tasks = [] → t.returned = some (.batch (.ok next.summary)) ∧
        t.job.Stands setup slots tasks [{ next with isOver := true }]) := by
  have hstage : job.stage? n = some (.finished v) := by rw [stage?, h.tasks, hn]; rfl
  have hset : ∀ batch', job.setBatch 0 batch' = { job with batches := [batch'] } := by
    intro batch'
    rw [setBatch, h.batches]
    rfl
  refine ⟨(job.drainBatch 0 next).after [], ?_, ?_, ?_⟩
  · simp only [act, h.batches, List.getElem?_cons_zero, Option.bind_some, joinInBatch, if_pos hmem,
      hstage, joinTask, ← hnext]
  · intro hmore
    rcases job.drainBatch_cases 0 next with ⟨hempty, -, -⟩ | ⟨-, hjob, -⟩
    · exact absurd hempty hmore
    · rw [Transition.after, hjob, hset]
      exact { h with batches := rfl }
  · intro hlast
    rcases job.drainBatch_cases 0 next with ⟨-, hjob, hreturned⟩ | ⟨hmore, -, -⟩
    · refine ⟨?_, ?_⟩
      · rw [Transition.after, hreturned, checkHalted, h.halt]
        rfl
      · rw [Transition.after, hjob, hset]
        exact { h with batches := rfl }
    · exact absurd hlast hmore

end Job

namespace World

variable {setup : Setup} {slots slots' n : Nat} {tasks tasks' : List Task}
  {batches : List BatchRun} {d : ObjectDescriptor}
  {objects : Side → String → String → Option StoredObject}

/-- The job and the objects of a world at time 0 in which nobody calls and no fault applies. -/
structure Serving (setup : Setup) (slots : Nat) (tasks : List Task) (batches : List BatchRun)
    (objects : Side → String → String → Option StoredObject) (w : World) : Prop where
  job : w.job.Stands setup slots tasks batches
  calls : w.calls = []
  now : w.now = 0
  apart : w.stores.Parted
  faults : ∀ side, (w.stores.get side).faults = []
  objects : ∀ side, (w.stores.get side).object? = objects side

theorem Serving.act (h : Serving setup slots tasks batches objects w) {jobAction : JobAction}
    (hown : jobAction.task? = some n) (hinternal : isInternal jobAction = true)
    (hact : ∃ t, w.job.act jobAction = some t ∧ t.job.Stands setup slots' tasks' batches) :
    ∃ v, Proceeds w [] v ∧ Serving setup slots' tasks' batches objects v := by
  obtain ⟨t, hact, hjob⟩ := hact
  exact ⟨_, proceeds_of_act (fun _ he => isDrivenBy_of_task he hown hinternal) hinternal hact,
    { h with job := hjob }⟩

theorem Serving.call {c : ObjectCopy} (h : Serving setup slots tasks batches objects w)
    (hn : tasks[n]? = some ⟨d, .running c⟩) {call : Call} {reply : Reply} {store : Store}
    {next : ObjectCopy.Next} (hcall : c.call? setup .whole = some call)
    (hreply : (w.stores.get call.side).call 0 call.request = (reply, store))
    (hfaults : store.faults = []) (hnext : c.resume setup .whole reply = some next) :
    ∃ v, Proceeds w (call.write? n reply v.stores).toList v ∧
      v.stores.get call.side = store ∧
      Serving setup slots (tasks.set n ⟨d, .running next.1⟩) batches
        (Function.update objects call.side store.object?) v := by
  obtain ⟨t, hact, hjob⟩ := h.job.reply hn hnext
  have hasked : w.call? (.task n .whole) = some call := by
    rw [call?, Job.taskCall?, Job.stage?, h.job.tasks, hn, h.job.setup]
    exact hcall
  rw [← h.now] at hreply
  let v : World :=
    { w with job := t.job, stores := w.stores.set call.side store, calls := [] }
  have hproceeds : Proceeds w (call.write? n reply v.stores).toList v :=
    proceeds_of_call h.calls hasked (h.faults _) hreply hact
  refine ⟨v, hproceeds, Stores.get_set .., hjob, rfl, h.now, h.apart.set _ _, ?_, ?_⟩
  · intro side
    by_cases hside : side = call.side
    · rw [hside, Stores.get_set]
      exact hfaults
    · rw [h.apart.get_set_of_ne hside]
      exact h.faults side
  · intro side
    by_cases hside : side = call.side
    · rw [hside, Function.update_self, Stores.get_set]
    · rw [Function.update_of_ne hside, h.apart.get_set_of_ne hside, h.objects]

theorem Serving.ask {c : ObjectCopy} (h : Serving setup slots tasks batches objects w)
    (hn : tasks[n]? = some ⟨d, .running c⟩) (next : ObjectCopy.Next) {call : Call} {reply : Reply}
    (hcall : c.call? setup .whole = some call) (hreads : call.request.writtenKey? = none)
    (hreply : ∃ t, (w.stores.get call.side).call 0 call.request = (reply, t) ∧
      t.faults = [] ∧ t.object? = (w.stores.get call.side).object?)
    (hnext : c.resume setup .whole reply = some next) :
    ∃ v, Proceeds w [] v ∧
      Serving setup slots (tasks.set n ⟨d, .running next.1⟩) batches objects v := by
  obtain ⟨t, hreply, hfaults, hobjects⟩ := hreply
  obtain ⟨v, hproceeds, -, hserving⟩ := h.call hn hcall hreply hfaults hnext
  rw [hobjects, h.objects, Function.update_eq_self] at hserving
  refine ⟨v, ?_, hserving⟩
  cases hwrite : call.write? n reply v.stores with
  | none =>
    rw [hwrite] at hproceeds
    exact hproceeds
  | some write =>
    rw [(Call.eq_of_write? hwrite).2] at hreads
    cases hreads

/-- The objects with a copy of this key at the target. -/
def withCopy (setup : Setup) (key : String) (copy : StoredObject)
    (objects : Side → String → String → Option StoredObject) :
    Side → String → String → Option StoredObject :=
  Function.update objects .target fun b k =>
    if setup.target.bucket = b ∧ setup.targetKey key = k then some copy else objects .target b k

theorem withCopy_target {key : String} {copy : StoredObject} : withCopy setup key copy objects
    .target setup.target.bucket (setup.targetKey key) = some copy := by
  simp [withCopy]

section Direct

variable {key : String} {source : StoredObject} {found : Option ObjectMetadata}

theorem Serving.begin (h : Serving setup (slots + 1) tasks batches objects w)
    (hn : tasks[n]? = some ⟨⟨key, 0⟩, .queued⟩) :
    ∃ v, Proceeds w [] v ∧ Serving setup slots
      (tasks.set n ⟨⟨key, 0⟩, .running ⟨⟨key, 0⟩, none, .describing 1⟩⟩) batches objects v := by
  have hlt := (List.getElem?_eq_some_iff.mp hn).1
  obtain ⟨u, hwu, hgranted⟩ := h.act rfl rfl (h.job.grant hn)
  obtain ⟨v, huv, hrunning⟩ :=
    hgranted.act rfl rfl (hgranted.job.start (List.getElem?_set_self hlt))
  have hstart : ObjectCopy.start setup ⟨key, 0⟩ = (⟨⟨key, 0⟩, none, .describing 1⟩, []) := by
    simp [ObjectCopy.start]
  rw [List.set_set, hstart] at hrunning
  exact ⟨v, hwu.trans huv, hrunning⟩

theorem Serving.compare (h : Serving setup slots tasks batches objects w) {found : ObjectMetadata}
    (hn : tasks[n]? = some ⟨⟨key, 0⟩, .running ⟨⟨key, 0⟩, some found, .comparing⟩⟩)
    (hthreshold : 0 < setup.options.multipartThreshold) {time : Int}
    (htime : found.lastModified = some time)
    (hstale : ∀ copy, objects .target setup.target.bucket (setup.targetKey key) = some copy →
      copy.lastModified < time) :
    ∃ v, Proceeds w [] v ∧ Serving setup slots
      (tasks.set n ⟨⟨key, 0⟩, .running ⟨⟨key, 0⟩, some found, .reading⟩⟩) batches objects v := by
  let c : ObjectCopy := ⟨⟨key, 0⟩, some found, .comparing⟩
  have hcurrent : c.isCurrent
      ((w.stores.get .target).head setup.target.bucket (setup.targetKey key)) = false := by
    rw [ObjectCopy.isCurrent, Store.head, h.objects]
    cases hcopy : objects .target setup.target.bucket (setup.targetKey key) with
    | none => rfl
    | some copy => simp [c, htime, hstale copy hcopy]
  refine h.ask hn (c.go .reading) rfl rfl (Store.call_head (h.faults .target) ..) ?_
  simp only [ObjectCopy.resume, Reply.metadata?, Option.map_some, ObjectCopy.compared]
  rw [if_neg (by rw [hcurrent]; exact Bool.false_ne_true)]
  exact congrArg some (ObjectCopy.transfer_empty rfl hthreshold)

theorem Serving.describe (h : Serving setup slots tasks batches objects w)
    (hn : tasks[n]? = some ⟨⟨key, 0⟩, .running ⟨⟨key, 0⟩, none, .describing 1⟩⟩)
    (hthreshold : 0 < setup.options.multipartThreshold)
    (hsource : objects .source setup.source.bucket key = some source)
    (hstale : ∀ copy, objects .target setup.target.bucket (setup.targetKey key) = some copy →
      copy.lastModified < source.lastModified) :
    ∃ found v, Proceeds w [] v ∧ Serving setup slots
      (tasks.set n ⟨⟨key, 0⟩, .running ⟨⟨key, 0⟩, found, .reading⟩⟩) batches objects v := by
  have hlt := (List.getElem?_eq_some_iff.mp hn).1
  let found : ObjectMetadata :=
    ⟨source.data.size, some source.lastModified, some source.etag, source.partsCount⟩
  have hhead : (w.stores.get .source).head setup.source.bucket key = some found := by
    rw [Store.head, h.objects, hsource]
    rfl
  have hasked := Store.call_head (h.faults .source) 0 setup.source.bucket key
  rw [hhead] at hasked
  refine ⟨some found, ?_⟩
  by_cases hforce : setup.options.forceOverwrite = true
  · refine h.ask hn (⟨⟨key, 0⟩, some found, .reading⟩, []) rfl rfl hasked ?_
    simp only [ObjectCopy.resume, Reply.metadata?, Option.map_some, ObjectCopy.described,
      if_pos hforce]
    exact congrArg some (ObjectCopy.transfer_empty rfl hthreshold)
  · obtain ⟨u, hwu, hcompares⟩ :=
      h.ask hn (⟨⟨key, 0⟩, some found, .comparing⟩, []) rfl rfl hasked (by
        simp only [ObjectCopy.resume, Reply.metadata?, Option.map_some, ObjectCopy.described,
          if_neg hforce]
        rfl)
    obtain ⟨v, huv, hreads⟩ :=
      hcompares.compare (List.getElem?_set_self hlt) hthreshold rfl hstale
    rw [List.set_set] at hreads
    exact ⟨v, hwu.trans huv, hreads⟩

theorem Serving.write (h : Serving setup slots tasks batches objects w)
    (hn : tasks[n]? = some ⟨⟨key, 0⟩, .running ⟨⟨key, 0⟩, found, .reading⟩⟩)
    (hsource : objects .source setup.source.bucket key = some source) :
    ∃ copy v, Proceeds w [⟨n, setup.targetKey key, copy⟩] v ∧ copy.data = source.data ∧
      copy.lastModified = 0 ∧ Serving setup slots
        (tasks.set n
          ⟨⟨key, 0⟩, .running ⟨⟨key, 0⟩, found, .ended (.ok (.migrated .direct 0))⟩⟩)
        batches (withCopy setup key copy objects) v := by
  have hlt := (List.getElem?_eq_some_iff.mp hn).1
  rw [← h.objects .source] at hsource
  obtain ⟨u, hwu, hwrites⟩ := h.ask hn (⟨⟨key, 0⟩, found, .writing source.data⟩, []) rfl rfl
    (Store.call_get (h.faults .source) 0 hsource) rfl
  obtain ⟨t, copy, hcall, hfaults, hdata, htime, hobjects⟩ :=
    Store.call_put (hwrites.faults .target) 0 setup.target.bucket (setup.targetKey key) source.data
  obtain ⟨v, huv, hstore, hended⟩ := hwrites.call (List.getElem?_set_self hlt) rfl hcall hfaults rfl
  have hcopied : Function.update objects .target t.object? = withCopy setup key copy objects := by
    refine congrArg _ (funext₂ fun b k => ?_)
    rw [hobjects, hwrites.objects]
  refine ⟨copy, v, ?_, hdata, htime, ?_⟩
  · have hwritten : (v.stores.get .target).object? setup.target.bucket (setup.targetKey key) =
        some copy := by
      rw [hstore, hobjects, if_pos ⟨rfl, rfl⟩]
    have hproceeds := hwu.trans huv
    simp only [Call.write?, hwritten] at hproceeds
    exact hproceeds
  · rw [← hcopied]
    rw [List.set_set] at hended
    exact hended

theorem Serving.conclude {c : ObjectCopy} {outcome : Outcome}
    (h : Serving setup slots tasks batches objects w)
    (hn : tasks[n]? = some ⟨d, .running c⟩) (hv : c.verdict? = some (.ok outcome)) :
    ∃ v, Proceeds w [] v ∧ Serving setup (slots + 1)
      (tasks.set n ⟨d, .finished (.ok outcome)⟩) batches objects v := by
  have hlt := (List.getElem?_eq_some_iff.mp hn).1
  obtain ⟨u, hwu, hreleased⟩ := h.act rfl rfl (h.job.release hn hv)
  obtain ⟨v, huv, hfinished⟩ :=
    hreleased.act rfl rfl (hreleased.job.account (List.getElem?_set_self hlt))
  rw [List.set_set] at hfinished
  exact ⟨v, hwu.trans huv, hfinished⟩

theorem Serving.migrate (h : Serving setup (slots + 1) tasks batches objects w)
    (hn : tasks[n]? = some ⟨⟨key, 0⟩, .queued⟩) (hthreshold : 0 < setup.options.multipartThreshold)
    (hsource : objects .source setup.source.bucket key = some source)
    (hstale : ∀ copy, objects .target setup.target.bucket (setup.targetKey key) = some copy →
      copy.lastModified < source.lastModified) :
    ∃ copy v, Proceeds w [⟨n, setup.targetKey key, copy⟩] v ∧ copy.data = source.data ∧
      copy.lastModified = 0 ∧ Serving setup (slots + 1)
        (tasks.set n ⟨⟨key, 0⟩, .finished (.ok (.migrated .direct 0))⟩) batches
        (withCopy setup key copy objects) v := by
  have hlt := (List.getElem?_eq_some_iff.mp hn).1
  have hset : ∀ task, (tasks.set n task)[n]? = some task := fun _ => List.getElem?_set_self hlt
  obtain ⟨w₁, h₁, hdescribes⟩ := h.begin hn
  obtain ⟨found, w₂, h₂, hreads⟩ := hdescribes.describe (hset _) hthreshold hsource hstale
  rw [List.set_set] at hreads
  obtain ⟨copy, w₃, h₃, hdata, htime, hended⟩ := hreads.write (hset _) hsource
  rw [List.set_set] at hended
  obtain ⟨w₄, h₄, hfinished⟩ := hended.conclude (hset _) rfl
  rw [List.set_set] at hfinished
  exact ⟨copy, w₄, (h₁.trans h₂).trans (h₃.trans h₄), hdata, htime, hfinished⟩

end Direct

/-- The call for the batch with these objects comes to a world, on a new job that nobody else drives. -/
inductive RunsBatch (setup : Setup) (ds : List ObjectDescriptor) (events : List Event) (w : World) :
    Prop
  | run {lines : List String} {results : Option ResultQueue} {start : World} {x : Watch}
      (hentries : Batch.entries lines = .ok ds) (hnew : Job.new? setup results = .ok start.job)
      (hcalls : start.calls = []) (hbegins : BeginsBatch start lines x)
      (hpath : Path x.world events w) (hdriven : ∀ e ∈ events, e.isDrivenBy (.batch 0) = true) :
      RunsBatch setup ds events w

/-- The copy of `a` has been written over by that of `b`, which has other bytes, and the call for the
batch has returned that all was migrated. -/
structure Overwritten (events : List Event) (w : World) (a b : String) : Prop where
  writes : ∃ first later, [first, later].Sublist (Event.writes events) ∧ first.key = later.key ∧
    w.job.Migrated first.task a ∧ w.job.Migrated later.task b ∧
    first.object.data ≠ later.object.data ∧
    (w.stores.get .target).object? w.job.setup.target.bucket later.key = some later.object
  silent : w.job.halt = none ∧ ∃ e ∈ events, ∃ summary,
    e.after.returned = some (.batch (.ok summary)) ∧ summary.migrated = summary.dispatched

/-- New stores with an object under each of two keys at the source. -/
def twoKeys (setup : Setup) (a b : String) : World :=
  { job := { setup, freeSlots := setup.options.concurrency }
    stores := .separate
      ((({} : Store).write setup.source.bucket a ⟨⟨#[0]⟩, 1, "", none⟩).write setup.source.bucket b
        ⟨⟨#[1]⟩, 1, "", none⟩) {}
    now := 0 }

section TwoKeys

variable {a b : String}

theorem entries_pair (ha : a ≠ "") (hb : b ≠ "") :
    Batch.entries [Batch.line ⟨a, 0⟩, Batch.line ⟨b, 0⟩] = .ok [⟨a, 0⟩, ⟨b, 0⟩] := by
  have hspells : ∀ {key : String}, key ≠ "" → Batch.Spells (Batch.line ⟨key, 0⟩) ⟨key, 0⟩ :=
    fun hkey => Batch.spells_line ⟨hkey, Nat.two_pow_pos 64⟩
  refine Batch.entriesFrom_eq_ok_iff.mpr ?_
  rw [Batch.filled, List.filter_cons_of_pos (by rw [(hspells ha).isBlankText_eq_false]; rfl),
    List.filter_cons_of_pos (by rw [(hspells hb).isBlankText_eq_false]; rfl)]
  exact .cons (hspells ha) (.cons (hspells hb) .nil)

theorem new?_twoKeys (hvalid : setup.options.validate = .ok ()) :
    Job.new? setup none = .ok (twoKeys setup a b).job := by
  rw [Job.new?, hvalid]
  rfl

theorem serving_twoKeys {t : Transition} {slots : Nat} {tasks : List Task}
    {batches : List BatchRun} (hjob : t.job.Stands setup slots tasks batches) :
    Serving setup slots tasks batches (fun side => ((twoKeys setup a b).stores.get side).object?)
      { twoKeys setup a b with job := t.job } where
  job := hjob
  calls := rfl
  now := rfl
  apart := ⟨_, _, rfl⟩
  faults := fun side => by cases side <;> rfl
  objects := fun _ => rfl

theorem migrates_twoKeys (hvalid : setup.options.validate = .ok ()) (hne : a ≠ b) (ha : a ≠ "")
    (hb : b ≠ "") (hkey : setup.targetKey a = setup.targetKey b) :
    ∃ t copyA copyB v slots objects,
      (twoKeys setup a b).act (.job (.batch [Batch.line ⟨a, 0⟩, Batch.line ⟨b, 0⟩])) = some t ∧
      Proceeds t.world [⟨0, setup.targetKey a, copyA⟩, ⟨1, setup.targetKey b, copyB⟩] v ∧
      copyA.data ≠ copyB.data ∧
      Serving setup slots
        [⟨⟨a, 0⟩, .finished (.ok (.migrated .direct 0))⟩, ⟨⟨b, 0⟩, .finished (.ok (.migrated .direct 0))⟩]
        [{ tasks := [0, 1], summary := { dispatched := 2 } }] objects v ∧
      objects .target setup.target.bucket (setup.targetKey b) = some copyB := by
  have hoptions := MigrationOptions.valid_of_validate hvalid
  have hthreshold := hoptions.multipartThreshold
  obtain ⟨slots, hslots⟩ := Nat.exists_eq_add_one.mpr hoptions.concurrency
  obtain ⟨t, hact, hstands⟩ :=
    Job.stands_of_batch (new?_twoKeys hvalid) (entries_pair ha hb) (List.cons_ne_nil _ _)
  rw [hslots] at hstands
  have hserving := serving_twoKeys (a := a) (b := b) hstands
  let S := (twoKeys setup a b).stores
  have hsourceB : (S.get .source).object? setup.source.bucket b = some ⟨⟨#[1]⟩, 1, "", none⟩ :=
    (Store.object?_write ..).trans (if_pos ⟨rfl, rfl⟩)
  have hsourceA : (S.get .source).object? setup.source.bucket a = some ⟨⟨#[0]⟩, 1, "", none⟩ :=
    (Store.object?_write ..).trans ((if_neg fun heq => hne heq.2.symm).trans
      ((Store.object?_write ..).trans (if_pos ⟨rfl, rfl⟩)))
  obtain ⟨copyA, w₁, h₁, hdataA, htimeA, hserving₁⟩ :=
    hserving.migrate (n := 0) rfl hthreshold hsourceA (fun copy hcopy => by
      simp [twoKeys, Stores.get, Store.object?, Store.bucket] at hcopy)
  obtain ⟨copyB, w₂, h₂, hdataB, -, hserving₂⟩ :=
    hserving₁.migrate (n := 1) rfl hthreshold hsourceB (fun copy hcopy => by
      rw [← hkey, withCopy_target, Option.some.injEq] at hcopy
      rw [← hcopy, htimeA]
      exact Int.zero_lt_one)
  refine ⟨_, copyA, copyB, w₂, _, _, act_of_internal rfl hact, h₁.trans h₂, ?_, hserving₂,
    withCopy_target⟩
  rw [hdataA, hdataB]
  decide

theorem Serving.returns {task₀ task₁ : Task} {mode₀ mode₁ : TransferMode} {bytes₀ bytes₁ : Nat}
    (h : Serving setup slots [task₀, task₁] [{ tasks := [0, 1], summary := { dispatched := 2 } }]
      objects w)
    (h₀ : task₀.stage = .finished (.ok (.migrated mode₀ bytes₀)))
    (h₁ : task₁.stage = .finished (.ok (.migrated mode₁ bytes₁))) :
    ∃ events v batches, Path w events v ∧ (∀ e ∈ events, e.isDrivenBy (.batch 0) = true) ∧
      (∃ e ∈ events, ∃ summary,
        e.after.returned = some (.batch (.ok summary)) ∧ summary.migrated = summary.dispatched) ∧
      Serving setup slots [task₀, task₁] batches objects v := by
  obtain ⟨d₀, stage₀⟩ := task₀
  obtain ⟨d₁, stage₁⟩ := task₁
  cases h₀
  cases h₁
  obtain ⟨t, hact, hmore, -⟩ := h.job.join (n := 0)
    { tasks := [1], summary := { dispatched := 2, migrated := 1 } } List.mem_cons_self rfl rfl
  obtain ⟨u, hact', -, hlast⟩ := (hmore (List.cons_ne_nil _ _)).join (n := 1)
    { tasks := [], summary := { dispatched := 2, migrated := 2 } } List.mem_cons_self rfl rfl
  obtain ⟨hreturned, hstands⟩ := hlast rfl
  obtain ⟨events, hpath, hdriven, -⟩ := proceeds_of_act (fun _ => isDrivenBy_of_join) rfl hact
  refine ⟨_, _, _, hpath.step (act_of_internal rfl hact'), ?_, ?_, { h with job := hstands }⟩
  · intro e he
    rcases List.mem_append.mp he with hold | hnew
    · exact hdriven e hold
    · obtain rfl := List.mem_singleton.mp hnew
      exact isDrivenBy_of_join rfl
  · exact ⟨_, List.mem_append_right _ List.mem_cons_self, _, hreturned, rfl⟩

theorem exists_overwritten (hvalid : setup.options.validate = .ok ()) (hne : a ≠ b) (ha : a ≠ "")
    (hb : b ≠ "") (hkey : setup.targetKey a = setup.targetKey b) :
    ∃ events w, RunsBatch setup [⟨a, 0⟩, ⟨b, 0⟩] events w ∧ Overwritten events w a b := by
  obtain ⟨t, copyA, copyB, v, slots, objects, hbegins, ⟨before, hbefore, hdriven, hwrites⟩, hdata,
    hserving, hcopy⟩ := migrates_twoKeys hvalid hne ha hb hkey
  obtain ⟨after, w, batches, hafter, hdriven', ⟨e, he, hsummary⟩, hstands⟩ :=
    hserving.returns rfl rfl
  have hpath := hbefore.trans hafter
  refine ⟨before ++ after, w,
    .run (entries_pair ha hb) (new?_twoKeys hvalid) rfl (.batch hbegins) hpath ?_, ?_⟩
  · exact fun e he => (List.mem_append.mp he).elim (hdriven e) (hdriven' e)
  · constructor
    · refine ⟨⟨0, setup.targetKey a, copyA⟩, ⟨1, setup.targetKey b, copyB⟩, ?_, hkey, ?_, ?_, hdata, ?_⟩
      · rw [Event.writes, List.filterMap_append]
        exact List.Sublist.trans (hwrites ▸ .refl _) (List.sublist_append_left ..)
      · exact ⟨0, .direct, 0, congrArg (·[0]?) hstands.job.tasks⟩
      · exact ⟨0, .direct, 0, congrArg (·[1]?) hstands.job.tasks⟩
      · rw [hstands.objects, hstands.job.setup, hcopy]
    · exact ⟨hstands.job.halt, e, List.mem_append_right _ he, hsummary⟩

end TwoKeys

section Meet

variable {start : World} {events : List Event} {first later : Write} {a b : String}

theorem Path.exists_objects_of_writes (h : Path start events w) (hstart : start.job.tasks = [])
    (hfirst : first ∈ Event.writes events) (hlater : later ∈ Event.writes events)
    (hkey : first.key = later.key) : ∃ d d', (w.job.tasks[first.task]?).map Task.object = some d ∧
      (w.job.tasks[later.task]?).map Task.object = some d' ∧
      start.job.setup.targetKey d.key = start.job.setup.targetKey d'.key := by
  have hcopying : start.Copying := by
    intro task htask
    rw [hstart] at htask
    cases htask
  obtain ⟨d, hd, hdkey⟩ := h.exists_object_of_write hcopying hfirst
  obtain ⟨d', hd', hdkey'⟩ := h.exists_object_of_write hcopying hlater
  exact ⟨d, d', hd, hd', hdkey.symm.trans (hkey.trans hdkey')⟩

theorem RunsBatch.targetKey_eq {ds : List ObjectDescriptor} (h : RunsBatch setup ds events w)
    (hover : Overwritten events w a b) : setup.targetKey a = setup.targetKey b := by
  obtain @⟨lines, results, start, x, -, hnew, -, hbegins, hpath, -⟩ := h
  obtain ⟨first, later, hwrites, hkey, hfirst, hlater, -⟩ := hover.writes
  obtain @⟨t, hact⟩ := hbegins
  have hsub : ∀ write ∈ [first, later],
      write ∈ Event.writes ([] ++ [⟨start, .job (.batch lines), t⟩] ++ events) := by
    intro write hmem
    rw [Event.writes, List.filterMap_append]
    exact List.mem_append_right _ (hwrites.subset hmem)
  have hjob := (Job.new?_eq_ok hnew).1
  obtain ⟨d, d', hd, hd', htarget⟩ := ((Path.start.step hact).trans hpath).exists_objects_of_writes
    (by rw [hjob]) (hsub first List.mem_cons_self)
    (hsub later (List.mem_cons_of_mem _ List.mem_cons_self)) hkey
  rw [hfirst.key_eq hd, hlater.key_eq hd', hjob] at htarget
  exact htarget

/-- Two keys have one target key exactly if they are the same, or one of them is the source prefix with
the other one behind it, which lacks the prefix. So while pages bring the tasks, no two of them have one
target key unless they have the same source key, and writes to one key are of one object. The copy of
one entry of a batch can silently be written over by that of another entry, with another key, exactly
if one of the two keys shadows the other. -/
theorem target_keys_meet_iff_shadowed (setup : Setup) :
    (∀ a b, setup.targetKey a = setup.targetKey b ↔
      a = b ∨ setup.Shadows a b ∨ setup.Shadows b a) ∧
    (∀ (start : World) (events : List Event) (w : World), start.job.setup = setup →
      start.job.tasks = [] → start.calls = [] → Path start events w → (∀ e ∈ events, e.Paged) →
      (∀ t ∈ w.job.tasks, ∀ u ∈ w.job.tasks,
        setup.targetKey t.object.key = setup.targetKey u.object.key →
          t.object.key = u.object.key) ∧
      ∀ first ∈ Event.writes events, ∀ later ∈ Event.writes events, first.key = later.key →
        ∃ d d', (w.job.tasks[first.task]?).map Task.object = some d ∧
          (w.job.tasks[later.task]?).map Task.object = some d' ∧ d.key = d'.key) ∧
    (setup.options.validate = .ok () → ∀ a b, a ≠ b → a ≠ "" → b ≠ "" →
      ((∃ ds events w, RunsBatch setup ds events w ∧ Overwritten events w a b) ↔
        setup.Shadows a b ∨ setup.Shadows b a)) := by
  refine ⟨fun a b => Setup.targetKey_eq_iff, ?_, ?_⟩
  · rintro start events w rfl htasks hcalls hpath hpaged
    have hscoped := hpath.scoped (scoped_start htasks hcalls) hpaged
    have hapart : ∀ t ∈ w.job.tasks, ∀ u ∈ w.job.tasks,
        start.job.setup.targetKey t.object.key = start.job.setup.targetKey u.object.key →
          t.object.key = u.object.key := by
      intro t ht u hu hkey
      rw [← hpath.setup_eq] at hkey
      exact w.job.setup.targetKey_inj (hscoped.tasks t ht) (hscoped.tasks u hu) hkey
    refine ⟨hapart, fun first hfirst later hlater hkey => ?_⟩
    obtain ⟨d, d', hd, hd', htarget⟩ :=
      hpath.exists_objects_of_writes htasks hfirst hlater hkey
    obtain ⟨t, ht, rfl⟩ := Option.map_eq_some_iff.mp hd
    obtain ⟨u, hu, rfl⟩ := Option.map_eq_some_iff.mp hd'
    exact ⟨t.object, u.object, hd, hd',
      hapart t (List.mem_of_getElem? ht) u (List.mem_of_getElem? hu) htarget⟩
  · intro hvalid a b hne ha hb
    constructor
    · rintro ⟨ds, events, w, hruns, hover⟩
      exact (Setup.targetKey_eq_iff.mp (hruns.targetKey_eq hover)).resolve_left hne
    · intro hshadows
      obtain ⟨events, w, hruns, hover⟩ := exists_overwritten hvalid hne ha hb
        (Setup.targetKey_eq_iff.mpr (.inr hshadows))
      exact ⟨_, events, w, hruns, hover⟩

end Meet

def prefixed : Setup where
  source := { bucket := "from", keyPrefix := "p/" }
  target := { bucket := "to", keyPrefix := "q/" }

def twoListed : World :=
  { twoKeys prefixed "p/x" "p/y" with
    job := { (twoKeys prefixed "p/x" "p/y").job with feeds := [{}] } }

def wholeCalls (caller : Caller) (n : Nat) : List WorldAction :=
  (List.replicate n [.enter caller, .finish caller, .deliver caller]).flatten

/-- Both objects are listed on one page and copied one after the other. -/
def bothCopied : List WorldAction :=
  [.job (.nextPage 0)] ++ wholeCalls (.feed 0) 1 ++
    [.job (.grant 0), .job (.start 0)] ++ wholeCalls (.task 0 .whole) 4 ++
    [.job (.grant 1), .job (.start 1)] ++ wholeCalls (.task 1 .whole) 4

theorem target_keys_meet_p_x :
    (∃ ds events w, RunsBatch prefixed ds events w ∧ Overwritten events w "p/x" "x") ∧
    ∃ events w, Path twoListed events w ∧ (∀ e ∈ events, e.Paged) ∧
      (Event.writes events).map Write.key = ["q/x", "q/y"] ∧
      ∀ t ∈ w.job.tasks, ∀ u ∈ w.job.tasks,
        prefixed.targetKey t.object.key = prefixed.targetKey u.object.key →
          t.object.key = u.object.key := by
  obtain ⟨-, hpages, hbatch⟩ := target_keys_meet_iff_shadowed prefixed
  refine ⟨(hbatch rfl "p/x" "x" (by decide) (by decide) (by decide)).mpr (.inl ⟨rfl, rfl⟩), ?_⟩
  have hrun : (twoListed.run? bothCopied).any (fun run =>
      run.1.all Event.isOfRun ∧ (Event.writes run.1).map Write.key = ["q/x", "q/y"]) = true := by
    decide +kernel
  simp only [Option.any_eq_true, decide_eq_true_eq, List.all_eq_true] at hrun
  obtain ⟨⟨events, w⟩, hrun, hofRun, hwrites⟩ := hrun
  have hpath := path_of_run? hrun
  have hpaged : ∀ e ∈ events, e.Paged := fun e he => Event.paged_of_isOfRun (hofRun e he)
  exact ⟨events, w, hpath, hpaged, hwrites,
    (hpages twoListed events w rfl rfl rfl hpath hpaged).1⟩

end World

end BucketMigration
