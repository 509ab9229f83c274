import BucketMigration.Proofs.Job.Queue
import BucketMigration.Proofs.World.Sweep

/-!
# Target keys

The source prefix of a key gives way to the target prefix; a key that does not have the source prefix
keeps all of it. So two keys can come to one target key, but only when one of them is the source prefix
with the other one behind it, which then lacks the prefix itself. A task writes to the target key of its
own object and to no other one. Pages list keys with the source prefix only, so the tasks that they bring
never write over the copies of each other's objects.
-/

namespace BucketMigration

namespace Text

theorem exists_append_of_hasFront {front s : String} (h : hasFront front s = true) :
    ∃ rest, s = front ++ rest := by
  obtain ⟨rest, hrest⟩ := hasFront_iff.mp h
  refine ⟨String.ofList rest, String.toList_injective ?_⟩
  rw [String.toList_append, String.toList_ofList, hrest]

end Text

namespace Setup

variable {setup : Setup} {a b : String}

/-- The key `a` is the source prefix with `b` behind it, and `b` does not have the prefix itself. -/
def Shadows (setup : Setup) (a b : String) : Prop :=
  a = setup.source.keyPrefix ++ b ∧ Text.hasFront setup.source.keyPrefix b = false

theorem targetKey_append (setup : Setup) (rest : String) :
    setup.targetKey (setup.source.keyPrefix ++ rest) = setup.target.keyPrefix ++ rest := by
  apply String.toList_injective
  rw [targetKey, String.toList_ofList, String.toList_append, Text.dropFront_append,
    String.toList_append]

theorem targetKey_of_not_hasFront (h : Text.hasFront setup.source.keyPrefix a = false) :
    setup.targetKey a = setup.target.keyPrefix ++ a := by
  have hnot : ¬setup.source.keyPrefix.toList <+: a.toList := by
    rw [← Text.hasFront_iff, h]
    exact Bool.false_ne_true
  apply String.toList_injective
  rw [targetKey, String.toList_ofList, Text.dropFront_of_not_prefix hnot, String.toList_append]

theorem Shadows.targetKey_eq (h : setup.Shadows a b) : setup.targetKey a = setup.targetKey b := by
  rw [h.1, targetKey_append, targetKey_of_not_hasFront h.2]

theorem shadows_of_targetKey_eq (ha : Text.hasFront setup.source.keyPrefix a = true)
    (hb : Text.hasFront setup.source.keyPrefix b = false)
    (h : setup.targetKey a = setup.targetKey b) : setup.Shadows a b := by
  obtain ⟨rest, rfl⟩ := Text.exists_append_of_hasFront ha
  rw [targetKey_append, targetKey_of_not_hasFront hb, String.append_right_inj] at h
  exact ⟨by rw [h], hb⟩

theorem targetKey_eq_iff :
    setup.targetKey a = setup.targetKey b ↔ a = b ∨ setup.Shadows a b ∨ setup.Shadows b a := by
  constructor
  · intro h
    cases ha : Text.hasFront setup.source.keyPrefix a <;>
      cases hb : Text.hasFront setup.source.keyPrefix b
    · rw [targetKey_of_not_hasFront ha, targetKey_of_not_hasFront hb, String.append_right_inj] at h
      exact .inl h
    · exact .inr (.inr (shadows_of_targetKey_eq hb ha h.symm))
    · exact .inr (.inl (shadows_of_targetKey_eq ha hb h))
    · exact .inl (setup.targetKey_inj ha hb h)
  · rintro (rfl | h | h)
    · rfl
    · exact h.targetKey_eq
    · exact h.targetKey_eq.symm

end Setup

def TaskStage.About (object : ObjectDescriptor) : TaskStage → Prop
  | running c => c.object = object
  | _ => True

/-- The key that a call writes to when it succeeds. -/
def Request.writtenKey? : Request → Option String
  | put _ key _ | completeUpload _ key _ _ => some key
  | _ => none

theorem ObjectCopy.writtenKey?_eq {setup : Setup} {c : ObjectCopy} {lane : Lane} {call : Call}
    (hcall : c.call? setup lane = some call) {key : String}
    (hkey : call.request.writtenKey? = some key) : key = setup.targetKey c.object.key := by
  cases lane with
  | whole =>
    simp only [call?] at hcall
    split at hcall <;> cases hcall <;> cases hkey <;> rfl
  | part number =>
    simp only [call?] at hcall
    split at hcall
    · obtain ⟨p, -, rfl⟩ := Option.map_eq_some_iff.mp hcall
      unfold PartCopy.call at hkey
      split at hkey <;> cases hkey
    · cases hcall

theorem Call.eq_of_write? {call : Call} {t : Nat} {reply : Reply} {S : Stores} {write : Write}
    (h : call.write? t reply S = some write) :
    write.task = t ∧ call.request.writtenKey? = some write.key := by
  unfold Call.write? at h
  split at h
  · rename_i hrequest
    obtain ⟨object, -, rfl⟩ := Option.map_eq_some_iff.mp h
    exact ⟨rfl, by rw [hrequest]; rfl⟩
  · rename_i hrequest
    obtain ⟨object, -, rfl⟩ := Option.map_eq_some_iff.mp h
    exact ⟨rfl, by rw [hrequest]; rfl⟩
  · cases h

namespace Job

variable {job next : Job} {action : JobAction} {t : Transition}

theorem TaskMove.about {object : ObjectDescriptor} {stage stage' : TaskStage} {course : Course}
    (h : TaskMove job object stage stage' course) (hstage : stage.About object) :
    stage'.About object := by
  cases h with
  | grant | panic | release | place | finish => trivial
  | refuse => exact rfl
  | start => exact ObjectCopy.object_start ..
  | copy hmoves => exact hmoves.object_eq.trans hstage
  | account => split <;> trivial

theorem Move.about (h : job.Move next) (hall : ∀ task ∈ job.tasks, task.stage.About task.object) :
    ∀ task ∈ next.tasks, task.stage.About task.object := by
  intro task htask
  rcases h.mem_tasks htask with hold | hnew | ⟨stage, hmem, hmove⟩
  · exact hall task hold
  · rw [hnew]
    trivial
  · exact hmove.about (hall _ hmem)

theorem Steers.tasks_eq {i : Nat} {feed : Feed} (h : job.Steers i feed next) :
    next.tasks = job.tasks := by
  obtain ⟨activity, -, rfl⟩ := h
  rfl

theorem tasks_listed (job : Job) (i : Nat) (feed : Feed) (inRun : Bool)
    (result : Except StorageError ListPage) :
    (job.listed i feed inRun result).job.tasks =
      job.tasks ++ (objectsOnPage result).map fun d => ⟨d, .queued⟩ := by
  cases result with
  | error e => exact (steers_failPage ..).tasks_eq.trans (List.append_nil _).symm
  | ok page =>
    cases hlacks : page.lacksToken with
    | true =>
      simp only [listed, objectsOnPage, hlacks, if_true, Transition.after, List.map_nil,
        List.append_nil]
      exact (steers_failPage ..).tasks_eq.trans (tasks_haltWith ..)
    | false =>
      obtain ⟨feed', -, hsteers⟩ := steers_acceptPage job i feed inRun page
      simp only [listed, objectsOnPage, hlacks, Bool.false_eq_true, if_false]
      exact hsteers.tasks_eq

theorem tasks_of_actOnFeed {i : Nat} {feed : Feed} (h : job.actOnFeed action i feed = some t) :
    t.job.tasks = job.tasks ++ action.pageObjects.map fun d => ⟨d, .queued⟩ := by
  unfold actOnFeed at h
  split at h
  · cases h
    exact (List.append_nil _).symm
  · cases h
    exact (steers_beginPage ..).tasks_eq.trans (List.append_nil _).symm
  · cases h
    exact (steers_drain ..).tasks_eq.trans (List.append_nil _).symm
  · cases h
    exact (steers_turn ..).tasks_eq.trans (List.append_nil _).symm
  · rename_i j reply inRun _
    obtain ⟨result, hresult, rfl⟩ := Option.map_eq_some_iff.mp h
    rw [pageObjects_listed j hresult]
    exact tasks_listed ..
  · split at h
    · split at h
      · rename_i joined logs hjoin
        cases h
        exact ((steers_joined ..).tasks_eq.trans (tasks_of_joinTask hjoin)).trans
          (List.append_nil _).symm
      · cases h
    · cases h
  · cases h

theorem tasks_of_act (htask : action.task? = none) (hbatch : ∀ lines, action ≠ .batch lines)
    (h : job.act action = some t) :
    t.job.tasks = job.tasks ++ action.pageObjects.map fun d => ⟨d, .queued⟩ := by
  cases action with
  | openFeed token =>
    cases h
    exact (List.append_nil _).symm
  | batch lines => exact absurd rfl (hbatch lines)
  | joinBatch i task =>
    obtain ⟨batch, -, hact⟩ := Option.bind_eq_some_iff.mp h
    obtain ⟨-, status, joined, logs, hjoin, rfl⟩ := joinInBatch_eq hact
    obtain ⟨batch', hjob⟩ := exists_drainBatch_eq joined i
      { batch with tasks := batch.tasks.erase task, summary := batch.summary.count status }
    simp only [Transition.after, hjob]
    exact (tasks_of_joinTask hjoin).trans (List.append_nil _).symm
  | receive =>
    simp only [act, receive] at h
    split at h
    · cases h
    · split at h <;> cases h
      exact (List.append_nil _).symm
  | closeResults =>
    obtain ⟨queue, -, rfl⟩ := Option.map_eq_some_iff.mp h
    exact (List.append_nil _).symm
  | dropFeed | nextPage | wait | run | listed | join =>
    obtain ⟨feed, -, hact⟩ := Option.bind_eq_some_iff.mp h
    exact tasks_of_actOnFeed hact
  | _ => cases htask

theorem exists_page_of_mem_pageObjects {i : Nat} {reply : Reply} {d : ObjectDescriptor}
    (h : d ∈ (JobAction.listed i reply).pageObjects) :
    ∃ page, reply = .ok (.page page) ∧ d ∈ page.objects := by
  cases hpage : Reply.page? reply with
  | none =>
    rw [JobAction.pageObjects, hpage] at h
    cases h
  | some result =>
    rw [pageObjects_listed i hpage] at h
    unfold Reply.page? at hpage
    split at hpage <;> cases hpage
    · rename_i page
      rw [objectsOnPage] at h
      split at h
      · cases h
      · exact ⟨page, rfl, h⟩
    · cases h

theorem mem_tasks_of_act (hbatch : ∀ lines, action ≠ .batch lines) (h : job.act action = some t)
    {task : Task} (hmem : task ∈ t.job.tasks) :
    (∃ old ∈ job.tasks, old.object = task.object) ∨ task.object ∈ action.pageObjects := by
  cases hown : action.task? with
  | none =>
    rw [tasks_of_act hown hbatch h, List.mem_append] at hmem
    rcases hmem with hold | hnew
    · exact .inl ⟨task, hold, rfl⟩
    · obtain ⟨d, hd, rfl⟩ := List.mem_map.mp hnew
      exact .inr hd
  | some n =>
    obtain ⟨object, stage, stage', -, -, htasks⟩ := act_goes hown h
    have hobject := List.mem_map_of_mem (f := Task.object) hmem
    rw [htasks, map_object_setStage] at hobject
    exact .inl (List.mem_map.mp hobject)

end Job

namespace Store

theorem hasFront_of_mem_list {s : Store} {bucket keyPrefix : String} {token : Option String}
    {maxKeys : Int} {d : ObjectDescriptor}
    (h : d ∈ (s.list bucket keyPrefix token maxKeys).objects) :
    Text.hasFront keyPrefix d.key = true := by
  obtain ⟨⟨key, object⟩, hmem, rfl⟩ := List.mem_map.mp h
  have hlisted := List.mem_of_mem_take hmem
  rw [listed, List.mem_filter, Bool.and_eq_true] at hlisted
  exact hlisted.2.1

end Store

namespace World

variable {start w v : World} {events : List Event} {action : WorldAction} {t : WorldTransition}

/-- All tasks that are running copy their own objects. -/
def Copying (w : World) : Prop :=
  ∀ task ∈ w.job.tasks, task.stage.About task.object

theorem Deed.tasks_cases (h : w.Deed action t) :
    t.world.job.tasks = w.job.tasks ∨ w.job.Move t.world.job := by
  cases haside : action.isAside with
  | false =>
    rcases h.job_cases haside with hjob | hstep
    · exact .inl (by rw [hjob])
    · exact .inr hstep.move.2
  | true =>
    cases h with
    | aside _ haside =>
      obtain ⟨progress, hjob⟩ := haside.job
      exact .inl (by rw [hjob])
    | _ => cases haside

theorem Deed.copying (h : w.Deed action t) (hw : w.Copying) : t.world.Copying := by
  rcases h.tasks_cases with htasks | hmove
  · rw [Copying, htasks]
    exact hw
  · exact hmove.about hw

theorem Deed.object_eq (h : w.Deed action t) {n : Nat} {d : ObjectDescriptor}
    (hn : (w.job.tasks[n]?).map Task.object = some d) :
    (t.world.job.tasks[n]?).map Task.object = some d := by
  rcases h.tasks_cases with htasks | hmove
  · rw [htasks]
    exact hn
  · obtain ⟨task, htask, rfl⟩ := Option.map_eq_some_iff.mp hn
    rcases hmove.task_cases htask with hsame | ⟨stage', -, hmoved⟩
    · rw [hsame]
      rfl
    · rw [hmoved]
      rfl

theorem Event.exists_object_of_write? {e : Event} (hown : e.before.Copying) {write : Write}
    (h : e.write? = some write) :
    ∃ d, (e.before.job.tasks[write.task]?).map Task.object = some d ∧
      write.key = e.before.job.setup.targetKey d.key := by
  unfold write? at h
  split at h
  · split at h
    · rename_i hcall _
      obtain ⟨object, c, htask, hcopy⟩ := exists_running hcall
      obtain ⟨hn, hkey⟩ := Call.eq_of_write? h
      have hobject : c.object = object := hown _ (List.mem_of_getElem? htask)
      refine ⟨object, by rw [hn, htask]; rfl, ?_⟩
      rw [← hobject]
      exact ObjectCopy.writtenKey?_eq hcopy hkey
    · cases h
  · cases h

theorem Path.setup_eq (h : Path start events w) : w.job.setup = start.job.setup := by
  induction h with
  | start => rfl
  | step _ hact ih => exact (act_deed hact).setup_eq.trans ih

theorem Path.copying (h : Path start events w) (hstart : start.Copying) : w.Copying := by
  induction h with
  | start => exact hstart
  | step _ hact ih => exact (act_deed hact).copying ih

theorem Path.exists_object_of_write (h : Path start events w) (hstart : start.Copying) {write : Write}
    (hwrite : write ∈ Event.writes events) :
    ∃ d, (w.job.tasks[write.task]?).map Task.object = some d ∧
      write.key = start.job.setup.targetKey d.key := by
  induction h with
  | start => cases hwrite
  | step hpath hact ih =>
    rw [Event.writes_snoc, List.mem_append] at hwrite
    rcases hwrite with hold | hnew
    · obtain ⟨d, hd, hkey⟩ := ih hold
      exact ⟨d, (act_deed hact).object_eq hd, hkey⟩
    · obtain ⟨d, hd, hkey⟩ := Event.exists_object_of_write? (hpath.copying hstart)
        (Option.mem_toList.mp hnew)
      rw [show _ = start.job.setup from hpath.setup_eq] at hkey
      exact ⟨d, (act_deed hact).object_eq hd, hkey⟩

/-- No batch begins, and a page that is told by anything else than the store has no keys without the
source prefix. -/
structure Event.Paged (e : Event) : Prop where
  unbatched : ∀ lines, e.action ≠ .job (.batch lines)
  front : ∀ i page, e.action = .answer (.feed i) (.ok (.page page)) → ∀ d ∈ page.objects,
    Text.hasFront e.before.job.setup.source.keyPrefix d.key = true

theorem Event.paged_of_isOfRun {e : Event} (h : e.isOfRun = true) : e.Paged := by
  obtain ⟨before, action, after⟩ := e
  constructor
  · rintro lines rfl
    cases h
  · rintro i page rfl
    cases h

/-- All tasks, and all pages that are still to be handed over, have keys with the source prefix. -/
structure Scoped (w : World) : Prop where
  tasks : ∀ task ∈ w.job.tasks,
    Text.hasFront w.job.setup.source.keyPrefix task.object.key = true
  pages : ∀ i page, w.callState? (.feed i) = some (.answered (.ok (.page page))) →
    ∀ d ∈ page.objects, Text.hasFront w.job.setup.source.keyPrefix d.key = true

theorem scoped_start (htasks : start.job.tasks = []) (hcalls : start.calls = []) : Scoped start where
  tasks := by
    rw [htasks]
    exact nofun
  pages := by
    intro i page hstate
    rw [callState?, hcalls] at hstate
    cases hstate

theorem Scoped.next (h : Scoped w) (hsetup : v.job.setup = w.job.setup)
    (htasks : ∀ task ∈ v.job.tasks, (∃ old ∈ w.job.tasks, old.object = task.object) ∨
      Text.hasFront w.job.setup.source.keyPrefix task.object.key = true)
    (hpages : ∀ i page, v.callState? (.feed i) = some (.answered (.ok (.page page))) →
      w.callState? (.feed i) = some (.answered (.ok (.page page))) ∨
        ∀ d ∈ page.objects, Text.hasFront w.job.setup.source.keyPrefix d.key = true) :
    Scoped v where
  tasks := by
    intro task htask
    rw [hsetup]
    rcases htasks task htask with ⟨old, hold, hobject⟩ | hfront
    · rw [← hobject]
      exact h.tasks old hold
    · exact hfront
  pages := by
    intro i page hstate
    rw [hsetup]
    rcases hpages i page hstate with hold | hfront
    · exact h.pages i page hold
    · exact hfront

theorem Scoped.of_act (h : Scoped w) {jobAction : JobAction} {u : Transition}
    (hact : w.job.act jobAction = some u) (hbatch : ∀ lines, jobAction ≠ .batch lines)
    (hobjects : ∀ d ∈ jobAction.pageObjects,
      Text.hasFront w.job.setup.source.keyPrefix d.key = true) (hjob : v.job = u.job)
    (hcalls : ∀ i, v.callState? (.feed i) = w.callState? (.feed i) ∨ v.callState? (.feed i) = none) :
    Scoped v := by
  refine h.next (hjob ▸ (Job.act_deed hact).move.1.setup) (fun task htask => ?_)
    fun i page hstate => ?_
  · rw [hjob] at htask
    exact (Job.mem_tasks_of_act hbatch hact htask).imp_right (hobjects _)
  · rcases hcalls i with hsame | hnone
    · exact .inl (hsame ▸ hstate)
    · rw [hnone] at hstate
      cases hstate

theorem Scoped.setCall (h : Scoped w) {caller : Caller} {state : CallState} {stores : Stores}
    (hstate : ∀ i page, caller = .feed i → state = .answered (.ok (.page page)) →
      ∀ d ∈ page.objects, Text.hasFront w.job.setup.source.keyPrefix d.key = true) :
    Scoped ({ w with stores }.setCall caller state) := by
  refine h.next rfl (fun task htask => .inl ⟨task, htask, rfl⟩) fun i page hpage => ?_
  rw [callState?_setCall] at hpage
  split at hpage
  · rename_i heq
    exact .inr (hstate i page heq.symm (Option.some.inj hpage))
  · exact .inl hpage

theorem hasFront_of_finish {i : Nat} {call : Call} (hcall : w.call? (.feed i) = some call)
    {s : Store} {now : Int} {page : ListPage}
    (hpage : (s.finish now call.request).1 = .ok (.page page)) {d : ObjectDescriptor}
    (hd : d ∈ page.objects) : Text.hasFront w.job.setup.source.keyPrefix d.key = true := by
  simp only [call?, Job.feedCall?] at hcall
  split at hcall
  · split at hcall <;> cases hcall
    cases hpage
    exact Store.hasFront_of_mem_list hd
  · cases hcall

theorem Scoped.step (h : Scoped w) (hact : w.act action = some t)
    (hpaged : Event.Paged ⟨w, action, t⟩) : Scoped t.world := by
  cases act_deed hact with
  | @job jobAction u hinternal hjobAct =>
    refine h.of_act hjobAct (fun lines hbatch => hpaged.unbatched lines (by rw [hbatch])) ?_ rfl
      fun i => .inl rfl
    intro d hd
    cases jobAction with
    | listed => cases hinternal
    | _ => cases hd
  | enter =>
    rw [enter_eq]
    refine h.setCall fun i page _ hstate => ?_
    split at hstate <;> cases hstate
  | finish hcall =>
    refine h.setCall fun i page hcaller hstate d hd => ?_
    rw [hcaller] at hcall
    exact hasFront_of_finish hcall (CallState.answered.inj hstate) hd
  | answer reply =>
    refine h.setCall fun i page hcaller hstate => ?_
    rw [hcaller, CallState.answered.inj hstate] at hpaged
    exact hpaged.front i page rfl
  | @toTask task lane reply u _ hjobAct =>
    refine h.of_act hjobAct nofun nofun rfl fun i => .inl ?_
    exact (callState?_clearCall w (.task task lane) (.feed i)).trans (if_neg Caller.noConfusion)
  | @toFeed i reply u hanswered hjobAct =>
    refine h.of_act hjobAct nofun ?_ rfl fun j => ?_
    · intro d hd
      obtain ⟨page, rfl, hmem⟩ := Job.exists_page_of_mem_pageObjects hd
      exact h.pages i page hanswered d hmem
    · have hclear := callState?_clearCall w (.feed i) (.feed j)
      split at hclear
      · exact .inr hclear
      · exact .inl hclear
  | panic hjobAct =>
    exact h.of_act hjobAct nofun nofun rfl fun i =>
      .inl (callState?_clearTask_of_ne w fun _ => Caller.noConfusion)
  | pass => exact ⟨h.tasks, h.pages⟩
  | aside _ haside =>
    obtain ⟨progress, hjob⟩ := haside.job
    refine h.next (by rw [hjob]) (fun task htask => .inl ⟨task, by rwa [hjob] at htask, rfl⟩) ?_
    intro i page hstate
    rw [haside.calls _ fun _ => Caller.noConfusion] at hstate
    exact .inl hstate

theorem Path.scoped (h : Path start events w) (hstart : Scoped start)
    (hpaged : ∀ e ∈ events, e.Paged) : Scoped w := by
  induction h with
  | start => exact hstart
  | step _ hact ih =>
    exact (ih fun e he => hpaged e (List.mem_append_left _ he)).step hact
      (hpaged _ (List.mem_append_right _ List.mem_cons_self))

end World

end BucketMigration
