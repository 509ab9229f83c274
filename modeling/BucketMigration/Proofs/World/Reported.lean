import BucketMigration.Proofs.Job.Written
import BucketMigration.Proofs.World.Flight

/-!
# Bytes reported over stores

Over stores a task is told what a store made of its call, or a fault. So whatever the drivers do and
however tasks and parts take turns, a copy in parts has written as many bytes as it reports. A copy in
one piece reports the size that its object was listed with, and has written what was there when it
was read.
-/

namespace BucketMigration

namespace World

def Event.jobEvent? (e : Event) : Option Job.Event :=
  match e.action with
  | .job action => some ⟨e.before.job, action⟩
  | .panic task reason => some ⟨e.before.job, .panic task reason⟩
  | .deliver (.task task lane) =>
      match e.before.callState? (.task task lane) with
      | some (.answered reply) => some ⟨e.before.job, .reply task lane reply⟩
      | _ => none
  | .deliver (.feed i) =>
      match e.before.callState? (.feed i) with
      | some (.answered reply) => some ⟨e.before.job, .listed i reply⟩
      | _ => none
  | _ => none

def jobEvents (events : List Event) : List Job.Event :=
  events.filterMap Event.jobEvent?

/-- Whether a call that is answered is answered by its store. -/
def Event.isOverStores (e : Event) : Bool :=
  match e.action with
  | .answer .. => false
  | _ => true

/-- The tasks wait for calls that the stores answer, and the job has done what its world tells. -/
structure Informed (setup : Setup) (start : Job) (events : List Event) (w : World) : Prop
    extends Waited setup w where
  answered : ∀ (t : Nat) (lane : Lane) (reply : Reply) (call : Call),
    w.callState? (.task t lane) = some (.answered reply) → w.call? (.task t lane) = some call →
    call.request.StoreReply reply
  history : Job.History start (jobEvents events) w.job
  served : ∀ e ∈ jobEvents events, e.Served

variable {setup : Setup} {start w : World} {events : List Event} {action : WorldAction}
  {next : WorldTransition} {caller : Caller} {call : Call}

theorem jobEvents_snoc (events : List Event) (e : Event) :
    jobEvents (events ++ [e]) = jobEvents events ++ e.jobEvent?.toList :=
  Job.Event.filterMap_snoc Event.jobEvent? events e

theorem Deed.jobEvent? (h : w.Deed action next) :
    (∃ jobAction u, Event.jobEvent? ⟨w, action, next⟩ = some ⟨w.job, jobAction⟩ ∧
      w.job.act jobAction = some u ∧ next.world.job = u.job ∧
      ∀ task lane reply, jobAction = .reply task lane reply →
        w.callState? (.task task lane) = some (.answered reply)) ∨
    Event.jobEvent? ⟨w, action, next⟩ = none ∧
      ∃ progress, next.world.job = { w.job with progress } := by
  cases h with
  | @job jobAction u hinternal hact =>
    refine .inl ⟨jobAction, u, rfl, hact, rfl, ?_⟩
    rintro task lane reply rfl
    cases hinternal
  | enter => exact .inr ⟨rfl, w.job.progress, by rw [enter_eq]; rfl⟩
  | finish | answer | pass => exact .inr ⟨rfl, w.job.progress, rfl⟩
  | @toTask task lane reply u hanswered hact =>
    refine .inl ⟨.reply task lane reply, u, ?_, hact, rfl, ?_⟩
    · simp only [Event.jobEvent?, hanswered]
    · rintro task lane reply ⟨⟩
      exact hanswered
  | @toFeed i reply u hanswered hact =>
    refine .inl ⟨.listed i reply, u, ?_, hact, rfl, fun _ _ _ => JobAction.noConfusion⟩
    simp only [Event.jobEvent?, hanswered]
  | @panic task reason u hact =>
    exact .inl ⟨.panic task reason, u, rfl, hact, rfl, fun _ _ _ => JobAction.noConfusion⟩
  | aside haction haside =>
    refine .inr ⟨?_, haside.job⟩
    unfold WorldAction.isAside at haction
    split at haction <;> first | rfl | cases haction

theorem Comes.storeReply {reply : Reply} (h : w.Comes caller call action (.answered reply))
    (hstores : Event.isOverStores ⟨w, action, next⟩ = true) : call.request.StoreReply reply := by
  cases h with
  | @failed e => exact .inl ⟨e, rfl⟩
  | finished => exact .inr ⟨w.stores.get call.side, w.now, rfl⟩
  | told => cases hstores

theorem Informed.step (h : Informed setup start.job events w) (hact : w.act action = some next)
    (hstores : Event.isOverStores ⟨w, action, next⟩ = true) :
    Informed setup start.job (events ++ [⟨w, action, next⟩]) next.world where
  toWaited := h.toWaited.step hact
  answered := by
    intro t lane reply call hanswered hcall
    obtain ⟨same, hbefore, hafter, hcases⟩ := h.call_cases hact hanswered
    cases hafter.symm.trans hcall
    rcases hcases with hold | hcomes
    · exact h.answered t lane reply call hold hbefore
    · exact hcomes.storeReply hstores
  history := by
    rw [jobEvents_snoc]
    rcases (act_deed hact).jobEvent? with ⟨jobAction, u, hevent, htaken, hjob, -⟩ |
      ⟨hevent, progress, hjob⟩
    · rw [hevent, hjob]
      exact h.history.step htaken
    · rw [hevent, hjob, Option.toList_none, List.append_nil]
      exact h.history.retally progress
  served := by
    intro e he
    rw [jobEvents_snoc, List.mem_append, Option.mem_toList] at he
    rcases he with hold | hnew
    · exact h.served e hold
    · rcases (act_deed hact).jobEvent? with ⟨jobAction, u, hevent, -, -, hreply⟩ | ⟨hevent, -⟩
      · cases hevent.symm.trans hnew
        intro t lane reply haction call hcall
        exact h.answered t lane reply call (hreply t lane reply haction) hcall
      · cases hevent.symm.trans hnew

theorem informed_start {results : Option ResultQueue} (hnew : Job.new? setup results = .ok start.job)
    (hcalls : start.calls = []) : Informed setup start.job [] start where
  toWaited := waited_start hnew hcalls
  answered := by
    intro t lane reply call hanswered
    rw [callState?, hcalls] at hanswered
    cases hanswered
  history := .start
  served _ he := nomatch he

theorem Path.informed {results : Option ResultQueue} (hnew : Job.new? setup results = .ok start.job)
    (hcalls : start.calls = []) (h : Path start events w)
    (hstores : ∀ e ∈ events, e.isOverStores = true) : Informed setup start.job events w := by
  induction h with
  | start => exact informed_start hnew hcalls
  | step _ hact ih =>
    have hbefore := ih fun e he => hstores e (List.mem_append_left _ he)
    exact hbefore.step hact (hstores _ (List.mem_append_right _ List.mem_cons_self))

/-- Whatever the drivers do and however tasks and parts take turns, a task adds to the bytes that
have landed what it has written, unless it copied its object in one piece. An object that was
migrated adds and reports the size that it was listed with. As many bytes were written if it was
copied in parts, and in one piece exactly if as many were read. -/
theorem bytes_reported {results : Option ResultQueue}
    (hnew : Job.new? setup results = .ok start.job) (hcalls : start.calls = [])
    (hpath : Path start events w) (hstores : ∀ e ∈ events, e.isOverStores = true) {t : Nat}
    {task : Task} (htask : w.job.tasks[t]? = some task) :
    Job.BytesReported task.object (jobEvents events) t task.stage ∧
      ∀ mode bytes, task.stage.outcome? = some (.ok (.migrated mode bytes)) →
        (w.job.resultOf task.object (.ok (.migrated mode bytes))).bytesCopied = task.object.size ∧
          (task.object.size = Job.Event.bytesWritten (jobEvents events) t ↔
            mode = .multipart ∨ ∃ data, Job.Event.contents (jobEvents events) t = [data] ∧
              data.size = task.object.size) := by
  have hinformed := hpath.informed hnew hcalls hstores
  have hrecorded := hinformed.history.recorded hnew hinformed.served
  have hreported := (hrecorded.tasks t task htask).bytesReported
  refine ⟨hreported, fun mode bytes houtcome => ⟨(hreported.reported mode bytes houtcome).1, ?_⟩⟩
  cases mode with
  | multipart => exact iff_of_true (hreported.multipart bytes houtcome).symm (.inl rfl)
  | direct =>
    obtain ⟨data, hcontents, hwritten⟩ := hreported.direct bytes houtcome
    rw [hcontents, hwritten]
    constructor
    · exact fun hsize => .inr ⟨data, rfl, hsize.symm⟩
    · rintro (hmode | ⟨data, ⟨⟩, hsize⟩)
      · cases hmode
      · exact hsize.symm

/-- An object of three bytes that has not been listed yet. -/
def threeBytes (options : MigrationOptions) : World where
  job :=
    { setup := { source := { bucket := "from" }, target := { bucket := "to" }, options }
      freeSlots := 10 }
  stores := .shared (Store.write {} "from" "key" ⟨⟨#[1, 2, 3]⟩, 0, "", none⟩)
  now := 0

/-- A call of the only task, from its start until the reply is handed over. -/
def wholeCall (lane : Lane) : List WorldAction :=
  [.enter (.task 0 lane), .finish (.task 0 lane), .deliver (.task 0 lane)]

def inOnePiece (line : String) : List WorldAction :=
  [.job (.batch [line]), .job (.grant 0), .job (.start 0)] ++
    wholeCall .whole ++ wholeCall .whole ++ wholeCall .whole ++ wholeCall .whole ++
    [.job (.release 0), .job (.account 0)]

def inOnePart (line : String) : List WorldAction :=
  [.job (.batch [line]), .job (.grant 0), .job (.start 0)] ++
    wholeCall .whole ++ wholeCall .whole ++ wholeCall .whole ++ [.job (.startPart 0)] ++
    wholeCall (.part 1) ++ wholeCall (.part 1) ++ wholeCall .whole ++
    [.job (.release 0), .job (.account 0)]

theorem bytes_reported_in_one_part :
    ∃ events w task, Path (threeBytes { multipartThreshold := 1 }) events w ∧
      w.job.tasks[0]? = some task ∧ task.object.size = 2 ∧
      task.stage.outcome? = some (.ok (.migrated .multipart 2)) ∧
      Job.Event.bytesWritten (jobEvents events) 0 = 2 := by
  have hrun : ((threeBytes { multipartThreshold := 1 }).run? (inOnePart "key|2")).any
      (fun run => run.1.all Event.isOverStores ∧ run.2.job.tasks[0]?.any fun task =>
        task.object.size = 2 ∧ task.stage.outcome? = some (.ok (.migrated .multipart 2))) = true := by
    decide +kernel
  simp only [Option.any_eq_true, decide_eq_true_eq, List.all_eq_true] at hrun
  obtain ⟨⟨events, w⟩, hrun, hstores, task, htask, hsize, hmigrated⟩ := hrun
  have hpath := path_of_run? hrun
  have hnew : Job.new? (threeBytes { multipartThreshold := 1 }).job.setup none =
      .ok (threeBytes { multipartThreshold := 1 }).job := rfl
  have hreported := bytes_reported hnew rfl hpath hstores htask
  have hwritten := (hreported.2 _ _ hmigrated).2.mpr (.inl rfl)
  exact ⟨events, w, task, hpath, htask, hsize, hmigrated, hwritten.symm.trans hsize⟩

/-- A batch lists five bytes of an object that has three. It is migrated, five bytes are reported and
added to those that have landed, and three are written. -/
theorem five_bytes_reported_three_written :
    ∃ events w task, Path (threeBytes {}) events w ∧ (∀ e ∈ events, e.isOverStores = true) ∧
      w.job.tasks[0]? = some task ∧ task.stage.outcome? = some (.ok (.migrated .direct 5)) ∧
      (w.job.resultOf task.object (.ok (.migrated .direct 5))).bytesCopied = 5 ∧
      w.job.snapshot.completedBytes = 5 ∧ Job.Event.bytesWritten (jobEvents events) 0 = 3 := by
  have hrun : ((threeBytes {}).run? (inOnePiece "key|5")).any (fun run =>
      run.1.all Event.isOverStores ∧ run.2.job.snapshot.completedBytes = 5 ∧
        Job.Event.bytesWritten (jobEvents run.1) 0 = 3 ∧ run.2.job.tasks[0]?.any fun task =>
          task.stage.outcome? = some (.ok (.migrated .direct 5))) = true := by
    decide +kernel
  simp only [Option.any_eq_true, decide_eq_true_eq, List.all_eq_true] at hrun
  obtain ⟨⟨events, w⟩, hrun, hstores, hlanded, hwritten, task, htask, hmigrated⟩ := hrun
  exact ⟨events, w, task, path_of_run? hrun, hstores, htask, hmigrated, rfl, hlanded, hwritten⟩

end World

end BucketMigration
