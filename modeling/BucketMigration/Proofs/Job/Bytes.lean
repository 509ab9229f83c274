import BucketMigration.Proofs.Copy.Landing
import BucketMigration.Proofs.Job.Halt
import Mathlib.Algebra.BigOperators.Group.Finset.Basic
import Mathlib.Algebra.Order.BigOperators.Group.Finset

/-!
# Bytes are accounted

The bytes that a job has landed are those that its tasks have landed. A path keeps every action with
the job that it was done to, so that the parts of a task can be named whose upload was answered with
success. A migrated object has landed its size, a copy in parts the bytes of those parts, and no task
lands more than the size of its object.
-/

namespace BucketMigration

namespace TaskStage

/-- What has landed of a task. A task that has panicked may have opened an upload. -/
def Landed (setup : Setup) (object : ObjectDescriptor) (opened : Bool) (up : List PartRange) :
    TaskStage → Prop
  | queued | granted => Unopened opened up
  | running c => c.object = object ∧ c.phase.Landed setup object opened up
  | released v | publishing v | placed v | finished v => LandedAtEnd setup object opened up v
  | panicked _ => Unopened opened up ∨ (opened = true ∧ PartsOf setup object up)

end TaskStage

namespace Job

open scoped BigOperators

structure Event where
  before : Job
  action : JobAction

/-- What happens one after the other from `start` on. -/
inductive Path (start : Job) : List Event → Job → Prop
  | start : Path start [] start
  | step {events : List Event} {job : Job} {action : JobAction} {u : Transition}
      (h : Path start events job) (hact : job.act action = some u) :
      Path start (events ++ [⟨job, action⟩]) u.job

namespace Event

/-- Whether a task is told that its upload was opened. -/
def opens (t : Nat) (e : Event) : Bool :=
  match e.action, e.before.stage? t with
  | .reply u lane reply, some (.running _) => u == t && ObjectCopy.opensUpload lane reply
  | _, _ => false

/-- The part that a task is told to have been uploaded. -/
def uploads? (t : Nat) (e : Event) : Option PartRange :=
  match e.action, e.before.stage? t with
  | .reply u lane reply, some (.running c) => if u = t then c.uploads? lane reply else none
  | _, _ => none

def opened (events : List Event) (t : Nat) : Bool :=
  events.any (opens t)

/-- The parts of a task that were uploaded, in the order in which they were. -/
def uploaded (events : List Event) (t : Nat) : List PartRange :=
  events.filterMap (uploads? t)

theorem opened_snoc (events : List Event) (e : Event) (t : Nat) :
    opened (events ++ [e]) t = (opened events t || e.opens t) := by
  rw [opened, List.any_append, List.any_cons, List.any_nil, Bool.or_false]
  rfl

theorem filterMap_snoc {ε α : Type} (read? : ε → Option α) (events : List ε) (e : ε) :
    (events ++ [e]).filterMap read? = events.filterMap read? ++ (read? e).toList := by
  rw [List.filterMap_append]
  cases hread : read? e <;> simp [hread]

theorem uploaded_snoc (events : List Event) (e : Event) (t : Nat) :
    uploaded (events ++ [e]) t = uploaded events t ++ (e.uploads? t).toList :=
  filterMap_snoc (uploads? t) events e

theorem opens_of_ne {e : Event} {t : Nat} (h : e.action.task? ≠ some t) : e.opens t = false := by
  unfold opens
  split
  · rename_i u lane reply c haction _
    rw [haction] at h
    have hne : u ≠ t := fun heq => h (congrArg some heq)
    rw [beq_eq_false_iff_ne.mpr hne, Bool.false_and]
  · rfl

theorem uploads?_of_ne {e : Event} {t : Nat} (h : e.action.task? ≠ some t) :
    e.uploads? t = none := by
  unfold uploads?
  split
  · rename_i u lane reply c haction _
    rw [haction] at h
    rw [if_neg fun heq => h (congrArg some heq)]
  · rfl

theorem opens_reply {job : Job} {t : Nat} {c : ObjectCopy} (ht : job.stage? t = some (.running c))
    (lane : Lane) (reply : Reply) :
    opens t ⟨job, .reply t lane reply⟩ = ObjectCopy.opensUpload lane reply := by
  simp only [opens, ht, beq_self_eq_true, Bool.true_and]

theorem uploads?_reply {job : Job} {t : Nat} {c : ObjectCopy} (ht : job.stage? t = some (.running c))
    (lane : Lane) (reply : Reply) :
    uploads? t ⟨job, .reply t lane reply⟩ = c.uploads? lane reply := by
  simp only [uploads?, ht, if_pos]

theorem untold_of_stage {e : Event} {t : Nat} {stage : TaskStage}
    (ht : e.before.stage? t = some stage) (hstage : ∀ c, stage ≠ .running c) :
    e.opens t = false ∧ e.uploads? t = none := by
  unfold opens uploads?
  constructor <;>
  · split
    · rename_i hrunning
      rw [ht] at hrunning
      exact absurd (Option.some.inj hrunning) (hstage _)
    · rfl

theorem untold_of_action {e : Event} (t : Nat)
    (h : ∀ u lane reply, e.action ≠ .reply u lane reply) :
    e.opens t = false ∧ e.uploads? t = none := by
  unfold opens uploads?
  constructor <;>
  · split
    · rename_i hreply _
      exact absurd hreply (h _ _ _)
    · rfl

end Event

open Event

variable {job next start : Job} {setup : Setup} {results : Option ResultQueue}
  {object : ObjectDescriptor} {stage stage' : TaskStage} {events : List Event} {action : JobAction}

theorem Path.reach (h : Path start events job) : Reach start job := by
  induction h with
  | start => exact .refl
  | step _ hact ih => exact ih.step ⟨_, _, hact, rfl⟩

/-- What a task has contributed to the bytes that have landed: the parts that were uploaded, when an
upload was opened, and otherwise the whole object once it has migrated. -/
def contribution (events : List Event) (job : Job) (t : Nat) : Nat :=
  match job.tasks[t]? with
  | some task => bytesLanded (opened events t) (uploaded events t) task.object.size task.stage.outcome?
  | none => 0

/-- Each task has landed what its stage tells, and the job has landed what its tasks have. -/
structure Ledger (setup : Setup) (events : List Event) (job : Job) : Prop where
  setup_eq : job.setup = setup
  tasks : ∀ (t : Nat) (task : Task), job.tasks[t]? = some task →
    task.stage.Landed setup task.object (opened events t) (uploaded events t)
  fresh : ∀ t, job.tasks.length ≤ t → Unopened (opened events t) (uploaded events t)
  total : job.progress.bytes = (job.tasks.map fun task => task.object.size).sum
  landed : job.progress.landedBytes = ∑ t ∈ Finset.range job.tasks.length, job.contribution events t

/-- The bytes that a step of a task lands are those that its stage gains. -/
structure Gains (setup : Setup) (object : ObjectDescriptor) (opened : Bool) (up : List PartRange)
    (opened' : Bool) (up' : List PartRange) (stage stage' : TaskStage) (p p' : Progress) : Prop where
  landed : stage'.Landed setup object opened' up'
  total : p'.bytes = p.bytes
  bytes : p'.landedBytes + bytesLanded opened up object.size stage.outcome? =
    p.landedBytes + bytesLanded opened' up' object.size stage'.outcome?

theorem gains_of_lands {opened opened' : Bool} {up up' : List PartRange} {next : ObjectCopy.Next}
    (h : ObjectCopy.Lands setup object opened up opened' up' next) (hobject : next.1.object = object)
    (hnone : stage.outcome? = none) :
    Gains setup object opened up opened' up' stage (.running next.1) job.progress
      (job.tally next.2) where
  landed := ⟨hobject, h.phase⟩
  total := by rw [tally_eq]
  bytes := by
    rw [tally_eq, hnone]
    have hbytes := h.bytes
    show job.progress.landedBytes + _ + _ = job.progress.landedBytes +
      bytesLanded opened' up' object.size next.1.verdict?
    omega

theorem Gains.refl {opened : Bool} {up : List PartRange} (p : Progress)
    (h : stage'.Landed setup object opened up) (houtcome : stage'.outcome? = stage.outcome?) :
    Gains setup object opened up opened up stage stage' p p :=
  ⟨h, rfl, by rw [houtcome]⟩

theorem Goes.gains {course : Course} {t : Nat} {opened : Bool} {up : List PartRange}
    (h : Goes job object action stage stage' course) (hown : action.task? = some t)
    (ht : job.stage? t = some stage) (hstage : stage.Landed job.setup object opened up) :
    Gains job.setup object opened up (opened || Event.opens t ⟨job, action⟩)
      (up ++ (Event.uploads? t ⟨job, action⟩).toList) stage stage' job.progress course.progress := by
  have hstill : Event.opens t ⟨job, action⟩ = false ∧ Event.uploads? t ⟨job, action⟩ = none →
      Gains job.setup object opened up opened up stage stage' job.progress course.progress →
      Gains job.setup object opened up (opened || Event.opens t ⟨job, action⟩)
        (up ++ (Event.uploads? t ⟨job, action⟩).toList) stage stage' job.progress course.progress := by
    rintro ⟨hopens, huploads⟩ hgains
    rw [hopens, huploads, Bool.or_false, Option.toList_none, List.append_nil]
    exact hgains
  cases h with
  | grant => exact hstill (untold_of_stage ht (by simp)) (.refl _ hstage rfl)
  | @refuse n cause =>
    obtain ⟨rfl, rfl⟩ := hstage
    exact hstill (untold_of_stage ht (by simp))
      (gains_of_lands (ObjectCopy.lands_refuse _ object cause) rfl rfl)
  | start =>
    obtain ⟨rfl, rfl⟩ := hstage
    exact hstill (untold_of_stage ht (by simp))
      (gains_of_lands (ObjectCopy.lands_start _ object) (ObjectCopy.object_start _ object) rfl)
  | @reply n c lane given next hnext =>
    cases hown
    have hmoves : c.Moves job.setup next := .reply hnext
    rw [opens_reply ht, uploads?_reply ht]
    exact gains_of_lands (ObjectCopy.lands_resume hstage.1 hstage.2 hnext)
      (hmoves.object_eq.trans hstage.1) hmoves.verdict?_eq_none
  | @wake n c next hnext =>
    have hmoves : c.Moves job.setup next := .wake hnext
    exact hstill (untold_of_action t (by simp)) (gains_of_lands (ObjectCopy.lands_wake hstage.2 hnext)
      (hmoves.object_eq.trans hstage.1) hmoves.verdict?_eq_none)
  | @startPart n c next hnext =>
    have hmoves : c.Moves job.setup next := .startPart hnext
    exact hstill (untold_of_action t (by simp))
      (gains_of_lands (ObjectCopy.lands_startPart hstage.2 hnext)
        (hmoves.object_eq.trans hstage.1) hmoves.verdict?_eq_none)
  | panic n reason hnone =>
    exact hstill (untold_of_action t (by simp))
      (.refl _ (ObjectCopy.unopened_or_partsOf hstage.2 hnone) hnone.symm)
  | release n hv =>
    have hended := hstage.2
    rw [ObjectCopy.phase_of_verdict? hv] at hended
    exact hstill (untold_of_action t (by simp)) (.refl _ hended hv.symm)
  | account n v =>
    apply hstill (untold_of_stage ht (by simp))
    obtain ⟨failures, hprogress⟩ := progress_recordVerdict job object v
    have hcourse : (job.recordVerdict object v).1.course.progress = { job.progress with failures } :=
      hprogress
    rw [hcourse]
    split <;> exact ⟨hstage, rfl, rfl⟩
  | place => exact hstill (untold_of_stage ht (by simp)) (.refl _ hstage rfl)
  | finish _ h =>
    rcases h with rfl | rfl <;>
      exact hstill (untold_of_stage ht (by simp)) (.refl _ hstage rfl)

theorem Work.exists_dispatched {base : Job} (h : job.Work base) :
    ∃ objects : List ObjectDescriptor,
      base.tasks = job.tasks ++ objects.map (fun d => ⟨d, .queued⟩) ∧
      base.progress.bytes = job.progress.bytes + (objects.map ObjectDescriptor.size).sum ∧
      base.progress.landedBytes = job.progress.landedBytes := by
  cases h with
  | still => exact ⟨[], by simp, rfl, rfl⟩
  | spawn objects => exact ⟨objects, rfl, by rw [progress_spawn], by rw [progress_spawn]⟩
  | halt => exact ⟨[], by simp, by rw [progress_haltWith]; rfl, by rw [progress_haltWith]⟩

theorem exists_work {u : Transition} (hown : action.task? = none) (hact : job.act action = some u) :
    ∃ base, job.Work base ∧ u.job.tasks = base.tasks ∧ u.job.course = base.course := by
  cases act_deed hact with
  | task hsome =>
    rw [hown] at hsome
    cases hsome
  | feed _ _ hmove hnext => exact ⟨_, hmove.work, by rw [hnext]; rfl, by rw [hnext]; rfl⟩
  | other _ _ _ hwork _ htasks hcourse => exact ⟨_, hwork, htasks, hcourse⟩

theorem contribution_of_task {t : Nat} (ht : job.tasks[t]? = some ⟨object, stage⟩) :
    job.contribution events t =
      bytesLanded (opened events t) (uploaded events t) object.size stage.outcome? := by
  rw [contribution, ht]

theorem contribution_congr {e : Event} {t : Nat} (hother : e.action.task? ≠ some t)
    (ht : next.tasks[t]? = job.tasks[t]?) :
    next.contribution (events ++ [e]) t = job.contribution events t := by
  rw [contribution, contribution, ht, opened_snoc, uploaded_snoc, opens_of_ne hother,
    uploads?_of_ne hother, Bool.or_false, Option.toList_none, List.append_nil]

theorem sum_range_update {f g : Nat → Nat} {n t : Nat} (ht : t < n) (h : ∀ v, v ≠ t → g v = f v) :
    ∑ v ∈ Finset.range n, g v + f t = ∑ v ∈ Finset.range n, f v + g t := by
  have hmem := Finset.mem_range.mpr ht
  have hrest : ∑ v ∈ (Finset.range n).erase t, g v = ∑ v ∈ (Finset.range n).erase t, f v :=
    Finset.sum_congr rfl fun v hv => h v (Finset.ne_of_mem_erase hv)
  rw [← Finset.add_sum_erase _ g hmem, ← Finset.add_sum_erase _ f hmem, hrest]
  omega

theorem Ledger.work (h : Ledger setup events job) {u : Transition} (hown : action.task? = none)
    (hact : job.act action = some u) : Ledger setup (events ++ [⟨job, action⟩]) u.job := by
  obtain ⟨base, hwork, hbase, hcourse⟩ := exists_work hown hact
  obtain ⟨objects, hspawned, hbytes, hlanded⟩ := hwork.exists_dispatched
  have htasks := hbase.trans hspawned
  have hprogress : u.job.progress = base.progress := congrArg Course.progress hcourse
  have hother : ∀ t, (⟨job, action⟩ : Event).action.task? ≠ some t := by
    intro t hsome
    cases hown.symm.trans hsome
  have hsame : ∀ t, opened (events ++ [⟨job, action⟩]) t = opened events t ∧
      uploaded (events ++ [⟨job, action⟩]) t = uploaded events t := by
    intro t
    rw [opened_snoc, uploaded_snoc, opens_of_ne (hother t), uploads?_of_ne (hother t), Bool.or_false,
      Option.toList_none, List.append_nil]
    exact ⟨rfl, rfl⟩
  have hold : ∀ t < job.tasks.length, u.job.tasks[t]? = job.tasks[t]? := fun t ht => by
    rw [htasks, List.getElem?_append_left ht]
  have hnew : ∀ t task, job.tasks.length ≤ t → u.job.tasks[t]? = some task → task.stage = .queued := by
    intro t task ht htask
    rw [htasks, List.getElem?_append_right ht] at htask
    obtain ⟨d, -, rfl⟩ := List.mem_map.mp (List.mem_of_getElem? htask)
    rfl
  have hle : job.tasks.length ≤ u.job.tasks.length := by
    rw [htasks, List.length_append]
    exact Nat.le_add_right ..
  refine ⟨(act_deed hact).move.1.setup.trans h.setup_eq, ?_, ?_, ?_, ?_⟩
  · intro t task htask
    rw [(hsame t).1, (hsame t).2]
    by_cases ht : t < job.tasks.length
    · exact h.tasks t task ((hold t ht).symm.trans htask)
    · rw [hnew t task (Nat.le_of_not_lt ht) htask]
      exact h.fresh t (Nat.le_of_not_lt ht)
  · intro t ht
    rw [(hsame t).1, (hsame t).2]
    exact h.fresh t (Nat.le_trans hle ht)
  · rw [hprogress, hbytes, h.total, htasks, List.map_append, List.sum_append, List.map_map]
    rfl
  · rw [hprogress, hlanded, h.landed]
    have hsum : ∀ t ∈ Finset.range job.tasks.length,
        job.contribution events t = u.job.contribution (events ++ [⟨job, action⟩]) t := fun t ht =>
      (contribution_congr (hother t) (hold t (Finset.mem_range.mp ht))).symm
    rw [Finset.sum_congr rfl hsum]
    -- What has just been dispatched has landed nothing.
    refine Finset.sum_subset (Finset.range_mono hle) ?_
    intro t _ ht
    have ht : job.tasks.length ≤ t := by simpa using ht
    obtain ⟨hopened, huploaded⟩ := h.fresh t ht
    unfold contribution
    split
    · rename_i task htask
      rw [(hsame t).1, hopened, hnew t task ht htask]
      rfl
    · rfl

theorem Ledger.task (h : Ledger setup events job) {t : Nat} {u : Transition}
    (hown : action.task? = some t) (hact : job.act action = some u) :
    Ledger setup (events ++ [⟨job, action⟩]) u.job := by
  obtain ⟨object, stage, stage', ht, hgoes, htasks⟩ := act_goes hown hact
  obtain ⟨hlt, -⟩ := List.getElem?_eq_some_iff.mp ht
  have hstage : job.stage? t = some stage := by rw [stage?, ht]; rfl
  have hgains := hgoes.gains hown hstage (h.setup_eq ▸ h.tasks t _ ht)
  have hlength : u.job.tasks.length = job.tasks.length := by rw [htasks, length_tasks_setStage]
  have hown' : u.job.tasks[t]? = some ⟨object, stage'⟩ := by
    rw [htasks, getElem?_tasks_setStage, if_pos rfl, ht]
    rfl
  have hother : ∀ v, v ≠ t → u.job.tasks[v]? = job.tasks[v]? := by
    intro v hv
    rw [htasks, getElem?_tasks_setStage, if_neg (Ne.symm hv)]
  have hne : ∀ v, v ≠ t → (⟨job, action⟩ : Event).action.task? ≠ some v := by
    intro v hv hsome
    exact hv (Option.some.inj (hsome.symm.trans hown))
  have hsame : ∀ v, v ≠ t → opened (events ++ [⟨job, action⟩]) v = opened events v ∧
      uploaded (events ++ [⟨job, action⟩]) v = uploaded events v := by
    intro v hv
    rw [opened_snoc, uploaded_snoc, opens_of_ne (hne v hv), uploads?_of_ne (hne v hv), Bool.or_false,
      Option.toList_none, List.append_nil]
    exact ⟨rfl, rfl⟩
  rw [h.setup_eq] at hgains
  refine ⟨(act_deed hact).move.1.setup.trans h.setup_eq, ?_, ?_, ?_, ?_⟩
  · intro v task hv
    by_cases heq : v = t
    · subst heq
      rw [hown'] at hv
      cases hv
      rw [opened_snoc, uploaded_snoc]
      exact hgains.landed
    · rw [(hsame v heq).1, (hsame v heq).2]
      exact h.tasks v task ((hother v heq).symm.trans hv)
  · intro v hv
    rw [hlength] at hv
    have heq : v ≠ t := by omega
    rw [(hsame v heq).1, (hsame v heq).2]
    exact h.fresh v hv
  · have hobjects : u.job.tasks.map Task.object = job.tasks.map Task.object := by
      rw [htasks, map_object_setStage]
    have hsizes := congrArg (List.map ObjectDescriptor.size) hobjects
    rw [List.map_map, List.map_map] at hsizes
    exact (hgains.total.trans h.total).trans (congrArg List.sum hsizes).symm
  · have hsame' : ∀ v, v ≠ t →
        u.job.contribution (events ++ [⟨job, action⟩]) v = job.contribution events v :=
      fun v hv => contribution_congr (hne v hv) (hother v hv)
    have hsum := sum_range_update hlt hsame'
    have hbytes := hgains.bytes
    rw [← opened_snoc, ← uploaded_snoc, ← contribution_of_task ht, ← contribution_of_task hown'] at hbytes
    rw [hlength]
    have hlanded := h.landed
    have hprogress : u.job.course.progress = u.job.progress := rfl
    rw [hprogress] at hbytes
    omega

theorem Ledger.step (h : Ledger setup events job) {u : Transition} (hact : job.act action = some u) :
    Ledger setup (events ++ [⟨job, action⟩]) u.job := by
  cases hown : action.task? with
  | none => exact h.work hown hact
  | some t => exact h.task hown hact

theorem ledger_new (hnew : new? setup results = .ok start) : Ledger setup [] start := by
  rw [(new?_eq_ok hnew).1]
  refine ⟨rfl, ?_, fun t _ => ⟨rfl, rfl⟩, rfl, rfl⟩
  intro t task ht
  cases ht

theorem Path.ledger (hnew : new? setup results = .ok start) (h : Path start events job) :
    Ledger setup events job := by
  induction h with
  | start => exact ledger_new hnew
  | step _ hact ih => exact ih.step hact

section Contribution

variable {opened : Bool} {up : List PartRange} {v : Verdict}

theorem LandedAtEnd.unopened_or_partsOf (h : LandedAtEnd setup object opened up v) :
    Unopened opened up ∨ (opened = true ∧ PartsOf setup object up) := by
  rcases v with e | outcome
  · rcases h with h | ⟨hopened, hup, -⟩
    · exact .inl h
    · exact .inr ⟨hopened, hup⟩
  · cases outcome with
    | targetCurrent => exact .inl h
    | migrated mode bytes =>
      cases mode with
      | direct => exact .inl h
      | multipart => exact .inr ⟨h.1, h.2.partsOf⟩

theorem landedAtEnd_of_outcome (h : stage.Landed setup object opened up)
    (houtcome : stage.outcome? = some v) : LandedAtEnd setup object opened up v := by
  cases stage with
  | running c =>
    have hended := h.2
    rw [ObjectCopy.phase_of_verdict? houtcome] at hended
    exact hended
  | released | publishing | placed | finished =>
    cases houtcome
    exact h
  | queued | granted | panicked => cases houtcome

theorem unopened_or_partsOf (h : stage.Landed setup object opened up) :
    Unopened opened up ∨ (opened = true ∧ PartsOf setup object up) := by
  cases stage with
  | queued | granted => exact .inl h
  | panicked => exact h
  | running c =>
    cases hverdict : c.verdict? with
    | none => exact ObjectCopy.unopened_or_partsOf h.2 hverdict
    | some v => exact LandedAtEnd.unopened_or_partsOf (landedAtEnd_of_outcome h hverdict)
  | released | publishing | placed | finished => exact LandedAtEnd.unopened_or_partsOf h

theorem bytesLanded_le (h : stage.Landed setup object opened up) :
    bytesLanded opened up object.size stage.outcome? ≤ object.size := by
  rcases unopened_or_partsOf h with ⟨rfl, -⟩ | ⟨rfl, hup⟩
  · unfold bytesLanded
    rw [if_neg Bool.false_ne_true]
    split
    · exact Nat.le_refl _
    · exact Nat.zero_le _
  · exact hup.byteCount_le

theorem bytesLanded_migrated {mode : TransferMode} {bytes : Nat}
    (h : LandedAtEnd setup object opened up (.ok (.migrated mode bytes))) :
    bytesLanded opened up object.size (some (.ok (.migrated mode bytes))) = object.size := by
  cases mode with
  | direct =>
    obtain ⟨rfl, -⟩ := h
    rfl
  | multipart =>
    obtain ⟨rfl, hall⟩ := h
    exact hall.byteCount_eq

/-- The object was skipped, or it was refused because the job had been halted. -/
def SparesTarget (v : Verdict) : Prop :=
  TaskStatus.ofVerdict v = .skipped ∨ ∃ e, v = .error e ∧ e.isHalted = true

theorem bytesLanded_spared (h : LandedAtEnd setup object opened up v) (hv : SparesTarget v) :
    bytesLanded opened up object.size (some v) = 0 := by
  have hnone : ∀ e, v = .error e → e.isOfParts = false → bytesLanded opened up object.size (some v) = 0 := by
    rintro e rfl he
    rcases h with ⟨rfl, -⟩ | ⟨-, -, hparts⟩
    · rfl
    · rw [he] at hparts
      cases hparts
  rcases hv with hskipped | ⟨e, rfl, hhalted⟩
  · rcases v with e | outcome
    · apply hnone e rfl
      cases e with
      | skipLimitExceeded => rfl
      | _ => cases hskipped
    · cases outcome with
      | targetCurrent =>
        obtain ⟨rfl, -⟩ := h
        rfl
      | migrated => cases hskipped
  · apply hnone e rfl
    cases e with
    | halted => rfl
    | _ => cases hhalted

theorem bytesLanded_unopened {outcome : Option Verdict}
    (h : ∀ mode bytes, outcome ≠ some (.ok (.migrated mode bytes))) (size : Nat) :
    bytesLanded false up size outcome = 0 := by
  unfold bytesLanded
  rw [if_neg Bool.false_ne_true]
  split
  · rename_i mode bytes
    exact absurd rfl (h mode bytes)
  · rfl

end Contribution

/-- The bytes that have landed agree with the tasks, and each task has landed what belongs to it. -/
structure BytesAccounted (setup : Setup) (events : List Event) (job : Job) : Prop where
  landed : job.progress.landedBytes = ∑ t ∈ Finset.range job.tasks.length, job.contribution events t
  total : job.progress.bytes = (job.tasks.map fun task => task.object.size).sum
  le_size : ∀ (t : Nat) (task : Task), job.tasks[t]? = some task →
    job.contribution events t ≤ task.object.size
  migrated : ∀ (t : Nat) (task : Task) (mode : TransferMode) (bytes : Nat),
    job.tasks[t]? = some task → task.stage.outcome? = some (.ok (.migrated mode bytes)) →
    job.contribution events t = task.object.size
  spared : ∀ (t : Nat) (task : Task) (v : Verdict), job.tasks[t]? = some task →
    task.stage.outcome? = some v → SparesTarget v → job.contribution events t = 0
  /-- Without an upload nothing lands until the object has migrated. -/
  unopened : ∀ (t : Nat) (task : Task), job.tasks[t]? = some task → opened events t = false →
    (∀ mode bytes, task.stage.outcome? ≠ some (.ok (.migrated mode bytes))) →
    job.contribution events t = 0
  /-- No upload is opened for an object that is copied in one piece. -/
  direct : ∀ (t : Nat) (task : Task), job.tasks[t]? = some task →
    TransferMode.ofSize task.object.size setup.options.multipartThreshold = .direct →
    opened events t = false
  /-- A copy in parts lands the parts whose upload was answered with success, each of them once. -/
  parts : ∀ (t : Nat) (task : Task), job.tasks[t]? = some task → opened events t = true →
    job.contribution events t = byteCount (uploaded events t) ∧
      PartsOf setup task.object (uploaded events t)
  snapshot : (job.tasks.map fun task => task.object.size).sum < 2 ^ 64 →
    job.snapshot.completedBytes = ∑ t ∈ Finset.range job.tasks.length, job.contribution events t ∧
      job.snapshot.totalBytes = (job.tasks.map fun task => task.object.size).sum ∧
      job.snapshot.completedBytes ≤ job.snapshot.totalBytes

theorem sum_range_le (tasks : List Task) (f : Nat → Nat)
    (h : ∀ (t : Nat) (task : Task), tasks[t]? = some task → f t ≤ task.object.size) :
    ∑ t ∈ Finset.range tasks.length, f t ≤ (tasks.map fun task => task.object.size).sum := by
  induction tasks generalizing f with
  | nil => exact Nat.le_refl _
  | cons task tasks ih =>
    have hfirst := h 0 task rfl
    have hrest := ih (fun t => f (t + 1)) fun t other => h (t + 1) other
    rw [List.length_cons, Finset.sum_range_succ', List.map_cons, List.sum_cons]
    omega

theorem Ledger.bytesAccounted (h : Ledger setup events job) : BytesAccounted setup events job := by
  have hle : ∀ (t : Nat) (task : Task), job.tasks[t]? = some task →
      job.contribution events t ≤ task.object.size := by
    intro t task ht
    rw [contribution_of_task ht]
    exact bytesLanded_le (h.tasks t task ht)
  refine ⟨h.landed, h.total, hle, ?_, ?_, ?_, ?_, ?_, ?_⟩
  · intro t task mode bytes ht houtcome
    rw [contribution_of_task ht, houtcome]
    exact bytesLanded_migrated (landedAtEnd_of_outcome (h.tasks t task ht) houtcome)
  · intro t task v ht houtcome hv
    rw [contribution_of_task ht, houtcome]
    exact bytesLanded_spared (landedAtEnd_of_outcome (h.tasks t task ht) houtcome) hv
  · intro t task ht hopened hnot
    rw [contribution_of_task ht, hopened]
    exact bytesLanded_unopened hnot _
  · intro t task ht hmode
    rcases unopened_or_partsOf (h.tasks t task ht) with hunopened | ⟨-, -, plan, hplan, -⟩
    · exact hunopened.1
    · cases hmode.symm.trans hplan.mode
  · intro t task ht hopened
    rw [contribution_of_task ht, hopened]
    refine ⟨rfl, ?_⟩
    rcases unopened_or_partsOf (h.tasks t task ht) with hunopened | ⟨-, hup⟩
    · cases hopened.symm.trans hunopened.1
    · exact hup
  · intro hsum
    have hbytes := sum_range_le job.tasks (job.contribution events) hle
    have hword : ∀ n ≤ (job.tasks.map fun task => task.object.size).sum, n % Nat.pow 2 64 = n := by
      intro n hn
      exact Nat.mod_eq_of_lt (Nat.lt_of_le_of_lt hn hsum)
    have hcompleted : job.snapshot.completedBytes =
        ∑ t ∈ Finset.range job.tasks.length, job.contribution events t := by
      rw [← h.landed]
      exact hword _ (h.landed.trans_le hbytes)
    have htotal : job.snapshot.totalBytes = (job.tasks.map fun task => task.object.size).sum := by
      rw [← h.total]
      exact hword _ (Nat.le_of_eq h.total)
    exact ⟨hcompleted, htotal, by rw [hcompleted, htotal]; exact hbytes⟩

/-- Whatever the replies are and in whatever order things happen, the bytes that a job has landed
are the sum of what its tasks have landed: the size of each migrated object, the uploaded parts of
each copy in parts, and nothing else. So no more bytes are completed than there are. -/
theorem byte_accounting (hnew : new? setup results = .ok start) (h : Path start events job) :
    BytesAccounted setup events job :=
  (h.ledger hnew).bytesAccounted

/-- The events of some actions one after the other, if the job allows them. -/
def trace? (job : Job) : List JobAction → Option (List Event × Job)
  | [] => some ([], job)
  | action :: rest =>
      (job.act action).bind fun u =>
        (u.job.trace? rest).map fun (events, last) => (⟨job, action⟩ :: events, last)

theorem Path.trace {before : List Event} {actions : List JobAction} (h : Path start before job)
    (htrace : job.trace? actions = some (events, next)) : Path start (before ++ events) next := by
  induction actions generalizing before events job with
  | nil =>
    cases htrace
    rw [List.append_nil]
    exact h
  | cons action rest ih =>
    obtain ⟨u, hact, hrest⟩ := Option.bind_eq_some_iff.mp htrace
    obtain ⟨⟨tail, last⟩, htail, heq⟩ := Option.map_eq_some_iff.mp hrest
    cases heq
    rw [List.append_cons]
    exact ih (h.step hact) htail

/-- A job that copies all but the smallest objects in parts. -/
def partingJob : Job :=
  { setup :=
      { source := { bucket := "from" }
        target := { bucket := "to" }
        options := { multipartThreshold := mib, partSize := mib, forceOverwrite := true } }
    freeSlots := 10 }

/-- Of the three parts of an object, the second is uploaded and the first is not. -/
def failingPart : List JobAction :=
  [.openFeed none, .nextPage 0, .listed 0 (.ok (.page ⟨[⟨"key", 2 * mib + 1⟩], none, false⟩)),
    .grant 0, .start 0, .reply 0 .whole (.ok (.metadata (some ⟨2 * mib + 1, none, none, none⟩))),
    .reply 0 .whole (.ok (.uploadId "id")), .startPart 0, .startPart 0,
    .reply 0 (.part 2) (.ok (.content .empty)), .reply 0 (.part 1) (.ok (.content .empty)),
    .reply 0 (.part 2) (.ok (.etag (some "etag"))), .reply 0 (.part 1) (.error (.other "")),
    .startPart 0, .reply 0 .whole (.ok .done), .release 0, .account 0]

/-- The object fails, and the part that was uploaded has landed. -/
theorem byte_accounting_failed_part :
    ∃ events job, Path partingJob events job ∧ job.number .failed = 1 ∧
      job.progress.landedBytes = mib ∧ byteCount (Event.uploaded events 0) = mib ∧
      BytesAccounted partingJob.setup events job := by
  have htrace : (partingJob.trace? failingPart).map (fun trace =>
      (trace.2.number .failed, trace.2.progress.landedBytes,
        byteCount (Event.uploaded trace.1 0))) = some (1, mib, mib) := by
    decide +kernel
  obtain ⟨⟨events, job⟩, htrace, heq⟩ := Option.map_eq_some_iff.mp htrace
  simp only [Prod.mk.injEq] at heq
  obtain ⟨hfailed, hlanded, huploaded⟩ := heq
  have hpath : Path partingJob events job := Path.start.trace htrace
  have hnew : new? partingJob.setup none = .ok partingJob := rfl
  exact ⟨events, job, hpath, hfailed, hlanded, huploaded, byte_accounting hnew hpath⟩

end Job

end BucketMigration
