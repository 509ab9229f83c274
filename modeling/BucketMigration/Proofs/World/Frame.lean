import BucketMigration.Proofs.Job.Accounting
import BucketMigration.Proofs.World.Tracked

/-!
# What a job leaves in the stores

When all tasks of a job are over, what they have left is read off their verdicts: the job has touched
nothing but the target keys of the tasks that migrated, and where an upload could not be aborted, it
is still open.
-/

namespace BucketMigration

def Task.HasMigrated (task : Task) : Prop :=
  ∃ mode bytes, task.stage.outcome? = some (.ok (.migrated mode bytes))

/-- The upload that a task has left open because it could not be aborted. -/
def Task.leftUpload? (task : Task) : Option String :=
  match task.stage.outcome? with
  | some (.error e) => e.leftUpload?
  | _ => none

/-- A migrated task stores its object as a whole: all bytes of the source in one piece, or in parts as
many as were listed. -/
def Task.HasStored (S₀ : Stores) (setup : Setup) (task : Task) (object : StoredObject) : Prop :=
  ∃ source, (S₀.get .source).object? setup.source.bucket task.object.key = some source ∧
    (task.stage.outcome? = some (.ok (.migrated .direct task.object.size)) ∧
        object.data = source.data ∨
      task.stage.outcome? = some (.ok (.migrated .multipart task.object.size)) ∧
        task.object.size ≤ source.data.size ∧
        object.data = source.data.extract 0 task.object.size)

theorem Task.HasStored.hasMigrated {S₀ : Stores} {setup : Setup} {task : Task}
    {object : StoredObject} (h : task.HasStored S₀ setup object) : task.HasMigrated := by
  obtain ⟨source, -, ⟨houtcome, -⟩ | ⟨houtcome, -⟩⟩ := h
  · exact ⟨_, _, houtcome⟩
  · exact ⟨_, _, houtcome⟩

namespace World

section Over

variable {S₀ : Stores} {setup : Setup} {calm alone : Prop} {trails : Nat → Trail}
  {writes : List Write} {w : World} {t : Nat} {task : Task}
  (h : Tracked S₀ setup calm alone trails writes w)
  (hover : ∀ task ∈ w.job.tasks, task.stage.isOver = true)
include h hover

theorem Tracked.over (ht : w.job.tasks[t]? = some task) :
    (∃ v, task.stage.outcome? = some v ∧ Final S₀ setup calm task.object v (trails t)) ∨
      task.stage.outcome? = none ∧ trails t = {} := by
  have hat := h.task t task ht
  have hstage := hover task (List.mem_of_getElem? ht)
  cases hs : task.stage with
  | finished v =>
    rw [hs] at hat
    exact .inl ⟨v, rfl, (hat.judged_inv rfl).2⟩
  | panicked reason =>
    rw [hs] at hat
    generalize htrail : trails t = trail at hat
    cases hat with
    | panicked => exact .inr ⟨rfl, rfl⟩
    | judged hverdict => cases hverdict
  | queued | granted | running | released | publishing | placed =>
    rw [hs] at hstage
    cases hstage

theorem Tracked.stores_of_written {x : String × StoredObject} (hx : (trails t).written = some x) :
    ∃ task, w.job.tasks[t]? = some task ∧ x.1 = setup.targetKey task.object.key ∧
      task.HasStored S₀ setup x.2 := by
  cases ht : w.job.tasks[t]? with
  | none =>
    rw [(h.rest t ht).1] at hx
    cases hx
  | some task =>
    refine ⟨task, rfl, (h.task t task ht).written_key hx, ?_⟩
    rcases h.over hover ht with ⟨v, houtcome, hfinal⟩ | ⟨-, htrail⟩
    · generalize trails t = trail at hfinal hx
      cases hfinal with
      | direct hsource hdata =>
        cases hx
        exact ⟨_, hsource, .inl ⟨houtcome, hdata⟩⟩
      | inParts hsource hsize hdata =>
        cases hx
        exact ⟨_, hsource, .inr ⟨houtcome, hsize, hdata⟩⟩
      | current | failed | left => cases hx
    · rw [htrail] at hx
      cases hx

theorem Tracked.exists_written (ht : w.job.tasks[t]? = some task) (hmigrated : task.HasMigrated) :
    ∃ object, (trails t).written = some (setup.targetKey task.object.key, object) := by
  obtain ⟨mode, bytes, houtcome⟩ := hmigrated
  rcases h.over hover ht with ⟨v, houtcome', hfinal⟩ | ⟨hnone, -⟩
  · rw [houtcome] at houtcome'
    cases houtcome'
    generalize trails t = trail at hfinal
    cases hfinal with
    | direct | inParts => exact ⟨_, rfl⟩
  · rw [houtcome] at hnone
    cases hnone

theorem Tracked.upload_iff (ht : w.job.tasks[t]? = some task) (id : String) :
    (∃ session, (trails t).upload = some (id, session)) ↔ task.leftUpload? = some id := by
  unfold Task.leftUpload?
  rcases h.over hover ht with ⟨v, houtcome, hfinal⟩ | ⟨hnone, htrail⟩
  · rw [houtcome]
    generalize trails t = trail at hfinal
    cases hfinal with
    | failed hleft => simp [hleft]
    | left => simp [MigrationError.leftUpload?]
    | direct | inParts | current => simp
  · rw [hnone, htrail]
    simp

theorem Tracked.upload_eq (ht : w.job.tasks[t]? = some task) {id : String}
    (hleft : task.leftUpload? = some id) :
    ∃ parts, (trails t).upload = some (id, ownUpload setup task.object parts) := by
  obtain ⟨session, hsession⟩ := (h.upload_iff hover ht id).mpr hleft
  refine ⟨session.parts, ?_⟩
  rcases h.over hover ht with ⟨v, -, hfinal⟩ | ⟨-, htrail⟩
  · generalize trails t = trail at hfinal hsession ⊢
    cases hfinal with
    | left =>
      cases hsession
      rfl
    | direct | inParts | current | failed => cases hsession
  · rw [htrail] at hsession
    cases hsession

end Over

/-- What a job leaves in the stores: the source as it was, of the target only the keys of migrated
tasks, each with what was written last and as a whole, and an upload for each failed abort. -/
structure Framed (start : World) (events : List Event) (w : World) : Prop where
  source : ∀ key, (w.stores.get .source).object? start.job.setup.source.bucket key =
    (start.stores.get .source).object? start.job.setup.source.bucket key
  untouched : ∀ key, (∀ task ∈ w.job.tasks, task.HasMigrated →
      start.job.setup.targetKey task.object.key ≠ key) →
    (w.stores.get .target).object? start.job.setup.target.bucket key =
      (start.stores.get .target).object? start.job.setup.target.bucket key
  written : ∀ key, (∃ task ∈ w.job.tasks, task.HasMigrated ∧
      start.job.setup.targetKey task.object.key = key) →
    ∃ e task, latest? (Event.writes events) key = some e ∧
      (w.stores.get .target).object? start.job.setup.target.bucket key = some e.object ∧
      w.job.tasks[e.task]? = some task ∧ task.HasMigrated ∧
      start.job.setup.targetKey task.object.key = key ∧
      task.HasStored start.stores start.job.setup e.object
  once : ((Event.writes events).map Write.task).Nodup ∧
    ∀ t, t ∈ (Event.writes events).map Write.task ↔
      ∃ task, w.job.tasks[t]? = some task ∧ task.HasMigrated
  kept : ∀ (id : String) session, (start.stores.get .target).uploads[id]? = some session →
    (w.stores.get .target).uploads[id]? = some session
  left : ∀ task ∈ w.job.tasks, ∀ id, task.leftUpload? = some id →
    id ∉ (start.stores.get .target).uploads ∧ ∃ parts, (w.stores.get .target).uploads[id]? =
      some (ownUpload start.job.setup task.object parts)
  uploads : ∀ id, id ∈ (w.stores.get .target).uploads ↔
    id ∈ (start.stores.get .target).uploads ∨ id ∈ w.job.tasks.filterMap Task.leftUpload?
  distinct : (w.job.tasks.filterMap Task.leftUpload?).Nodup

section Over

variable {start w : World} {calm alone : Prop} {trails : Nat → Trail} {events : List Event}
  (h : Tracked start.stores start.job.setup calm alone trails (Event.writes events) w)
  (hover : ∀ task ∈ w.job.tasks, task.stage.isOver = true)
include h hover

theorem Tracked.mem_writes_iff (t : Nat) :
    t ∈ (Event.writes events).map Write.task ↔
      ∃ task, w.job.tasks[t]? = some task ∧ task.HasMigrated := by
  rw [List.mem_map]
  constructor
  · rintro ⟨e, he, rfl⟩
    have hwritten := (h.ledger.objects.mem_writes e.task e.key e.object).mp he
    obtain ⟨task, ht, -, hstores⟩ := h.stores_of_written hover hwritten
    exact ⟨task, ht, hstores.hasMigrated⟩
  · rintro ⟨task, ht, hmigrated⟩
    obtain ⟨object, hwritten⟩ := h.exists_written hover ht hmigrated
    exact ⟨_, (h.ledger.objects.mem_writes t _ object).mpr hwritten, rfl⟩

theorem Tracked.latest {key : String} {e : Write} (he : latest? (Event.writes events) key = some e) :
    ∃ task, w.job.tasks[e.task]? = some task ∧ start.job.setup.targetKey task.object.key = key ∧
      task.HasStored start.stores start.job.setup e.object := by
  obtain ⟨hmem, rfl⟩ := latest?_eq_some he
  have hwritten := (h.ledger.objects.mem_writes e.task e.key e.object).mp hmem
  obtain ⟨task, ht, hkey, hstores⟩ := h.stores_of_written hover hwritten
  exact ⟨task, ht, hkey.symm, hstores⟩

theorem Tracked.framed : Framed start events w where
  source := h.ledger.objects.source
  untouched := by
    intro key hnot
    rw [h.ledger.objects.target]
    cases hlast : latest? (Event.writes events) key with
    | none => rfl
    | some e =>
      obtain ⟨task, ht, hkey, hstores⟩ := h.latest hover hlast
      exact absurd hkey (hnot task (List.mem_of_getElem? ht) hstores.hasMigrated)
  written := by
    rintro key ⟨task, htask, hmigrated, rfl⟩
    obtain ⟨t, ht⟩ := List.mem_iff_getElem?.mp htask
    obtain ⟨object, hwritten⟩ := h.exists_written hover ht hmigrated
    obtain ⟨e, he⟩ := exists_latest? ((h.ledger.objects.mem_writes t _ object).mpr hwritten)
    obtain ⟨last, hlast, hkey, hstores⟩ := h.latest hover he
    refine ⟨e, last, he, ?_, hlast, hstores.hasMigrated, hkey, hstores⟩
    rw [h.ledger.objects.target, he]
    rfl
  once := ⟨h.ledger.objects.nodup, h.mem_writes_iff hover⟩
  kept := by
    intro id session hopen
    rw [h.ledger.uploads.rest, hopen]
    intro t session' hheld
    have hnone := (h.ledger.uploads.open_held t id session' hheld).2
    rw [hopen] at hnone
    cases hnone
  left := by
    intro task htask id hleft
    obtain ⟨t, ht⟩ := List.mem_iff_getElem?.mp htask
    obtain ⟨parts, hupload⟩ := h.upload_eq hover ht hleft
    obtain ⟨hopen, hnone⟩ := h.ledger.uploads.open_held t id _ hupload
    refine ⟨?_, parts, hopen⟩
    rw [Std.TreeMap.mem_iff_isSome_getElem?, hnone]
    exact Bool.false_ne_true
  uploads := by
    intro id
    rw [List.mem_filterMap]
    by_cases hheld : ∃ t session, (trails t).upload = some (id, session)
    · obtain ⟨t, session, hupload⟩ := hheld
      have hopen := (h.ledger.uploads.open_held t id session hupload).1
      rw [Std.TreeMap.mem_iff_isSome_getElem?, hopen]
      refine ⟨fun _ => .inr ?_, fun _ => rfl⟩
      cases ht : w.job.tasks[t]? with
      | none =>
        rw [(h.rest t ht).1] at hupload
        cases hupload
      | some task =>
        exact ⟨task, List.mem_of_getElem? ht, (h.upload_iff hover ht id).mp ⟨session, hupload⟩⟩
    · have hrest := h.ledger.uploads.rest id fun t session hupload => hheld ⟨t, session, hupload⟩
      rw [Std.TreeMap.mem_iff_isSome_getElem?, hrest, ← Std.TreeMap.mem_iff_isSome_getElem?]
      refine ⟨.inl, fun hor => hor.elim (fun hold => hold) ?_⟩
      rintro ⟨task, htask, hleft⟩
      obtain ⟨t, ht⟩ := List.mem_iff_getElem?.mp htask
      obtain ⟨session, hupload⟩ := (h.upload_iff hover ht id).mpr hleft
      exact absurd ⟨t, session, hupload⟩ hheld
  distinct := by
    rw [List.Nodup, List.pairwise_filterMap, List.pairwise_iff_getElem]
    intro t u ht hu hlt id hid id' hid' heq
    subst heq
    have hget := List.getElem?_eq_getElem ht
    have hget' := List.getElem?_eq_getElem hu
    obtain ⟨session, hheld⟩ := (h.upload_iff hover hget id).mpr hid
    obtain ⟨session', hheld'⟩ := (h.upload_iff hover hget' id).mpr hid'
    exact Nat.ne_of_lt hlt (h.ledger.uploads.alone t u id session session' hheld hheld')

end Over

/-- A job is atomic for each object, and touches nothing else. Whatever faults the stores have,
whatever their latency, however feeds and batches dispatch and however tasks and parts take turns: once
every task is over, the source is as it was, a target key is as it was unless a task to it has
migrated, then it holds the whole object that was put or completed last, and one upload is left for
each abort that failed. -/
theorem job_framed {start w : World} {events : List Event} (htasks : start.job.tasks = [])
    (hcalls : start.calls = []) (hsolo : start.solo = none)
    (hapart : start.stores.Apart start.job.setup)
    (hfresh : (start.stores.get .target).FreshIds) (hpath : Path start events w)
    (hserved : ∀ e ∈ events, e.isServed = true) (hover : ∀ task ∈ w.job.tasks, task.stage.isOver = true) :
    Framed start events w := by
  have hstart : Tracked start.stores start.job.setup False False (fun _ => {}) [] start :=
    tracked_start htasks hcalls hsolo hapart hfresh False.elim
  obtain ⟨trails, hw⟩ := hpath.tracked hstart hserved False.elim
  exact hw.framed hover

/-- A world with one object to migrate, whose target takes no part and aborts no upload. -/
def faultyTarget : World where
  job :=
    { setup :=
        { source := { bucket := "from" }
          target := { bucket := "to" }
          options := { multipartThreshold := 1, forceOverwrite := true } }
      freeSlots := 10
      feeds := [{}] }
  stores := .separate (({} : Store).write "from" "key" ⟨⟨#[1, 2, 3]⟩, 0, "", none⟩)
    { faults := [{ operation := .uploadPart }, { operation := .abortUpload }] }
  now := 0

/-- The object is listed, its upload is opened, and neither its part is taken nor the upload aborted. -/
def faultyCourse : List WorldAction :=
  [.job (.nextPage 0), .enter (.feed 0), .finish (.feed 0), .deliver (.feed 0),
    .job (.grant 0), .job (.start 0),
    .enter (.task 0 .whole), .finish (.task 0 .whole), .deliver (.task 0 .whole),
    .enter (.task 0 .whole), .finish (.task 0 .whole), .deliver (.task 0 .whole),
    .job (.startPart 0),
    .enter (.task 0 (.part 1)), .finish (.task 0 (.part 1)), .deliver (.task 0 (.part 1)),
    .enter (.task 0 (.part 1)), .deliver (.task 0 (.part 1)),
    .enter (.task 0 .whole), .deliver (.task 0 .whole),
    .job (.release 0), .job (.account 0)]

/-- The upload is left open, and nothing else has changed. -/
theorem job_framed_faulty_target :
    ∃ events w, Path faultyTarget events w ∧
      w.job.tasks.filterMap Task.leftUpload? = ["upload-0"] ∧ Framed faultyTarget events w := by
  have hrun : (faultyTarget.run? faultyCourse).map (fun run =>
      (run.1.all Event.isServed, run.2.job.tasks.all fun task => task.stage.isOver,
        run.2.job.tasks.filterMap Task.leftUpload?)) = some (true, true, ["upload-0"]) := by
    decide +kernel
  obtain ⟨⟨events, w⟩, hrun, heq⟩ := Option.map_eq_some_iff.mp hrun
  simp only [Prod.mk.injEq, List.all_eq_true] at heq
  obtain ⟨hserved, hover, hleft⟩ := heq
  have hpath := path_of_run? hrun
  exact ⟨events, w, hpath, hleft, job_framed rfl rfl rfl (by rintro _ ⟨⟩) (Store.freshIds_of_uploads_empty rfl)
    hpath hserved hover⟩

end World

end BucketMigration
