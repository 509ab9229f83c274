import BucketMigration.Proofs.World.Sweep

/-!
# The times of writes

A store stamps whatever is written with the time. So when no object is written that its source is
younger than, the target is as young as the source afterwards. A trace keeps the events of a run, by
which one can tell when its objects were written.
-/

namespace BucketMigration

namespace Store

variable {s : Store}

theorem lastModified_completeUpload {now : Int} {bucket key id : String} {parts : List CompletedPart}
    {t : Store} (h : s.completeUpload now bucket key id parts = (.ok (), t)) :
    ∃ object, t.object? bucket key = some object ∧ object.lastModified = now := by
  unfold completeUpload at h
  split at h
  · cases h
  · split at h
    · cases h
    · split at h
      · cases h
      · split at h
        · cases h
        · cases h
          exact ⟨_, (object?_write ..).trans (if_pos ⟨rfl, rfl⟩), rfl⟩

theorem lastModified_of_write? {call : Call} {now : Int} {t : Nat} {S : Stores} {write : Write}
    (hstore : S.get call.side = (s.finish now call.request).2)
    (h : call.write? t (s.finish now call.request).1 S = some write) :
    write.object.lastModified = now := by
  obtain ⟨side, request⟩ := call
  dsimp only at hstore h
  cases request with
  | put bucket key data =>
    rw [finish_put] at hstore h
    simp only [Call.write?, hstore] at h
    obtain ⟨object, hobject, rfl⟩ := Option.map_eq_some_iff.mp h
    rw [show (s.insert bucket key data now).land.object? =
      (s.insert bucket key data now).object? from object?_congr rfl, object?_insert,
      if_pos ⟨rfl, rfl⟩] at hobject
    cases hobject
    rfl
  | completeUpload bucket key id parts =>
    have hfinish : s.finish now (.completeUpload bucket key id parts) =
        ((s.completeUpload now bucket key id parts).1.map fun _ => .done,
          (s.completeUpload now bucket key id parts).2) := rfl
    rw [hfinish] at hstore h
    cases hcomplete : s.completeUpload now bucket key id parts with
    | mk result last =>
      rw [hcomplete] at hstore h
      cases result with
      | error e => cases h
      | ok =>
        obtain ⟨object, hobject, hstamp⟩ := lastModified_completeUpload hcomplete
        simp only [Call.write?, Except.map, hstore, hobject, Option.map_some,
          Option.some.injEq] at h
        subst h
        exact hstamp
  | list | head | get | createUpload | uploadPart | abortUpload => cases h

end Store

namespace World

namespace Event

/-- What this writes has no source that is younger than the time. -/
def Timely (e : Event) : Prop :=
  ∀ write task source, e.write? = some write → e.before.job.tasks[write.task]? = some task →
    (e.before.stores.get .source).object? e.before.job.setup.source.bucket task.object.key =
      some source →
    source.lastModified ≤ e.before.now

theorem lastModified_of_write? {e : Event} (hact : e.before.act e.action = some e.after)
    {write : Write} (h : e.write? = some write) : write.object.lastModified = e.before.now := by
  obtain ⟨w, action, t⟩ := e
  dsimp only at hact ⊢
  unfold write? at h
  dsimp only at h
  split at h
  · rename_i n lane
    split at h
    · rename_i call reply hcall hanswered
      cases act_deed hact with
      | @finish _ call' hcall' hentered =>
        rw [hcall] at hcall'
        cases hcall'
        have hreply : (w.finish (.task n lane) call).lanes n lane =
            some (.answered ((w.stores.get call.side).finish w.now call.request).1) := by
          rw [World.finish, lanes_setCall_self, Function.update_self]
        rw [hreply] at hanswered
        cases hanswered
        exact Store.lastModified_of_write? (Stores.get_set ..) h
      | aside haction => cases haction
    · cases h
  · cases h

theorem exists_task_of_write? {e : Event} {write : Write} (h : e.write? = some write) :
    ∃ task, e.before.job.tasks[write.task]? = some task := by
  unfold write? at h
  split at h
  · rename_i n lane _
    split at h
    · rename_i call reply hcall _
      obtain ⟨object, c, htask, -⟩ := exists_running hcall
      have hn : write.task = n := by
        unfold Call.write? at h
        split at h
        · obtain ⟨stored, -, rfl⟩ := Option.map_eq_some_iff.mp h
          rfl
        · obtain ⟨stored, -, rfl⟩ := Option.map_eq_some_iff.mp h
          rfl
        · cases h
      exact ⟨_, hn ▸ htask⟩
    · cases h
  · cases h

end Event

theorem Deed.now_le {w : World} {action : WorldAction} {t : WorldTransition}
    (h : w.Deed action t) (haside : action.isAside = false) : w.now ≤ t.world.now := by
  cases h with
  | enter =>
    rw [enter_eq]
    exact Int.le_refl _
  | pass seconds => exact Int.le_add_of_nonneg_right (Int.natCast_nonneg seconds)
  | aside haction =>
    rw [haction] at haside
    cases haside
  | _ => exact Int.le_refl _

/-- What happens one after the other while feed 0 is run. -/
inductive Watch.Trace (x : Watch) : List Event → Watch → Prop
  | start : Watch.Trace x [] x
  | step {events : List Event} {y : Watch} {action : WorldAction} {t : WorldTransition}
      (h : Watch.Trace x events y) (hwaits : y.returned = none)
      (hact : y.world.act action = some t)
      (hrun : (⟨y.world, action, t⟩ : Event).isOfRun = true) :
      Watch.Trace x (events ++ [⟨y.world, action, t⟩])
        ⟨t.world, if action.feed? = some 0 then t.returned else none⟩

/-- Everything that was written is as young as the source of its task. -/
def Stamped (start : World) (events : List Event) (w : World) : Prop :=
  ∀ write ∈ Event.writes events, ∃ d source,
    (w.job.tasks[write.task]?).map Task.object = some d ∧
      (start.stores.get .source).object? start.job.setup.source.bucket d.key = some source ∧
      source.lastModified ≤ write.object.lastModified

section Trace

variable {start : World} {x y : Watch} {events : List Event}

theorem Watch.Trace.reach (h : Watch.Trace x events y) : Watch.Reach x y := by
  induction h with
  | start => exact .refl
  | step _ hwaits hact hrun ih => exact ih.tail ⟨_, .step hwaits hact hrun⟩

theorem Watch.Reach.exists_trace (h : Watch.Reach x y) : ∃ events, Watch.Trace x events y := by
  induction h with
  | refl => exact ⟨[], .start⟩
  | tail _ hstep ih =>
    obtain ⟨events, htrace⟩ := ih
    obtain ⟨action, hstep⟩ := hstep
    obtain ⟨hwaits, hact, hrun⟩ := hstep
    exact ⟨_, htrace.step hwaits hact hrun⟩

theorem Watch.Trace.now_le (h : Watch.Trace x events y) : x.world.now ≤ y.world.now := by
  induction h with
  | start => exact Int.le_refl _
  | step _ _ hact hrun ih =>
    exact Int.le_trans ih
      ((act_deed hact).now_le (Event.isAside_eq_false (isOfRun_isServed hrun)))

variable (hstart : Fresh start) (hbegins : Begins start x)
include hstart hbegins

theorem Watch.Trace.tracked (h : Watch.Trace x events y) :
    ∃ trails, Tracked start.stores start.job.setup True True trails (Event.writes events) y.world := by
  induction h with
  | start =>
    obtain ⟨rfl, -⟩ := hstart.eq_running hbegins
    exact ⟨_, hstart.tracked_running⟩
  | step htrace hwaits hact hrun ih =>
    obtain ⟨trails, htracked⟩ := ih
    obtain ⟨k, feed, hsweep⟩ := htrace.reach.sweep hstart hbegins
    obtain ⟨trails', hnext⟩ := htracked.step hact (isOfRun_isServed hrun) fun _ =>
      hsweep.driven.keysApart htracked.setup_eq
    rw [← Event.writes_snoc] at hnext
    exact ⟨trails', hnext⟩

theorem Watch.Trace.stamped (h : Watch.Trace x events y) (htimely : ∀ e ∈ events, e.Timely) :
    Stamped start events y.world := by
  induction h with
  | start => exact nofun
  | @step events y action t htrace hwaits hact hrun ih =>
    have hold := ih fun e he => htimely e (List.mem_append_left _ he)
    have hlast := htimely _ (List.mem_append_right _ List.mem_cons_self)
    obtain ⟨trails, htracked⟩ := htrace.tracked hstart hbegins
    obtain ⟨k, feed, hsweep⟩ := htrace.reach.sweep hstart hbegins
    intro write hwrite
    have hkeeps : ∀ d, (y.world.job.tasks[write.task]?).map Task.object = some d →
        (t.world.job.tasks[write.task]?).map Task.object = some d := by
      intro d hd
      rcases (act_deed hact).job_cases (Event.isAside_eq_false (isOfRun_isServed hrun)) with
        hsame | hmoved
      · rw [hsame]
        exact hd
      · exact hmoved.object_eq hd
    rw [Event.writes_snoc, List.mem_append] at hwrite
    rcases hwrite with hbefore | hnew
    · obtain ⟨d, source, hd, hsource⟩ := hold write hbefore
      exact ⟨d, source, hkeeps d hd, hsource⟩
    · rw [Option.mem_toList] at hnew
      obtain ⟨task, htask⟩ := Event.exists_task_of_write? hnew
      obtain ⟨source, hsource, -⟩ :=
        (Store.mem_scope_iff.mp (hsweep.driven.mem_objects (List.mem_of_getElem? htask))).2
      refine ⟨task.object, source, hkeeps _ (congrArg (Option.map Task.object) htask), hsource, ?_⟩
      rw [Event.lastModified_of_write? hact hnew]
      refine hlast write task source hnew htask ?_
      rw [show y.world.job.setup = start.job.setup from htracked.setup_eq,
        htracked.ledger.objects.source]
      exact hsource

theorem Watch.Trace.timely (h : Watch.Trace x events y)
    (hold : ∀ key source, (start.stores.get .source).object? start.job.setup.source.bucket key =
      some source → source.lastModified ≤ start.now) : ∀ e ∈ events, e.Timely := by
  induction h with
  | start => exact List.forall_mem_nil _
  | step htrace hwaits hact hrun ih =>
    intro e he
    rcases List.mem_append.mp he with hbefore | hlast
    · exact ih e hbefore
    · cases List.mem_singleton.mp hlast
      obtain ⟨trails, htracked⟩ := htrace.tracked hstart hbegins
      intro write task source hwrite htask hsource
      dsimp only at hsource ⊢
      rw [htracked.setup_eq, htracked.ledger.objects.source] at hsource
      refine Int.le_trans (hold _ _ hsource) ?_
      have hnow := htrace.now_le
      obtain ⟨rfl, -⟩ := hstart.eq_running hbegins
      exact hnow

end Trace

end World

end BucketMigration
