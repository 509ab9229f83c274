import BucketMigration.Proofs.Inevitable
import BucketMigration.Proofs.Job.Turns
import Mathlib.Data.Prod.Lex

/-!
# Waiting for the tasks of a feed

A call to a feed is watched from its beginning until it returns, while everybody else goes on. In a
halted job a call that waits for the tasks of the feed returns the error of the halt slot, and it
has joined all of them by then. It does return as long as the tasks and the call itself go on from
time to time. After the halt only the pages that have been asked for before may still spawn tasks, so
what is left to do is measured by their number first.
-/

namespace BucketMigration

namespace Job

def listings (job : Job) : Nat :=
  job.feeds.countP fun feed => feed.activity.isListing

def unjoined (job : Job) (i : Nat) : Nat :=
  ((job.feeds[i]?).map fun feed => feed.tasks.length).getD 0

def IsOver (job : Job) (t : Nat) : Prop :=
  ∃ stage, job.stage? t = some stage ∧ stage.isOver = true

/-- A job, and what a call to one of its feeds has returned. -/
structure Watch where
  job : Job
  returned : Option Return := none

/-- An action while a call to feed `i` is watched. The feed is left to the call until it returns. -/
inductive Watch.Step (i : Nat) (action : JobAction) : Watch → Watch → Prop
  | other {w : Watch} {t : Transition} (hact : w.job.act action = some t)
      (hother : action.feed? ≠ some i) : Watch.Step i action w ⟨t.job, w.returned⟩
  | own {w : Watch} {t : Transition} (hact : w.job.act action = some t)
      (hown : action.feed? = some i) (hwaits : w.returned = none) :
      Watch.Step i action w ⟨t.job, t.returned⟩

def Watch.Reach (i : Nat) : Watch → Watch → Prop :=
  Relation.ReflTransGen fun w x => ∃ action, Watch.Step i action w x

/-- After whatever else, a task or the call itself goes on. -/
def Watch.Round (i : Nat) (w x : Watch) : Prop :=
  ∃ m action, Watch.Reach i w m ∧ Watch.Step i action m x ∧
    (action.task? ≠ none ∨ action.feed? = some i)

variable {job next start : Job} {setup : Setup} {results : Option ResultQueue} {action : JobAction}
  {i : Nat} {e : MigrationError}

theorem haltWith_of_halt (h : job.halt = some e) (error : MigrationError) :
    job.haltWith error = (job, []) := by
  simp only [haltWith, h]

theorem listings_setFeed {feed feed' : Feed} (hi : job.feeds[i]? = some feed) :
    (job.setFeed i feed').listings + (if feed.activity.isListing then 1 else 0) =
      job.listings + if feed'.activity.isListing then 1 else 0 := by
  obtain ⟨hlt, hget⟩ := List.getElem?_eq_some_iff.mp hi
  have hpos : feed.activity.isListing = true → 0 < job.listings := by
    intro hlisting
    exact List.countP_pos_iff.mpr ⟨feed, List.mem_of_getElem? hi, hlisting⟩
  rw [listings, setFeed, List.countP_set hlt, hget]
  unfold listings at hpos ⊢
  cases hlisting : feed.activity.isListing with
  | false => simp
  | true =>
    have := hpos hlisting
    simp only [if_true]
    omega

theorem toDo_eq_of_tasks (htasks : next.tasks = job.tasks) (hsetup : next.setup = job.setup) :
    next.toDo = job.toDo := by
  rw [toDo, toDo, htasks, hsetup]

theorem sum_map_setStage (f : Task → Nat) {t : Nat} {object : ObjectDescriptor}
    {stage : TaskStage} (ht : job.tasks[t]? = some ⟨object, stage⟩) (stage' : TaskStage) :
    ((job.setStage t stage').tasks.map f).sum + f ⟨object, stage⟩ =
      (job.tasks.map f).sum + f ⟨object, stage'⟩ := by
  obtain ⟨before, after, hsplit, hset⟩ := exists_tasks_setStage ht
  rw [hset, hsplit]
  simp only [List.map_append, List.map_cons, List.sum_append, List.sum_cons]
  omega

theorem toDo_lt_of_move {t : Nat} {object : ObjectDescriptor} {stage stage' : TaskStage}
    {course : Course} (ht : job.tasks[t]? = some ⟨object, stage⟩)
    (hmove : TaskMove job object stage stage' course)
    (horderly : stage.Orderly job.results.isSome)
    (htasks : next.tasks = (job.setStage t stage').tasks) (hsetup : next.setup = job.setup) :
    next.toDo < job.toDo := by
  have hlt := hmove.toDo_lt horderly
  have hsum : _ + stage.toDo job.setup = _ + stage'.toDo job.setup :=
    sum_map_setStage (fun task => task.stage.toDo job.setup) ht stage'
  rw [toDo, toDo, htasks, hsetup]
  omega

def Valid (job : Job) : Prop :=
  ∀ feed ∈ job.feeds, ∀ t ∈ feed.tasks, t < job.tasks.length

theorem Work.length_le {base : Job} (h : job.Work base) : job.tasks.length ≤ base.tasks.length := by
  cases h with
  | still => exact Nat.le_refl _
  | halt => rw [tasks_haltWith]
  | spawn =>
    rw [length_tasks_spawn]
    exact Nat.le_add_right ..

theorem Deed.valid (h : job.Deed action next) (hjob : job.Valid) : next.Valid := by
  cases h with
  | task _ _ _ htasks hframe =>
    intro feed hfeed t ht
    rw [hframe.feeds] at hfeed
    rw [htasks, length_tasks_setStage]
    exact hjob feed hfeed t ht
  | @feed i feed base feed' _ hi hmove hnext =>
    rw [hnext]
    have hlength := hmove.work.length_le
    intro other hother t ht
    rcases List.mem_or_eq_of_mem_set hother with hold | rfl
    · rw [hmove.work.drivers.1] at hold
      exact Nat.lt_of_lt_of_le (hjob other hold t ht) hlength
    · rcases hmove.tasks t ht with hold | hnew
      · exact Nat.lt_of_lt_of_le (hjob feed (List.mem_of_getElem? hi) t hold) hlength
      · exact hnew
  | other opened _ _ hwork _ htasks _ _ hfeeds _ =>
    intro feed hfeed t ht
    rw [hfeeds, List.mem_append] at hfeed
    rcases hfeed with hold | hnew
    · rw [htasks]
      exact Nat.lt_of_lt_of_le (hjob feed hold t ht) hwork.length_le
    · obtain ⟨token, -, rfl⟩ := List.mem_map.mp hnew
      cases ht

theorem Reach.valid (hnew : new? setup results = .ok start) (h : Reach start job) : job.Valid := by
  apply h.invariant hnew
  · intro feed hfeed
    cases hfeed
  · rintro job - - ⟨action, t, hact, rfl⟩ hjob
    exact (act_deed hact).valid hjob

theorem task?_eq_none_of_feed? (h : action.feed? = some i) : action.task? = none := by
  cases action <;> cases h <;> rfl

/-- In a halted job no action adds to what is left to do, unless a page comes that was asked for. -/
theorem Deed.left (h : job.Deed action next) (hhalted : job.halt ≠ none)
    (horderly : ∀ task ∈ job.tasks, task.stage.Orderly job.results.isSome) :
    next.listings < job.listings ∨
      (next.listings = job.listings ∧ next.toDo ≤ job.toDo ∧
        (action.task? ≠ none → next.toDo < job.toDo)) := by
  cases h with
  | task _ hu hmove htasks hframe =>
    right
    have hlt := toDo_lt_of_move hu hmove (horderly _ (List.mem_of_getElem? hu)) htasks hframe.setup
    exact ⟨by rw [listings, hframe.feeds, listings], Nat.le_of_lt hlt, fun _ => hlt⟩
  | @feed i feed base feed' hown hi hmove hnext =>
    have hfeeds := hmove.work.drivers.1
    have hbase : base.listings = job.listings := by rw [listings, hfeeds, listings]
    have hcount : (base.setFeed i feed').listings + (if feed.activity.isListing then 1 else 0) =
        base.listings + if feed'.activity.isListing then 1 else 0 :=
      listings_setFeed (hfeeds ▸ hi)
    rw [← hnext, hbase, hmove.quiet hhalted] at hcount
    cases hlisting : feed.activity.isListing with
    | true =>
      left
      simp only [hlisting, if_true, Bool.false_eq_true, if_false] at hcount
      omega
    | false =>
      right
      have htoDo : next.toDo = job.toDo := by
        rw [hnext]
        exact toDo_eq_of_tasks (hmove.spawns hlisting) hmove.work.fixed.setup
      refine ⟨?_, Nat.le_of_eq htoDo, fun htask => absurd (task?_eq_none_of_feed? hown) htask⟩
      simpa [hlisting] using hcount
  | other opened htask _ _ hspawns htasks _ hfixed hfeeds _ =>
    right
    have hidle : (opened.map fun token => ({ token := token } : Feed)).countP
        (fun feed => feed.activity.isListing) = 0 := by
      rw [List.countP_eq_zero]
      intro feed hfeed
      obtain ⟨token, -, rfl⟩ := List.mem_map.mp hfeed
      simp [Activity.isListing]
    have htoDo := toDo_eq_of_tasks (htasks.trans (hspawns hhalted)) hfixed.setup
    refine ⟨?_, Nat.le_of_eq htoDo, fun hnot => absurd htask hnot⟩
    rw [listings, hfeeds, List.countP_append, hidle]
    rfl

theorem Deed.feeds_eq (h : job.Deed action next) (hother : action.feed? ≠ some i) {feed : Feed}
    (hi : job.feeds[i]? = some feed) : next.feeds[i]? = some feed := by
  cases h with
  | task _ _ _ _ hframe => rw [hframe.feeds, hi]
  | @feed j old base feed' hown _ hmove hnext =>
    have hne : j ≠ i := by
      rintro rfl
      exact hother hown
    rw [hnext, setFeed, List.getElem?_set_ne hne, hmove.work.drivers.1, hi]
  | other _ _ _ _ _ _ _ _ hfeeds _ =>
    rw [hfeeds, List.getElem?_append_left (List.getElem?_eq_some_iff.mp hi).1, hi]

theorem unjoined_eq {feed : Feed} (hi : job.feeds[i]? = some feed) :
    job.unjoined i = feed.tasks.length := by
  rw [unjoined, hi]
  rfl

theorem unjoined_setFeed (hi : i < job.feeds.length) (feed : Feed) :
    (job.setFeed i feed).unjoined i = feed.tasks.length :=
  unjoined_eq (List.getElem?_set_self hi)

/-- A call that waits for the tasks of feed `i`, among them `own`, in a job that `e` has halted. -/
structure Waiting (start : Job) (own : List Nat) (i : Nat) (e : MigrationError) (w : Watch) :
    Prop where
  reach : Reach start w.job
  halt : w.job.halt = some e
  feed : i < w.job.feeds.length
  waits : w.returned = none → ∃ feed, w.job.feeds[i]? = some feed ∧
    feed.activity = .joining .wait ∧ feed.tasks ≠ [] ∧ ∀ t ∈ own, t ∈ feed.tasks ∨ w.job.IsOver t
  returns : ∀ r, w.returned = some r →
    r = .waited (.error e) ∧ w.job.unjoined i = 0 ∧ ∀ t ∈ own, w.job.IsOver t

theorem drain_wait_cases (hhalt : job.halt = some e) (i : Nat) (feed : Feed) :
    (feed.tasks = [] ∧ job.drain i feed .wait =
      { job := job.setFeed i { feed with activity := .idle }
        returned := some (.waited (.error e)) }) ∨
    (feed.tasks ≠ [] ∧ job.drain i feed .wait =
      { job := job.setFeed i { feed with activity := .joining .wait } }) := by
  unfold drain
  split
  · rename_i hempty
    left
    refine ⟨List.isEmpty_iff.mp hempty, ?_⟩
    simp only [conclude, returnFrom, checkHalted, hhalt]
  · rename_i htasks
    exact .inr ⟨fun hempty => htasks (List.isEmpty_iff.mpr hempty), rfl⟩

theorem waiting_of_drain {own : List Nat} {feed : Feed} {logs : List LogLine}
    (hreach : Reach start ((job.drain i feed .wait).after logs).job) (hhalt : job.halt = some e)
    (hi : i < job.feeds.length) (hown : ∀ t ∈ own, t ∈ feed.tasks ∨ job.IsOver t) :
    Waiting start own i e
      ⟨((job.drain i feed .wait).after logs).job, ((job.drain i feed .wait).after logs).returned⟩ := by
  simp only [Transition.after] at hreach ⊢
  rcases drain_wait_cases hhalt i feed with ⟨hempty, heq⟩ | ⟨htasks, heq⟩
  · rw [heq] at hreach ⊢
    refine ⟨hreach, hhalt, List.length_set.symm ▸ hi, fun hnone => absurd hnone (Option.some_ne_none _), ?_⟩
    intro r hr
    cases hr
    refine ⟨rfl, ?_, fun t ht => ?_⟩
    · rw [unjoined_setFeed hi, hempty]
      rfl
    · rw [hempty] at hown
      exact (hown t ht).resolve_left List.not_mem_nil
  · rw [heq] at hreach ⊢
    refine ⟨hreach, hhalt, List.length_set.symm ▸ hi, fun _ => ?_, fun r hr => by cases hr⟩
    exact ⟨_, List.getElem?_set_self hi, rfl, htasks, hown⟩

theorem act_of_waiting {feed : Feed} {t : Transition} (hhalt : job.halt = some e)
    (hi : job.feeds[i]? = some feed) (hactivity : feed.activity = .joining .wait)
    (hown : action.feed? = some i) (hact : job.act action = some t) :
    ∃ task ∈ feed.tasks, job.IsOver task ∧ ∃ logs,
      t = (job.drain i { feed with tasks := feed.tasks.erase task } .wait).after logs := by
  cases action with
  | join j task =>
    cases hown
    simp only [act, hi, Option.bind_some, actOnFeed, hactivity] at hact
    split at hact
    · rename_i hmem
      split at hact
      · rename_i joined logs hjoin
        cases hact
        rcases joinTask_cases hjoin with ⟨v, hstage, -, rfl⟩ | ⟨reason, hstage, -, rfl⟩
        · exact ⟨task, hmem, ⟨_, hstage, rfl⟩, logs, rfl⟩
        · rw [haltWith_of_halt hhalt]
          exact ⟨task, hmem, ⟨_, hstage, rfl⟩, logs, rfl⟩
      · cases hact
    · cases hact
  | dropFeed | nextPage | wait | run | listed =>
    cases hown
    simp [act, hi, actOnFeed, hactivity] at hact
  | _ => cases hown

theorem Step.isOver (h : job.Step next) {t : Nat} (ht : job.IsOver t) : next.IsOver t := by
  obtain ⟨stage, hstage, hover⟩ := ht
  exact ⟨stage, h.stage?_of_isOver hstage hover, hover⟩

theorem Waiting.step {own : List Nat} {w x : Watch} (h : Waiting start own i e w)
    (hstep : Watch.Step i action w x) : Waiting start own i e x := by
  cases hstep with
  | @other t hact hother =>
    have hjob : w.job.Step t.job := ⟨action, t, hact, rfl⟩
    have hkept := (act_deed hact).feeds_eq hother (List.getElem?_eq_getElem h.feed)
    refine ⟨h.reach.step hjob, hjob.halt_eq h.halt, (List.getElem?_eq_some_iff.mp hkept).1, ?_, ?_⟩
    · intro hnone
      obtain ⟨feed, hi, hactivity, htasks, hown⟩ := h.waits hnone
      refine ⟨feed, (act_deed hact).feeds_eq hother hi, hactivity, htasks, ?_⟩
      intro u hu
      exact (hown u hu).imp_right hjob.isOver
    · intro r hr
      obtain ⟨hreturned, hempty, hover⟩ := h.returns r hr
      refine ⟨hreturned, ?_, fun u hu => hjob.isOver (hover u hu)⟩
      rw [unjoined_eq hkept, ← unjoined_eq (List.getElem?_eq_getElem h.feed)]
      exact hempty
  | @own t hact hown hwaits =>
    have hjob : w.job.Step t.job := ⟨action, t, hact, rfl⟩
    have hreach := h.reach.step hjob
    obtain ⟨feed, hi, hactivity, -, htasks⟩ := h.waits hwaits
    obtain ⟨task, -, hover, logs, rfl⟩ := act_of_waiting h.halt hi hactivity hown hact
    refine waiting_of_drain hreach h.halt (List.getElem?_eq_some_iff.mp hi).1 ?_
    intro u hu
    rcases htasks u hu with hmem | hdone
    · by_cases heq : u = task
      · subst heq
        exact .inr hover
      · exact .inl ((List.mem_erase_of_ne heq).mpr hmem)
    · exact .inr hdone

def Watch.left (i : Nat) (w : Watch) : Lex (Nat × Nat) :=
  toLex (w.job.listings, w.job.toDo + w.job.unjoined i)

theorem unjoined_drain (hhalt : job.halt = some e) (hi : i < job.feeds.length) (feed : Feed) :
    (job.drain i feed .wait).job.unjoined i = feed.tasks.length := by
  rcases drain_wait_cases hhalt i feed with ⟨-, heq⟩ | ⟨-, heq⟩
  · rw [heq]
    exact unjoined_setFeed hi _
  · rw [heq]
    exact unjoined_setFeed hi _

/-- A turn leaves less until the call returns, and nothing else leaves more. -/
theorem Waiting.left_lt_or {own : List Nat} {w x : Watch} (hnew : new? setup results = .ok start)
    (h : Waiting start own i e w) (hstep : Watch.Step i action w x) :
    x.left i < w.left i ∨
      (x.left i = w.left i ∧ action.task? = none ∧ action.feed? ≠ some i) := by
  have hhalted : w.job.halt ≠ none := by
    rw [h.halt]
    exact Option.some_ne_none e
  have horderly := h.reach.forall_orderly hnew
  cases hstep with
  | @other t hact hother =>
    have hkept := (act_deed hact).feeds_eq hother (List.getElem?_eq_getElem h.feed)
    have hunjoined : t.job.unjoined i = w.job.unjoined i := by
      rw [unjoined_eq hkept, unjoined_eq (List.getElem?_eq_getElem h.feed)]
    rcases (act_deed hact).left hhalted horderly with hless | ⟨heq, hle, htask⟩
    · exact .inl (Prod.Lex.toLex_lt_toLex.mpr (.inl hless))
    · by_cases hnone : action.task? = none
      · rcases Nat.lt_or_eq_of_le hle with hless | hsame
        · refine .inl (Prod.Lex.toLex_lt_toLex.mpr (.inr ⟨heq, ?_⟩))
          simp only
          omega
        · refine .inr ⟨?_, hnone, hother⟩
          simp only [Watch.left, heq, hsame, hunjoined]
      · have hless := htask hnone
        refine .inl (Prod.Lex.toLex_lt_toLex.mpr (.inr ⟨heq, ?_⟩))
        simp only
        omega
  | @own t hact hown hwaits =>
    left
    obtain ⟨feed, hi, hactivity, -, -⟩ := h.waits hwaits
    obtain ⟨task, hmem, -, logs, rfl⟩ := act_of_waiting h.halt hi hactivity hown hact
    rcases (act_deed hact).left hhalted horderly with hless | ⟨heq, hle, -⟩
    · exact Prod.Lex.toLex_lt_toLex.mpr (.inl hless)
    · refine Prod.Lex.toLex_lt_toLex.mpr (.inr ⟨heq, ?_⟩)
      have hpos := List.length_pos_of_mem hmem
      have herase := List.length_erase_of_mem hmem
      have hdrain := unjoined_drain h.halt h.feed { feed with tasks := feed.tasks.erase task }
      have hbefore := unjoined_eq hi
      simp only [Transition.after] at hle hdrain ⊢
      omega

theorem Waiting.reach_left {own : List Nat} {w x : Watch} (hnew : new? setup results = .ok start)
    (h : Waiting start own i e w) (hreach : Watch.Reach i w x) :
    Waiting start own i e x ∧ x.left i ≤ w.left i := by
  induction hreach with
  | refl => exact ⟨h, le_rfl⟩
  | tail _ hstep ih =>
    obtain ⟨action, hstep⟩ := hstep
    refine ⟨ih.1.step hstep, ?_⟩
    rcases ih.1.left_lt_or hnew hstep with hless | ⟨hsame, -, -⟩
    · exact hless.le.trans ih.2
    · exact hsame.le.trans ih.2

theorem Waiting.round {own : List Nat} {w x : Watch} (hnew : new? setup results = .ok start)
    (h : Waiting start own i e w) (hround : Watch.Round i w x) :
    Waiting start own i e x ∧ x.left i < w.left i := by
  obtain ⟨m, action, hreach, hstep, hturn⟩ := hround
  obtain ⟨hm, hle⟩ := h.reach_left hnew hreach
  refine ⟨hm.step hstep, ?_⟩
  rcases hm.left_lt_or hnew hstep with hless | ⟨-, htask, hfeed⟩
  · exact hless.trans_le hle
  · rcases hturn with hnot | hown
    · exact absurd htask hnot
    · exact absurd hown hfeed

theorem isSome_act_join {feed : Feed} {goal : Goal} {task : Nat} {stage : TaskStage}
    (hi : job.feeds[i]? = some feed) (hactivity : feed.activity = .joining goal)
    (hmem : task ∈ feed.tasks) (hstage : job.stage? task = some stage)
    (hover : stage.isOver = true) : (job.act (.join i task)).isSome = true := by
  simp only [act, hi, Option.bind_some, actOnFeed, hactivity, if_pos hmem, hstage]
  cases stage with
  | finished | panicked => rfl
  | _ => cases hover

/-- While a call joins tasks of its feed, one of them can be joined, or some task takes a turn. -/
theorem exists_round_of_joining {w : Watch} {feed : Feed} {goal : Goal}
    (hnew : new? setup results = .ok start) (hreach : Reach start w.job)
    (hi : w.job.feeds[i]? = some feed) (hactivity : feed.activity = .joining goal)
    (htasks : feed.tasks ≠ []) (hwaits : w.returned = none) : ∃ x, Watch.Round i w x := by
  obtain ⟨task, hmem⟩ := List.exists_mem_of_ne_nil _ htasks
  have hlt := hreach.valid hnew feed (List.mem_of_getElem? hi) task hmem
  obtain ⟨stage, hstage⟩ : ∃ stage, w.job.stage? task = some stage := by
    rw [stage?, List.getElem?_eq_getElem hlt]
    exact ⟨_, rfl⟩
  cases hover : stage.isOver with
  | false =>
    obtain ⟨next, action, t, hturn, hact, rfl⟩ := hreach.exists_turn hnew hstage hover
    have hother : action.feed? ≠ some i := fun hfeed => hturn (task?_eq_none_of_feed? hfeed)
    exact ⟨_, w, action, .refl, .other hact hother, .inl hturn⟩
  | true =>
    obtain ⟨t, hact⟩ :=
      Option.isSome_iff_exists.mp (isSome_act_join hi hactivity hmem hstage hover)
    exact ⟨_, w, _, .refl, .own hact rfl hwaits, .inr rfl⟩

theorem Waiting.exists_round {own : List Nat} {w : Watch} (hnew : new? setup results = .ok start)
    (h : Waiting start own i e w) (hwaits : w.returned = none) : ∃ x, Watch.Round i w x := by
  obtain ⟨feed, hi, hactivity, htasks, -⟩ := h.waits hwaits
  exact exists_round_of_joining hnew h.reach hi hactivity htasks hwaits

theorem Waiting.inevitable {own : List Nat} {w : Watch} (hnew : new? setup results = .ok start)
    (h : Waiting start own i e w) :
    Inevitable (Watch.Round i) (fun x => x.returned ≠ none) w := by
  refine Inevitable.of_wellFounded wellFounded_lt (Waiting start own i e) (Watch.left i) ?_ ?_ h
  · intro w x hw hround
    exact hw.round hnew hround
  · intro w hw hwaits
    exact hw.exists_round hnew (not_not.mp hwaits)

end Job

end BucketMigration
