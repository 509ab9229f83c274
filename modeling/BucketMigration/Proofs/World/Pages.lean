import BucketMigration.Proofs.Store.Alike
import BucketMigration.Proofs.Store.Listing
import BucketMigration.Proofs.World.Paths

/-!
# Paging through a bucket

A feed is asked for one page after the other, while tasks, other feeds and other clients go on as they
like, as long as the objects that it lists stay the same. Every page that it is told has the next
objects of the listing, whatever calls have failed before.
-/

namespace BucketMigration

def Listing.outcome (l : Listing) (k : Nat) : PageOutcome :=
  ⟨(l.page k).length, l.isLast k, l.nextToken k⟩

namespace World

def scope (w : World) : List ObjectDescriptor :=
  (w.stores.get .source).scope w.job.setup.source.bucket w.job.setup.source.keyPrefix

namespace Event

def page? (i : Nat) (e : Event) : Option (Except MigrationError PageOutcome) :=
  if e.action.feed? = some i then
    match e.after.returned with
    | some (.page outcome) => some outcome
    | _ => none
  else none

def spawned (e : Event) : List ObjectDescriptor :=
  (e.after.world.job.tasks.drop e.before.job.tasks.length).map Task.object

/-- A call for a page of feed `i` that succeeds, with the objects that it dispatches. -/
def dispatch? (i : Nat) (e : Event) : Option (PageOutcome × List ObjectDescriptor) :=
  match e.page? i with
  | some (.ok outcome) => some (outcome, e.spawned)
  | _ => none

/-- The successful calls for a page of feed `i`, in order. -/
def dispatches (i : Nat) (events : List Event) : List (PageOutcome × List ObjectDescriptor) :=
  events.filterMap fun e => e.dispatch? i

/-- Feed `i` is only asked for pages, which happens while the job is not halted. Its calls are answered
by the store, and the objects that are listed stay the same. -/
structure Paging (i : Nat) (e : Event) : Prop where
  asks : e.action.feed? = some i →
    e.action = .job (.nextPage i) ∧ e.before.job.halt = none ∨ e.action = .enter (.feed i) ∨
      e.action = .finish (.feed i) ∨ e.action = .deliver (.feed i)
  scope : e.after.world.scope = e.before.scope

def isPaging (i : Nat) (e : Event) : Bool :=
  e.after.world.scope == e.before.scope &&
    match e.action with
    | .job (.nextPage _) => e.before.job.halt.isNone
    | .enter _ | .finish _ | .deliver _ => true
    | action => action.feed? != some i

theorem paging_of_isPaging {i : Nat} {e : Event} (h : e.isPaging i = true) : e.Paging i := by
  obtain ⟨hscope, hasks⟩ := Bool.and_eq_true_iff.mp h
  refine ⟨fun hown => ?_, eq_of_beq hscope⟩
  generalize e.action = action at hown hasks ⊢
  cases action with
  | job action =>
    cases action with
    | nextPage feed =>
      cases hown
      exact .inl ⟨rfl, Option.isNone_iff_eq_none.mp hasks⟩
    | _ => simp [hown] at hasks
  | enter caller | finish caller | deliver caller =>
    cases caller <;> cases hown
    simp
  | _ => simp [hown] at hasks

/-- What is not a successful call leaves feed `i`, the tasks, the tally and the halt slot alone: only
the activity of the feed is another one. -/
def Keeps (i : Nat) (e : Event) : Prop :=
  ∃ feed activity, e.before.job.feeds[i]? = some feed ∧
    e.after.world.job = e.before.job.setFeed i { feed with activity }

end Event

/-- How far a feed that has been told `k` pages has come with the next one. -/
inductive Asking (l : Listing) (k : Nat) : Activity → Option CallState → Prop
  | idle : Asking l k .idle none
  | due (hmore : l.isDone k = false) : Asking l k (.listing false) none
  | entered (hmore : l.isDone k = false) : Asking l k (.listing false) (some .entered)
  | failed (hmore : l.isDone k = false) (e : StorageError) :
      Asking l k (.listing false) (some (.answered (.error e)))
  | told (hmore : l.isDone k = false) : Asking l k (.listing false)
      (some (.answered (.ok (.page ⟨l.page k, l.nextToken k, !l.isLast k⟩))))

/-- A feed that has been told `k` pages of a listing. -/
structure Told (l : Listing) (token : Option String) (k : Nat) (feed : Feed) : Prop where
  token : feed.token = l.tokenOf token k
  isDone : feed.isDone = l.isDone k

/-- Feed `i` of a world that goes through a listing. -/
structure Pages (l : Listing) (token : Option String) (i k : Nat) (w : World) : Prop where
  size : w.job.setup.options.pageSize = l.pageSize
  scope : l.objects = beyond token w.scope
  tokens : (w.stores.get .source).dropsTokens = false
  feed : ∃ feed, w.job.feeds[i]? = some feed ∧ Told l token k feed ∧
    Asking l k feed.activity (w.callState? (.feed i))

variable {w start : World} {action : WorldAction} {t : WorldTransition} {l : Listing}
  {token : Option String} {i k : Nat}

theorem Deed.dropsTokens (h : w.Deed action t) (side : Side) :
    (t.world.stores.get side).dropsTokens = (w.stores.get side).dropsTokens := by
  have hset : ∀ (other : Side) (store : Store),
      store.dropsTokens = (w.stores.get other).dropsTokens →
      ((w.stores.set other store).get side).dropsTokens = (w.stores.get side).dropsTokens := by
    intro other store hstore
    rcases w.stores.get_set_or other side store with ⟨hset, hget⟩ | hset
    · rw [hset, hstore, hget]
    · rw [hset]
  cases h with
  | job | answer | toTask | toFeed | panic | pass => rfl
  | enter =>
    rw [enter_eq]
    exact hset _ _ (Store.dropsTokens_enter _)
  | finish => exact hset _ _ (Store.dropsTokens_finish _ _)
  | aside _ haside => rw [haside.stores]

theorem Told.again {feed : Feed} (h : Told l token k feed) (hdone : l.isDone k = true) :
    Told l token (k + 1) feed := by
  have hlast := Listing.isLast_of_isDone hdone
  constructor
  · rw [h.token, Listing.tokenOf_of_isDone token hdone]
    exact (if_pos hlast).symm
  · rw [h.isDone, hdone]
    exact hlast.symm

theorem outcome_of_isDone (hdone : l.isDone k = true) : l.outcome k = ⟨0, true, none⟩ := by
  rw [Listing.outcome, Listing.page_eq_nil_of_isDone hdone, Listing.nextToken,
    Listing.isLast_of_isDone hdone]
  rfl

theorem not_lacksToken (hsize : 0 < l.pageSize) :
    (⟨l.page k, l.nextToken k, !l.isLast k⟩ : ListPage).lacksToken = false := by
  cases hlast : l.isLast k with
  | true => simp [ListPage.lacksToken]
  | false =>
    obtain ⟨hlt, hget⟩ := Listing.getLast?_page hsize hlast
    simp [ListPage.lacksToken, Listing.nextToken, hlast, hget]

theorem acceptPage_eq (token : Option String) (job : Job) (feed : Feed) :
    let u := job.acceptPage i feed false ⟨l.page k, l.nextToken k, !l.isLast k⟩
    ∃ feed', Told l token (k + 1) feed' ∧ feed'.activity = .idle ∧
      u.job = (job.spawn (l.page k)).setFeed i feed' ∧
      u.returned = some (.page (.ok (l.outcome k))) := by
  have htoken : (if l.isLast k then none else l.nextToken k) = l.nextToken k := by
    rw [Listing.nextToken]
    cases l.isLast k <;> rfl
  simp only [Job.acceptPage, Bool.not_not, htoken, Bool.false_eq_true, if_false]
  exact ⟨_, ⟨rfl, rfl⟩, rfl, rfl, rfl⟩

/-- What an event makes of a feed that has been told `k` pages: it is told one more, or it is left as it
was, and then a call that returns has failed at the listing. -/
inductive Turn (l : Listing) (bucket : String) (i k : Nat) (e : Event) : Nat → Prop
  | kept (hpage : ∀ outcome, e.page? i = some outcome →
        ∃ cause, outcome = .error (.listing bucket cause))
      (hown : e.action.feed? = some i → e.Keeps i) : Turn l bucket i k e k
  | told (hdispatch : e.dispatch? i = some (l.outcome k, l.page k)) :
      Turn l bucket i k e (k + 1)

theorem page?_eq_none {e : Event} (h : e.after.returned = none) : e.page? i = none := by
  rw [Event.page?, h]
  split <;> rfl

theorem page?_eq {e : Event} {outcome : Except MigrationError PageOutcome}
    (hown : e.action.feed? = some i) (h : e.after.returned = some (.page outcome)) :
    e.page? i = some outcome := by
  rw [Event.page?, if_pos hown, h]

theorem dispatch?_eq {e : Event} {outcome : PageOutcome} (hown : e.action.feed? = some i)
    (h : e.after.returned = some (.page (.ok outcome))) :
    e.dispatch? i = some (outcome, e.spawned) := by
  rw [Event.dispatch?, page?_eq hown h]

theorem spawned_eq_nil {e : Event} (h : e.after.world.job.tasks = e.before.job.tasks) :
    e.spawned = [] := by
  rw [Event.spawned, h, List.drop_length, List.map_nil]

theorem spawned_eq {e : Event} {objects : List ObjectDescriptor}
    (h : e.after.world.job.tasks = (e.before.job.spawn objects).tasks) : e.spawned = objects := by
  rw [Event.spawned, h, Job.spawn, List.drop_left]
  simp [Function.comp_def]

theorem setFeed_self {job : Job} {feed : Feed} (hi : job.feeds[i]? = some feed) :
    job = job.setFeed i { feed with activity := feed.activity } := by
  obtain ⟨hlt, rfl⟩ := List.getElem?_eq_some_iff.mp hi
  rw [Job.setFeed, List.set_getElem_self hlt]

theorem turn_of_job_eq (hreturned : t.returned = none)
    (hjob : t.world.job = w.job) {feed : Feed} (hi : w.job.feeds[i]? = some feed) (bucket : String) :
    Turn l bucket i k ⟨w, action, t⟩ k := by
  apply Turn.kept
  · intro outcome houtcome
    rw [page?_eq_none hreturned] at houtcome
    cases houtcome
  · intro _
    exact ⟨feed, feed.activity, hi, hjob.trans (setFeed_self hi)⟩

/-- An event leaves feed `i` with `k` pages told, or with one more. -/
def Goes (l : Listing) (token : Option String) (bucket : String) (i k : Nat) (e : Event) : Prop :=
  ∃ k' feed, Turn l bucket i k e k' ∧ e.after.world.job.feeds[i]? = some feed ∧
    Told l token k' feed ∧ Asking l k' feed.activity (e.after.world.callState? (.feed i))

section Own

variable {feed : Feed} {bucket : String} (hi : w.job.feeds[i]? = some feed)
  (hfeed : Told l token k feed)

include hi hfeed

theorem goes_nextPage (hhalt : w.job.halt = none)
    (hasking : Asking l k feed.activity (w.callState? (.feed i)))
    (hdeed : w.Deed (.job (.nextPage i)) t) : Goes l token bucket i k ⟨w, .job (.nextPage i), t⟩ := by
  have hlt := (List.getElem?_eq_some_iff.mp hi).1
  cases hdeed with
  | aside haction => cases haction
  | @job _ u _ hact =>
    simp only [Job.act, hi, Option.bind_some] at hact
    generalize hactivity : feed.activity = activity at hasking
    generalize hstate : w.callState? (.feed i) = state at hasking
    cases hasking with
    | due | entered | failed | told => simp [Job.actOnFeed, hactivity] at hact
    | idle =>
      simp only [Job.actOnFeed, hactivity, Job.beginPage, hhalt, Option.some.injEq] at hact
      cases hdone : l.isDone k with
      | true =>
        rw [if_pos (hfeed.isDone.trans hdone)] at hact
        subst hact
        refine ⟨k + 1, { feed with activity := .idle }, .told ?_, List.getElem?_set_self hlt,
          ⟨(hfeed.again hdone).token, (hfeed.again hdone).isDone⟩, ?_⟩
        · rw [dispatch?_eq rfl rfl, spawned_eq_nil rfl, outcome_of_isDone hdone,
            Listing.page_eq_nil_of_isDone hdone]
        · show Asking l (k + 1) .idle (w.callState? (.feed i))
          rw [hstate]
          exact .idle
      | false =>
        rw [if_neg (by rw [hfeed.isDone, hdone]; exact Bool.false_ne_true)] at hact
        subst hact
        refine ⟨k, { feed with activity := .listing false }, .kept ?_ ?_,
          List.getElem?_set_self hlt, ⟨hfeed.token, hfeed.isDone⟩, ?_⟩
        · intro outcome houtcome
          rw [page?_eq_none rfl] at houtcome
          cases houtcome
        · intro _
          exact ⟨feed, .listing false, hi, rfl⟩
        · show Asking l k (.listing false) (w.callState? (.feed i))
          rw [hstate]
          exact .due hdone

theorem goes_enter (hasking : Asking l k feed.activity (w.callState? (.feed i)))
    (hdeed : w.Deed (.enter (.feed i)) t) : Goes l token bucket i k ⟨w, .enter (.feed i), t⟩ := by
  cases hdeed with
  | aside haction => cases haction
  | @enter _ call hcall hfree =>
    generalize hactivity : feed.activity = activity at hasking
    rw [hfree] at hasking
    cases hasking with
    | idle => simp [call?, Job.feedCall?, hi, hactivity] at hcall
    | due hmore =>
      refine ⟨k, feed, turn_of_job_eq rfl (by rw [enter_eq]; rfl) hi bucket, ?_, hfeed, ?_⟩
      · rw [enter_eq]
        exact hi
      · rw [enter_eq, callState?_setCall, if_pos rfl, hactivity]
        split
        · exact .failed hmore _
        · exact .entered hmore

theorem goes_finish (hw : Pages l token i k w) (hsize : 0 < l.pageSize)
    (hasking : Asking l k feed.activity (w.callState? (.feed i)))
    (hdeed : w.Deed (.finish (.feed i)) t) : Goes l token bucket i k ⟨w, .finish (.feed i), t⟩ := by
  cases hdeed with
  | aside haction => cases haction
  | @finish _ call hcall hentered =>
    generalize hactivity : feed.activity = activity at hasking
    rw [hentered] at hasking
    cases hasking with
    | entered hmore =>
      refine ⟨k, feed, turn_of_job_eq (w := w) rfl rfl hi bucket, hi, hfeed, ?_⟩
      simp only [call?, Job.feedCall?, hi, hactivity, Option.some.injEq] at hcall
      subst hcall
      show Asking l k feed.activity ((World.finish ..).callState? _)
      rw [World.finish, callState?_setCall, if_pos rfl, hactivity]
      have hpage := Store.list_page hw.scope hw.tokens hsize hmore
      rw [← hfeed.token, ← hw.size] at hpage
      simp only [Store.finish, Store.perform, hpage]
      exact .told hmore

theorem goes_deliver (hsize : 0 < l.pageSize)
    (hasking : Asking l k feed.activity (w.callState? (.feed i)))
    (hdeed : w.Deed (.deliver (.feed i)) t) :
    Goes l token w.job.setup.source.bucket i k ⟨w, .deliver (.feed i), t⟩ := by
  have hlt := (List.getElem?_eq_some_iff.mp hi).1
  have hclear : ∀ u : Transition,
      ((w.clearCall (.feed i)).ofTransition u).world.callState? (.feed i) = none := by
    intro u
    have hclear := callState?_clearCall w (.feed i) (.feed i)
    rw [if_pos rfl] at hclear
    exact hclear
  cases hdeed with
  | aside haction => cases haction
  | @toFeed _ reply u hanswered hact =>
    simp only [Job.act, hi, Option.bind_some] at hact
    generalize hactivity : feed.activity = activity at hasking
    rw [hanswered] at hasking
    cases hasking with
    | failed _ error =>
      simp only [Job.actOnFeed, hactivity, Reply.page?, Option.map_some, Option.some.injEq] at hact
      subst hact
      refine ⟨k, { feed with activity := .idle }, .kept ?_ ?_, List.getElem?_set_self hlt,
        ⟨hfeed.token, hfeed.isDone⟩, ?_⟩
      · intro outcome houtcome
        rw [page?_eq rfl rfl] at houtcome
        cases houtcome
        exact ⟨error, rfl⟩
      · intro _
        exact ⟨feed, .idle, hi, rfl⟩
      · rw [hclear]
        exact .idle
    | told hmore =>
      simp only [Job.actOnFeed, hactivity, Reply.page?, Option.map_some, Option.some.injEq,
        Job.listed, not_lacksToken hsize, Bool.false_eq_true, if_false] at hact
      subst hact
      obtain ⟨feed', htold, hidle, hjob, hreturned⟩ :=
        acceptPage_eq (l := l) (i := i) (k := k) token w.job feed
      refine ⟨k + 1, feed', .told ?_, ?_, htold, ?_⟩
      · rw [dispatch?_eq rfl hreturned]
        apply congrArg fun objects => some (l.outcome k, objects)
        apply spawned_eq
        dsimp only [ofTransition]
        rw [hjob]
        rfl
      · refine (congrArg (fun job : Job => job.feeds[i]?) hjob).trans ?_
        exact List.getElem?_set_self hlt
      · rw [hclear, hidle]
        exact .idle

end Own

/-- What feed `i` does next. -/
theorem Pages.step (hw : Pages l token i k w) (hsize : 0 < l.pageSize) (hdeed : w.Deed action t)
    (hpaging : Event.Paging i ⟨w, action, t⟩) :
    ∃ k', Turn l w.job.setup.source.bucket i k ⟨w, action, t⟩ k' ∧ Pages l token i k' t.world := by
  obtain ⟨feed, hi, hfeed, hasking⟩ := hw.feed
  suffices hgoes : Goes l token w.job.setup.source.bucket i k ⟨w, action, t⟩ by
    obtain ⟨k', feed', hturn, hnext⟩ := hgoes
    refine ⟨k', hturn, ?_, ?_, ?_, feed', hnext⟩
    · rw [hdeed.setup_eq, hw.size]
    · exact hw.scope.trans (congrArg (beyond token) hpaging.scope.symm)
    · exact (hdeed.dropsTokens .source).trans hw.tokens
  by_cases hown : action.feed? = some i
  · rcases hpaging.asks hown with ⟨rfl, hhalt⟩ | rfl | rfl | rfl
    · exact goes_nextPage hi hfeed hhalt hasking hdeed
    · exact goes_enter hi hfeed hasking hdeed
    · exact goes_finish hi hfeed hw hsize hasking hdeed
    · exact goes_deliver hi hfeed hsize hasking hdeed
  · obtain ⟨hkept, hcall⟩ := hdeed.feed_eq hown hi
    refine ⟨k, feed, .kept ?_ (fun h => absurd h hown), hkept, hfeed, hcall ▸ hasking⟩
    intro outcome houtcome
    rw [Event.page?, if_neg hown] at houtcome
    cases houtcome

structure PagesTold (l : Listing) (bucket : String) (i : Nat) (events : List Event) (k : Nat) :
    Prop where
  pages : Event.dispatches i events = (List.range k).map fun k => (l.outcome k, l.page k)
  failures : ∀ e ∈ events, ∀ error, e.page? i = some (.error error) →
    ∃ cause, error = .listing bucket cause
  keeps : ∀ e ∈ events, e.action.feed? = some i → e.dispatch? i = none → e.Keeps i

theorem PagesTold.snoc {bucket : String} {events : List Event} {e : Event} {k' : Nat}
    (h : PagesTold l bucket i events k) (hturn : Turn l bucket i k e k') :
    PagesTold l bucket i (events ++ [e]) k' := by
  cases hturn with
  | kept hpage hown =>
    have hnone : e.dispatch? i = none := by
      unfold Event.dispatch?
      split
      · rename_i outcome hok
        obtain ⟨cause, herror⟩ := hpage _ hok
        cases herror
      · rfl
    constructor
    · rw [Event.dispatches, List.filterMap_append, ← Event.dispatches, h.pages,
        List.filterMap_cons_none hnone]
      exact List.append_nil _
    · refine List.forall_mem_append.mpr ⟨h.failures, List.forall_mem_singleton.mpr ?_⟩
      intro error herror
      obtain ⟨cause, heq⟩ := hpage _ herror
      cases heq
      exact ⟨cause, rfl⟩
    · refine List.forall_mem_append.mpr ⟨h.keeps, List.forall_mem_singleton.mpr ?_⟩
      exact fun hfeed _ => hown hfeed
  | told hdispatch =>
    constructor
    · rw [Event.dispatches, List.filterMap_append, ← Event.dispatches, h.pages, List.range_succ,
        List.map_append, List.filterMap_cons_some hdispatch]
      rfl
    · refine List.forall_mem_append.mpr ⟨h.failures, List.forall_mem_singleton.mpr ?_⟩
      intro error herror
      rw [Event.dispatch?, herror] at hdispatch
      cases hdispatch
    · refine List.forall_mem_append.mpr ⟨h.keeps, List.forall_mem_singleton.mpr ?_⟩
      intro _ hnone
      rw [hdispatch] at hnone
      cases hnone

theorem Path.pages {events : List Event} (hpath : Path start events w) (hsize : 0 < l.pageSize)
    (hstart : Pages l token i 0 start) (hpaging : ∀ e ∈ events, e.Paging i) :
    ∃ k, Pages l token i k w ∧ PagesTold l start.job.setup.source.bucket i events k ∧
      w.job.setup = start.job.setup := by
  induction hpath with
  | start =>
    refine ⟨0, hstart, ⟨rfl, ?_, ?_⟩, rfl⟩
    · intro e he
      cases he
    · intro e he
      cases he
  | @step events w action t _ hact ih =>
    obtain ⟨k, hw, htold, hsetup⟩ := ih fun e he => hpaging e (List.mem_append_left _ he)
    have hdeed := act_deed hact
    have hlast := hpaging _ (List.mem_append_right _ (List.mem_singleton_self _))
    obtain ⟨k', hturn, hnext⟩ := hw.step hsize hdeed hlast
    rw [hsetup] at hturn
    exact ⟨k', hnext, htold.snoc hturn, hdeed.setup_eq.trans hsetup⟩

/-- What success number `k` of the calls for a page tells and dispatches; the first is number 0. -/
structure PageOf (l : Listing) (k : Nat) (outcome : PageOutcome) (objects : List ObjectDescriptor) :
    Prop where
  page : objects = l.page k
  dispatched : outcome.dispatched = objects.length
  isDone : outcome.isDone = true ↔ l.pages ≤ k + 1
  full : k + 1 < l.pages → objects.length = l.pageSize
  token : k + 1 < l.pages → ∃ last, objects.getLast? = some last ∧ outcome.nextToken = some last.key
  noToken : l.pages ≤ k + 1 → outcome.nextToken = none
  empty : l.pages ≤ k → outcome = ⟨0, true, none⟩ ∧ objects = []

/-- How feed `i` goes through the objects of a listing that starts after a token. -/
structure Dispatched (start : World) (l : Listing) (token : Option String) (i : Nat)
    (events : List Event) (w : World) : Prop where
  sorted : l.objects.Pairwise fun a b => a.key < b.key
  listed : ∀ d, d ∈ l.objects ↔
    Text.hasFront start.job.setup.source.keyPrefix d.key = true ∧ token.all (· < d.key) = true ∧
      ∃ object, (start.stores.get .source).object? start.job.setup.source.bucket d.key =
        some object ∧ object.data.size = d.size
  failures : ∀ e ∈ events, ∀ error, e.page? i = some (.error error) →
    (∃ cause, error = .listing start.job.setup.source.bucket cause) ∧ e.Keeps i
  keeps : ∀ e ∈ events, e.action.feed? = some i → e.dispatch? i = none → e.Keeps i
  pages : ∀ k outcome objects, (Event.dispatches i events)[k]? = some (outcome, objects) →
    PageOf l k outcome objects
  objects : ((Event.dispatches i events).map Prod.snd).flatten =
    l.objects.take ((Event.dispatches i events).length * l.pageSize)
  complete : l.pages ≤ (Event.dispatches i events).length →
    ((Event.dispatches i events).map Prod.snd).flatten = l.objects ∧ w.call? (.feed i) = none
  feed : ∃ feed, w.job.feeds[i]? = some feed ∧ Told l token (Event.dispatches i events).length feed

theorem isDone_of_pages_le (hsize : 0 < l.pageSize) (h : l.pages ≤ k) : l.isDone k = true := by
  cases k with
  | zero =>
    have hpos : 1 ≤ l.pages := Nat.le_max_left ..
    omega
  | succ k => exact (Listing.isLast_iff hsize).mpr h

theorem pageOf (hsize : 0 < l.pageSize) : PageOf l k (l.outcome k) (l.page k) := by
  have hmore : k + 1 < l.pages → l.isLast k = false := by
    intro hlt
    rw [Bool.eq_false_iff]
    intro hlast
    have hle := (Listing.isLast_iff hsize).mp hlast
    omega
  constructor
  · rfl
  · rfl
  · exact Listing.isLast_iff hsize
  · exact fun hlt => Listing.length_page_of_not_isLast (hmore hlt)
  · intro hlt
    obtain ⟨_, hget⟩ := Listing.getLast?_page hsize (hmore hlt)
    refine ⟨_, hget, ?_⟩
    rw [Listing.outcome, Listing.nextToken, hmore hlt, hget]
    rfl
  · intro hle
    exact if_pos ((Listing.isLast_iff hsize).mpr hle)
  · intro hle
    have hdone := isDone_of_pages_le hsize hle
    exact ⟨outcome_of_isDone hdone, Listing.page_eq_nil_of_isDone hdone⟩

/-- Every listed object is dispatched exactly once. Whatever the page size, however often a listing
fails, and whatever tasks and other clients do meanwhile, the successful calls of a feed dispatch the
objects that its listing holds when the feed is opened, page by page. -/
theorem listing_dispatched_once {i : Nat} {token : Option String} {size : Nat} (hpos : 0 < size)
    (hsize : start.job.setup.options.pageSize = size)
    (htokens : (start.stores.get .source).dropsTokens = false)
    (hfeed : start.job.feeds[i]? = some { token })
    (hcall : start.callState? (.feed i) = none) {events : List Event} (hpath : Path start events w)
    (hpaging : ∀ e ∈ events, e.Paging i) :
    Dispatched start ⟨beyond token start.scope, size⟩ token i events w := by
  have hstart : Pages ⟨beyond token start.scope, size⟩ token i 0 start :=
    ⟨hsize, rfl, htokens, _, hfeed, ⟨rfl, rfl⟩, hcall ▸ .idle⟩
  obtain ⟨k, hw, htold, -⟩ := hpath.pages hpos hstart hpaging
  generalize hl : (⟨beyond token start.scope, size⟩ : Listing) = l at hw htold ⊢
  have hlsize : 0 < l.pageSize := hl ▸ hpos
  have hobjects : l.objects = beyond token start.scope := hl ▸ rfl
  have hlength : (Event.dispatches i events).length = k := by
    rw [htold.pages, List.length_map, List.length_range]
  have hflatten : ((Event.dispatches i events).map Prod.snd).flatten =
      l.objects.take (k * l.pageSize) := by
    rw [htold.pages, List.map_map, ← Listing.flatten_pages]
    rfl
  obtain ⟨feed, hi, hfeed, hasking⟩ := hw.feed
  constructor
  · rw [hobjects]
    exact pairwise_beyond Store.pairwise_scope
  · intro d
    rw [hobjects, beyond, List.mem_filter, scope, Store.mem_scope_iff, and_right_comm, and_assoc]
  · intro e he error herror
    have hown : e.action.feed? = some i := by
      by_contra hother
      rw [Event.page?, if_neg hother] at herror
      cases herror
    refine ⟨htold.failures e he error herror, htold.keeps e he hown ?_⟩
    rw [Event.dispatch?, herror]
  · exact htold.keeps
  · intro n outcome objects hn
    rw [htold.pages, List.getElem?_map, Option.map_eq_some_iff] at hn
    obtain ⟨m, hm, heq⟩ := hn
    obtain ⟨_, rfl⟩ := List.getElem?_eq_some_iff.mp hm
    rw [List.getElem_range] at heq
    cases heq
    exact pageOf hlsize
  · rw [hflatten, hlength]
  · intro hle
    rw [hlength] at hle
    have hdone := isDone_of_pages_le hlsize hle
    refine ⟨hflatten.trans (List.take_of_length_le (Listing.length_le_of_isDone hdone)), ?_⟩
    have hidle : feed.activity = .idle := by
      generalize w.callState? (.feed i) = state at hasking
      generalize feed.activity = activity at hasking
      cases hasking with
      | idle => rfl
      | due hmore | entered hmore | failed hmore | told hmore =>
        rw [hdone] at hmore
        cases hmore
    simp only [call?, Job.feedCall?, hi, hidle]
  · exact ⟨feed, hi, hlength ▸ hfeed⟩

/-- Two objects are left to list, one for each page, and the first call for them is refused. -/
def lastKeys : World where
  job :=
    { setup :=
        { source := { bucket := "from" }, target := { bucket := "to" }, options := { pageSize := 1 } }
      freeSlots := 10
      feeds := [{ token := some "a" }] }
  stores := .separate { (((({} : Store).write "from" "a" ⟨⟨#[1]⟩, 0, "", none⟩).write "from" "b"
    ⟨⟨#[1, 2]⟩, 0, "", none⟩).write "from" "c" ⟨⟨#[1, 2, 3]⟩, 0, "", none⟩) with
      faults := [{ operation := .list, budget := some 1 }] } {}
  now := 0

def pageCall : List WorldAction :=
  [.job (.nextPage 0), .enter (.feed 0), .finish (.feed 0), .deliver (.feed 0)]

/-- A call that fails, the two pages with a task granted in between, and a call when all is done. -/
def lastPages : List WorldAction :=
  [.job (.nextPage 0), .enter (.feed 0), .deliver (.feed 0)] ++ pageCall ++ [.job (.grant 0)] ++
    pageCall ++ [.job (.nextPage 0)]

theorem listing_dispatched_once_last_pages :
    ∃ events w, Path lastKeys events w ∧
      Event.dispatches 0 events =
        [(⟨1, false, some "b"⟩, [⟨"b", 2⟩]), (⟨1, true, none⟩, [⟨"c", 3⟩]), (⟨0, true, none⟩, [])] ∧
      Dispatched lastKeys ⟨beyond (some "a") lastKeys.scope, 1⟩ (some "a") 0 events w := by
  have hrun : (lastKeys.run? lastPages).any (fun run => Event.dispatches 0 run.1 =
      [(⟨1, false, some "b"⟩, [⟨"b", 2⟩]), (⟨1, true, none⟩, [⟨"c", 3⟩]), (⟨0, true, none⟩, [])] ∧
      run.1.all (Event.isPaging 0)) = true := by
    decide +kernel
  simp only [Option.any_eq_true, decide_eq_true_eq, List.all_eq_true] at hrun
  obtain ⟨⟨events, w⟩, hrun, hdispatches, hpaging⟩ := hrun
  have hpath := path_of_run? hrun
  exact ⟨events, w, hpath, hdispatches, listing_dispatched_once (by decide) rfl rfl rfl rfl hpath
    fun e he => Event.paging_of_isPaging (hpaging e he)⟩

end World

end BucketMigration
