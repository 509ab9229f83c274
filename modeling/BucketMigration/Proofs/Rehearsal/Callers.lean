import BucketMigration.Proofs.Rehearsal.Scenes
import BucketMigration.Rehearsal.Caller

/-!
# The worlds of a rehearsal only act

However tasks take turns and whatever the caller does, a rehearsal only does actions of its worlds. Each
function of the rehearsal is looked at once, and loops by induction on the turns that are left. What a
call returns is what an action of its job has returned, and with a single job a whole rehearsal is a path
of its world.
-/

namespace BucketMigration

namespace Rehearsal

open World (Event)

variable {direct : Prop} {q r s : Rehearsal} {job task : Nat} {actor : Actor} {signal : Signal}

theorem scene_foldl {α : Type} {f : Rehearsal → α → Rehearsal}
    (hf : ∀ r a, (f r a).scene = r.scene) (l : List α) (r : Rehearsal) :
    (l.foldl f r).scene = r.scene := by
  induction l generalizing r with
  | nil => rfl
  | cons a l ih => rw [List.foldl_cons, ih, hf]

theorem scene_nextSignal? (h : r.nextSignal? actor = some (signal, s)) : s.scene = r.scene := by
  unfold nextSignal? at h
  split at h <;> cases h
  rfl

theorem scene_advance? (h : r.advance? = some s) : s.scene = r.scene := by
  unfold advance? at h
  split at h <;> cases h
  exact scene_foldl (fun r (t : Timer) => show (r.notify t.actor t.signal).scene = r.scene from rfl) _ _

theorem scene_refill (r : Rehearsal) (actor : Actor) (copy : ObjectCopy) :
    (r.refill actor copy).scene = r.scene :=
  scene_foldl (fun r _ => show (r.notify actor .part).scene = r.scene from rfl) _ r

theorem isPass_wakeAction (actor : Actor) : (wakeAction actor).isPass = false := by
  cases actor <;> rfl

theorem isPass_partAction (actor : Actor) : (partAction actor).isPass = false := by
  cases actor <;> rfl

namespace Goes

theorem notify (h : Goes direct q r) : Goes direct q (r.notify actor signal) :=
  h.aside rfl

theorem setTimer {ms : Nat} (h : Goes direct q r) : Goes direct q (r.setTimer ms actor signal) :=
  h.aside rfl

theorem conclude (h : Goes direct q r) : Goes direct q (r.conclude job task) :=
  h.aside rfl

theorem exchange (h : Goes direct q r) (caller : Caller) :
    Goes direct q (r.exchange job caller actor signal).1 := by
  unfold Rehearsal.exchange
  split
  · exact h
  · rename_i call _
    have htraced : Goes direct q { r with trace := call :: r.trace } := h.aside rfl
    dsimp only
    split
    · exact htraced.aside rfl
    · exact act (htraced.aside rfl) rfl
    · split
      · exact htraced.act rfl
      · split
        · exact (htraced.act rfl).act rfl
        · exact setTimer (htraced.act rfl)

theorem handSlot (h : Goes direct q r) : Goes direct q (r.handSlot job) := by
  unfold Rehearsal.handSlot
  split
  · exact h
  · exact notify (act (h.aside rfl) rfl)

theorem handPlace (h : Goes direct q r) : Goes direct q r.handPlace := by
  unfold Rehearsal.handPlace
  split
  · exact h
  · split
    · exact h
    · rename_i hplace
      exact notify ((h.trans (goes_of_act? hplace rfl)).aside rfl)

theorem settlePublishing {mayWait : Bool} (h : Goes direct q r) :
    Goes direct q (r.settlePublishing job task mayWait) := by
  unfold Rehearsal.settlePublishing
  split
  · rename_i hpublish
    exact conclude (h.trans (goes_of_act? hpublish rfl))
  · dsimp only
    split
    · exact h
    · split
      · exact h
      · rename_i hdiscard
        exact conclude ((h.trans (goes_of_act? hdiscard rfl)).aside rfl)

theorem publish (h : Goes direct q r) : Goes direct q (r.publish job task) := by
  unfold Rehearsal.publish
  split
  · rename_i hplace
    exact settlePublishing (h.trans (goes_of_act? hplace rfl))
  · dsimp only
    split
    · exact setTimer (h.aside rfl)
    · exact h.settlePublishing

theorem finishTask (h : Goes direct q r) : Goes direct q (r.finishTask job task) := by
  have haccounted : Goes direct q
      (((r.act job (.job (.release task))).handSlot job).act job (.job (.account task))) :=
    act (handSlot (h.act rfl)) rfl
  unfold Rehearsal.finishTask
  dsimp only
  split
  · exact haccounted.publish
  · exact haccounted.conclude

theorem panic {reason : String} (h : Goes direct q r) : Goes direct q (r.panic reason actor) := by
  cases actor with
  | caller => exact h.aside rfl
  | task job task => exact conclude (handSlot (h.act rfl))

theorem drive (fuel : Nat) {lane : Lane} (h : Goes direct q r) :
    Goes direct q (Rehearsal.drive fuel r actor lane) := by
  induction fuel generalizing r lane with
  | zero => exact h
  | succ fuel ih =>
    have hexchange : ∀ lane, Goes direct q
        (r.exchange (r.jobOf actor) (callerOf actor lane) actor (.lane lane)).1 :=
      fun lane => h.exchange _
    unfold Rehearsal.drive
    dsimp only
    split
    · exact h
    · split
      · split
        · exact h
        · exact h.finishTask
      · exact h.panic
      · split
        · exact ih (h.act (isPass_wakeAction actor))
        · exact h.setTimer
      · split
        · split
          · split
            · exact ih ((hexchange _).act rfl)
            · exact hexchange _
            · exact (hexchange _).panic
          · exact h.aside (scene_refill ..)
        · exact h.aside (scene_refill ..)
      · split
        · exact ih ((hexchange _).act rfl)
        · exact hexchange _
        · exact (hexchange _).panic

theorem follow (h : Goes direct q r) : Goes direct q (r.follow actor signal) := by
  unfold Rehearsal.follow
  dsimp only
  split
  · split
    · rename_i hgrant
      exact drive budget (act (h.trans (goes_of_act? hgrant rfl)) rfl)
    · exact h.aside rfl
  · exact drive budget (h.act rfl)
  · exact h.settlePublishing
  · exact h.settlePublishing
  · exact drive budget (act (h.act rfl) rfl)
  · exact drive budget (h.act (isPass_wakeAction actor))
  · split
    · exact drive budget (h.act (isPass_partAction actor))
    · exact h
  · exact h

theorem takeTurn (fuel : Nat) (h : Goes direct q r) :
    Goes direct q (Rehearsal.takeTurn fuel r actor) := by
  induction fuel generalizing r with
  | zero => exact h
  | succ fuel ih =>
    unfold Rehearsal.takeTurn
    split
    · exact h
    · rename_i signal s hsignal
      exact ih (follow (h.aside (scene_nextSignal? hsignal)))

theorem pump (isReady : Rehearsal → Bool) (fuel : Nat) (h : Goes direct q r) :
    Goes direct q (Rehearsal.pump isReady fuel r) := by
  induction fuel generalizing r with
  | zero => exact h
  | succ fuel ih =>
    unfold Rehearsal.pump
    split
    · exact ih (takeTurn budget (h.aside rfl))
    · split
      · exact h
      · split
        · exact h
        · rename_i hadvance
          have hadvanced := h.aside (scene_advance? hadvance)
          split
          · exact hadvanced
          · exact ih hadvanced

theorem greet {first : Nat} (h : Goes direct q r) : Goes direct q (r.greet job first) := by
  unfold Rehearsal.greet
  split
  · exact h
  · exact h.aside (scene_foldl (fun r task =>
      show (r.notify (.task job task) .acquire).scene = r.scene from rfl) _ _)

theorem sleep {ms : Nat} (h : Goes direct q r) : Goes direct q (r.sleep ms) := by
  unfold Rehearsal.sleep
  split
  · exact h
  · exact (pump _ budget h.setTimer).aside rfl

theorem attendCopy (fuel : Nat) (h : Goes direct q r) : Goes direct q (Rehearsal.attendCopy fuel r) := by
  induction fuel generalizing r with
  | zero => exact h
  | succ fuel ih =>
    unfold Rehearsal.attendCopy
    dsimp only
    split
    · exact takeTurn budget h
    · split
      · exact ih (pump _ budget (takeTurn budget h))
      · exact pump _ budget (takeTurn budget h)

theorem migrateObject {object : ObjectDescriptor} (h : Goes direct q r) :
    Goes direct q (r.migrateObject object).1 :=
  act (attendCopy budget (drive budget (h.act rfl))) rfl

theorem openFeed {token : Option String} (h : Goes direct q r) :
    Goes direct q (r.openFeed job token).1 :=
  h.act rfl

theorem closeResults (h : Goes direct q r) : Goes direct q r.closeResults :=
  aside (act h rfl) (scene_foldl (fun r (p : Nat × Nat) =>
    show (r.notify (.task p.1 p.2) .queue).scene = r.scene from rfl) _ _)

end Goes

/-- A rehearsal has gone on, and what it returns is what an action of the job has returned. -/
def Tells (direct : Prop) (q : Rehearsal) (job : Nat) (out : Rehearsal × Option Return) : Prop :=
  ∃ events, Runs direct q events out.1 ∧
    ∀ value, out.2 = some value → ∃ e ∈ events, e.1 = job ∧ e.2.after.returned = some value

namespace Tells

variable {out : Rehearsal × Option Return} {told : Option Return}

theorem goes (h : Tells direct q job out) : Goes direct q out.1 := by
  obtain ⟨events, hruns, -⟩ := h
  exact ⟨events, hruns⟩

theorem of_goes (h : Goes direct q r) : Tells direct q job (r, none) := by
  obtain ⟨events, hruns⟩ := h
  exact ⟨events, hruns, nofun⟩

theorem actAndGreet {action : WorldAction} (h : Goes direct q r) (htime : action.isPass = false) :
    Tells direct q job (r.actAndGreet job action) := by
  unfold Rehearsal.actAndGreet
  dsimp only
  split
  · exact of_goes h
  · rename_i s returned hact
    obtain ⟨before, hbefore⟩ := h
    obtain ⟨e, hruns, hreturned⟩ := runs_of_act? direct hact htime
    obtain ⟨greetings, hgreet⟩ := (Goes.refl direct s).greet
    refine ⟨_, (hbefore.trans hruns).trans hgreet, fun value hvalue => ⟨(job, e), by simp, rfl, ?_⟩⟩
    exact hreturned.trans hvalue

theorem attend {feed : Nat} (fuel : Nat) (h : Tells direct q job (r, told)) :
    Tells direct q job (Rehearsal.attend job feed fuel r told) := by
  induction fuel generalizing r told with
  | zero => cases told <;> exact h
  | succ fuel ih =>
    cases told with
    | some value => exact h
    | none =>
      have hgoes : Goes direct q r := h.goes
      unfold Rehearsal.attend
      dsimp only
      split
      · have hexchange : Goes direct q (r.exchange job (.feed feed) .caller .slept).1 :=
          hgoes.exchange _
        split
        · exact ih (actAndGreet hexchange rfl)
        · exact of_goes hexchange
        · exact of_goes (hexchange.aside rfl)
      · split
        · exact ih (actAndGreet hgoes rfl)
        · split
          · exact ih (of_goes (hgoes.pump _ budget))
          · exact of_goes (hgoes.pump _ budget)
      · exact h

theorem callFeed {feed : Nat} {action : JobAction} (h : Goes direct q r) :
    Tells direct q job (r.callFeed job feed action) :=
  attend budget (actAndGreet h rfl)

theorem attendBatch {batch : Nat} (fuel : Nat) (h : Tells direct q job (r, told)) :
    Tells direct q job (Rehearsal.attendBatch job batch fuel r told) := by
  induction fuel generalizing r told with
  | zero => cases told <;> exact h
  | succ fuel ih =>
    cases told with
    | some value => exact h
    | none =>
      have hgoes : Goes direct q r := h.goes
      unfold Rehearsal.attendBatch
      dsimp only
      split
      · exact ih (actAndGreet hgoes rfl)
      · split
        · exact ih (of_goes (hgoes.pump _ budget))
        · exact of_goes (hgoes.pump _ budget)

theorem callBatch {lines : List String} (h : Goes direct q r) :
    Tells direct q job (r.callBatch job lines) :=
  attendBatch budget (actAndGreet h rfl)

end Tells

/-- A rehearsal has gone on, and each result that was taken is one that an action has returned. -/
def Takes (direct : Prop) (q : Rehearsal) (out : Rehearsal × List CopyResult) : Prop :=
  ∃ events, Runs direct q events out.1 ∧
    ∀ result ∈ out.2, ∃ e ∈ events, e.2.after.returned = some (.received result)

namespace Takes

variable {taken : List CopyResult}

theorem goes (h : Takes direct q (r, taken)) : Goes direct q r := by
  obtain ⟨events, hruns, -⟩ := h
  exact ⟨events, hruns⟩

theorem trans (h : Takes direct q (r, taken)) (hgoes : Goes direct r s) :
    Takes direct q (s, taken) := by
  obtain ⟨before, hruns, htaken⟩ := h
  obtain ⟨events, hgoes⟩ := hgoes
  refine ⟨_, hruns.trans hgoes, fun result hresult => ?_⟩
  obtain ⟨e, he, hreturned⟩ := htaken result hresult
  exact ⟨e, List.mem_append_left _ he, hreturned⟩

theorem cons {result : CopyResult} (h : Takes direct q (r, taken))
    (hact : r.act? job (.job .receive) = some (s, some (.received result))) :
    Takes direct q (s, result :: taken) := by
  obtain ⟨before, hruns, htaken⟩ := h
  obtain ⟨e, hreceive, hreturned⟩ := runs_of_act? direct hact rfl
  refine ⟨_, hruns.trans hreceive, List.forall_mem_cons.mpr ⟨?_, fun other hother => ?_⟩⟩
  · exact ⟨_, List.mem_append_right _ (List.mem_singleton_self _), hreturned⟩
  · obtain ⟨e', he', hreturned'⟩ := htaken other hother
    exact ⟨e', List.mem_append_left _ he', hreturned'⟩

theorem reverse (h : Takes direct q (r, taken)) : Takes direct q (r, taken.reverse) := by
  obtain ⟨events, hruns, htaken⟩ := h
  exact ⟨events, hruns, fun result hresult => htaken result (List.mem_reverse.mp hresult)⟩

theorem takeResults (fuel : Nat) (h : Takes direct q (r, taken)) :
    Takes direct q (Rehearsal.takeResults fuel r taken) := by
  induction fuel generalizing r taken with
  | zero => exact h.reverse
  | succ fuel ih =>
    unfold Rehearsal.takeResults
    split
    · rename_i s _ hact
      exact ih ((h.cons hact).trans (Goes.refl direct s).handPlace)
    · exact h.reverse

theorem receiveAll (h : Goes direct q r) : Takes direct q r.receiveAll := by
  obtain ⟨events, hruns⟩ := h
  exact takeResults budget ⟨events, hruns, nofun⟩

end Takes

section Direct

variable (hdirect : direct)
include hdirect

theorem Goes.enterDirect {index : Nat} {call : Call} (h : Goes direct q r) :
    Goes direct q (r.enterDirect index call).1 := by
  unfold Rehearsal.enterDirect
  dsimp only
  have hentered : Goes direct q
      { r with stores := r.stores.set call.side ((r.stores.get call.side).enter call.request).2 } :=
    h.half hdirect (.enter call.request)
  split
  · exact hentered
  · split
    · refine hentered.half hdirect ?_
      rw [Stores.get_set]
      exact .finish call.request
    · exact hentered.setTimer

theorem Goes.enterAll {index : Nat} {calls : List Call} (h : Goes direct q r) :
    Goes direct q (Rehearsal.enterAll index calls r).1 := by
  induction calls generalizing index r with
  | nil => exact h
  | cons call rest ih => exact ih (h.enterDirect hdirect)

theorem Goes.finishDirect {index : Nat} {calls : DirectCalls} (h : Goes direct q r) :
    Goes direct q (r.finishDirect index calls).1 := by
  unfold Rehearsal.finishDirect
  split
  · exact h.half hdirect (.finish _)
  · exact h

theorem Goes.attendCalls (fuel : Nat) {calls : DirectCalls} (h : Goes direct q r) :
    Goes direct q (Rehearsal.attendCalls fuel r calls).1 := by
  induction fuel generalizing r calls with
  | zero => exact h
  | succ fuel ih =>
    unfold Rehearsal.attendCalls
    split
    · rename_i hsignal
      exact ih (Goes.finishDirect hdirect (h.aside (scene_nextSignal? hsignal)))
    · rename_i hsignal
      exact ih (h.aside (scene_nextSignal? hsignal))
    · split
      · exact h
      · dsimp only
        split
        · exact ih (h.pump _ budget)
        · exact h.pump _ budget

theorem Goes.callStores {calls : List Call} (h : Goes direct q r) :
    Goes direct q (r.callStores calls).1 :=
  Goes.attendCalls hdirect budget (h.enterAll hdirect)

end Direct

/-- What the caller of a rehearsal may do next. Storage calls of its own are `direct`. -/
inductive Called (direct : Prop) (r : Rehearsal) : Rehearsal → Prop
  | openFeed (job : Nat) (token : Option String) : Called direct r (r.openFeed job token).1
  | dropFeed (job feed : Nat) : Called direct r (r.act job (.job (.dropFeed feed)))
  | callFeed (job feed : Nat) (action : JobAction) : Called direct r (r.callFeed job feed action).1
  | callBatch (job : Nat) (lines : List String) : Called direct r (r.callBatch job lines).1
  | migrateObject (object : ObjectDescriptor) : Called direct r (r.migrateObject object).1
  | receiveAll : Called direct r r.receiveAll.1
  | closeResults : Called direct r r.closeResults
  | sleep (ms : Nat) : Called direct r (r.sleep ms)
  | callStores (hdirect : direct) (calls : List Call) : Called direct r (r.callStores calls).1

theorem goes_of_called (h : Relation.ReflTransGen (Called direct) q r) : Goes direct q r := by
  induction h with
  | refl => exact .refl direct q
  | tail _ hcalled ih =>
    cases hcalled with
    | openFeed => exact ih.openFeed
    | dropFeed => exact ih.act rfl
    | callFeed => exact (Tells.callFeed ih).goes
    | callBatch => exact (Tells.callBatch ih).goes
    | migrateObject => exact ih.migrateObject
    | receiveAll => exact (Takes.receiveAll ih).goes
    | closeResults => exact ih.closeResults
    | sleep => exact ih.sleep
    | callStores hdirect => exact ih.callStores hdirect

/-- Whatever its caller does, a rehearsal of one job follows a path of its world, as long as the caller
makes no storage calls itself. So what is proved of all paths holds of all that can be rehearsed. -/
theorem exists_path_of_called {job : Job} {stores : Stores} {now : Int} {results : Option ResultQueue}
    (hprogress : job.progress = {})
    (h : Relation.ReflTransGen (Called False) (addManager { stores, now, results } job none) r) :
    ∃ events w, r.world? 0 = some w ∧
      World.Path { job := { job with results }, stores, now } events w := by
  obtain ⟨events, hruns⟩ := goes_of_called h
  have hgrounded : Grounded (addManager { stores, now, results } job none) := by
    intro m hm
    obtain rfl := List.mem_singleton.mp hm
    exact Nat.one_pos
  have hworld : (addManager { stores, now, results } job none).world? 0 =
      some { job := { job with results }, stores, now } := by
    cases job
    cases hprogress
    rfl
  obtain ⟨-, -, w, hw, hpath⟩ := hruns.path hgrounded rfl hworld
  exact ⟨_, w, hw, hpath⟩

end Rehearsal

end BucketMigration
