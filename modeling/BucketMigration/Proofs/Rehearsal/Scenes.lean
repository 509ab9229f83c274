import BucketMigration.Proofs.World.Paths
import BucketMigration.Rehearsal.Basic

/-!
# What a rehearsal is made of

A rehearsal chooses the next action, and the world of a job does it. What it keeps for its choices, such
as the line, the timers and the clock, has no bearing on the worlds. So a run of a rehearsal consists of
actions of its worlds, of halves of the storage calls that its caller makes itself, and of asides
that leave all worlds alone. With a single job, and without such calls, it is a path of one world.
-/

namespace BucketMigration

def WorldAction.isPass : WorldAction → Bool
  | pass _ => true
  | _ => false

theorem World.now_eq_of_act {w : World} {action : WorldAction} {t : WorldTransition}
    (hact : w.act action = some t) (htime : action.isPass = false) : t.world.now = w.now := by
  have hdeed := act_deed hact
  cases hdeed with
  | enter =>
    rw [enter_eq]
    rfl
  | pass => cases htime
  | aside haction =>
    cases action with
    | soloStart object =>
      simp only [act] at hact
      split at hact <;> cases hact
      rfl
    | soloWake | soloPart =>
      obtain ⟨copy, -, hnext⟩ := Option.bind_eq_some_iff.mp hact
      obtain ⟨next, -, rfl⟩ := Option.map_eq_some_iff.mp hnext
      rfl
    | soloEnd =>
      obtain ⟨copy, -, hend⟩ := Option.bind_eq_some_iff.mp hact
      obtain ⟨verdict, -, rfl⟩ := Option.map_eq_some_iff.mp hend
      rfl
    | deliver caller =>
      simp only [act] at hact
      split at hact
      · cases caller with
        | solo lane =>
          obtain ⟨copy, -, hnext⟩ := Option.bind_eq_some_iff.mp hact
          obtain ⟨next, -, rfl⟩ := Option.map_eq_some_iff.mp hnext
          rfl
        | _ => cases haction
      · cases hact
    | _ => cases haction
  | _ => rfl

namespace Rehearsal

open World (Event)

/-- All that the worlds of a rehearsal are put together from. -/
structure Scene where
  stores : Stores
  now : Int
  results : Option ResultQueue
  tallies : List Progress
  managers : List Manager

def scene (r : Rehearsal) : Scene :=
  ⟨r.stores, r.now, r.results, r.tallies, r.managers⟩

/-- One half of a storage call, as a store sees it. -/
inductive Half (now : Int) (store : Store) : Store → Prop
  | enter (request : Request) : Half now store (store.enter request).2
  | finish (request : Request) : Half now store (store.finish now request).2

/-- What has happened in the worlds from `start` on, each event with the number of its job. The halves
of storage calls come from the caller, and only when it makes `direct` ones. -/
inductive Runs (direct : Prop) (start : Rehearsal) : List (Nat × Event) → Rehearsal → Prop
  | start : Runs direct start [] start
  | aside {events : List (Nat × Event)} {r s : Rehearsal} (h : Runs direct start events r)
      (hscene : s.scene = r.scene) : Runs direct start events s
  | act {events : List (Nat × Event)} {r : Rehearsal} {job : Nat} {w : World} {action : WorldAction}
      {t : WorldTransition} (h : Runs direct start events r) (hworld : r.world? job = some w)
      (hact : w.act action = some t) (htime : action.isPass = false) :
      Runs direct start (events ++ [(job, ⟨w, action, t⟩)]) (r.setWorld job t.world)
  | half {events : List (Nat × Event)} {r : Rehearsal} (hdirect : direct)
      (h : Runs direct start events r) (side : Side) {store : Store}
      (hhalf : Half r.now (r.stores.get side) store) :
      Runs direct start events { r with stores := r.stores.set side store }

def Goes (direct : Prop) (r s : Rehearsal) : Prop :=
  ∃ events, Runs direct r events s

variable {direct : Prop} {start r s : Rehearsal} {events : List (Nat × Event)} {job : Nat}
  {action : WorldAction}

theorem Runs.trans {before : List (Nat × Event)} (h : Runs direct start before r)
    (h' : Runs direct r events s) : Runs direct start (before ++ events) s := by
  induction h' with
  | start => rwa [List.append_nil]
  | aside _ hscene ih => exact .aside ih hscene
  | act _ hworld hact htime ih =>
    rw [← List.append_assoc]
    exact .act ih hworld hact htime
  | half hdirect _ side hhalf ih => exact .half hdirect ih side hhalf

namespace Goes

theorem refl (direct : Prop) (r : Rehearsal) : Goes direct r r :=
  ⟨[], .start⟩

theorem trans {q : Rehearsal} (h : Goes direct q r) (h' : Goes direct r s) : Goes direct q s := by
  obtain ⟨before, h⟩ := h
  obtain ⟨events, h'⟩ := h'
  exact ⟨_, h.trans h'⟩

theorem of_scene (hscene : s.scene = r.scene) : Goes direct r s :=
  ⟨[], .aside .start hscene⟩

theorem aside {q : Rehearsal} (h : Goes direct q r) (hscene : s.scene = r.scene) : Goes direct q s :=
  h.trans (of_scene hscene)

theorem half {q : Rehearsal} (h : Goes direct q r) (hdirect : direct) {side : Side} {store : Store}
    (hhalf : Half r.now (r.stores.get side) store) :
    Goes direct q { r with stores := r.stores.set side store } :=
  h.trans ⟨[], .half hdirect .start side hhalf⟩

end Goes

theorem runs_of_act? (direct : Prop) {returned : Option Return}
    (h : r.act? job action = some (s, returned)) (htime : action.isPass = false) :
    ∃ e, Runs direct r [(job, e)] s ∧ e.after.returned = returned := by
  obtain ⟨w, hworld, hrest⟩ := Option.bind_eq_some_iff.mp h
  obtain ⟨t, hact, hnext⟩ := Option.bind_eq_some_iff.mp hrest
  cases hnext
  exact ⟨⟨w, action, t⟩, .aside (.act .start hworld hact htime) rfl, rfl⟩

theorem goes_of_act? {returned : Option Return} (h : r.act? job action = some (s, returned))
    (htime : action.isPass = false) : Goes direct r s := by
  obtain ⟨e, hruns, -⟩ := runs_of_act? direct h htime
  exact ⟨_, hruns⟩

theorem Goes.act {q : Rehearsal} (h : Goes direct q r) (htime : action.isPass = false) :
    Goes direct q (r.act job action) := by
  unfold Rehearsal.act
  cases hact : r.act? job action with
  | none => exact h
  | some next => exact h.trans (goes_of_act? hact htime)

def Grounded (r : Rehearsal) : Prop :=
  ∀ m ∈ r.managers, m.tally < r.tallies.length

theorem exists_manager {w : World} (h : r.world? job = some w) :
    ∃ m, r.managers[job]? = some m ∧ w =
      { m.world with
        job := { m.world.job with progress := r.tallies.getD m.tally {}, results := r.results }
        stores := r.stores
        now := r.now } := by
  obtain ⟨m, hm, rfl⟩ := Option.map_eq_some_iff.mp h
  exact ⟨m, hm, rfl⟩

theorem world?_setWorld {w v : World} (hgrounded : Grounded r) (hworld : r.world? job = some w)
    (hnow : v.now = w.now) : (r.setWorld job v).world? job = some v := by
  obtain ⟨m, hm, rfl⟩ := exists_manager hworld
  obtain ⟨hlt, -⟩ := List.getElem?_eq_some_iff.mp hm
  have htally := hgrounded m (List.mem_of_getElem? hm)
  have hnow : v.now = r.now := hnow
  simp only [setWorld, hm, world?, List.getElem?_set_self hlt, Option.map_some,
    List.getD_eq_getElem?_getD, List.getElem?_set_self htally, Option.getD_some, ← hnow]

/-- Other jobs notice no more of an action than what it does to the stores, the results and a tally. -/
theorem world?_setWorld_of_ne {other : Nat} {w u v : World} (hne : other ≠ job)
    (hworld : r.world? job = some w) (hother : r.world? other = some u) :
    ∃ progress, (r.setWorld job v).world? other = some
      { u with
        job := { u.job with progress, results := v.job.results }
        stores := v.stores } := by
  obtain ⟨m, hm, -⟩ := exists_manager hworld
  obtain ⟨n, hn, rfl⟩ := exists_manager hother
  refine ⟨(r.tallies.set m.tally v.job.progress).getD n.tally {}, ?_⟩
  simp only [setWorld, hm, world?, List.getElem?_set_ne hne.symm, hn, Option.map_some]

theorem grounded_setWorld (h : Grounded r) (v : World) : Grounded (r.setWorld job v) := by
  unfold setWorld
  split
  · exact h
  · rename_i m hm
    intro n hn
    rw [List.length_set]
    rcases List.mem_or_eq_of_mem_set hn with hold | rfl
    · exact h n hold
    · exact h m (List.mem_of_getElem? hm)

theorem length_managers_setWorld (r : Rehearsal) (job : Nat) (v : World) :
    (r.setWorld job v).managers.length = r.managers.length := by
  unfold setWorld
  split
  · rfl
  · exact List.length_set

/-- A rehearsal with a single job, whose caller makes no storage calls itself, follows a path of the
world of that job. -/
theorem Runs.path {w : World} (h : Runs False start events r) (hgrounded : Grounded start)
    (hone : start.managers.length = 1) (hworld : start.world? 0 = some w) :
    Grounded r ∧ r.managers.length = 1 ∧
      ∃ v, r.world? 0 = some v ∧ World.Path w (events.map Prod.snd) v := by
  induction h with
  | start => exact ⟨hgrounded, hone, w, hworld, .start⟩
  | @aside events r s _ hscene ih =>
    obtain ⟨hgrounded, hone, v, hv, hpath⟩ := ih
    simp only [scene, Scene.mk.injEq] at hscene
    obtain ⟨hstores, hnow, hresults, htallies, hmanagers⟩ := hscene
    refine ⟨?_, by rw [hmanagers, hone], v, ?_, hpath⟩
    · unfold Grounded
      rwa [hmanagers, htallies]
    · simpa only [world?, hstores, hnow, hresults, htallies, hmanagers] using hv
  | @act events r job u action t _ hu hact htime ih =>
    obtain ⟨hgrounded, hone, v, hv, hpath⟩ := ih
    obtain ⟨m, hm, -⟩ := exists_manager hu
    obtain rfl : job = 0 := by
      have hlt := (List.getElem?_eq_some_iff.mp hm).1
      omega
    obtain rfl : v = u := Option.some.inj (hv.symm.trans hu)
    refine ⟨grounded_setWorld hgrounded t.world, by rw [length_managers_setWorld, hone], t.world,
      world?_setWorld hgrounded hv (World.now_eq_of_act hact htime), ?_⟩
    rw [List.map_append]
    exact hpath.step hact
  | half hdirect => exact hdirect.elim

end Rehearsal

end BucketMigration
