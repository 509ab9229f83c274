import BucketMigration.Proofs.World.Completion
import BucketMigration.Proofs.World.Foresight

/-!
# The schedule does not matter

Two runs are compared that start from the same objects, with options that differ in nothing but how
the work is scheduled and told. The pages may be of other sizes, more or fewer tasks and parts may be
under way at a time, results may be delivered or not, and everything may happen in any order. Both
runs return, and they come to the same.
-/

namespace BucketMigration

namespace World

/-- What two runs have returned is the same for both, and so are the bytes that they leave: each
returns the error that its job is halted for, or both return the same tally. -/
inductive Agree (v w : World) : Return → Return → Prop
  | halted {e e' : MigrationError} (hv : v.job.halt = some e) (hw : w.job.halt = some e')
      (he : e.Halting) (he' : e'.Halting) : Agree v w (.ran (.error e)) (.ran (.error e'))
  | completed (s : Snapshot) (hdata : w.targetData? = v.targetData?) :
      Agree v w (.ran (.ok s)) (.ran (.ok s))

variable {start other v w : World} {x y : Watch} {r r' : Return}

/-- Two worlds that a run may start from, with the same objects and options that differ only in the
schedule. -/
structure SameTask (start other : World) : Prop where
  stores : start.stores.Like other.stores
  setup : start.job.setup.Reschedules other.job.setup

section SameTask

variable (h : SameTask start other)
include h

theorem SameTask.objects_eq : other.listing.objects = start.listing.objects := by
  show other.scope = start.scope
  rw [scope, scope, h.setup.ends_eq.1]
  exact Store.scope_congr (congrFun (h.stores.objects .source) _) _

theorem SameTask.doomed_iff (d : ObjectDescriptor) :
    Doomed other.stores other.job.setup d ↔ Doomed start.stores start.job.setup d := by
  unfold Doomed
  rw [forecast_eq h.stores h.setup]

theorem SameTask.snapshot_eq (objects : List ObjectDescriptor) :
    foretoldSnapshot other.stores other.job.setup objects =
      foretoldSnapshot start.stores start.job.setup objects := by
  unfold foretoldSnapshot foretoldNumber
  rw [forecast_eq h.stores h.setup]

theorem SameTask.data_eq (objects : List ObjectDescriptor) :
    foretoldData? other.stores other.job.setup objects =
      foretoldData? start.stores start.job.setup objects := by
  have htargetKey : other.job.setup.targetKey = start.job.setup.targetKey := by
    funext key
    rw [Setup.targetKey, Setup.targetKey, h.setup.ends_eq.1, h.setup.ends_eq.2]
  funext key
  unfold foretoldData?
  rw [forecast_eq h.stores h.setup, htargetKey, h.setup.ends_eq.1, h.setup.ends_eq.2,
    h.stores.objects, h.stores.objects]

theorem SameTask.agree (hr : Foreseen start v r) (hr' : Foreseen other w r') : Agree v w r r' := by
  cases hr with
  | halted hhalt he hdoomed =>
    cases hr' with
    | halted hhalt' he' => exact .halted hhalt hhalt' he he'
    | completed hsafe =>
      obtain ⟨d, hd, hdoomed⟩ := hdoomed
      rw [← h.objects_eq] at hd
      exact absurd ((h.doomed_iff d).mpr hdoomed) (hsafe d hd)
  | completed hsafe hdata =>
    cases hr' with
    | halted _ _ hdoomed =>
      obtain ⟨d, hd, hdoomed⟩ := hdoomed
      rw [h.objects_eq] at hd
      exact absurd ((h.doomed_iff d).mp hdoomed) (hsafe d hd)
    | completed hsafe' hdata' =>
      rw [h.objects_eq, h.data_eq] at hdata'
      rw [h.objects_eq, h.snapshot_eq]
      exact .completed _ (hdata'.trans hdata.symm)

end SameTask

/-- The result of a run does not depend on its schedule. -/
theorem runs_agree {a b : World} {x y : Watch} (ha : Fresh a) (hb : Fresh b) (hab : SameTask a b)
    (hx : Begins a x) (hy : Begins b y) :
    Inevitable Watch.Round (fun v => v.returned ≠ none) x ∧
    Inevitable Watch.Round (fun v => v.returned ≠ none) y ∧
    ∀ v w r r', Watch.Reach x v → v.returned = some r → Watch.Reach y w → w.returned = some r' →
      Agree v.world w.world r r' := by
  refine ⟨ha.inevitable hx, hb.inevitable hy, ?_⟩
  intro v w r r' hv hr hw hr'
  exact hab.agree (hv.foreseen ha hx hr) (hw.foreseen hb hy hr')

def Watch.attempt (x : Watch) (action : WorldAction) : Watch :=
  if x.returned.isSome then x
  else
    match x.world.act action with
    | some t =>
        if (⟨x.world, action, t⟩ : Event).isOfRun then
          ⟨t.world, if action.feed? = some 0 then t.returned else none⟩
        else x
    | none => x

theorem Watch.reach_attempt (x : Watch) (action : WorldAction) :
    Watch.Reach x (x.attempt action) := by
  unfold attempt
  split
  · exact .refl
  · rename_i hwaits
    have hwaits : x.returned = none := by simpa using hwaits
    split
    · rename_i t hact
      split
      · rename_i hrun
        exact .single ⟨action, .step hwaits hact hrun⟩
      · exact .refl
    · exact .refl

theorem Watch.reach_foldl (x : Watch) (actions : List WorldAction) :
    Watch.Reach x (actions.foldl Watch.attempt x) := by
  induction actions generalizing x with
  | nil => exact .refl
  | cons action rest ih => exact (x.reach_attempt action).trans (ih _)

/-- Two objects to migrate, the first of them in two parts. -/
def twoObjects (options : MigrationOptions) (results : Option ResultQueue) : World where
  job :=
    { setup :=
        { source := { bucket := "from" }
          target := { bucket := "to" }
          options := { options with multipartThreshold := 2, partSize := 2 } }
      freeSlots := options.concurrency
      results }
  stores := .shared ((({} : Store).write "from" "a" ⟨⟨#[1, 2, 3]⟩, 0, "", none⟩).write "from" "b"
    ⟨⟨#[4]⟩, 0, "", none⟩)
  now := 0

def callSteps (caller : Caller) : List WorldAction :=
  [.enter caller, .finish caller, .deliver caller]

/-- All that a feed, some tasks and the consumer may do, with the tasks and parts in some order. -/
def everyTurn (tasks parts : List Nat) : List WorldAction :=
  callSteps (.feed 0) ++ tasks.flatMap (fun t =>
    [.job (.grant t), .job (.start t)] ++ callSteps (.task t .whole) ++
      parts.map (fun _ => .job (.startPart t)) ++
      parts.flatMap (fun n => callSteps (.task t (.part n))) ++
      [.job (.release t), .job (.account t), .job (.place t), .job (.publish t),
        .job (.join 0 t)]) ++
  [.job .receive]

/-- One object at a time, on a page of its own and part by part. -/
def slowly : World :=
  twoObjects { pageSize := 1, concurrency := 1, partConcurrency := some 1 } none

def quickly : World :=
  twoObjects { verbose := true } (some { capacity := 1 })

def afterRounds (start : World) (n : Nat) (tasks parts : List Nat) : Watch :=
  ((List.replicate n (everyTurn tasks parts)).flatten).foldl Watch.attempt ⟨start.running, none⟩

theorem fresh_twoObjects {options : MigrationOptions} {results : Option ResultQueue}
    (hvalid : (twoObjects options results).job.setup.options.validate = .ok ()) :
    Fresh (twoObjects options results) where
  job := ⟨results, by unfold Job.new?; rw [hvalid]; rfl⟩
  calls := rfl
  solo := rfl
  apart := fun _ _ => show "from" ≠ "to" by decide
  faults := fun side => by cases side <;> rfl
  tokens := rfl
  ids := Store.freshIds_of_uploads_empty rfl

theorem fresh_slowly : Fresh slowly :=
  fresh_twoObjects rfl

theorem fresh_quickly : Fresh quickly :=
  fresh_twoObjects rfl

theorem sameTask_slowly_quickly : SameTask slowly quickly where
  stores := ⟨fun _ => rfl, rfl⟩
  setup := ⟨_, _, _, _, _, rfl⟩

def snapshot? : Return → Option Snapshot
  | .ran (.ok s) => some s
  | _ => none

/-- Both objects arrive either way. -/
theorem runs_agree_two_objects :
    ∃ v w s, Watch.Reach ⟨slowly.running, none⟩ v ∧ Watch.Reach ⟨quickly.running, none⟩ w ∧
      v.returned = some (.ran (.ok s)) ∧ w.returned = some (.ran (.ok s)) ∧
      s.migratedObjects = 2 ∧ w.world.targetData? = v.world.targetData? := by
  have hslow : (slowly.afterRounds 12 [0, 1] [1, 2]).returned.map
      (fun r => (snapshot? r).map Snapshot.migratedObjects) = some (some 2) := by
    decide +kernel
  have hquick : (quickly.afterRounds 12 [1, 0] [2, 1]).returned.isSome = true := by
    decide +kernel
  obtain ⟨r, hr, htwo⟩ := Option.map_eq_some_iff.mp hslow
  obtain ⟨r', hr'⟩ := Option.isSome_iff_exists.mp hquick
  have hagree := (runs_agree fresh_slowly fresh_quickly sameTask_slowly_quickly
    fresh_slowly.begins fresh_quickly.begins).2.2 _ _ r r' (Watch.reach_foldl _ _) hr
    (Watch.reach_foldl _ _) hr'
  cases hagree with
  | halted => cases htwo
  | completed s hdata =>
    have htwo := Option.some.inj htwo
    exact ⟨_, _, s, Watch.reach_foldl _ _, Watch.reach_foldl _ _, hr, hr', htwo, hdata⟩

end World

end BucketMigration
