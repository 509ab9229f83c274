import BucketMigration.Proofs.World.Batched
import BucketMigration.Proofs.World.Confluence

/-!
# The driver does not matter

A run pages through the listing of the source. A batch is told the objects by lines, in any order.
On the same objects, with options that differ in nothing but the schedule, the two come to the same:
both are halted, or the tallies agree, and the bytes at the target, and the summary of the batch has
the numbers of the tally.
-/

namespace BucketMigration

def BatchSummary.ofSnapshot (s : Snapshot) : BatchSummary where
  dispatched := s.totalObjects
  migrated := s.migratedObjects
  skipped := s.skippedObjects
  failed := s.failedObjects

namespace World

/-- What a run and a batch have returned is the same, and so are the tallies and the bytes at the
target: each returns the error that its job is halted for, or neither is halted. -/
inductive DriversAgree (v w : World) : Return → Return → Prop
  | halted {e e' : MigrationError} (hv : v.job.halt = some e) (hw : w.job.halt = some e')
      (he : e.Halting) (he' : e'.Halting) : DriversAgree v w (.ran (.error e)) (.batch (.error e'))
  | completed {summary : BatchSummary} (hsnapshot : w.job.snapshot = v.job.snapshot)
      (hdata : w.targetData? = v.targetData?)
      (hsummary : w.job.tasks.length < 2 ^ 64 → summary = .ofSnapshot v.job.snapshot) :
      DriversAgree v w (.ran (.ok v.job.snapshot)) (.batch (.ok summary))

variable {a b v w : World} {lines : List String} {x y : Watch}

theorem Completed.summary_eq {job : Job} (h : Completed a job) (hfew : job.tasks.length < 2 ^ 64)
    {s : BatchSummary} (hdispatched : s.dispatched = job.tasks.length)
    (hnumber : ∀ status, s.number status = job.number status) :
    s = .ofSnapshot job.snapshot := by
  obtain ⟨htotal, hmigrated, hskipped, hfailed⟩ := h.accounted.snapshot hfew
  have hm : s.migrated = job.number .migrated := hnumber .migrated
  have hs : s.skipped = job.number .skipped := hnumber .skipped
  have hf : s.failed = job.number .failed := hnumber .failed
  rw [BatchSummary.ofSnapshot, htotal, hmigrated, hskipped, hfailed, h.failures, ← hdispatched,
    ← hm, ← hs, ← hf]

theorem SameTask.drivers_agree (hab : SameTask a b) (ha : Fresh a) (hb : Fresh b)
    (hv : Working a v) (hw : Working b w) (hjob : Foretells a v.job) (hjob' : Foretells b w.job)
    {r r' : Return}
    (hr : (∃ e, v.job.halt = some e ∧ r = .ran (.error e)) ∨
      v.job.halt = none ∧ Completed a v.job ∧ r = .ran (.ok v.job.snapshot))
    (hr' : (∃ e, w.job.halt = some e ∧ r' = .batch (.error e)) ∨
      w.job.halt = none ∧ Completed b w.job ∧ ∃ s : BatchSummary, r' = .batch (.ok s) ∧
        s.dispatched = w.job.tasks.length ∧ ∀ status, s.number status = w.job.number status) :
    DriversAgree v w r r' := by
  rcases hr with ⟨e, hhalt, rfl⟩ | ⟨hhalt, hcompleted, rfl⟩
  · obtain ⟨he, d, hd, hdoomed⟩ := hjob.halting ha hv hhalt
    rcases hr' with ⟨e', hhalt', rfl⟩ | ⟨hhalt', hcompleted', -⟩
    · exact .halted hhalt hhalt' he (hjob'.halting hb hw hhalt').1
    · rw [← hab.objects_eq] at hd
      exact absurd ((hab.doomed_iff d).mpr hdoomed) (hcompleted'.safe hb hw hhalt' d hd)
  · rcases hr' with ⟨e', hhalt', -⟩ | ⟨hhalt', hcompleted', s, rfl, hdispatched, hnumber⟩
    · obtain ⟨-, d, hd, hdoomed⟩ := hjob'.halting hb hw hhalt'
      rw [hab.objects_eq] at hd
      exact absurd ((hab.doomed_iff d).mp hdoomed) (hcompleted.safe ha hv hhalt d hd)
    · have hsnapshot : w.job.snapshot = v.job.snapshot := by
        rw [hcompleted.snapshot_eq, hcompleted'.snapshot_eq, hab.objects_eq, hab.snapshot_eq]
      refine .completed hsnapshot ?_ ?_
      · rw [hcompleted.targetData_eq hv, hcompleted'.targetData_eq hw, hab.objects_eq, hab.data_eq]
      · intro hfew
        rw [← hsnapshot]
        exact hcompleted'.summary_eq hfew hdispatched hnumber

/-- A run over a listing and a batch that has a line for each of its objects, in any order and with
blank lines anywhere in between, both return and agree. -/
theorem run_agrees_with_batch (ha : Fresh a) (hb : Fresh b) (hab : SameTask a b)
    (hwritable : ∀ d ∈ a.listing.objects, Batch.Writable d)
    (hlines : (lines.filter fun line => !Text.isBlankText line.toList).Perm
      (a.listing.objects.map Batch.line))
    (hx : Begins a x) (hy : BeginsBatch b lines y) :
    Inevitable Watch.Round (fun v => v.returned ≠ none) x ∧
    Inevitable (Watch.Cycle (.batch 0)) (fun w => w.returned ≠ none) y ∧
    ∀ v w r r', Watch.Reach x v → v.returned = some r →
      Watch.Leads (.batch 0) y w → w.returned = some r' → DriversAgree v.world w.world r r' := by
  rw [← hab.objects_eq] at hwritable hlines
  have hbegun : BatchedAt b y := hb.batched hwritable hlines hy
  refine ⟨ha.inevitable hx, hbegun.inevitable hb, ?_⟩
  intro v w r r' hv hr hw hr'
  obtain ⟨k, feed, hsweep⟩ := Watch.Reach.sweep ha hx hv
  have hjob := Watch.Reach.foretells ha hx hv
  obtain ⟨⟨⟨joined, batch, hbatched⟩, hjob'⟩, -⟩ := Watch.Leads.batchedAt hb hbegun hw
  exact hab.drivers_agree ha hb hsweep.working hbatched.working hjob hjob'
    (hsweep.returned_cases ha hjob hr) (hbatched.returned_cases hb hjob' hr')

def Watch.attemptTurn (d : Driver) (x : Watch) (action : WorldAction) : Watch :=
  if x.returned.isSome then x
  else
    match x.world.act action with
    | some t =>
        if (⟨x.world, action, t⟩ : Event).isDrivenBy d then
          ⟨t.world, if action.driver? = some d then t.returned else none⟩
        else x
    | none => x

theorem Watch.leads_attemptTurn (d : Driver) (x : Watch) (action : WorldAction) :
    Watch.Leads d x (x.attemptTurn d action) := by
  unfold attemptTurn
  split
  · exact .refl
  · rename_i hwaits
    have hwaits : x.returned = none := by simpa using hwaits
    split
    · rename_i t hact
      split
      · rename_i hdriven
        exact .single ⟨action, .turn hwaits hact hdriven⟩
      · exact .refl
    · exact .refl

theorem Watch.leads_foldl (d : Driver) (x : Watch) (actions : List WorldAction) :
    Watch.Leads d x (actions.foldl (Watch.attemptTurn d) x) := by
  induction actions generalizing x with
  | nil => exact .refl
  | cons action rest ih => exact (x.leads_attemptTurn d action).trans (ih _)

/-- Two objects with odd keys, the first of them in two parts. -/
def oddKeys : World where
  job :=
    { setup :=
        { source := { bucket := "from" }
          target := { bucket := "to" }
          options := { multipartThreshold := 2, partSize := 2 } }
      freeSlots := 10 }
  stores := .shared ((({} : Store).write "from" "a|1 \n" ⟨⟨#[1, 2, 3]⟩, 0, "", none⟩).write "from" "|"
    ⟨⟨#[4]⟩, 0, "", none⟩)
  now := 0

theorem fresh_oddKeys : Fresh oddKeys where
  job := ⟨none, rfl⟩
  calls := rfl
  solo := rfl
  apart := fun _ _ => show "from" ≠ "to" by decide
  faults := fun side => by cases side <;> rfl
  tokens := rfl
  ids := Store.freshIds_of_uploads_empty rfl

theorem SameTask.refl (a : World) : SameTask a a where
  stores := ⟨fun _ => rfl, rfl⟩
  setup := ⟨_, _, _, _, _, rfl⟩

def oddLines : List String :=
  ["", "||1", " \n", "a|1 \n|3"]

def oddBatch : Watch :=
  ⟨(oddKeys.ofTransition (oddKeys.job.beginBatch oddLines)).world,
    (oddKeys.job.beginBatch oddLines).returned⟩

def Watch.afterTurns (x : Watch) (n : Nat) (tasks parts : List Nat) : Watch :=
  ((List.replicate n (everyTurn tasks parts ++
    tasks.map fun t => .job (.joinBatch 0 t))).flatten).foldl (Watch.attemptTurn (.batch 0)) x

theorem objects_oddKeys : oddKeys.listing.objects = [⟨"a|1 \n", 3⟩, ⟨"|", 1⟩] := by
  decide +kernel

theorem writable_oddKeys : ∀ d ∈ oddKeys.listing.objects, Batch.Writable d := by
  rw [objects_oddKeys]
  simp only [List.mem_cons, List.not_mem_nil, or_false]
  rintro d (rfl | rfl)
  · exact ⟨by decide, by decide⟩
  · exact ⟨by decide, by decide⟩

theorem oddLines_perm : (oddLines.filter fun line => !Text.isBlankText line.toList).Perm
    (oddKeys.listing.objects.map Batch.line) := by
  rw [objects_oddKeys]
  decide +kernel

def summary? : Return → Option BatchSummary
  | .batch (.ok s) => some s
  | _ => none

/-- Both objects arrive either way. -/
theorem run_agrees_with_batch_odd_keys :
    ∃ v w, Watch.Reach ⟨oddKeys.running, none⟩ v ∧ Watch.Leads (.batch 0) oddBatch w ∧
      v.returned = some (.ran (.ok v.world.job.snapshot)) ∧
      w.returned = some (.batch (.ok ⟨2, 2, 0, 0⟩)) ∧
      w.world.job.snapshot = v.world.job.snapshot ∧
      w.world.targetData? = v.world.targetData? := by
  have hran : (oddKeys.afterRounds 12 [0, 1] [1, 2]).returned.isSome = true := by
    decide +kernel
  have hbatch : (oddBatch.afterTurns 12 [1, 0] [2, 1]).returned.map summary? =
      some (some ⟨2, 2, 0, 0⟩) := by
    decide +kernel
  obtain ⟨r, hr⟩ := Option.isSome_iff_exists.mp hran
  obtain ⟨r', hr', htwo⟩ := Option.map_eq_some_iff.mp hbatch
  have hv := Watch.reach_foldl ⟨oddKeys.running, none⟩
    (List.replicate 12 (everyTurn [0, 1] [1, 2])).flatten
  have hw := Watch.leads_foldl (.batch 0) oddBatch (List.replicate 12 (everyTurn [1, 0] [2, 1] ++
    [1, 0].map fun t => .job (.joinBatch 0 t))).flatten
  have hagree := (run_agrees_with_batch fresh_oddKeys fresh_oddKeys (.refl oddKeys)
    writable_oddKeys oddLines_perm fresh_oddKeys.begins (.batch rfl)).2.2 _ _ r r' hv hr hw hr'
  cases hagree with
  | halted => cases htwo
  | @completed summary hsnapshot hdata =>
    obtain rfl := Option.some.inj htwo
    exact ⟨_, _, hv, hw, hr, hr', hsnapshot, hdata⟩

end World

end BucketMigration
