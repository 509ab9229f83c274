import BucketMigration.Proofs.Copy.Replies
import BucketMigration.Proofs.Copy.Session

/-!
# Verdicts of a copy

What a copy may end with, and that it counts its object exactly when it ends: a migrated object as
migrated, a skipped one as skipped, and a failed one not at all. Errors that a copy ends with name
the key of an object, and an upload is never given up for a skip.
-/

namespace BucketMigration

def MigrationError.IsCause (e : MigrationError) : Prop :=
  e.isSkip = false ∧ e.key? ≠ none

/-- The errors that a phase holds are those that may come up in it. -/
def Phase.Sound : Phase → Prop
  | .copying s => ∀ n e, (n, .failed e) ∈ s.ended → e.IsCause
  | .aborting _ cause => cause.IsCause
  | .ended (.error e) => e.key? ≠ none
  | _ => True

namespace ObjectCopy

/-- A copy goes on: a call is answered, a pause is over or a part starts. -/
inductive Moves (setup : Setup) (c : ObjectCopy) : Next → Prop
  | reply {lane : Lane} {reply : Reply} {next : Next} (h : c.resume setup lane reply = some next) :
      Moves setup c next
  | wake {next : Next} (h : c.wake = some next) : Moves setup c next
  | startPart {next : Next} (h : c.startPart setup = some next) : Moves setup c next

/-- The group that a copy belongs to once it has ended. -/
def status? (c : ObjectCopy) : Option TaskStatus :=
  c.verdict?.map .ofVerdict

theorem status?_eq_skipped_iff (c : ObjectCopy) : c.status? = some .skipped ↔
    c.verdict? = some (.ok .targetCurrent) ∨
      ∃ key size limit, c.verdict? = some (.error (.skipLimitExceeded key size limit)) := by
  unfold status?
  rcases c.verdict? with - | (e | outcome)
  · simp
  · cases e <;> simp [TaskStatus.ofVerdict, MigrationError.isSkip]
  · cases outcome <;> simp [TaskStatus.ofVerdict]

theorem status?_eq_migrated_iff (c : ObjectCopy) : c.status? = some .migrated ↔
    ∃ mode bytes, c.verdict? = some (.ok (.migrated mode bytes)) := by
  unfold status?
  rcases c.verdict? with - | (e | outcome)
  · simp
  · cases e <;> simp [TaskStatus.ofVerdict, MigrationError.isSkip]
  · cases outcome <;> simp [TaskStatus.ofVerdict]

/-- A step counts what has come about by it, and nothing else. -/
structure Counts (next : Next) : Prop where
  sound : next.1.phase.Sound
  migrated : next.2.count .countMigrated = if next.1.status? = some .migrated then 1 else 0
  skipped : next.2.count .countSkipped = if next.1.status? = some .skipped then 1 else 0

variable {setup : Setup} {c : ObjectCopy}

theorem Counts.cons {next : Next} (h : Counts next) {e : Effect} (hmigrated : e ≠ .countMigrated)
    (hskipped : e ≠ .countSkipped) : Counts (next.1, e :: next.2) where
  sound := h.sound
  migrated := by rw [List.count_cons_of_ne hmigrated, h.migrated]
  skipped := by rw [List.count_cons_of_ne hskipped, h.skipped]

theorem counts_go {phase : Phase} (hsound : phase.Sound) (hgoes : ∀ v, phase ≠ .ended v) :
    Counts (c.go phase) := by
  have hnone : (c.go phase).1.status? = none := by
    cases phase with
    | ended v => exact absurd rfl (hgoes v)
    | _ => rfl
  exact ⟨hsound, by rw [hnone]; rfl, by rw [hnone]; rfl⟩

theorem counts_fail {e : MigrationError} (h : e.IsCause) : Counts (c.fail e) := by
  have hfailed : (c.fail e).1.status? = some .failed := by
    simp [status?, verdict?, fail, go, TaskStatus.ofVerdict, h.1]
  exact ⟨h.2, by rw [hfailed]; rfl, by rw [hfailed]; rfl⟩

theorem counts_abort {id : String} {cause : MigrationError} (h : cause.IsCause) :
    Counts (c.abort setup id cause) := by
  have hgo : Counts (c.go (.aborting id cause)) := counts_go h (by simp)
  exact hgo.cons (by simp [note]) (by simp [note])

theorem counts_settle {s : Session} (hs : ∀ n e, (n, .failed e) ∈ s.ended → e.IsCause) :
    Counts (c.settle setup s) := by
  cases hover : s.isOver with
  | false =>
    rw [c.settle_of_isOver_eq_false setup hover]
    exact counts_go hs (by simp)
  | true =>
    cases houtcome : s.outcome (c.targetKey setup) with
    | ok ps =>
      rw [c.settle_of_outcome_eq_ok setup hover houtcome]
      exact counts_go trivial (by simp)
    | error cause =>
      rw [c.settle_of_outcome_eq_error setup hover houtcome]
      apply counts_abort
      rcases Session.outcome_eq_error houtcome with hfailure | ⟨-, n, -, rfl⟩
      · obtain ⟨⟨n, how⟩, hended, hhow⟩ := List.exists_of_findSome?_eq_some hfailure
        cases how with
        | failed e =>
          cases hhow
          exact hs n _ hended
        | uploaded | leftOut => cases hhow
      · exact ⟨rfl, by simp [MigrationError.key?]⟩

theorem isCause_storage (key operation : String) (e : StorageError) :
    (MigrationError.storage key operation e).IsCause :=
  ⟨rfl, by simp [MigrationError.key?]⟩

theorem counts_transfer : Counts (c.transfer setup) := by
  unfold transfer
  split
  · exact counts_go trivial (by simp)
  · unfold transferInParts
    split
    · exact counts_go trivial (by simp)
    · exact counts_fail ⟨rfl, by simp [MigrationError.key?]⟩
    · exact counts_go trivial (by simp)

theorem counts_failCall (key operation : String) (e : StorageError) :
    Counts (c.failCall key operation e) :=
  counts_fail (isCause_storage ..)

theorem counts_described (attempt : Nat) (result : Except StorageError (Option ObjectMetadata)) :
    Counts (c.described setup attempt result) := by
  unfold described
  split
  · dsimp only
    split
    · exact counts_transfer
    · exact counts_go trivial (by simp)
  · exact counts_fail ⟨rfl, by simp [MigrationError.key?]⟩
  · dsimp only
    split
    · have hgo : Counts (c.go (.pausing attempt)) := counts_go trivial (by simp)
      exact hgo.cons (by simp [note]) (by simp [note])
    · split
      · exact counts_fail ⟨rfl, by simp [MigrationError.key?]⟩
      · exact counts_fail ⟨rfl, by simp [MigrationError.key?]⟩

theorem counts_compared (result : Except StorageError (Option ObjectMetadata)) :
    Counts (c.compared setup result) := by
  unfold compared
  split
  · exact counts_failCall ..
  · split
    · exact ⟨trivial, rfl, rfl⟩
    · exact counts_transfer

theorem forall_isCause_finish {s : Session} (hs : ∀ n e, (n, .failed e) ∈ s.ended → e.IsCause)
    {n : Nat} {how : PartEnd} (hhow : ∀ e, how = .failed e → e.IsCause) :
    ∀ m e, (m, .failed e) ∈ (s.finish n how).ended → e.IsCause := by
  intro m e he
  rcases List.mem_append.mp he with hold | hnew
  · exact hs m e hold
  · simp only [List.mem_singleton, Prod.mk.injEq] at hnew
    exact hhow e hnew.2.symm

theorem counts_resume {lane : Lane} {reply : Reply} {next : Next} (hsound : c.phase.Sound)
    (h : c.resume setup lane reply = some next) : Counts next := by
  cases hphase : c.phase with
  | describing attempt =>
    obtain ⟨-, result, -, rfl⟩ := resume_describing hphase h
    exact counts_described ..
  | comparing =>
    obtain ⟨-, result, -, rfl⟩ := resume_comparing hphase h
    exact counts_compared ..
  | reading =>
    obtain ⟨-, ⟨e, -, rfl⟩ | ⟨data, -, rfl⟩⟩ := resume_reading hphase h
    · exact counts_failCall ..
    · exact counts_go trivial (by simp)
  | writing data =>
    obtain ⟨-, ⟨e, -, rfl⟩ | ⟨-, rfl⟩⟩ := resume_writing hphase h
    · exact counts_failCall ..
    · exact ⟨trivial, rfl, rfl⟩
  | opening plan =>
    obtain ⟨-, ⟨e, -, rfl⟩ | ⟨id, -, rfl⟩⟩ := resume_opening hphase h
    · exact counts_failCall ..
    · exact (counts_settle (c := c) (by simp)).cons (by simp [note]) (by simp [note])
  | completing id ps =>
    obtain ⟨-, ⟨e, -, rfl⟩ | ⟨-, rfl⟩⟩ := resume_completing hphase h
    · exact counts_abort (isCause_storage ..)
    · exact ⟨trivial, rfl, rfl⟩
  | aborting id cause =>
    rw [hphase] at hsound
    obtain ⟨-, ⟨e, -, rfl⟩ | ⟨-, rfl⟩⟩ := resume_aborting hphase h
    · exact counts_fail ⟨rfl, by simp [MigrationError.key?]⟩
    · exact counts_fail hsound
  | copying s =>
    rw [hphase] at hsound
    obtain ⟨p, hp, -, hcases⟩ := resume_copying hphase h
    rcases hcases with ⟨-, e, -, rfl⟩ | ⟨-, data, -, rfl⟩ | ⟨data, -, e, -, rfl⟩ | ⟨data, -, etag, -, rfl⟩
    · refine counts_settle (forall_isCause_finish hsound ?_)
      rintro _ ⟨⟩
      exact isCause_storage ..
    · exact counts_go hsound (by simp)
    · refine counts_settle (forall_isCause_finish hsound ?_)
      rintro _ ⟨⟩
      exact isCause_storage ..
    · have hsettle : Counts (c.settle setup (s.finish p.part.number (.uploaded etag))) :=
        counts_settle (forall_isCause_finish hsound (by simp))
      exact (hsettle.cons (by simp [note]) (by simp [note])).cons (by simp) (by simp)
  | pausing | ended | overflowed =>
    unfold resume at h
    rw [hphase] at h
    cases lane <;> cases h

theorem Moves.counts {next : Next} (h : Moves setup c next) (hsound : c.phase.Sound) :
    Counts next := by
  cases h with
  | reply h => exact counts_resume hsound h
  | wake h =>
    unfold ObjectCopy.wake at h
    split at h
    · cases h
      exact counts_go trivial (by simp)
    · cases h
  | startPart h =>
    obtain ⟨s, part, waiting, hphase, hw, -, hcases⟩ := startPart_eq_some h
    rw [hphase] at hsound
    rcases hcases with ⟨-, rfl⟩ | ⟨-, rfl⟩
    · exact counts_settle (forall_isCause_finish hsound (by simp))
    · exact counts_go hsound (by simp)

theorem phase_of_verdict? {v : Verdict} (h : c.verdict? = some v) : c.phase = .ended v := by
  unfold verdict? at h
  split at h
  · cases h
    assumption
  · cases h

theorem verdict?_of_ended {v : Verdict} (h : c.phase = .ended v) : c.verdict? = some v := by
  simp only [verdict?, h]

theorem Moves.verdict?_eq_none {next : Next} (h : Moves setup c next) : c.verdict? = none := by
  unfold verdict?
  split
  · rename_i verdict hphase
    cases h with
    | reply h => simp [resume_ended hphase] at h
    | wake h => simp [ObjectCopy.wake, hphase] at h
    | startPart h => simp [ObjectCopy.startPart, hphase] at h
  · rfl

theorem counts_start (object : ObjectDescriptor) : Counts (start setup object) := by
  unfold start
  dsimp only
  split
  · exact counts_fail ⟨rfl, by simp [MigrationError.key?]⟩
  · split
    · refine ⟨by simp [Phase.Sound, MigrationError.key?], rfl, rfl⟩
    · exact ⟨trivial, rfl, rfl⟩

theorem counts_refuse (object : ObjectDescriptor) (cause : MigrationError) :
    Counts (refuse object cause) := by
  refine ⟨by simp [refuse, Phase.Sound, MigrationError.key?], rfl, rfl⟩

end ObjectCopy

/-- The metadata of the source is not known yet, and may still come. -/
def Phase.isFetching : Phase → Bool
  | .describing _ | .pausing _ => true
  | _ => false

namespace ObjectCopy

variable {setup : Setup} {c : ObjectCopy}

/-- A copy goes on with what it knows, and does not ask for the metadata of the source again. -/
def Passes (c : ObjectCopy) (next : Next) : Prop :=
  ∃ phase : Phase, phase.isFetching = false ∧ next.1 = { c with phase }

theorem passes_settle (setup : Setup) (c : ObjectCopy) (s : Session) :
    c.Passes (c.settle setup s) := by
  unfold settle
  split
  · split
    · exact ⟨_, rfl, rfl⟩
    · split <;> exact ⟨_, rfl, rfl⟩
  · exact ⟨_, rfl, rfl⟩

theorem passes_transfer (setup : Setup) (c : ObjectCopy) : c.Passes (c.transfer setup) := by
  unfold transfer
  split
  · exact ⟨_, rfl, rfl⟩
  · unfold transferInParts
    split <;> exact ⟨_, rfl, rfl⟩

theorem passes_compared (setup : Setup) (c : ObjectCopy)
    (result : Except StorageError (Option ObjectMetadata)) :
    c.Passes (c.compared setup result) := by
  unfold compared
  split
  · exact ⟨_, rfl, rfl⟩
  · split
    · exact ⟨_, rfl, rfl⟩
    · exact passes_transfer ..

theorem passes_resume {lane : Lane} {reply : Reply} {next : Next} (hpast : c.phase.isFetching = false)
    (h : c.resume setup lane reply = some next) : c.Passes next := by
  cases hphase : c.phase with
  | describing | pausing =>
    rw [hphase] at hpast
    cases hpast
  | comparing =>
    obtain ⟨-, result, -, rfl⟩ := resume_comparing hphase h
    exact passes_compared ..
  | reading =>
    obtain ⟨-, ⟨e, -, rfl⟩ | ⟨data, -, rfl⟩⟩ := resume_reading hphase h <;> exact ⟨_, rfl, rfl⟩
  | writing data =>
    obtain ⟨-, ⟨e, -, rfl⟩ | ⟨-, rfl⟩⟩ := resume_writing hphase h <;> exact ⟨_, rfl, rfl⟩
  | opening plan =>
    obtain ⟨-, ⟨e, -, rfl⟩ | ⟨id, -, rfl⟩⟩ := resume_opening hphase h
    · exact ⟨_, rfl, rfl⟩
    · exact passes_settle ..
  | completing id ps =>
    obtain ⟨-, ⟨e, -, rfl⟩ | ⟨-, rfl⟩⟩ := resume_completing hphase h <;> exact ⟨_, rfl, rfl⟩
  | aborting id cause =>
    obtain ⟨-, ⟨e, -, rfl⟩ | ⟨-, rfl⟩⟩ := resume_aborting hphase h <;> exact ⟨_, rfl, rfl⟩
  | copying s =>
    obtain ⟨p, -, -, hcases⟩ := resume_copying hphase h
    rcases hcases with ⟨-, e, -, rfl⟩ | ⟨-, data, -, rfl⟩ | ⟨data, -, e, -, rfl⟩ |
      ⟨data, -, etag, -, rfl⟩
    · exact passes_settle ..
    · exact ⟨_, rfl, rfl⟩
    · exact passes_settle ..
    · exact passes_settle ..
  | ended | overflowed =>
    unfold resume at h
    rw [hphase] at h
    cases lane <;> cases h

theorem passes_startPart {next : Next} (h : c.startPart setup = some next) : c.Passes next := by
  obtain ⟨s, part, waiting, -, -, -, ⟨-, rfl⟩ | ⟨-, rfl⟩⟩ := startPart_eq_some h
  · exact passes_settle ..
  · exact ⟨_, rfl, rfl⟩

theorem Passes.object_eq {next : Next} (h : c.Passes next) : next.1.object = c.object := by
  obtain ⟨phase, -, hnext⟩ := h
  rw [hnext]

theorem object_transfer (setup : Setup) (c : ObjectCopy) :
    (c.transfer setup).1.object = c.object :=
  (passes_transfer setup c).object_eq

theorem object_described (setup : Setup) (c : ObjectCopy) (attempt : Nat)
    (result : Except StorageError (Option ObjectMetadata)) :
    (c.described setup attempt result).1.object = c.object := by
  unfold described
  split
  · dsimp only
    split
    · exact object_transfer ..
    · rfl
  · rfl
  · dsimp only
    split
    · rfl
    · split <;> rfl

theorem object_resume {lane : Lane} {reply : Reply} {next : Next}
    (h : c.resume setup lane reply = some next) : next.1.object = c.object := by
  cases hphase : c.phase with
  | describing attempt =>
    obtain ⟨-, result, -, rfl⟩ := resume_describing hphase h
    exact object_described ..
  | pausing =>
    unfold resume at h
    rw [hphase] at h
    cases lane <;> cases h
  | _ => exact (passes_resume (by rw [hphase]; rfl) h).object_eq

theorem Moves.object_eq {next : Next} (h : Moves setup c next) : next.1.object = c.object := by
  cases h with
  | reply h => exact object_resume h
  | wake h =>
    unfold ObjectCopy.wake at h
    split at h <;> cases h
    rfl
  | startPart h => exact (passes_startPart h).object_eq

theorem object_start (setup : Setup) (object : ObjectDescriptor) :
    (start setup object).1.object = object := by
  unfold start
  dsimp only
  split
  · rfl
  · split <;> rfl

end ObjectCopy

end BucketMigration
