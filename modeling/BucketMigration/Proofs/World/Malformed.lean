import BucketMigration.Proofs.Batch.Grammar
import BucketMigration.Proofs.World.Paths

/-!
# Batches that cannot be read

A batch is read before anything is done for it. So one that has a line that is neither blank nor an
object is refused with the first such line, and nothing else happens: the world is the same as before,
although the error is one that halts a job when a task meets it. A run in which such batches are
submitted takes the course that it takes without them.
-/

namespace BucketMigration

def WorldAction.isMalformedBatch : WorldAction → Bool
  | .job (.batch lines) => !(Batch.entries lines).isOk
  | _ => false

namespace World

variable {w : World} {lines : List String} {e : MigrationError} {action : WorldAction}

theorem act_batch_of_halted (h : w.job.halt = some e) (lines : List String) :
    w.act (.job (.batch lines)) = some { world := w, returned := some (.batch (.error e)) } := by
  simp [act, isInternal, Job.act, Job.beginBatch, h, ofTransition]

theorem act_batch_of_malformed (hhalt : w.job.halt = none) (h : Batch.entries lines = .error e) :
    w.act (.job (.batch lines)) = some { world := w, returned := some (.batch (.error e)) } := by
  simp [act, isInternal, Job.act, Job.beginBatch, hhalt, h, ofTransition]

theorem act_isMalformedBatch (h : action.isMalformedBatch = true) (w : World) :
    ∃ error, w.act action = some { world := w, returned := some (.batch (.error error)) } := by
  unfold WorldAction.isMalformedBatch at h
  split at h
  · rename_i lines
    cases hhalt : w.job.halt with
    | some error => exact ⟨error, act_batch_of_halted hhalt lines⟩
    | none =>
      cases hentries : Batch.entries lines with
      | ok ds =>
        rw [hentries] at h
        cases h
      | error error => exact ⟨error, act_batch_of_malformed hhalt hentries⟩
  · cases h

theorem run?_filter_isMalformedBatch (w : World) (actions : List WorldAction) :
    w.run? (actions.filter fun action => !action.isMalformedBatch) =
      (w.run? actions).map fun (events, last) =>
        (events.filter fun event => !event.action.isMalformedBatch, last) := by
  induction actions generalizing w with
  | nil => rfl
  | cons action rest ih =>
    cases hmalformed : action.isMalformedBatch with
    | true =>
      obtain ⟨error, hact⟩ := act_isMalformedBatch hmalformed w
      rw [List.filter_cons_of_neg (by simp [hmalformed]), ih, run?, hact, Option.bind_some,
        Option.map_map]
      refine congrFun (congrArg Option.map (funext fun r => ?_)) _
      simp [hmalformed]
    | false =>
      rw [List.filter_cons_of_pos (by simp [hmalformed]), run?, run?]
      cases w.act action with
      | none => rfl
      | some t =>
        rw [Option.bind_some, Option.bind_some, ih, Option.map_map, Option.map_map]
        refine congrFun (congrArg Option.map (funext fun r => ?_)) _
        simp [hmalformed]

/-- A batch is read when all of its lines are blank or spell an object. Otherwise it is refused with
the first line that is neither, without any effect, also on what happens later. -/
theorem malformed_batch_has_no_effect (w : World) (lines : List String) :
    (∀ ds, Batch.entries lines = .ok ds ↔ List.Forall₂ Batch.Spells (Batch.filled lines) ds) ∧
    ((∃ ds, Batch.entries lines = .ok ds) ↔ ∀ line ∈ lines, Batch.Admissible line) ∧
    (∀ e, Batch.entries lines = .error e ↔ ∃ before line after, lines = before ++ line :: after ∧
      (∀ l ∈ before, Batch.Admissible l) ∧ ¬Batch.Admissible line ∧
        e = .invalidBatchEntry (before.length + 1) line) ∧
    (∀ e, w.job.halt = none → Batch.entries lines = .error e → e.isFatal = true ∧
      w.act (.job (.batch lines)) = some { world := w, returned := some (.batch (.error e)) }) ∧
    (∀ e, w.job.halt = some e →
      w.act (.job (.batch lines)) = some { world := w, returned := some (.batch (.error e)) }) ∧
    ∀ actions : List WorldAction,
      w.run? (actions.filter fun action => !action.isMalformedBatch) =
        (w.run? actions).map fun (events, last) =>
          (events.filter fun event => !event.action.isMalformedBatch, last) := by
  have herror : ∀ e, Batch.entries lines = .error e ↔ ∃ before line after,
      lines = before ++ line :: after ∧ (∀ l ∈ before, Batch.Admissible l) ∧
        ¬Batch.Admissible line ∧ e = .invalidBatchEntry (before.length + 1) line := by
    intro e
    simp only [Nat.add_comm _ 1]
    exact Batch.entriesFrom_eq_error_iff
  refine ⟨fun ds => Batch.entriesFrom_eq_ok_iff, Batch.exists_entriesFrom_eq_ok_iff, herror,
    fun e hhalt he => ⟨?_, act_batch_of_malformed hhalt he⟩,
    fun e hhalt => act_batch_of_halted hhalt lines, run?_filter_isMalformedBatch w⟩
  obtain ⟨-, -, -, -, -, -, rfl⟩ := (herror e).mp he
  rfl

def askingForPage (halt : Option MigrationError) : World where
  job :=
    { setup := { source := { bucket := "from" }, target := { bucket := "to" } }
      halt
      freeSlots := 1
      feeds := [{ activity := .listing true }] }
  stores := .shared {}
  now := 0

def unreadLines : List String :=
  ["a|1", " \t", "b|x\r\n", "|2"]

theorem unreadLines_beside_a_run :
    (∀ d, ¬Batch.Spells "b|x\r\n" d) ∧
      (askingForPage none).act (.job (.batch unreadLines)) = some
        { world := askingForPage none
          returned := some (.batch (.error (.invalidBatchEntry 3 "b|x\r\n"))) } ∧
      (askingForPage (some (.taskFailed ""))).act (.job (.batch unreadLines)) = some
        { world := askingForPage (some (.taskFailed ""))
          returned := some (.batch (.error (.taskFailed ""))) } ∧
      (askingForPage none).run? [.enter (.feed 0)] =
        ((askingForPage none).run?
          [.job (.batch unreadLines), .enter (.feed 0), .job (.batch unreadLines)]).map
            fun (events, last) => (events.filter fun event => !event.action.isMalformedBatch, last) := by
  obtain ⟨-, -, herror, hrefused, -, hrun⟩ :=
    malformed_batch_has_no_effect (askingForPage none) unreadLines
  have hread : Batch.entries unreadLines = .error (.invalidBatchEntry 3 "b|x\r\n") := rfl
  have hhalted := (malformed_batch_has_no_effect (askingForPage (some (.taskFailed "")))
    unreadLines).2.2.2.2.1
  refine ⟨fun d hd => ?_, (hrefused _ rfl hread).2, hhalted _ rfl,
    hrun [.job (.batch unreadLines), .enter (.feed 0), .job (.batch unreadLines)]⟩
  obtain ⟨before, line, after, -, -, hline, heq⟩ := (herror _).mp hread
  obtain ⟨-, rfl⟩ := MigrationError.invalidBatchEntry.inj heq
  exact hline (.inr ⟨d, hd⟩)

end World

end BucketMigration
