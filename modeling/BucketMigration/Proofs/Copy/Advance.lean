import BucketMigration.Proofs.Copy.Remaining
import BucketMigration.Proofs.Copy.Verdict

/-!
# A copy goes on until it ends

A copy that has not ended can go on, and afterwards less is left of it. So it comes to its end
whatever the replies are. The one exception is a layout that overflows, which the copy panics on.
-/

namespace BucketMigration

/-- Parts are numbered apart, and parts are copied only in a session that is not over. -/
def Phase.Orderly : Phase → Prop
  | .opening plan => (plan.parts.map PartRange.number).Nodup
  | .copying s =>
      s.isOver = false ∧
        ∃ parts : List PartRange, (parts.map PartRange.number).Nodup ∧ s.Keeps parts
  | _ => True

namespace ObjectCopy

variable {setup : Setup} {c : ObjectCopy} {next : Next}

theorem orderly_settle (setup : Setup) (c : ObjectCopy) {s : Session} {parts : List PartRange}
    (hn : (parts.map PartRange.number).Nodup) (hs : s.Keeps parts) :
    (c.settle setup s).1.phase.Orderly := by
  cases hover : s.isOver with
  | false =>
    rw [c.settle_of_isOver_eq_false setup hover]
    exact ⟨hover, parts, hn, hs⟩
  | true =>
    cases houtcome : s.outcome (c.targetKey setup) with
    | error cause =>
      rw [c.settle_of_outcome_eq_error setup hover houtcome]
      trivial
    | ok ps =>
      rw [c.settle_of_outcome_eq_ok setup hover houtcome]
      trivial

theorem orderly_transfer (setup : Setup) (c : ObjectCopy) :
    (c.transfer setup).1.phase.Orderly := by
  unfold transfer
  split
  · trivial
  · unfold transferInParts
    split
    · trivial
    · trivial
    · rename_i plan hplan
      exact (Layout.plan?_eq_ok hplan).nodup_number

theorem orderly_described (setup : Setup) (c : ObjectCopy) (attempt : Nat)
    (result : Except StorageError (Option ObjectMetadata)) :
    (c.described setup attempt result).1.phase.Orderly := by
  unfold described
  split
  · dsimp only
    split
    · exact orderly_transfer ..
    · trivial
  · trivial
  · dsimp only
    split
    · trivial
    · split <;> trivial

theorem orderly_compared (setup : Setup) (c : ObjectCopy)
    (result : Except StorageError (Option ObjectMetadata)) :
    (c.compared setup result).1.phase.Orderly := by
  unfold compared
  split
  · trivial
  · split
    · trivial
    · exact orderly_transfer ..

theorem orderly_resume {lane : Lane} {reply : Reply} (hc : c.phase.Orderly)
    (h : c.resume setup lane reply = some next) : next.1.phase.Orderly := by
  cases hphase : c.phase with
  | describing attempt =>
    obtain ⟨-, result, -, rfl⟩ := resume_describing hphase h
    exact orderly_described ..
  | comparing =>
    obtain ⟨-, result, -, rfl⟩ := resume_comparing hphase h
    exact orderly_compared ..
  | reading =>
    obtain ⟨-, ⟨e, -, rfl⟩ | ⟨data, -, rfl⟩⟩ := resume_reading hphase h <;> trivial
  | writing data =>
    obtain ⟨-, ⟨e, -, rfl⟩ | ⟨-, rfl⟩⟩ := resume_writing hphase h <;> trivial
  | opening plan =>
    rw [hphase] at hc
    obtain ⟨-, ⟨e, -, rfl⟩ | ⟨id, -, rfl⟩⟩ := resume_opening hphase h
    · trivial
    · exact orderly_settle setup c hc (Session.Keeps.new id)
  | completing id ps =>
    obtain ⟨-, ⟨e, -, rfl⟩ | ⟨-, rfl⟩⟩ := resume_completing hphase h <;> trivial
  | aborting id cause =>
    obtain ⟨-, ⟨e, -, rfl⟩ | ⟨-, rfl⟩⟩ := resume_aborting hphase h <;> trivial
  | copying s =>
    rw [hphase] at hc
    obtain ⟨-, parts, hn, hkeeps⟩ := hc
    obtain ⟨p, hp, -, hcases⟩ := resume_copying hphase h
    rcases hcases with ⟨-, e, -, rfl⟩ | ⟨-, data, -, rfl⟩ | ⟨data, -, e, -, rfl⟩ | ⟨data, -, etag, -, rfl⟩
    · exact orderly_settle setup c hn (hkeeps.finish hn hp (by simp))
    · have hfill := orderly_settle setup c hn (hkeeps.fill p.part.number data)
      rwa [c.settle_fill setup hp] at hfill
    · exact orderly_settle setup c hn (hkeeps.finish hn hp (by simp))
    · exact orderly_settle setup c hn (hkeeps.finish hn hp (by simp))
  | pausing | ended | overflowed =>
    unfold resume at h
    rw [hphase] at h
    cases lane <;> cases h

theorem Moves.orderly (h : c.Moves setup next) (hc : c.phase.Orderly) : next.1.phase.Orderly := by
  cases h with
  | reply h => exact orderly_resume hc h
  | wake h =>
    unfold ObjectCopy.wake at h
    split at h
    · cases h
      trivial
    · cases h
  | startPart h =>
    obtain ⟨s, part, waiting, hphase, hw, -, hcases⟩ := startPart_eq_some h
    rw [hphase] at hc
    obtain ⟨-, parts, hn, hkeeps⟩ := hc
    rcases hcases with ⟨hfailed, rfl⟩ | ⟨-, rfl⟩
    · exact orderly_settle setup c hn (hkeeps.leaveOut hn hw hfailed)
    · exact ⟨by simp [Session.isOver], parts, hn, hkeeps.begin hw⟩

def toDo (setup : Setup) (c : ObjectCopy) : Nat :=
  c.remaining 1 (fun _ => 1) setup

theorem nodup_of_orderly (hc : c.phase.Orderly) {s : Session} (hphase : c.phase = .copying s) :
    s.begun.Nodup := by
  rw [hphase] at hc
  obtain ⟨-, parts, hn, hkeeps⟩ := hc
  exact hkeeps.nodup hn

theorem Moves.remaining_lt {full : Nat} {left : Lane → Nat} (h : c.Moves setup next)
    (hc : c.phase.Orderly) (hpos : ∀ l, 0 < left l) (hfull : ∀ l, left l ≤ full) :
    next.1.remaining full left setup < c.remaining full left setup := by
  cases h with
  | @reply lane _ _ h =>
    exact remaining_resume_lt (fun _ => nodup_of_orderly hc) (hpos lane) (fun _ _ => rfl) hfull h
  | wake h => exact remaining_wake_lt (hfull .whole) h
  | startPart h => exact remaining_startPart_lt hfull h

theorem exists_moves_of_call? {lane : Lane} {call : Call} (h : c.call? setup lane = some call) :
    ∃ lane reply next, c.resume setup lane reply = some next := by
  obtain ⟨next, hnext⟩ := exists_resume_error h (.other "")
  exact ⟨lane, _, next, hnext⟩

theorem exists_call_or_move (setup : Setup) (hc : c.phase.Orderly) (hnone : c.verdict? = none)
    (hflow : c.phase ≠ .overflowed) :
    (∃ lane call, c.call? setup lane = some call) ∨ (∃ next, c.wake = some next) ∨
      ∃ next, c.startPart setup = some next := by
  cases hphase : c.phase with
  | describing | comparing | reading | writing | opening | completing | aborting =>
    exact .inl ⟨.whole, _, by simp only [call?, hphase]; rfl⟩
  | pausing attempt =>
    right
    left
    exact ⟨_, by simp only [wake, hphase]; rfl⟩
  | copying s =>
    rw [hphase] at hc
    rcases Session.active_or_waiting hc.1 with ⟨p, hp⟩ | ⟨hactive, part, waiting, hw⟩
    · exact .inl ⟨_, _, c.call?_part setup hphase hp⟩
    · exact .inr (.inr (c.exists_startPart setup hphase hactive hw))
  | ended verdict => simp [verdict?, hphase] at hnone
  | overflowed => exact absurd hphase hflow

/-- A copy that has not ended goes on: a call is answered, a pause is over or a part starts. -/
theorem exists_moves (setup : Setup) (hc : c.phase.Orderly) (hnone : c.verdict? = none)
    (hflow : c.phase ≠ .overflowed) :
    (∃ lane reply next, c.resume setup lane reply = some next) ∨ (∃ next, c.wake = some next) ∨
      ∃ next, c.startPart setup = some next := by
  refine (exists_call_or_move setup hc hnone hflow).imp_left ?_
  rintro ⟨lane, call, hcall⟩
  exact exists_moves_of_call? hcall

/-- What is left of a copy at its start is the most that may be left of it. -/
def toDoAtMost (setup : Setup) : Nat :=
  2 + moveBound 1 + setup.options.metadataRetry.attempts * 2

def remainingAtMost (full : Nat) (setup : Setup) : Nat :=
  2 * full + moveBound full + setup.options.metadataRetry.attempts * (full + 1)

theorem remaining_start_le {full : Nat} {left : Lane → Nat} (hfull : left .whole ≤ full)
    (setup : Setup) (object : ObjectDescriptor) :
    (start setup object).1.remaining full left setup ≤ remainingAtMost full setup := by
  unfold start
  dsimp only
  split
  · exact Nat.zero_le _
  · split
    · exact Nat.zero_le _
    · have hattempts := Nat.mul_le_mul_right (full + 1)
        (Nat.sub_le setup.options.metadataRetry.attempts 1)
      simp only [remaining, remainingAtMost]
      omega

theorem orderly_start (setup : Setup) (object : ObjectDescriptor) :
    (start setup object).1.phase.Orderly := by
  unfold start
  dsimp only
  split
  · trivial
  · split <;> trivial

end ObjectCopy

end BucketMigration
