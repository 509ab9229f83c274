import BucketMigration.Proofs.Copy.Replies
import BucketMigration.Proofs.Copy.Session
import BucketMigration.Proofs.Layout.Parts
import Mathlib.Algebra.GroupWithZero.Nat
import Mathlib.Algebra.Order.BigOperators.Group.List
import Mathlib.Algebra.Order.Group.Nat

/-!
# The work that is left of a copy

A copy comes to its end whatever the replies are: attempts, parts and calls are limited, and every
step leaves less to do. The work that is left is counted in steps of calls. A call takes `full`
steps, and `left` tells how many of them the call of a lane still needs.
-/

namespace BucketMigration

section

variable (full : Nat) (left : Lane → Nat)

/-- The work that is left of a part under way: to upload it, and before that to read it. -/
def PartCopy.remaining (p : PartCopy) : Nat :=
  left (.part p.part.number) + if p.data.isNone then full else 0

def Session.remaining (s : Session) : Nat :=
  (2 * full + 1) * s.waiting.length + (s.active.map (PartCopy.remaining full left)).sum

def moveBound : Nat :=
  (2 * full + 1) * maxPartNumber + 3 * full

def ObjectCopy.remaining (setup : Setup) (c : ObjectCopy) : Nat :=
  match c.phase with
  | .describing attempt => left .whole + full + moveBound full +
      (setup.options.metadataRetry.attempts - attempt) * (full + 1)
  | .pausing attempt => 2 * full + moveBound full +
      (setup.options.metadataRetry.attempts - (attempt + 1)) * (full + 1) + 1
  | .comparing => left .whole + moveBound full
  | .reading | .completing .. => left .whole + full
  | .writing _ | .aborting .. => left .whole
  | .opening plan => left .whole + (2 * full + 1) * plan.parts.length + 2 * full
  | .copying s => s.remaining full left + 2 * full
  | .ended _ | .overflowed => 0

end

namespace Session

variable {full : Nat} {left left' : Lane → Nat} {s : Session} {n : Nat} {p : PartCopy}

theorem remaining_lt_of_left (full : Nat) (hle : ∀ l, left' l ≤ left l) (hp : s.active? n = some p)
    (hlt : left' (.part n) < left (.part n)) : s.remaining full left' < s.remaining full left := by
  obtain ⟨hmem, rfl⟩ := active?_eq_some hp
  have hsum : (s.active.map (PartCopy.remaining full left')).sum <
      (s.active.map (PartCopy.remaining full left)).sum := by
    refine List.sum_lt_sum _ _ (fun q _ => Nat.add_le_add_right (hle _) _) ⟨p, hmem, ?_⟩
    exact Nat.add_lt_add_right hlt _
  exact Nat.add_lt_add_left hsum _

theorem remaining_fill_lt (hs : s.begun.Nodup) (hp : s.active? n = some p) (hdata : p.data = none)
    (hpos : 0 < left (.part n)) (hother : ∀ l, l ≠ .part n → left' l = left l)
    (hfull : ∀ l, left' l ≤ full) (data : ByteArray) :
    (s.fill n data).remaining full left' < s.remaining full left := by
  obtain ⟨hmem, rfl⟩ := active?_eq_some hp
  have hactive := (List.nodup_append.mp hs).1
  have hsum : ((s.fill p.part.number data).active.map (PartCopy.remaining full left')).sum <
      (s.active.map (PartCopy.remaining full left)).sum := by
    rw [fill, List.map_map]
    have hpart : ∀ q ∈ s.active, q.part.number = p.part.number → q = p := fun q hq heq =>
      List.inj_on_of_nodup_map hactive hq hmem heq
    have hbelow := hfull (.part p.part.number)
    refine List.sum_lt_sum _ _ ?_ ⟨p, hmem, ?_⟩
    · intro q hq
      by_cases heq : q.part.number = p.part.number
      · obtain rfl := hpart q hq heq
        simp only [Function.comp, if_true, PartCopy.remaining, hdata, Option.isNone_none,
          Option.isNone_some, Bool.false_eq_true, if_false]
        omega
      · simp only [Function.comp, if_neg heq, PartCopy.remaining, hother (.part q.part.number) (by simpa using heq)]
        exact Nat.le_refl _
    · simp only [Function.comp, if_true, PartCopy.remaining, hdata, Option.isNone_none,
        Option.isNone_some, Bool.false_eq_true, if_false]
      omega
  exact Nat.add_lt_add_left hsum _

theorem remaining_finish_lt (hp : s.active? n = some p) (hpos : 0 < left (.part n))
    (hother : ∀ l, l ≠ .part n → left' l = left l) (how : PartEnd) :
    (s.finish n how).remaining full left' < s.remaining full left := by
  obtain ⟨hmem, hn⟩ := active?_eq_some hp
  have hfinish : (s.finish n how).active = s.active.filter fun q => q.part.number ≠ n := by
    apply List.filter_congr
    intro q _
    rw [bne, beq_eq_decide, decide_not]
  have hsplit := List.sum_map_filter_add_sum_map_filter_not (fun q : PartCopy => q.part.number ≠ n)
    (PartCopy.remaining full left) s.active
  have hkept : ((s.finish n how).active.map (PartCopy.remaining full left')).sum =
      ((s.active.filter fun q => q.part.number ≠ n).map (PartCopy.remaining full left)).sum := by
    rw [hfinish]
    congr 1
    apply List.map_congr_left
    intro q hq
    have hne : q.part.number ≠ n := by simpa using (List.mem_filter.mp hq).2
    rw [PartCopy.remaining, hother _ (by simpa using hne), PartCopy.remaining]
  have hgone : 0 <
      ((s.active.filter fun q => ¬q.part.number ≠ n).map (PartCopy.remaining full left)).sum := by
    have hle := List.le_sum_of_mem (List.mem_map.mpr
      ⟨p, List.mem_filter.mpr ⟨hmem, by simpa using hn⟩, rfl⟩ :
      p.remaining full left ∈
        (s.active.filter fun q => ¬q.part.number ≠ n).map (PartCopy.remaining full left))
    have hp' : left (.part n) ≤ p.remaining full left := hn ▸ Nat.le_add_right ..
    omega
  have hsum : ((s.finish n how).active.map (PartCopy.remaining full left')).sum <
      (s.active.map (PartCopy.remaining full left)).sum := by
    omega
  exact Nat.add_lt_add_left hsum _

theorem remaining_begin_lt {part : PartRange} {waiting : List PartRange}
    (hw : s.waiting = part :: waiting) (hfull : ∀ l, left l ≤ full) :
    (s.begin part waiting).remaining full left < s.remaining full left := by
  have hpart := hfull (.part part.number)
  simp only [remaining, begin, hw, List.length_cons, List.map_append, List.map_cons, List.map_nil,
    List.sum_append, List.sum_singleton, PartCopy.remaining, Option.isNone_none, if_true,
    Nat.mul_succ]
  omega

theorem remaining_leaveOut_lt (full : Nat) (left : Lane → Nat) {part : PartRange} {waiting : List PartRange}
    (hw : s.waiting = part :: waiting) :
    (s.leaveOut part waiting).remaining full left < s.remaining full left := by
  have hsum : ((s.leaveOut part waiting).active.map (PartCopy.remaining full left)).sum ≤
      (s.active.map (PartCopy.remaining full left)).sum :=
    (List.filter_sublist.map _).sum_le_sum fun _ _ => Nat.zero_le _
  simp only [remaining, hw, List.length_cons, Nat.mul_succ]
  have hwaiting : (s.leaveOut part waiting).waiting = waiting := rfl
  rw [hwaiting]
  omega

end Session

namespace ObjectCopy

variable {full : Nat} {left left' : Lane → Nat} {setup : Setup} {c : ObjectCopy} {lane : Lane}
  {next : Next}

theorem remaining_settle_le (setup : Setup) (hfull : left .whole ≤ full) (s : Session) :
    (c.settle setup s).1.remaining full left setup ≤ s.remaining full left + 2 * full := by
  cases hover : s.isOver with
  | false =>
    rw [c.settle_of_isOver_eq_false setup hover]
    exact Nat.le_refl _
  | true =>
    cases houtcome : s.outcome (c.targetKey setup) with
    | error cause =>
      rw [c.settle_of_outcome_eq_error setup hover houtcome]
      simp only [abort, remaining]
      omega
    | ok ps =>
      rw [c.settle_of_outcome_eq_ok setup hover houtcome]
      simp only [go, remaining]
      omega

theorem remaining_transfer_le (hfull : left .whole ≤ full) :
    (c.transfer setup).1.remaining full left setup ≤ moveBound full := by
  unfold transfer moveBound
  split
  · simp only [go, remaining]
    omega
  · unfold transferInParts
    split
    · exact Nat.zero_le _
    · exact Nat.zero_le _
    · rename_i plan hplan
      obtain ⟨-, -, hparts, hcount⟩ := Layout.plan?_eq_ok hplan
      have hlength : plan.parts.length ≤ maxPartNumber := by
        rw [hparts, Layout.length_parts]
        omega
      have hmul := Nat.mul_le_mul_left (2 * full + 1) hlength
      simp only [go, remaining]
      omega

theorem remaining_described_le (setup : Setup) (hfull : left .whole ≤ full) (attempt : Nat)
    (result : Except StorageError (Option ObjectMetadata)) :
    (c.described setup attempt result).1.remaining full left setup ≤ full + moveBound full +
      (setup.options.metadataRetry.attempts - attempt) * (full + 1) := by
  unfold described
  split
  · dsimp only
    split
    · apply Nat.le_trans (remaining_transfer_le hfull)
      omega
    · simp only [go, remaining]
      omega
  · exact Nat.zero_le _
  · dsimp only
    split
    · rename_i hagain
      have hleft : setup.options.metadataRetry.attempts - attempt =
          setup.options.metadataRetry.attempts - (attempt + 1) + 1 := by
        omega
      simp only [remaining, hleft, Nat.succ_mul]
      omega
    · split <;> exact Nat.zero_le _

theorem remaining_compared_le (setup : Setup) (hfull : left .whole ≤ full)
    (result : Except StorageError (Option ObjectMetadata)) :
    (c.compared setup result).1.remaining full left setup ≤ moveBound full := by
  unfold compared
  split
  · exact Nat.zero_le _
  · split
    · exact Nat.zero_le _
    · exact remaining_transfer_le hfull

theorem remaining_lt_of_left (hle : ∀ l, left' l ≤ left l) {call : Call}
    (hcall : c.call? setup lane = some call) (hlt : left' lane < left lane) :
    c.remaining full left' setup < c.remaining full left setup := by
  cases lane with
  | whole =>
    unfold call? at hcall
    unfold remaining
    cases hphase : c.phase <;> simp only [hphase, reduceCtorEq] at hcall ⊢ <;> omega
  | part n =>
    cases hphase : c.phase with
    | copying s =>
      obtain ⟨p, hp, hlane, -⟩ := call?_copying hphase hcall
      have hparts := Session.remaining_lt_of_left full hle hp (hlane ▸ hlt)
      simp only [remaining, hphase]
      omega
    | _ => simp [call?, hphase] at hcall

theorem remaining_wake_lt (hfull : left .whole ≤ full) (h : c.wake = some next) :
    next.1.remaining full left setup < c.remaining full left setup := by
  unfold wake at h
  split at h
  · rename_i attempt hphase
    cases h
    simp only [go, remaining, hphase]
    omega
  · cases h

theorem remaining_startPart_lt (hfull : ∀ l, left l ≤ full) (h : c.startPart setup = some next) :
    next.1.remaining full left setup < c.remaining full left setup := by
  obtain ⟨s, part, waiting, hphase, hw, -, ⟨-, rfl⟩ | ⟨-, rfl⟩⟩ := startPart_eq_some h
  · have hsettle := c.remaining_settle_le setup (hfull .whole) (s.leaveOut part waiting)
    have hparts := Session.remaining_leaveOut_lt full left hw
    simp only [remaining, hphase] at hsettle ⊢
    exact Nat.lt_of_le_of_lt hsettle (Nat.add_lt_add_right hparts _)
  · have hparts := Session.remaining_begin_lt hw hfull
    simp only [go, remaining, hphase]
    exact Nat.add_lt_add_right hparts _

theorem remaining_resume_lt {reply : Reply}
    (hkeeps : ∀ s, c.phase = .copying s → s.begun.Nodup) (hpos : 0 < left lane)
    (hother : ∀ l, l ≠ lane → left' l = left l) (hfull : ∀ l, left' l ≤ full)
    (h : c.resume setup lane reply = some next) :
    next.1.remaining full left' setup < c.remaining full left setup := by
  have hwhole := hfull .whole
  cases hphase : c.phase with
  | copying s =>
    have hparts : ∃ s', next.1 = (c.settle setup s').1 ∧
        s'.remaining full left' < s.remaining full left := by
      obtain ⟨p, hp, rfl, hcases⟩ := resume_copying hphase h
      rcases hcases with ⟨hdata, e, -, rfl⟩ | ⟨hdata, data, -, rfl⟩ |
          ⟨data, hdata, e, -, rfl⟩ | ⟨data, hdata, etag, -, rfl⟩
      · exact ⟨_, rfl, Session.remaining_finish_lt hp hpos hother _⟩
      · refine ⟨s.fill p.part.number data, ?_, ?_⟩
        · rw [c.settle_fill setup hp]
          rfl
        · exact Session.remaining_fill_lt (hkeeps s hphase) hp hdata hpos hother hfull data
      · exact ⟨_, rfl, Session.remaining_finish_lt hp hpos hother _⟩
      · exact ⟨_, rfl, Session.remaining_finish_lt hp hpos hother _⟩
    obtain ⟨s', heq, hlt⟩ := hparts
    have hsettle := c.remaining_settle_le setup hwhole s'
    simp only [heq, remaining, hphase] at hsettle ⊢
    omega
  | describing attempt =>
    obtain ⟨rfl, result, -, rfl⟩ := resume_describing hphase h
    have hle := c.remaining_described_le setup hwhole attempt result
    simp only [remaining, hphase] at hle ⊢
    omega
  | comparing =>
    obtain ⟨rfl, result, -, rfl⟩ := resume_comparing hphase h
    have hle := c.remaining_compared_le setup hwhole result
    simp only [remaining, hphase] at hle ⊢
    omega
  | reading =>
    obtain ⟨rfl, ⟨e, -, rfl⟩ | ⟨data, -, rfl⟩⟩ := resume_reading hphase h
    · simp only [failCall, fail, go, remaining, hphase]
      omega
    · simp only [go, remaining, hphase]
      omega
  | writing data =>
    obtain ⟨rfl, ⟨e, -, rfl⟩ | ⟨-, rfl⟩⟩ := resume_writing hphase h
    · simpa only [failCall, fail, go, remaining, hphase] using hpos
    · simpa only [written, remaining, hphase] using hpos
  | opening plan =>
    obtain ⟨rfl, ⟨e, -, rfl⟩ | ⟨id, -, rfl⟩⟩ := resume_opening hphase h
    · simp only [failCall, fail, go, remaining, hphase]
      omega
    · have hle := c.remaining_settle_le setup hwhole
        { uploadId := id, waiting := plan.parts }
      simp only [opened, Session.remaining, List.map_nil, List.sum_nil] at hle ⊢
      simp only [remaining, hphase] at hle ⊢
      omega
  | completing id ps =>
    obtain ⟨rfl, ⟨e, -, rfl⟩ | ⟨-, rfl⟩⟩ := resume_completing hphase h
    · simp only [abort, remaining, hphase]
      omega
    · simp only [completed, remaining, hphase]
      omega
  | aborting id cause =>
    obtain ⟨rfl, ⟨e, -, rfl⟩ | ⟨-, rfl⟩⟩ := resume_aborting hphase h
    · simpa only [fail, go, remaining, hphase] using hpos
    · simpa only [fail, go, remaining, hphase] using hpos
  | pausing attempt | ended verdict | overflowed =>
    unfold resume at h
    rw [hphase] at h
    cases lane <;> cases h

end ObjectCopy

end BucketMigration
