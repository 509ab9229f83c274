import BucketMigration.Proofs.Copy.Advance

/-!
# The calls of a copy at one time

A copy waits for one call, or for one call of each part under way. Such a call stays the same until
its own reply comes, whatever the other parts do. Only so many parts are under way as the options
allow, so only so many calls move data at one time.
-/

namespace BucketMigration

/-- No more than `limit` parts are under way. -/
def Phase.Within (limit : Nat) : Phase → Prop
  | .copying s => s.active.length ≤ limit
  | _ => True

namespace Session

variable {s : Session} {n m : Nat} {p : PartCopy}

theorem active?_finish_of_ne (s : Session) (how : PartEnd) (h : m ≠ n) :
    (s.finish n how).active? m = s.active? m := by
  simp only [active?, finish, List.find?_filter]
  congr 1
  funext q
  by_cases hq : q.part.number = m
  · simp [hq, h]
  · simp [hq]

theorem active?_fill_of_ne (s : Session) (data : ByteArray) (h : m ≠ n) :
    (s.fill n data).active? m = s.active? m := by
  simp only [active?, fill, List.find?_map]
  have hsame : ((fun q : PartCopy => q.part.number == m) ∘ fun q =>
      if q.part.number = n then { q with data := some data } else q) =
      fun q => q.part.number == m := by
    funext q
    simp only [Function.comp]
    split <;> rfl
  rw [hsame]
  cases hq : s.active.find? fun q => q.part.number == m with
  | none => rfl
  | some q =>
    have hm : q.part.number = m := (active?_eq_some hq).2
    rw [Option.map_some, if_neg (hm.trans_ne h)]

theorem active?_begin (hp : s.active? m = some p) (part : PartRange) (waiting : List PartRange) :
    (s.begin part waiting).active? m = some p := by
  rw [active?] at hp
  rw [active?, begin, List.find?_append, hp, Option.some_or]

theorem isOver_eq_false_of_active? (hp : s.active? m = some p) : s.isOver = false := by
  have hne : s.active ≠ [] := List.ne_nil_of_mem (active?_eq_some hp).1
  simp [isOver, hne]

theorem length_active_finish_le (s : Session) (n : Nat) (how : PartEnd) :
    (s.finish n how).active.length ≤ s.active.length :=
  List.length_filter_le ..

end Session

namespace ObjectCopy

variable {setup : Setup} {c : ObjectCopy} {lane other : Lane} {call : Call} {next : Next}

def dataLanes (c : ObjectCopy) : List Lane :=
  match c.phase with
  | .reading | .writing _ => [.whole]
  | .copying s => s.active.map fun p => .part p.part.number
  | _ => []

theorem mem_dataLanes (hcall : c.call? setup lane = some call)
    (hdata : call.request.movesData = true) : lane ∈ c.dataLanes := by
  cases hphase : c.phase with
  | copying s =>
    obtain ⟨p, hp, rfl, -⟩ := call?_copying hphase hcall
    simp only [dataLanes, hphase]
    exact List.mem_map.mpr ⟨p, (Session.active?_eq_some hp).1, rfl⟩
  | reading | writing =>
    cases lane with
    | whole => simp [dataLanes, hphase]
    | part n => simp [call?, hphase] at hcall
  | describing | comparing | opening | completing | aborting =>
    cases lane with
    | whole =>
      simp only [call?, hphase, Option.some.injEq] at hcall
      subst hcall
      cases hdata
    | part n => simp [call?, hphase] at hcall
  | pausing | ended | overflowed => cases lane <;> simp [call?, hphase] at hcall

theorem length_dataLanes_le (h : c.phase.Within setup.options.effectivePartConcurrency) :
    c.dataLanes.length ≤ setup.options.effectivePartConcurrency := by
  have hone : 1 ≤ setup.options.effectivePartConcurrency := Nat.le_max_right ..
  unfold dataLanes
  split
  · exact hone
  · exact hone
  · rename_i s hphase
    rw [hphase] at h
    rw [List.length_map]
    exact h
  · exact Nat.zero_le _

theorem within_settle {s : Session} {limit : Nat} (h : s.active.length ≤ limit) :
    (c.settle setup s).1.phase.Within limit := by
  cases hover : s.isOver with
  | false =>
    rw [c.settle_of_isOver_eq_false setup hover]
    exact h
  | true =>
    cases houtcome : s.outcome (c.targetKey setup) with
    | error cause =>
      rw [c.settle_of_outcome_eq_error setup hover houtcome]
      trivial
    | ok ps =>
      rw [c.settle_of_outcome_eq_ok setup hover houtcome]
      trivial

theorem within_transfer (limit : Nat) : (c.transfer setup).1.phase.Within limit := by
  unfold transfer
  split
  · trivial
  · unfold transferInParts
    split <;> trivial

theorem within_described (limit attempt : Nat)
    (result : Except StorageError (Option ObjectMetadata)) :
    (c.described setup attempt result).1.phase.Within limit := by
  unfold described
  split
  · dsimp only
    split
    · exact within_transfer limit
    · trivial
  · trivial
  · dsimp only
    split
    · trivial
    · split <;> trivial

theorem within_compared (limit : Nat) (result : Except StorageError (Option ObjectMetadata)) :
    (c.compared setup result).1.phase.Within limit := by
  unfold compared
  split
  · trivial
  · split
    · trivial
    · exact within_transfer limit

theorem within_resume {reply : Reply} {limit : Nat} (hc : c.phase.Within limit)
    (h : c.resume setup lane reply = some next) : next.1.phase.Within limit := by
  cases hphase : c.phase with
  | describing attempt =>
    obtain ⟨-, result, -, rfl⟩ := resume_describing hphase h
    exact within_described ..
  | comparing =>
    obtain ⟨-, result, -, rfl⟩ := resume_comparing hphase h
    exact within_compared ..
  | reading =>
    obtain ⟨-, ⟨e, -, rfl⟩ | ⟨data, -, rfl⟩⟩ := resume_reading hphase h <;> trivial
  | writing data =>
    obtain ⟨-, ⟨e, -, rfl⟩ | ⟨-, rfl⟩⟩ := resume_writing hphase h <;> trivial
  | opening plan =>
    obtain ⟨-, ⟨e, -, rfl⟩ | ⟨id, -, rfl⟩⟩ := resume_opening hphase h
    · trivial
    · exact within_settle (Nat.zero_le limit)
  | completing id ps =>
    obtain ⟨-, ⟨e, -, rfl⟩ | ⟨-, rfl⟩⟩ := resume_completing hphase h <;> trivial
  | aborting id cause =>
    obtain ⟨-, ⟨e, -, rfl⟩ | ⟨-, rfl⟩⟩ := resume_aborting hphase h <;> trivial
  | copying s =>
    rw [hphase] at hc
    obtain ⟨p, -, -, hcases⟩ := resume_copying hphase h
    have hfinish : ∀ how, (s.finish p.part.number how).active.length ≤ limit := fun how =>
      Nat.le_trans (s.length_active_finish_le p.part.number how) hc
    rcases hcases with ⟨-, e, -, rfl⟩ | ⟨-, data, -, rfl⟩ | ⟨data, -, e, -, rfl⟩ |
      ⟨data, -, etag, -, rfl⟩
    · exact within_settle (hfinish _)
    · exact (List.length_map ..).trans_le hc
    · exact within_settle (hfinish _)
    · exact within_settle (hfinish _)
  | pausing | ended | overflowed =>
    unfold resume at h
    rw [hphase] at h
    cases lane <;> cases h

theorem Moves.within (h : c.Moves setup next)
    (hc : c.phase.Within setup.options.effectivePartConcurrency) :
    next.1.phase.Within setup.options.effectivePartConcurrency := by
  cases h with
  | reply h => exact within_resume hc h
  | wake h =>
    unfold ObjectCopy.wake at h
    split at h
    · cases h
      trivial
    · cases h
  | startPart h =>
    obtain ⟨s, part, waiting, hphase, hw, hroom, hcases⟩ := startPart_eq_some h
    rcases hcases with ⟨-, rfl⟩ | ⟨-, rfl⟩
    · exact within_settle (Nat.le_trans (Session.length_active_finish_le ..) (Nat.le_of_lt hroom))
    · exact (List.length_append ..).trans_le hroom

theorem within_start (setup : Setup) (object : ObjectDescriptor) (limit : Nat) :
    (start setup object).1.phase.Within limit := by
  unfold start
  dsimp only
  split
  · trivial
  · split <;> trivial

theorem call?_go_copying {s : Session} {n : Nat} {p : PartCopy} (hp : s.active? n = some p) :
    (c.go (.copying s)).1.call? setup (.part n) = some (p.call setup c.object s.uploadId) :=
  call?_part setup _ rfl hp

theorem call?_settle {s : Session} {n : Nat} {p : PartCopy} (hp : s.active? n = some p) :
    (c.settle setup s).1.call? setup (.part n) = some (p.call setup c.object s.uploadId) := by
  rw [c.settle_of_isOver_eq_false setup (Session.isOver_eq_false_of_active? hp)]
  exact call?_go_copying hp

theorem call?_resume {reply : Reply} (hnext : c.resume setup lane reply = some next)
    (hne : other ≠ lane) (hcall : c.call? setup other = some call) :
    next.1.call? setup other = some call := by
  cases hphase : c.phase with
  | copying s =>
    obtain ⟨q, hq, rfl, rfl⟩ := call?_copying hphase hcall
    obtain ⟨p, -, rfl, hcases⟩ := resume_copying hphase hnext
    have hnumber : q.part.number ≠ p.part.number := fun heq => hne (congrArg Lane.part heq)
    have hfinish : ∀ how, (s.finish p.part.number how).active? q.part.number = some q := fun how =>
      (s.active?_finish_of_ne how hnumber).trans hq
    rcases hcases with ⟨-, e, -, rfl⟩ | ⟨-, data, -, rfl⟩ | ⟨data, -, e, -, rfl⟩ |
      ⟨data, -, etag, -, rfl⟩
    · exact call?_settle (hfinish _)
    · exact call?_go_copying ((s.active?_fill_of_ne data hnumber).trans hq)
    · exact call?_settle (hfinish _)
    · exact call?_settle (hfinish _)
  | _ =>
    -- In every other phase both lanes are the one of the whole object.
    cases lane with
    | part n =>
      unfold resume at hnext
      simp only [hphase, reduceCtorEq] at hnext
    | whole =>
      cases other with
      | whole => exact absurd rfl hne
      | part n => simp [call?, hphase] at hcall

theorem call?_of_wake (hnext : c.wake = some next) : c.call? setup lane = none := by
  unfold wake at hnext
  split at hnext
  · rename_i attempt hphase
    cases lane <;> simp [call?, hphase]
  · cases hnext

theorem call?_startPart (hnext : c.startPart setup = some next) (hc : c.phase.Orderly)
    (hcall : c.call? setup lane = some call) : next.1.call? setup lane = some call := by
  obtain ⟨s, part, waiting, hphase, hw, -, hcases⟩ := startPart_eq_some hnext
  obtain ⟨q, hq, rfl, rfl⟩ := call?_copying hphase hcall
  rw [hphase] at hc
  obtain ⟨-, parts, hn, hkeeps⟩ := hc
  rcases hcases with ⟨-, rfl⟩ | ⟨-, rfl⟩
  · have hnot := hkeeps.not_mem_begun hn (hw ▸ List.mem_cons_self : part ∈ s.waiting)
    have hnumber : q.part.number ≠ part.number := fun heq =>
      hnot (heq ▸ Session.mem_begun_of_mem_active (Session.active?_eq_some hq).1)
    apply call?_settle
    exact (Session.active?_finish_of_ne _ _ hnumber).trans hq
  · exact call?_go_copying (Session.active?_begin hq part waiting)

end ObjectCopy

end BucketMigration
