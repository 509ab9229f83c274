import BucketMigration.Proofs.Copy.Conversation
import BucketMigration.Proofs.Copy.Landing
import BucketMigration.Store.Lemmas

/-!
# The bytes that a copy writes

A copy has written the data of its writes that were answered with success. Stores answer a read of a
part with as many bytes as its range has, so a copy in parts has written the bytes of the parts that
were uploaded. A copy in one piece has written what it has read, and that may be more or less than the
size with which its object was listed.
-/

namespace BucketMigration

/-- What a store may answer a call with, whatever it holds. -/
def Request.StoreReply (r : Request) (reply : Reply) : Prop :=
  (∃ e, reply = .error e) ∨ ∃ (s : Store) (now : Int), reply = (s.finish now r).1

structure Exchange where
  call : Call
  reply : Reply

namespace Exchange

def written (x : Exchange) : Nat :=
  match x.call.request, x.reply with
  | .put _ _ data, .ok _ | .uploadPart _ _ _ _ data, .ok _ => data.size
  | _, _ => 0

/-- The data of an object that was read in one piece. -/
def content? (x : Exchange) : Option ByteArray :=
  match x.call.request, x.reply with
  | .get _ _ none, .ok (.content data) => some data
  | _, _ => none

@[simp] theorem written_error (call : Call) (e : StorageError) : written ⟨call, .error e⟩ = 0 := by
  unfold written
  split <;> first | contradiction | rfl

end Exchange

theorem Request.StoreReply.size_eq {bucket key : String} {range : ByteRange} {data : ByteArray}
    (h : (Request.get bucket key (some range)).StoreReply (.ok (.content data))) :
    data.size = range.length := by
  rcases h with ⟨e, he⟩ | ⟨s, now, hreply⟩
  · cases he
  have hread : s.get bucket key (some range) = .ok data := by
    cases hget : s.get bucket key (some range) with
    | error e =>
      simp only [Store.finish, Store.perform, hget, Except.map] at hreply
      cases hreply
    | ok found =>
      simp only [Store.finish, Store.perform, hget, Except.map] at hreply
      cases hreply
      rfl
  unfold Store.get at hread
  split at hread
  · cases hread
  · dsimp only at hread
    split at hread
    · rename_i object _ hfits
      cases hread
      simp only [ByteRange.fits, Bool.and_eq_true, decide_eq_true_eq] at hfits
      rw [ByteRange.slice, ByteArray.size_extract, ByteRange.length]
      omega
    · cases hread

section Wrote

variable (object : ObjectDescriptor) (up : List PartRange) (contents : List ByteArray) (written : Nat)

/-- The data of a part under way is as long as its range. -/
def Session.Fits (s : Session) : Prop :=
  ∀ p ∈ s.active, ∀ data, p.data = some data → data.size = p.part.range.length

def WroteAtEnd : Verdict → Prop
  | .ok (.migrated .direct bytes) =>
      bytes = object.size ∧ ∃ data, contents = [data] ∧ written = data.size
  | .ok (.migrated .multipart bytes) => bytes = object.size ∧ written = byteCount up
  | .ok .targetCurrent | .error _ => written = byteCount up

/-- An object that is read in one piece is read once. Until it is written, all that was written are
the parts `up`. -/
def Phase.Wrote : Phase → Prop
  | .writing data => contents = [data] ∧ written = byteCount up
  | .copying s => written = byteCount up ∧ s.Fits
  | .opening _ | .completing .. | .aborting .. => written = byteCount up
  | .ended v => WroteAtEnd object up contents written v
  | _ => contents = [] ∧ written = byteCount up

end Wrote

section

variable {setup : Setup} {object : ObjectDescriptor} {opened : Bool} {up : List PartRange}
  {contents : List ByteArray} {written : Nat} {c : ObjectCopy} {s : Session} {plan : PartPlan}
  {lane : Lane} {reply : Reply} {next : ObjectCopy.Next}

namespace Session

theorem fits_new (id : String) (waiting : List PartRange) :
    Fits { uploadId := id, waiting } := by
  intro p hp
  cases hp

theorem Fits.finish (h : s.Fits) (n : Nat) (how : PartEnd) : (s.finish n how).Fits :=
  fun p hp => h p (List.mem_of_mem_filter hp)

theorem Fits.begin (h : s.Fits) (part : PartRange) (waiting : List PartRange) :
    (s.begin part waiting).Fits := by
  intro p hp data hdata
  rcases List.mem_append.mp hp with hold | hnew
  · exact h p hold data hdata
  · rw [List.mem_singleton.mp hnew] at hdata
    cases hdata

theorem Fits.fill (h : s.Fits) (hlands : s.Lands setup object up plan) {p : PartCopy}
    (hp : s.active? p.part.number = some p) {data : ByteArray}
    (hsize : data.size = p.part.range.length) : (s.fill p.part.number data).Fits := by
  intro q hq found hfound
  obtain ⟨q', hmem, rfl⟩ := List.mem_map.mp hq
  by_cases hnumber : q'.part.number = p.part.number
  · rw [if_pos hnumber] at hfound ⊢
    cases hfound
    have hpart : q'.part = p.part :=
      List.inj_on_of_nodup_map hlands.planned.covers.nodup_number (hlands.keeps.active q' hmem)
        (hlands.keeps.active p (active?_eq_some hp).1) hnumber
    rw [hsize, hpart]
  · rw [if_neg hnumber] at hfound ⊢
    exact h q' hmem found hfound

end Session

namespace ObjectCopy

theorem wrote_transfer (hcontents : contents = []) (hwritten : written = byteCount up) :
    (c.transfer setup).1.phase.Wrote object up contents written := by
  unfold transfer
  split
  · exact ⟨hcontents, hwritten⟩
  · unfold transferInParts
    split
    · exact ⟨hcontents, hwritten⟩
    · exact hwritten
    · exact hwritten

theorem wrote_described (hcontents : contents = []) (hwritten : written = byteCount up)
    (attempt : Nat) (result : Except StorageError (Option ObjectMetadata)) :
    (c.described setup attempt result).1.phase.Wrote object up contents written := by
  unfold described
  split
  · dsimp only
    split
    · exact wrote_transfer hcontents hwritten
    · exact ⟨hcontents, hwritten⟩
  · exact hwritten
  · dsimp only
    split
    · exact ⟨hcontents, hwritten⟩
    · split <;> exact hwritten

theorem wrote_compared (hcontents : contents = []) (hwritten : written = byteCount up)
    (result : Except StorageError (Option ObjectMetadata)) :
    (c.compared setup result).1.phase.Wrote object up contents written := by
  unfold compared
  split
  · exact hwritten
  · split
    · exact hwritten
    · exact wrote_transfer hcontents hwritten

theorem wrote_settle (hwritten : written = byteCount up) (hfits : s.Fits) :
    (c.settle setup s).1.phase.Wrote object up contents written := by
  unfold settle
  split
  · split
    · exact hwritten
    · split <;> exact hwritten
  · exact ⟨hwritten, hfits⟩

/-- A call is made, and if a store has answered it then what was read and written is added to what was
before. -/
def Writes (setup : Setup) (object : ObjectDescriptor) (up : List PartRange)
    (contents : List ByteArray) (written : Nat) (c : ObjectCopy) (lane : Lane) (reply : Reply)
    (phase : Phase) : Prop :=
  ∃ call, c.call? setup lane = some call ∧ (call.request.StoreReply reply →
    phase.Wrote object (up ++ (c.uploads? lane reply).toList)
      (contents ++ (Exchange.content? ⟨call, reply⟩).toList)
      (written + Exchange.written ⟨call, reply⟩))

/-- A call about the object as a whole that moves no data leaves what was read and written alone. -/
theorem writes_still {call : Call} {phase : Phase} (hasks : c.Asks setup call)
    (hcontent : Exchange.content? ⟨call, reply⟩ = none) (hnone : Exchange.written ⟨call, reply⟩ = 0)
    (hwrote : phase.Wrote object up contents written) :
    c.Writes setup object up contents written .whole reply phase := by
  refine ⟨call, hasks.call?, fun _ => ?_⟩
  simp only [uploads?_eq_none c hasks.phase_ne, hcontent, hnone, Option.toList_none,
    List.append_nil, Nat.add_zero]
  exact hwrote

theorem writes_reading (hphase : c.phase = .reading) (hwritten : written = byteCount up)
    (h : c.resume setup lane reply = some next) :
    c.Writes setup object up [] written lane reply next.1.phase := by
  obtain ⟨rfl, hcases⟩ := resume_reading hphase h
  have hasks : c.Asks setup (getCall setup c.object) := asks_reading hphase
  rcases hcases with ⟨e, rfl, rfl⟩ | ⟨data, rfl, rfl⟩
  · exact writes_still hasks rfl rfl hwritten
  · refine ⟨_, hasks.call?, fun _ => ?_⟩
    rw [uploads?_eq_none c hasks.phase_ne, Option.toList_none, List.append_nil]
    exact ⟨rfl, hwritten⟩

theorem writes_writing {data : ByteArray} (hphase : c.phase = .writing data)
    (hobject : c.object = object) (h : c.resume setup lane reply = some next) :
    c.Writes setup object [] [data] 0 lane reply next.1.phase := by
  obtain ⟨rfl, hcases⟩ := resume_writing hphase h
  have hasks : c.Asks setup (putCall setup c.object data) := asks_writing hphase
  rcases hcases with ⟨e, rfl, rfl⟩ | ⟨rfl, rfl⟩
  · exact writes_still hasks rfl rfl rfl
  · refine ⟨_, hasks.call?, fun _ => ?_⟩
    exact ⟨congrArg ObjectDescriptor.size hobject, data, rfl, Nat.zero_add _⟩

theorem writes_copying (hphase : c.phase = .copying s) (hlands : s.Lands setup object up plan)
    (hwritten : written = byteCount up) (hfits : s.Fits)
    (h : c.resume setup lane reply = some next) :
    c.Writes setup object up contents written lane reply next.1.phase := by
  obtain ⟨p, hp, rfl, hcases⟩ := resume_copying hphase h
  have hcall : c.call? setup (.part p.part.number) = some (p.call setup c.object s.uploadId) := by
    simp only [call?, hphase, hp, Option.map_some]
  refine ⟨_, hcall, fun hserved => ?_⟩
  rcases hcases with ⟨hdata, e, rfl, rfl⟩ | ⟨hdata, data, rfl, rfl⟩ | ⟨data, hdata, e, rfl, rfl⟩ |
    ⟨data, hdata, etag, rfl, rfl⟩
  · have hnone : c.uploads? (.part p.part.number) (.error e) = none := rfl
    rw [hnone, Option.toList_none, List.append_nil, Exchange.written_error, Nat.add_zero]
    exact wrote_settle hwritten (hfits.finish _ _)
  · have hnone : c.uploads? (.part p.part.number) (.ok (.content data)) = none := rfl
    rw [PartCopy.call, hdata] at hserved ⊢
    rw [hnone, Option.toList_none, List.append_nil]
    exact ⟨hwritten, hfits.fill hlands hp hserved.size_eq⟩
  · have hnone : c.uploads? (.part p.part.number) (.error e) = none := rfl
    rw [hnone, Option.toList_none, List.append_nil, Exchange.written_error, Nat.add_zero]
    exact wrote_settle hwritten (hfits.finish _ _)
  · have huploads : c.uploads? (.part p.part.number) (.ok (.etag etag)) = some p.part := by
      simp only [uploads?, hphase, hp, Option.bind_some, hdata, Option.map_some]
    have hsize := hfits p (Session.active?_eq_some hp).1 data hdata
    have hsum : written + data.size = byteCount (up ++ [p.part]) := by
      simp only [byteCount, List.map_append, List.sum_append, List.map_cons, List.map_nil,
        List.sum_cons, List.sum_nil, Nat.add_zero]
      rw [hsize, hwritten, byteCount]
    rw [PartCopy.call, hdata, huploads, Option.toList_some]
    exact wrote_settle hsum (hfits.finish _ _)

theorem writes_resume (hobject : c.object = object) (hlanded : c.phase.Landed setup object opened up)
    (hwrote : c.phase.Wrote object up contents written) (h : c.resume setup lane reply = some next) :
    c.Writes setup object up contents written lane reply next.1.phase := by
  cases hphase : c.phase with
  | copying s =>
    rw [hphase] at hlanded hwrote
    obtain ⟨-, plan, hlands⟩ := hlanded
    exact writes_copying hphase hlands hwrote.1 hwrote.2 h
  | reading =>
    rw [hphase] at hwrote
    obtain ⟨rfl, hwritten⟩ := hwrote
    exact writes_reading hphase hwritten h
  | writing data =>
    rw [hphase] at hlanded hwrote
    obtain ⟨-, rfl⟩ := hlanded
    obtain ⟨rfl, rfl⟩ := hwrote
    exact writes_writing hphase hobject h
  | describing attempt =>
    rw [hphase] at hwrote
    obtain ⟨rfl, result, -, rfl⟩ := resume_describing hphase h
    exact writes_still (asks_describing hphase) rfl rfl
      (wrote_described hwrote.1 hwrote.2 attempt result)
  | comparing =>
    rw [hphase] at hwrote
    obtain ⟨rfl, result, -, rfl⟩ := resume_comparing hphase h
    exact writes_still (asks_comparing hphase) rfl rfl (wrote_compared hwrote.1 hwrote.2 result)
  | opening plan =>
    rw [hphase] at hwrote
    obtain ⟨rfl, hcases⟩ := resume_opening hphase h
    apply writes_still (asks_opening hphase) rfl rfl
    rcases hcases with ⟨e, -, rfl⟩ | ⟨id, -, rfl⟩
    · exact hwrote
    · exact wrote_settle hwrote (Session.fits_new id plan.parts)
  | completing id ps =>
    rw [hphase] at hwrote
    obtain ⟨rfl, hcases⟩ := resume_completing hphase h
    apply writes_still (asks_completing hphase) rfl rfl
    rcases hcases with ⟨e, -, rfl⟩ | ⟨-, rfl⟩
    · exact hwrote
    · exact ⟨congrArg ObjectDescriptor.size hobject, hwrote⟩
  | aborting id cause =>
    rw [hphase] at hwrote
    obtain ⟨rfl, hcases⟩ := resume_aborting hphase h
    apply writes_still (asks_aborting hphase) rfl rfl
    rcases hcases with ⟨e, -, rfl⟩ | ⟨-, rfl⟩
    · exact hwrote
    · exact hwrote
  | pausing | ended | overflowed =>
    unfold resume at h
    rw [hphase] at h
    cases lane <;> cases h

theorem wrote_wake (hwrote : c.phase.Wrote object up contents written) (h : c.wake = some next) :
    next.1.phase.Wrote object up contents written := by
  unfold wake at h
  split at h
  · rename_i attempt hphase
    cases h
    rw [hphase] at hwrote
    exact hwrote
  · cases h

theorem wrote_startPart (hwrote : c.phase.Wrote object up contents written)
    (h : c.startPart setup = some next) : next.1.phase.Wrote object up contents written := by
  obtain ⟨s, part, waiting, hphase, -, -, hcases⟩ := startPart_eq_some h
  rw [hphase] at hwrote
  obtain ⟨hwritten, hfits⟩ := hwrote
  rcases hcases with ⟨-, rfl⟩ | ⟨-, rfl⟩
  · exact wrote_settle hwritten (Session.Fits.finish (s := { s with waiting }) hfits _ _)
  · exact ⟨hwritten, hfits.begin part waiting⟩

theorem wrote_start (setup : Setup) (object : ObjectDescriptor) :
    (start setup object).1.phase.Wrote object [] [] 0 := by
  unfold start
  dsimp only
  split
  · exact rfl
  · split
    · exact rfl
    · exact ⟨rfl, rfl⟩

theorem written_eq (hwrote : c.phase.Wrote object up contents written) (hnone : c.verdict? = none) :
    written = byteCount up := by
  cases hphase : c.phase with
  | ended v =>
    rw [verdict?_of_ended hphase] at hnone
    cases hnone
  | opening | completing | aborting =>
    rw [hphase] at hwrote
    exact hwrote
  | copying =>
    rw [hphase] at hwrote
    exact hwrote.1
  | describing | pausing | comparing | reading | writing | overflowed =>
    rw [hphase] at hwrote
    exact hwrote.2

end ObjectCopy

end

end BucketMigration
