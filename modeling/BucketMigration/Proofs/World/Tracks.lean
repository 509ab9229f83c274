import BucketMigration.Proofs.Copy.Verdict
import BucketMigration.Proofs.World.Pieces
import BucketMigration.Proofs.World.Trails

/-!
# What a task has left at each stage

The stage of a task and the states of its calls tell what it has left in the stores: nothing until it
opens an upload or puts its object, then an upload with the parts that were worked on, and in the end
what its verdict says. Each step of the task keeps the two in agreement.
-/

namespace BucketMigration

def MigrationError.leftUpload? : MigrationError → Option String
  | abortFailed _ id _ _ => some id
  | _ => none

namespace Store

variable {s : Store} {bucket key : String} {data : ByteArray}

theorem get_whole_eq_ok (h : s.get bucket key none = .ok data) :
    ∃ object, s.object? bucket key = some object ∧ data = object.data := by
  unfold get at h
  split at h
  · cases h
  · rename_i object hobject
    cases h
    exact ⟨object, hobject, rfl⟩

theorem get_range_eq_ok {range : ByteRange} (h : s.get bucket key (some range) = .ok data) :
    ∃ object, s.object? bucket key = some object ∧ range.fits object.data.size = true ∧
      data = range.slice object.data := by
  unfold get at h
  split at h
  · cases h
  · rename_i object hobject
    dsimp only at h
    split at h
    · rename_i hfits
      cases h
      exact ⟨object, hobject, hfits, rfl⟩
    · cases h

end Store

namespace Reply

variable {result : Except StorageError ByteArray}

theorem eq_ok_of_content {data : ByteArray} (h : .ok (.content data) = result.map Answer.content) :
    result = .ok data := by
  cases result <;> cases h
  rfl

theorem eq_error_of_content {e : StorageError} (h : .error e = result.map Answer.content) :
    result = .error e := by
  cases result <;> cases h
  rfl

end Reply

/-- How far a call has come, and what its task has left. A call that is refused leaves what there was
before, and is not seen in a calm. -/
inductive Calling {α : Type} (calm : Prop) (before : α) (answers : Reply → α → Prop) :
    Option CallState → α → Prop
  | due : Calling calm before answers none before
  | entered : Calling calm before answers (some .entered) before
  | refused (e : StorageError) (hcalm : ¬calm) :
      Calling calm before answers (some (.answered (.error e))) before
  | answered {reply : Reply} {after : α} (h : answers reply after) :
      Calling calm before answers (some (.answered reply)) after

/-- What the first half of a call makes of its state. -/
def Store.stateOnEntry (s : Store) (r : Request) : CallState :=
  match (s.enter r).1 with
  | .error e => .answered (.error e)
  | .ok () => .entered

section Calling

variable {α : Type} {calm : Prop} {before own : α} {answers : Reply → α → Prop}

theorem Calling.enter (h : Calling calm before answers none own) {store : Store}
    (hfaults : calm → store.faults = []) (r : Request) :
    Calling calm before answers (some (store.stateOnEntry r)) own := by
  cases h
  unfold Store.stateOnEntry
  split
  · rename_i e he
    refine .refused e fun hcalm => ?_
    rw [(Store.enter_of_faults_eq_nil (hfaults hcalm) r).1] at he
    cases he
  · exact .entered

theorem Calling.of_entered (h : Calling calm before answers (some .entered) own) : own = before := by
  cases h
  rfl

theorem Calling.of_answered {reply : Reply}
    (h : Calling calm before answers (some (.answered reply)) own) :
    (∃ e, ¬calm ∧ reply = .error e ∧ own = before) ∨ answers reply own := by
  cases h with
  | refused e hcalm => exact .inl ⟨e, hcalm, rfl, rfl⟩
  | answered h => exact .inr h

end Calling

section Tracks

variable (S₀ : Stores) (setup : Setup) (calm alone : Prop) (object : ObjectDescriptor)

/-- How far a part has come: its stage, its call, and what the upload holds of it. -/
inductive PieceAt (part : PartRange) : PartStatus → Option CallState → Option StoredPart → Prop
  | waiting : PieceAt part .waiting none none
  | reading {state : Option CallState} {own : Option StoredPart}
      (h : Calling calm none (fun reply own =>
        reply = ((S₀.get .source).get setup.source.bucket object.key (some part.range)).map
          .content ∧ own = none) state own) :
      PieceAt part (.active none) state own
  | writing {data : ByteArray} {state : Option CallState} {own : Option StoredPart}
      (hdata : (S₀.get .source).get setup.source.bucket object.key (some part.range) = .ok data)
      (h : Calling calm none (fun reply own => ∃ etag,
        reply = .ok (.etag (if (S₀.get .target).omitsEtags then none else some etag)) ∧
          own = some ⟨data, etag⟩) state own) :
      PieceAt part (.active (some data)) state own
  | uploaded {data : ByteArray}
      (hdata : (S₀.get .source).get setup.source.bucket object.key (some part.range) = .ok data)
      (etag : String) :
      PieceAt part
        (.ended (.uploaded (if (S₀.get .target).omitsEtags then none else some etag))) none
        (some ⟨data, etag⟩)
  | leftOut : PieceAt part (.ended .leftOut) none none
  | failed {e : MigrationError} (hleft : e.leftUpload? = none)
      (hcalm : calm → ∃ error, e = .storage object.key "get part" error ∧
        (S₀.get .source).get setup.source.bucket object.key (some part.range) = .error error) :
      PieceAt part (.ended (.failed e)) none none

/-- A session, the states of its calls, and the upload with what it holds. -/
structure PiecesAt (parts : List PartRange) (s : Session) (stored : Std.TreeMap Int StoredPart)
    (lanes : Lane → Option CallState) (trail : Trail) : Prop where
  keeps : s.Keeps parts
  trail : trail = ⟨some (s.uploadId, ownUpload setup object stored), none⟩
  whole : lanes .whole = none
  others : ∀ n, n ∉ parts.map PartRange.number → lanes (.part n) = none
  piece : ∀ part ∈ parts, PieceAt S₀ setup calm object part (s.status part.number)
    (lanes (.part part.number)) stored[(part.number : Int)]?

/-- What a copy has left that waits for a call as a whole. -/
inductive Ready : Phase → Trail → Prop
  | describing (attempt : Nat) : Ready (.describing attempt) {}
  | comparing : Ready .comparing {}
  | reading : Ready .reading {}
  | writing {source : StoredObject}
      (hsource : (S₀.get .source).object? setup.source.bucket object.key = some source) :
      Ready (.writing source.data) {}
  | opening {plan : PartPlan} (hcovers : Layout.Covers object.size plan) : Ready (.opening plan) {}
  | completing {id : String} {ps : List CompletedPart} {stored : Std.TreeMap Int StoredPart}
      {source : StoredObject}
      (hsource : (S₀.get .source).object? setup.source.bucket object.key = some source)
      (hsize : object.size ≤ source.data.size) (hne : ps ≠ []) (hascending : Store.ascending ps = true)
      (hdata : Store.assemble (ownUpload setup object stored) .empty ps =
        .ok (source.data.extract 0 object.size)) :
      Ready (.completing id ps) ⟨some (id, ownUpload setup object stored), none⟩
  | aborting (id : String) {cause : MigrationError} (hcause : cause.leftUpload? = none)
      (stored : Std.TreeMap Int StoredPart) :
      Ready (.aborting id cause) ⟨some (id, ownUpload setup object stored), none⟩

inductive Final : Verdict → Trail → Prop
  | direct {source stored : StoredObject}
      (hsource : (S₀.get .source).object? setup.source.bucket object.key = some source)
      (hdata : stored.data = source.data) :
      Final (.ok (.migrated .direct object.size)) ⟨none, some (setup.targetKey object.key, stored)⟩
  | inParts {source stored : StoredObject}
      (hsource : (S₀.get .source).object? setup.source.bucket object.key = some source)
      (hsize : object.size ≤ source.data.size)
      (hdata : stored.data = source.data.extract 0 object.size) :
      Final (.ok (.migrated .multipart object.size))
        ⟨none, some (setup.targetKey object.key, stored)⟩
  | current : Final (.ok .targetCurrent) {}
  | failed {e : MigrationError} (hleft : e.leftUpload? = none) : Final (.error e) {}
  | left (id : String) (e : StorageError) (cause : MigrationError)
      (stored : Std.TreeMap Int StoredPart) (hcalm : ¬calm) :
      Final (.error (.abortFailed (setup.targetKey object.key) id e cause))
        ⟨some (id, ownUpload setup object stored), none⟩

/-- What a copy has left, and how far its calls have come. -/
inductive CopyAt (c : ObjectCopy) (lanes : Lane → Option CallState) (trail : Trail) : Prop
  | calling {call : Call} {before : Trail} (hcall : c.call? setup .whole = some call)
      (hready : Ready S₀ setup object c.phase before) (hparts : ∀ n, lanes (.part n) = none)
      (h : Calling calm before (Deal S₀ setup object before alone call) (lanes .whole) trail)
  | pausing {attempt : Nat} (hphase : c.phase = .pausing attempt) (hidle : ∀ lane, lanes lane = none)
      (htrail : trail = {})
  | copying {s : Session} {plan : PartPlan} {stored : Std.TreeMap Int StoredPart}
      (hphase : c.phase = .copying s) (hcovers : Layout.Covers object.size plan)
      (hover : s.isOver = false) (h : PiecesAt S₀ setup calm object plan.parts s stored lanes trail)
  | ended {v : Verdict} (hphase : c.phase = .ended v) (hidle : ∀ lane, lanes lane = none)
      (hfinal : Final S₀ setup calm object v trail)
  | overflowed (hphase : c.phase = .overflowed) (hidle : ∀ lane, lanes lane = none)
      (htrail : trail = {})

inductive TaskAt : TaskStage → (Lane → Option CallState) → Trail → Prop
  | queued {lanes : Lane → Option CallState} (hidle : ∀ lane, lanes lane = none) :
      TaskAt .queued lanes {}
  | granted {lanes : Lane → Option CallState} (hidle : ∀ lane, lanes lane = none) :
      TaskAt .granted lanes {}
  | running {c : ObjectCopy} {lanes : Lane → Option CallState} {trail : Trail}
      (hobject : c.object = object) (h : CopyAt S₀ setup calm alone object c lanes trail) :
      TaskAt (.running c) lanes trail
  | judged {stage : TaskStage} {v : Verdict} {lanes : Lane → Option CallState} {trail : Trail}
      (hstage : stage.verdict? = some v) (hidle : ∀ lane, lanes lane = none)
      (h : Final S₀ setup calm object v trail) : TaskAt stage lanes trail
  | panicked (reason : String) {lanes : Lane → Option CallState}
      (hidle : ∀ lane, lanes lane = none) : TaskAt (.panicked reason) lanes {}

end Tracks

theorem ownUpload_inj {setup : Setup} {object : ObjectDescriptor} {id id' : String}
    {stored stored' : Std.TreeMap Int StoredPart} {upload : Option (String × UploadSession)}
    (h : upload = some (id, ownUpload setup object stored))
    (h' : upload = some (id', ownUpload setup object stored')) : id = id' ∧ stored = stored' := by
  rw [h] at h'
  simpa [ownUpload] using h'

section Pieces

variable {S₀ : Stores} {setup : Setup} {calm alone : Prop} {object : ObjectDescriptor}

theorem PieceAt.idle_of_ended {part : PartRange} {how : PartEnd} {state : Option CallState}
    {own : Option StoredPart} (h : PieceAt S₀ setup calm object part (.ended how) state own) :
    state = none := by
  cases h <;> rfl

namespace PiecesAt

variable {parts : List PartRange} {s : Session} {stored : Std.TreeMap Int StoredPart}
  {lanes : Lane → Option CallState} {trail : Trail}

theorem new (id : String) (hidle : ∀ lane, lanes lane = none) :
    PiecesAt S₀ setup calm object parts { uploadId := id, waiting := parts } {} lanes
      ⟨some (id, ownUpload setup object {}), none⟩ where
  keeps := .new id
  trail := rfl
  whole := hidle .whole
  others := fun n _ => hidle (.part n)
  piece := by
    intro part _
    rw [hidle, Std.TreeMap.getElem?_emptyc]
    exact .waiting

theorem extend (h : PiecesAt S₀ setup calm object parts s stored lanes trail)
    (hn : (parts.map PartRange.number).Nodup) {s' : Session} {stored' : Std.TreeMap Int StoredPart}
    {lanes' : Lane → Option CallState} {part : PartRange} (hpart : part ∈ parts)
    (hkeeps : s'.Keeps parts) (hid : s'.uploadId = s.uploadId)
    (hstatus : ∀ m, m ≠ part.number → s'.status m = s.status m)
    (hlanes : ∀ lane, lane ≠ .part part.number → lanes' lane = lanes lane)
    (hstored : ∀ m : Nat, m ≠ part.number → stored'[(m : Int)]? = stored[(m : Int)]?)
    (hat : PieceAt S₀ setup calm object part (s'.status part.number) (lanes' (.part part.number))
      stored'[(part.number : Int)]?) :
    PiecesAt S₀ setup calm object parts s' stored' lanes'
      ⟨some (s.uploadId, ownUpload setup object stored'), none⟩ where
  keeps := hkeeps
  trail := by rw [hid]
  whole := (hlanes .whole Lane.noConfusion).trans h.whole
  others := by
    intro n hnot
    rw [hlanes, h.others n hnot]
    rintro heq
    cases heq
    exact hnot (List.mem_map.mpr ⟨part, hpart, rfl⟩)
  piece := by
    intro q hq
    by_cases hnumber : q.number = part.number
    · obtain rfl := List.inj_on_of_nodup_map hn hq hpart hnumber
      exact hat
    · rw [hstatus _ hnumber, hlanes _ (by simpa using hnumber), hstored _ hnumber]
      exact h.piece q hq

theorem extend_same (h : PiecesAt S₀ setup calm object parts s stored lanes trail)
    (hn : (parts.map PartRange.number).Nodup) {s' : Session} {lanes' : Lane → Option CallState}
    {part : PartRange} (hpart : part ∈ parts) (hkeeps : s'.Keeps parts)
    (hid : s'.uploadId = s.uploadId) (hstatus : ∀ m, m ≠ part.number → s'.status m = s.status m)
    (hlanes : ∀ lane, lane ≠ .part part.number → lanes' lane = lanes lane)
    (hat : PieceAt S₀ setup calm object part (s'.status part.number) (lanes' (.part part.number))
      stored[(part.number : Int)]?) :
    PiecesAt S₀ setup calm object parts s' stored lanes' trail := by
  rw [h.trail]
  exact h.extend hn hpart hkeeps hid hstatus hlanes (fun _ _ => rfl) hat

theorem fits (h : PiecesAt S₀ setup calm object parts s stored lanes trail) (p : PartCopy) :
    Fits setup object trail (p.call setup object s.uploadId) := by
  rw [h.trail]
  unfold PartCopy.call
  split
  · exact .read _
  · exact .part _ _ rfl

section Active

variable (h : PiecesAt S₀ setup calm object parts s stored lanes trail)
  (hn : (parts.map PartRange.number).Nodup) {p : PartCopy} (hp : s.active? p.part.number = some p)
include h hp

theorem mem_parts : p.part ∈ parts :=
  h.keeps.active p (Session.active?_eq_some hp).1

theorem pieceAt : PieceAt S₀ setup calm object p.part (.active p.data)
    (lanes (.part p.part.number)) stored[(p.part.number : Int)]? := by
  rw [← Session.status_of_active? hp]
  exact h.piece p.part (h.mem_parts hp)

include hn

theorem enter (hfree : lanes (.part p.part.number) = none) {store : Store}
    (hfaults : calm → store.faults = []) (r : Request) :
    PiecesAt S₀ setup calm object parts s stored
      (Function.update lanes (.part p.part.number) (some (store.stateOnEntry r))) trail := by
  have hat := h.pieceAt hp
  rw [hfree] at hat
  refine h.extend_same hn (h.mem_parts hp) h.keeps rfl (fun _ _ => rfl)
    (fun lane hlane => Function.update_of_ne hlane ..) ?_
  rw [Function.update_self, Session.status_of_active? hp]
  generalize p.data = data at hat
  generalize stored[(p.part.number : Int)]? = own at hat
  cases hat with
  | reading hcalling => exact .reading (hcalling.enter hfaults r)
  | writing hdata hcalling => exact .writing hdata (hcalling.enter hfaults r)

theorem finish (hentered : lanes (.part p.part.number) = some .entered) {reply : Reply}
    {trail' : Trail}
    (hdeal : Deal S₀ setup object trail alone (p.call setup object s.uploadId) reply trail') :
    ∃ stored', PiecesAt S₀ setup calm object parts s stored'
      (Function.update lanes (.part p.part.number) (some (.answered reply))) trail' := by
  obtain rfl := h.trail
  have hpart := h.mem_parts hp
  have hlanes : ∀ lane, lane ≠ .part p.part.number →
      Function.update lanes (.part p.part.number) (some (.answered reply)) lane = lanes lane :=
    fun lane hlane => Function.update_of_ne hlane ..
  have hat := h.pieceAt hp
  rw [hentered] at hat
  generalize hdata : p.data = data at hat
  generalize hown : stored[(p.part.number : Int)]? = own at hat
  cases hat with
  | reading hcalling =>
    have hnone := hcalling.of_entered
    simp only [PartCopy.call, hdata] at hdeal
    cases hdeal
    refine ⟨stored, h.extend_same hn hpart h.keeps rfl (fun _ _ => rfl) hlanes ?_⟩
    rw [Function.update_self, Session.status_of_active? hp, hdata, hown]
    exact .reading (.answered ⟨rfl, hnone⟩)
  | @writing data _ _ hget hcalling =>
    simp only [PartCopy.call, hdata] at hdeal
    cases hdeal with
    | part hupload etag =>
      obtain ⟨-, rfl⟩ := ownUpload_inj rfl hupload
      refine ⟨_, h.extend hn hpart h.keeps rfl (fun _ _ => rfl) hlanes ?_ ?_⟩
      · intro m hm
        have hne : ¬compare (p.part.number : Int) m = .eq := by
          rw [Std.compare_eq_iff_eq, Int.ofNat_inj]
          exact Ne.symm hm
        rw [Std.TreeMap.getElem?_insert, if_neg hne]
      · rw [Function.update_self, Session.status_of_active? hp, hdata,
          Std.TreeMap.getElem?_insert_self]
        exact .writing hget (.answered ⟨etag, rfl, rfl⟩)

theorem ended {how : PartEnd} (hhow : how ≠ .leftOut)
    (hat : PieceAt S₀ setup calm object p.part (.ended how) none stored[(p.part.number : Int)]?) :
    PiecesAt S₀ setup calm object parts (s.finish p.part.number how) stored
      (Function.update lanes (.part p.part.number) none) trail := by
  have hstatus := Session.status_finish how (h.keeps.not_mem_ended hn hp)
  refine h.extend_same hn (h.mem_parts hp) (h.keeps.finish hn hp hhow) rfl ?_
    (fun lane hlane => Function.update_of_ne hlane ..) ?_
  · intro m hm
    rw [hstatus, if_neg hm]
  · rw [Function.update_self, hstatus, if_pos rfl]
    exact hat

theorem filled {data : ByteArray}
    (hdata : (S₀.get .source).get setup.source.bucket object.key (some p.part.range) = .ok data)
    (hown : stored[(p.part.number : Int)]? = none) :
    PiecesAt S₀ setup calm object parts (s.fill p.part.number data) stored
      (Function.update lanes (.part p.part.number) none) trail := by
  have hstatus := Session.status_fill data hp
  refine h.extend_same hn (h.mem_parts hp) (h.keeps.fill _ _) rfl ?_
    (fun lane hlane => Function.update_of_ne hlane ..) ?_
  · intro m hm
    rw [hstatus, if_neg hm]
  · rw [Function.update_self, hstatus, if_pos rfl, hown]
    exact .writing hdata .due

end Active

theorem answered (h : PiecesAt S₀ setup calm object parts s stored lanes trail)
    (hn : (parts.map PartRange.number).Nodup) {c : ObjectCopy} (hobject : c.object = object)
    (hphase : c.phase = .copying s) {lane : Lane} {reply : Reply} {next : ObjectCopy.Next}
    (hanswered : lanes lane = some (.answered reply)) (hnext : c.resume setup lane reply = some next) :
    ∃ p s', s.active? p.part.number = some p ∧
      PiecesAt S₀ setup calm object parts s' stored (Function.update lanes lane none) trail ∧
      ((∃ data, s' = s.fill p.part.number data ∧ next = c.go (.copying s')) ∨
        (∃ e, s' = s.finish p.part.number (.failed e) ∧ next = c.settle setup s') ∨
        ∃ etag, s' = s.finish p.part.number (.uploaded etag) ∧
          next = c.partWritten setup s p (.ok etag)) := by
  subst hobject
  obtain ⟨p, hp, rfl, hcases⟩ := ObjectCopy.resume_copying hphase hnext
  have hat := h.pieceAt hp
  rw [hanswered] at hat
  generalize hown : stored[(p.part.number : Int)]? = own at hat
  rcases hcases with ⟨hdata, e, rfl, rfl⟩ | ⟨hdata, data, rfl, rfl⟩ |
      ⟨data, hdata, e, rfl, rfl⟩ | ⟨data, hdata, etag, rfl, rfl⟩
  · rw [hdata] at hat
    cases hat with
    | reading hcalling =>
      refine ⟨p, _, hp, h.ended hn hp (by simp) ?_, .inr (.inl ⟨_, rfl, rfl⟩)⟩
      rcases hcalling.of_answered with ⟨e', hcalm, -, rfl⟩ | ⟨hreply, rfl⟩
      · rw [hown]
        exact .failed rfl fun hc => absurd hc hcalm
      · rw [hown]
        exact .failed rfl fun _ => ⟨e, rfl, Reply.eq_error_of_content hreply⟩
  · rw [hdata] at hat
    cases hat with
    | reading hcalling =>
      rcases hcalling.of_answered with ⟨e', -, hreply, -⟩ | ⟨hreply, rfl⟩
      · cases hreply
      · exact ⟨p, _, hp, h.filled hn hp (Reply.eq_ok_of_content hreply) hown,
          .inl ⟨data, rfl, rfl⟩⟩
  · rw [hdata] at hat
    cases hat with
    | writing hget hcalling =>
      refine ⟨p, _, hp, h.ended hn hp (by simp) ?_, .inr (.inl ⟨_, rfl, rfl⟩)⟩
      rcases hcalling.of_answered with ⟨e', hcalm, -, rfl⟩ | ⟨etag, hreply, -⟩
      · rw [hown]
        exact .failed rfl fun hc => absurd hc hcalm
      · cases hreply
  · rw [hdata] at hat
    refine ⟨p, s.finish p.part.number (.uploaded etag), hp, h.ended hn hp (by simp) ?_,
      .inr (.inr ⟨etag, rfl, rfl⟩)⟩
    cases hat with
    | writing hget hcalling =>
      rcases hcalling.of_answered with ⟨e', -, hreply, -⟩ | ⟨etag', hreply, rfl⟩
      · cases hreply
      · cases hreply
        rw [hown]
        exact .uploaded hget etag'

theorem deliver (h : PiecesAt S₀ setup calm object parts s stored lanes trail)
    (hn : (parts.map PartRange.number).Nodup) {c : ObjectCopy} (hobject : c.object = object)
    (hphase : c.phase = .copying s) {lane : Lane} {reply : Reply} {next : ObjectCopy.Next}
    (hanswered : lanes lane = some (.answered reply)) (hnext : c.resume setup lane reply = some next) :
    ∃ s', next.1 = (c.settle setup s').1 ∧
      PiecesAt S₀ setup calm object parts s' stored (Function.update lanes lane none) trail := by
  obtain ⟨p, s', hp, hpieces, ⟨data, rfl, rfl⟩ | ⟨e, -, rfl⟩ | ⟨etag, rfl, rfl⟩⟩ :=
    h.answered hn hobject hphase hanswered hnext
  · refine ⟨_, ?_, hpieces⟩
    rw [c.settle_fill setup hp]
  · exact ⟨_, rfl, hpieces⟩
  · exact ⟨_, rfl, hpieces⟩

theorem startPart (h : PiecesAt S₀ setup calm object parts s stored lanes trail)
    (hn : (parts.map PartRange.number).Nodup) {c : ObjectCopy} (hphase : c.phase = .copying s)
    {next : ObjectCopy.Next} (hnext : c.startPart setup = some next) :
    ∃ s', next.1 = (c.settle setup s').1 ∧
      PiecesAt S₀ setup calm object parts s' stored lanes trail := by
  obtain ⟨s₁, part, waiting, hphase₁, hw, -, hcases⟩ := ObjectCopy.startPart_eq_some hnext
  obtain rfl : s = s₁ := by
    rw [hphase, Phase.copying.injEq] at hphase₁
    exact hphase₁
  have hmem : part ∈ s.waiting := hw ▸ List.mem_cons_self
  have hpart := h.keeps.waiting_subset hmem
  have hnot := h.keeps.not_mem_begun hn hmem
  have hat := h.piece part hpart
  rw [Session.status_eq_waiting_iff.mpr hnot] at hat
  rcases hcases with ⟨hfailed, rfl⟩ | ⟨-, rfl⟩
  · have hstatus := Session.status_leaveOut waiting hnot
    refine ⟨s.leaveOut part waiting, rfl, h.extend_same hn hpart (h.keeps.leaveOut hn hw hfailed)
      rfl ?_ (fun _ _ => rfl) ?_⟩
    · intro m hm
      rw [hstatus, if_neg hm]
    · rw [hstatus, if_pos rfl]
      generalize stored[(part.number : Int)]? = own at hat
      generalize lanes (.part part.number) = state at hat
      cases hat
      exact .leftOut
  · have hstatus := Session.status_begin waiting fun hactive =>
      hnot (List.mem_append_left _ hactive)
    refine ⟨s.begin part waiting, ?_, h.extend_same hn hpart (h.keeps.begin hw) rfl ?_
      (fun _ _ => rfl) ?_⟩
    · rw [c.settle_of_isOver_eq_false setup (by simp [Session.isOver, Session.begin])]
      rfl
    · intro m hm
      rw [hstatus, if_neg hm]
    · rw [hstatus, if_pos rfl]
      generalize stored[(part.number : Int)]? = own at hat
      generalize lanes (.part part.number) = state at hat
      cases hat
      exact .reading .due

theorem idle_of_isOver (h : PiecesAt S₀ setup calm object parts s stored lanes trail)
    (hover : s.isOver = true) (lane : Lane) : lanes lane = none := by
  simp only [Session.isOver, Bool.and_eq_true, List.isEmpty_iff] at hover
  cases lane with
  | whole => exact h.whole
  | part n =>
    by_cases hn : n ∈ parts.map PartRange.number
    · obtain ⟨part, hpart, rfl⟩ := List.mem_map.mp hn
      have hat := h.piece part hpart
      cases hstatus : s.status part.number with
      | waiting =>
        have hmem := h.keeps.mem_waiting hpart hstatus
        rw [hover.1] at hmem
        cases hmem
      | active data =>
        obtain ⟨p, hp, -⟩ := Session.active?_of_status hstatus
        have hmem := (Session.active?_eq_some hp).1
        rw [hover.2] at hmem
        cases hmem
      | ended how =>
        rw [hstatus] at hat
        exact hat.idle_of_ended
    · exact h.others n hn

theorem pieceAt_of_ended (h : PiecesAt S₀ setup calm object parts s stored lanes trail)
    (hn : (parts.map PartRange.number).Nodup) {part : PartRange} (hpart : part ∈ parts)
    {how : PartEnd} (hended : (part.number, how) ∈ s.ended) :
    PieceAt S₀ setup calm object part (.ended how) (lanes (.part part.number))
      stored[(part.number : Int)]? := by
  rw [← Session.status_of_mem_ended (h.keeps.nodup hn) hended]
  exact h.piece part hpart

theorem stored_of_uploaded (h : PiecesAt S₀ setup calm object parts s stored lanes trail)
    (hn : (parts.map PartRange.number).Nodup) {part : PartRange} (hpart : part ∈ parts)
    {etag : String} (hended : (part.number, .uploaded (some etag)) ∈ s.ended) :
    ∃ source, (S₀.get .source).object? setup.source.bucket object.key = some source ∧
      part.range.fits source.data.size = true ∧
      stored[(part.number : Int)]? = some ⟨part.range.slice source.data, etag⟩ := by
  have hat := h.pieceAt_of_ended hn hpart hended
  generalize htag : some etag = tag at hat
  generalize stored[(part.number : Int)]? = own at hat
  generalize lanes (.part part.number) = state at hat
  cases hat with
  | @uploaded data hdata etag' =>
    obtain ⟨source, hsource, hfits, rfl⟩ := Store.get_range_eq_ok hdata
    refine ⟨source, hsource, hfits, ?_⟩
    split at htag
    · cases htag
    · cases htag
      rfl

variable {plan : PartPlan}

theorem outcome_eq_ok (h : PiecesAt S₀ setup calm object plan.parts s stored lanes trail)
    (hcovers : Layout.Covers object.size plan) (hover : s.isOver = true) {ps : List CompletedPart}
    (hps : s.outcome (setup.targetKey object.key) = .ok ps) :
    Ready S₀ setup object (.completing s.uploadId ps) trail := by
  have hn := hcovers.nodup_number
  obtain ⟨hnumbers, huploaded⟩ := h.keeps.outcome_eq_ok hcovers.pairwise_number hover hps
  have hne : ps ≠ [] := by
    rintro rfl
    have hlength := congrArg List.length hnumbers
    rw [hcovers.parts_eq] at hlength
    have hpos := Layout.partCount_pos object.size plan.partSize
    simp at hlength
    omega
  obtain ⟨p, hp⟩ := List.exists_mem_of_ne_nil ps hne
  obtain ⟨part, hpart, -, hended⟩ := huploaded p hp
  obtain ⟨source, hsource, -⟩ := h.stored_of_uploaded hn hpart hended
  have hstored : ∀ part ∈ plan.parts, ∀ etag, (part.number, .uploaded (some etag)) ∈ s.ended →
      part.range.fits source.data.size = true ∧
        (ownUpload setup object stored).parts[(part.number : Int)]? =
          some ⟨part.range.slice source.data, etag⟩ := by
    intro part hpart etag hended
    obtain ⟨source', hsource', hfits, hstored⟩ := h.stored_of_uploaded hn hpart hended
    rw [hsource] at hsource'
    cases hsource'
    exact ⟨hfits, hstored⟩
  obtain ⟨hsize, -, hascending, hdata⟩ := h.keeps.assemble_of_outcome hcovers hover hps hstored
  rw [h.trail]
  exact .completing hsource hsize hne hascending hdata

theorem outcome_eq_error (h : PiecesAt S₀ setup calm object plan.parts s stored lanes trail)
    (hcovers : Layout.Covers object.size plan) {cause : MigrationError}
    (hcause : s.outcome (setup.targetKey object.key) = .error cause) :
    Ready S₀ setup object (.aborting s.uploadId cause) trail := by
  have hleft : cause.leftUpload? = none := by
    rcases Session.outcome_eq_error hcause with hfailure | ⟨-, n, -, rfl⟩
    · obtain ⟨⟨n, how⟩, hended, hhow⟩ := List.exists_of_findSome?_eq_some hfailure
      obtain ⟨part, hpart, rfl⟩ :=
        h.keeps.exists_of_mem_begun (Session.mem_begun_of_mem_ended hended)
      have hat := h.pieceAt_of_ended hcovers.nodup_number hpart hended
      generalize stored[(part.number : Int)]? = own at hat
      generalize lanes (.part part.number) = state at hat
      cases hat with
      | uploaded | leftOut => cases hhow
      | failed hleft =>
        cases hhow
        exact hleft
    · rfl
  rw [h.trail]
  exact .aborting _ hleft stored

theorem settle (h : PiecesAt S₀ setup calm object plan.parts s stored lanes trail)
    (hcovers : Layout.Covers object.size plan) {c : ObjectCopy} (hobject : c.object = object) :
    CopyAt S₀ setup calm alone object (c.settle setup s).1 lanes trail := by
  subst hobject
  cases hover : s.isOver with
  | false =>
    rw [c.settle_of_isOver_eq_false setup hover]
    exact .copying rfl hcovers hover h
  | true =>
    have hidle := h.idle_of_isOver hover
    cases houtcome : s.outcome (c.targetKey setup) with
    | error cause =>
      rw [c.settle_of_outcome_eq_error setup hover houtcome]
      exact .calling rfl (h.outcome_eq_error hcovers houtcome) (fun n => hidle _) (hidle _ ▸ .due)
    | ok ps =>
      rw [c.settle_of_outcome_eq_ok setup hover houtcome]
      exact .calling rfl (h.outcome_eq_ok hcovers hover houtcome) (fun n => hidle _)
        (hidle _ ▸ .due)

end PiecesAt

variable {c : ObjectCopy} {lanes : Lane → Option CallState} {trail : Trail}

theorem copyAt_fail (hidle : ∀ lane, lanes lane = none) {e : MigrationError}
    (hleft : e.leftUpload? = none) : CopyAt S₀ setup calm alone object (c.fail e).1 lanes {} :=
  .ended rfl hidle (.failed hleft)

theorem copyAt_ready {call : Call} (hcall : c.call? setup .whole = some call)
    (hready : Ready S₀ setup object c.phase trail) (hidle : ∀ lane, lanes lane = none) :
    CopyAt S₀ setup calm alone object c lanes trail :=
  .calling hcall hready (fun n => hidle (.part n)) (hidle .whole ▸ .due)

theorem copyAt_start (hidle : ∀ lane, lanes lane = none) :
    CopyAt S₀ setup calm alone object (ObjectCopy.start setup object).1 lanes {} := by
  unfold ObjectCopy.start
  dsimp only
  split
  · exact copyAt_fail hidle rfl
  · split
    · exact .ended rfl hidle (.failed rfl)
    · exact copyAt_ready rfl (.describing 1) hidle

theorem copyAt_refuse (hidle : ∀ lane, lanes lane = none) (cause : MigrationError) :
    CopyAt S₀ setup calm alone object (ObjectCopy.refuse object cause).1 lanes {} :=
  .ended rfl hidle (.failed rfl)

theorem copyAt_transfer (hobject : c.object = object) (hidle : ∀ lane, lanes lane = none) :
    CopyAt S₀ setup calm alone object (c.transfer setup).1 lanes {} := by
  subst hobject
  unfold ObjectCopy.transfer
  split
  · exact copyAt_ready rfl .reading hidle
  · unfold ObjectCopy.transferInParts
    split
    · exact .overflowed rfl hidle rfl
    · exact copyAt_fail hidle rfl
    · rename_i plan hplan
      exact copyAt_ready rfl (.opening (Layout.plan?_eq_ok hplan)) hidle

theorem copyAt_described (hobject : c.object = object) (hidle : ∀ lane, lanes lane = none)
    (attempt : Nat) (result : Except StorageError (Option ObjectMetadata)) :
    CopyAt S₀ setup calm alone object (c.described setup attempt result).1 lanes {} := by
  unfold ObjectCopy.described
  split
  · dsimp only
    split
    · exact copyAt_transfer hobject hidle
    · exact copyAt_ready rfl .comparing hidle
  · exact copyAt_fail hidle rfl
  · dsimp only
    split
    · exact .pausing rfl hidle rfl
    · split <;> exact copyAt_fail hidle rfl

theorem copyAt_compared (hobject : c.object = object) (hidle : ∀ lane, lanes lane = none)
    (result : Except StorageError (Option ObjectMetadata)) :
    CopyAt S₀ setup calm alone object (c.compared setup result).1 lanes {} := by
  unfold ObjectCopy.compared
  split
  · exact copyAt_fail hidle rfl
  · split
    · exact .ended rfl hidle .current
    · exact copyAt_transfer hobject hidle

namespace CopyAt

theorem lane_eq_whole (hcall : c.call? setup .whole ≠ none) {lane : Lane} {call : Call}
    (h : c.call? setup lane = some call) : lane = .whole := by
  cases lane with
  | whole => rfl
  | part n =>
    cases hphase : c.phase with
    | copying s => simp [ObjectCopy.call?, hphase] at hcall
    | _ => simp [ObjectCopy.call?, hphase] at h

theorem calls (h : CopyAt S₀ setup calm alone object c lanes trail) {lane : Lane} {call : Call}
    (hcall : c.call? setup lane = some call) :
    (lane = .whole ∧ ∃ before, Ready S₀ setup object c.phase before ∧
        (∀ n, lanes (.part n) = none) ∧
        Calling calm before (Deal S₀ setup object before alone call) (lanes .whole) trail) ∨
      ∃ s plan stored p, c.phase = .copying s ∧ Layout.Covers object.size plan ∧
        s.isOver = false ∧ PiecesAt S₀ setup calm object plan.parts s stored lanes trail ∧
        s.active? p.part.number = some p ∧ lane = .part p.part.number ∧
        call = p.call setup c.object s.uploadId := by
  cases h with
  | calling hwhole hready hparts hcalling =>
    obtain rfl := lane_eq_whole (by rw [hwhole]; exact Option.some_ne_none _) hcall
    rw [hwhole] at hcall
    cases hcall
    exact .inl ⟨rfl, _, hready, hparts, hcalling⟩
  | copying hphase hcovers hover hpieces =>
    obtain ⟨p, hp, hlane, hcalled⟩ := ObjectCopy.call?_copying hphase hcall
    exact .inr ⟨_, _, _, p, hphase, hcovers, hover, hpieces, hp, hlane, hcalled⟩
  | pausing hphase | ended hphase | overflowed hphase =>
    cases lane <;> simp [ObjectCopy.call?, hphase] at hcall

theorem exists_resume (h : CopyAt S₀ setup calm alone object c lanes trail)
    (hobject : c.object = object) {lane : Lane} {call : Call}
    (hcall : c.call? setup lane = some call) {reply : Reply}
    (hanswered : lanes lane = some (.answered reply)) :
    ∃ next, c.resume setup lane reply = some next := by
  subst hobject
  rcases h.calls hcall with ⟨rfl, before, hready, -, hcalling⟩ |
    ⟨s, plan, stored, p, hphase, -, -, hpieces, hp, rfl, -⟩
  · rw [hanswered] at hcalling
    rcases hcalling.of_answered with ⟨e, -, rfl, -⟩ | hdeal
    · exact ObjectCopy.exists_resume_error hcall e
    · generalize hphase : c.phase = phase at hready
      simp only [ObjectCopy.call?, hphase] at hcall
      simp only [ObjectCopy.resume, hphase]
      cases hready with
      | reading =>
        cases hcall
        cases hdeal
        cases (S₀.get .source).get setup.source.bucket c.object.key none <;> exact ⟨_, rfl⟩
      | _ =>
        cases hcall
        cases hdeal
        exact ⟨_, rfl⟩
  · have hat := hpieces.pieceAt hp
    rw [hanswered] at hat
    generalize stored[(p.part.number : Int)]? = own at hat
    simp only [ObjectCopy.resume, hphase, hp]
    generalize p.data = data at hat
    cases hat with
    | reading hcalling =>
      rcases hcalling.of_answered with ⟨e, -, rfl, -⟩ | ⟨rfl, -⟩
      · exact ⟨_, rfl⟩
      · cases (S₀.get .source).get setup.source.bucket c.object.key (some p.part.range) <;>
          exact ⟨_, rfl⟩
    | writing _ hcalling =>
      rcases hcalling.of_answered with ⟨e, -, rfl, -⟩ | ⟨etag, rfl, -⟩ <;> exact ⟨_, rfl⟩

section Halves

variable (h : CopyAt S₀ setup calm alone object c lanes trail) (hobject : c.object = object)
  {lane : Lane} {call : Call} (hcall : c.call? setup lane = some call)
include h hobject hcall

theorem enter (hfree : lanes lane = none) {store : Store} (hfaults : calm → store.faults = [])
    (r : Request) :
    CopyAt S₀ setup calm alone object c
      (Function.update lanes lane (some (store.stateOnEntry r))) trail := by
  subst hobject
  rcases h.calls hcall with ⟨rfl, before, hready, hparts, hcalling⟩ |
    ⟨s, plan, stored, p, hphase, hcovers, hover, hpieces, hp, rfl, rfl⟩
  · refine .calling hcall hready (fun n => ?_) ?_
    · rw [Function.update_of_ne Lane.noConfusion, hparts]
    · rw [Function.update_self]
      rw [hfree] at hcalling
      exact hcalling.enter hfaults r
  · exact .copying hphase hcovers hover
      (hpieces.enter hcovers.nodup_number hp hfree hfaults r)

theorem fits (hentered : lanes lane = some .entered) : Fits setup object trail call := by
  subst hobject
  rcases h.calls hcall with ⟨rfl, before, hready, hparts, hcalling⟩ |
    ⟨s, plan, stored, p, hphase, hcovers, hover, hpieces, hp, rfl, rfl⟩
  · rw [hentered] at hcalling
    obtain rfl := hcalling.of_entered
    generalize hphase : c.phase = phase at hready
    simp only [ObjectCopy.call?, hphase] at hcall
    cases hready with
    | describing =>
      cases hcall
      exact .describe
    | comparing =>
      cases hcall
      exact .compare
    | reading =>
      cases hcall
      exact .read none
    | writing =>
      cases hcall
      exact .put _ rfl
    | opening =>
      cases hcall
      exact .create rfl
    | completing _ _ hne hascending hdata =>
      cases hcall
      exact .complete rfl rfl hne hascending hdata
    | aborting =>
      cases hcall
      exact .abort rfl
  · exact hpieces.fits p

theorem finish (hentered : lanes lane = some .entered) {reply : Reply} {trail' : Trail}
    (hdeal : Deal S₀ setup object trail alone call reply trail') :
    CopyAt S₀ setup calm alone object c
      (Function.update lanes lane (some (.answered reply))) trail' := by
  subst hobject
  rcases h.calls hcall with ⟨rfl, before, hready, hparts, hcalling⟩ |
    ⟨s, plan, stored, p, hphase, hcovers, hover, hpieces, hp, rfl, rfl⟩
  · rw [hentered] at hcalling
    obtain rfl := hcalling.of_entered
    refine .calling hcall hready (fun n => ?_) ?_
    · rw [Function.update_of_ne Lane.noConfusion, hparts]
    · rw [Function.update_self]
      exact .answered hdeal
  · obtain ⟨stored', hpieces'⟩ := hpieces.finish hcovers.nodup_number hp hentered hdeal
    exact .copying hphase hcovers hover hpieces'

end Halves

theorem deliver (h : CopyAt S₀ setup calm alone object c lanes trail) (hobject : c.object = object)
    {lane : Lane} {reply : Reply} {next : ObjectCopy.Next}
    (hanswered : lanes lane = some (.answered reply))
    (hnext : c.resume setup lane reply = some next) :
    CopyAt S₀ setup calm alone object next.1 (Function.update lanes lane none) trail := by
  cases h with
  | pausing _ hidle | ended _ hidle | overflowed _ hidle =>
    rw [hidle] at hanswered
    cases hanswered
  | copying hphase hcovers hover hpieces =>
    obtain ⟨s', heq, hpieces'⟩ :=
      hpieces.deliver hcovers.nodup_number hobject hphase hanswered hnext
    rw [heq]
    exact hpieces'.settle hcovers hobject
  | @calling call before hcall hready hparts hcalling =>
    obtain rfl : lane = .whole := by
      cases lane with
      | whole => rfl
      | part n =>
        rw [hparts] at hanswered
        cases hanswered
    have hidle : ∀ lane, Function.update lanes .whole none lane = none := by
      intro lane
      cases lane with
      | whole => exact Function.update_self ..
      | part n => rw [Function.update_of_ne Lane.noConfusion, hparts]
    rw [hanswered] at hcalling
    subst hobject
    generalize hphase : c.phase = phase at hready
    simp only [ObjectCopy.call?, hphase] at hcall
    cases hready with
    | describing attempt =>
      cases hcall
      obtain ⟨-, result, -, rfl⟩ := ObjectCopy.resume_describing hphase hnext
      rcases hcalling.of_answered with ⟨e, -, -, rfl⟩ | hdeal
      · exact copyAt_described rfl hidle attempt result
      · cases hdeal
        exact copyAt_described rfl hidle attempt result
    | comparing =>
      cases hcall
      obtain ⟨-, result, -, rfl⟩ := ObjectCopy.resume_comparing hphase hnext
      rcases hcalling.of_answered with ⟨e, -, -, rfl⟩ | hdeal
      · exact copyAt_compared rfl hidle result
      · cases hdeal
        exact copyAt_compared rfl hidle result
    | reading =>
      cases hcall
      obtain ⟨-, ⟨e, rfl, rfl⟩ | ⟨data, rfl, rfl⟩⟩ := ObjectCopy.resume_reading hphase hnext
      · rcases hcalling.of_answered with ⟨e', -, -, rfl⟩ | hdeal
        · exact copyAt_fail hidle rfl
        · generalize (Except.error e : Reply) = reply at hdeal
          cases hdeal
          exact copyAt_fail hidle rfl
      · rcases hcalling.of_answered with ⟨e', -, hreply, -⟩ | hdeal
        · cases hreply
        · generalize hreply : (Except.ok (Answer.content data) : Reply) = reply at hdeal
          cases hdeal
          obtain ⟨source, hsource, rfl⟩ := Store.get_whole_eq_ok (Reply.eq_ok_of_content hreply)
          exact copyAt_ready rfl (.writing hsource) hidle
    | writing hsource =>
      cases hcall
      obtain ⟨-, ⟨e, rfl, rfl⟩ | ⟨rfl, rfl⟩⟩ := ObjectCopy.resume_writing hphase hnext
      · rcases hcalling.of_answered with ⟨e', -, -, rfl⟩ | hdeal
        · exact copyAt_fail hidle rfl
        · cases hdeal
      · rcases hcalling.of_answered with ⟨e', -, hreply, -⟩ | hdeal
        · cases hreply
        · cases hdeal with
          | put hdata => exact .ended rfl hidle (.direct hsource hdata)
    | opening hcovers =>
      cases hcall
      obtain ⟨-, ⟨e, rfl, rfl⟩ | ⟨id, rfl, rfl⟩⟩ := ObjectCopy.resume_opening hphase hnext
      · rcases hcalling.of_answered with ⟨e', -, -, rfl⟩ | hdeal
        · exact copyAt_fail hidle rfl
        · cases hdeal
      · rcases hcalling.of_answered with ⟨e', -, hreply, -⟩ | hdeal
        · cases hreply
        · cases hdeal
          exact (PiecesAt.new id hidle).settle hcovers rfl
    | completing hsource hsize _ _ hdata =>
      cases hcall
      obtain ⟨-, ⟨e, rfl, rfl⟩ | ⟨rfl, rfl⟩⟩ := ObjectCopy.resume_completing hphase hnext
      · rcases hcalling.of_answered with ⟨e', -, -, rfl⟩ | hdeal
        · exact copyAt_ready rfl (.aborting _ rfl _) hidle
        · cases hdeal
      · rcases hcalling.of_answered with ⟨e', -, hreply, -⟩ | hdeal
        · cases hreply
        · cases hdeal with
          | complete hupload hassemble =>
            obtain ⟨-, rfl⟩ := ownUpload_inj rfl hupload
            have hstored := Except.ok.inj (hassemble.symm.trans hdata)
            exact .ended rfl hidle (.inParts hsource hsize hstored)
    | aborting id hcause stored =>
      cases hcall
      obtain ⟨-, ⟨e, rfl, rfl⟩ | ⟨rfl, rfl⟩⟩ := ObjectCopy.resume_aborting hphase hnext
      · rcases hcalling.of_answered with ⟨e', hcalm, -, rfl⟩ | hdeal
        · exact .ended rfl hidle (.left _ _ _ _ hcalm)
        · cases hdeal
      · rcases hcalling.of_answered with ⟨e', -, hreply, -⟩ | hdeal
        · cases hreply
        · cases hdeal
          exact copyAt_fail hidle hcause

theorem wake (h : CopyAt S₀ setup calm alone object c lanes trail) {next : ObjectCopy.Next}
    (hnext : c.wake = some next) : CopyAt S₀ setup calm alone object next.1 lanes trail := by
  unfold ObjectCopy.wake at hnext
  split at hnext
  · rename_i hphase
    cases hnext
    cases h with
    | calling hcall => simp [ObjectCopy.call?, hphase] at hcall
    | pausing _ hidle htrail =>
      rw [htrail]
      exact copyAt_ready rfl (.describing _) hidle
    | copying hphase' | ended hphase' | overflowed hphase' =>
      rw [hphase] at hphase'
      cases hphase'
  · cases hnext

theorem startPart (h : CopyAt S₀ setup calm alone object c lanes trail) (hobject : c.object = object)
    {next : ObjectCopy.Next} (hnext : c.startPart setup = some next) :
    CopyAt S₀ setup calm alone object next.1 lanes trail := by
  obtain ⟨s, part, waiting, hphase, -⟩ := ObjectCopy.startPart_eq_some hnext
  cases h with
  | copying hphase' hcovers hover hpieces =>
    obtain ⟨s', heq, hpieces'⟩ := hpieces.startPart hcovers.nodup_number hphase' hnext
    rw [heq]
    exact hpieces'.settle hcovers hobject
  | calling hcall => simp [ObjectCopy.call?, hphase] at hcall
  | pausing hphase' | ended hphase' | overflowed hphase' =>
    rw [hphase] at hphase'
    cases hphase'

end CopyAt

end Pieces

end BucketMigration
