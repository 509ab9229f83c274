import BucketMigration.Proofs.Job.Accounting
import BucketMigration.Proofs.World.Tracked

/-!
# How a copy ends in a calm

When no call fails, and nobody else writes to its target key, the end of a copy is settled before it
starts: the sizes, the two sides at the beginning and the options tell its verdict and how many bytes
it lands. Each step of the copy keeps this outlook, whatever order its parts are taken in.
-/

namespace BucketMigration

namespace ObjectCopy

section Outlook

variable (S₀ : Stores) (setup : Setup) (c : ObjectCopy)

/-- How a copy in parts ends: no upload is completed with a part that has no etag. -/
def partsOutlook : Verdict :=
  if (S₀.get .target).omitsEtags then .error (.missingPartETag (c.targetKey setup) 1)
  else .ok (.migrated .multipart c.object.size)

def transferOutlook : Option Verdict :=
  match (c.transfer setup).1.phase with
  | .reading => some (.ok (.migrated .direct c.object.size))
  | .opening _ => some (c.partsOutlook S₀ setup)
  | .ended v => some v
  | _ => none

/-- How a copy ends that asks whether the target is current. -/
def comparedOutlook : Option Verdict :=
  if c.isCurrent ((S₀.get .target).head setup.target.bucket (c.targetKey setup)) then
    some (.ok .targetCurrent)
  else c.transferOutlook S₀ setup

/-- How a copy ends that asks for the metadata of its source. -/
def describedOutlook : Option Verdict :=
  match (S₀.get .source).head setup.source.bucket c.object.key with
  | none => some (.error (.sourceNotFound setup.source.bucket c.object.key))
  | some metadata =>
      let c := { c with metadata := some metadata }
      if setup.options.forceOverwrite then c.transferOutlook S₀ setup
      else c.comparedOutlook S₀ setup

/-- How a copy ends. It has no end when its layout overflows. -/
def outlook : Option Verdict :=
  match c.phase with
  | .describing _ | .pausing _ => c.describedOutlook S₀ setup
  | .comparing => c.comparedOutlook S₀ setup
  | .reading | .writing _ => some (.ok (.migrated .direct c.object.size))
  | .opening _ | .copying _ => some (c.partsOutlook S₀ setup)
  | .completing .. => some (.ok (.migrated .multipart c.object.size))
  | .aborting _ cause => some (.error cause)
  | .ended v => some v
  | .overflowed => none

end Outlook

/-- The bytes that an object lands at the target. Without etags all parts land in vain. -/
def landing (size : Nat) : Option Verdict → Nat
  | some (.ok (.migrated ..)) | some (.error (.missingPartETag ..)) => size
  | _ => 0

end ObjectCopy

/-- The bytes of the parts that have not been uploaded. -/
def Session.unlanded (s : Session) : Nat :=
  (s.waiting.map fun part => part.range.length).sum +
    (s.active.map fun p => p.part.range.length).sum

namespace ObjectCopy

def unlanded (S₀ : Stores) (setup : Setup) (c : ObjectCopy) : Nat :=
  match c.phase with
  | .copying s => s.unlanded
  | .completing .. | .aborting .. | .ended _ => 0
  | _ => landing c.object.size (c.outlook S₀ setup)

/-- A step after which the copy ends the way it would have ended before. -/
structure Foreseen (S₀ : Stores) (setup : Setup) (c : ObjectCopy) (next : Next) : Prop where
  outlook : next.1.outlook S₀ setup = c.outlook S₀ setup
  landed : (next.2.map Effect.landed).sum + next.1.unlanded S₀ setup = c.unlanded S₀ setup

/-- The source of a copy is there, with the size that was listed. -/
def HasSource (S₀ : Stores) (setup : Setup) (object : ObjectDescriptor) : Prop :=
  ∃ source, (S₀.get .source).object? setup.source.bucket object.key = some source ∧
    source.data.size = object.size

end ObjectCopy

namespace Session

variable {s : Session} {n : Nat} {p : PartCopy}

theorem sum_filter_ne {α : Type} (f g : α → Nat) {l : List α} {a : α} (ha : a ∈ l)
    (hn : (l.map f).Nodup) :
    ((l.filter fun b => f b != f a).map g).sum + g a = (l.map g).sum := by
  induction l with
  | nil => cases ha
  | cons b l ih =>
    rw [List.map_cons, List.nodup_cons] at hn
    rcases List.mem_cons.mp ha with rfl | ha
    · have hkeep : l.filter (fun b => f b != f a) = l := by
        apply List.filter_eq_self.mpr
        intro b hb
        rw [bne_iff_ne]
        intro heq
        exact hn.1 (List.mem_map.mpr ⟨b, hb, heq⟩)
      rw [List.filter_cons_of_neg (by simp), hkeep, List.map_cons, List.sum_cons, Nat.add_comm]
    · have hne : f b ≠ f a := by
        intro heq
        exact hn.1 (List.mem_map.mpr ⟨a, ha, heq.symm⟩)
      rw [List.filter_cons_of_pos (by simpa using hne), List.map_cons, List.sum_cons, Nat.add_assoc,
        ih ha hn.2, List.map_cons, List.sum_cons]

theorem unlanded_fill (s : Session) (n : Nat) (data : ByteArray) :
    (s.fill n data).unlanded = s.unlanded := by
  unfold unlanded fill
  rw [List.map_map]
  congr 2
  apply List.map_congr_left
  intro p _
  simp only [Function.comp]
  split <;> rfl

theorem unlanded_finish (hs : s.begun.Nodup) (hp : s.active? n = some p) (how : PartEnd) :
    p.part.range.length + (s.finish n how).unlanded = s.unlanded := by
  obtain ⟨hmem, rfl⟩ := active?_eq_some hp
  have hsum := sum_filter_ne (fun p : PartCopy => p.part.number) (fun p => p.part.range.length) hmem
    (List.nodup_append.mp hs).1
  unfold unlanded finish
  dsimp only
  omega

theorem unlanded_begin {part : PartRange} {waiting : List PartRange}
    (hw : s.waiting = part :: waiting) : (s.begin part waiting).unlanded = s.unlanded := by
  unfold unlanded begin
  rw [hw, List.map_append, List.sum_append, List.map_cons, List.sum_cons, List.map_cons,
    List.sum_cons, List.map_nil, List.sum_nil]
  dsimp only
  omega

theorem unlanded_of_isOver (hover : s.isOver = true) : s.unlanded = 0 := by
  simp only [isOver, Bool.and_eq_true, List.isEmpty_iff] at hover
  rw [unlanded, hover.1, hover.2]
  rfl

end Session

theorem Store.get_of_fits {s : Store} {bucket key : String} {object : StoredObject}
    (hobject : s.object? bucket key = some object) {range : ByteRange}
    (hfits : range.fits object.data.size = true) :
    s.get bucket key (some range) = .ok (range.slice object.data) := by
  simp only [Store.get, hobject, hfits, if_true]

theorem Store.get_whole {s : Store} {bucket key : String} {object : StoredObject}
    (hobject : s.object? bucket key = some object) : s.get bucket key none = .ok object.data := by
  simp only [Store.get, hobject]

namespace PiecesAt

variable {S₀ : Stores} {setup : Setup} {calm : Prop} {c : ObjectCopy} {plan : PartPlan} {s : Session}
  {stored : Std.TreeMap Int StoredPart} {lanes : Lane → Option CallState} {trail : Trail}
  (h : PiecesAt S₀ setup calm c.object plan.parts s stored lanes trail)
  (hcovers : Layout.Covers c.object.size plan)
include h hcovers

theorem uploaded_tag {n : Nat} {tag : Option String} (hended : (n, .uploaded tag) ∈ s.ended) :
    tag = none ↔ (S₀.get .target).omitsEtags = true := by
  obtain ⟨part, hpart, rfl⟩ :=
    h.keeps.exists_of_mem_begun (Session.mem_begun_of_mem_ended hended)
  have hat := h.pieceAt_of_ended hcovers.nodup_number hpart hended
  generalize stored[(part.number : Int)]? = own at hat
  generalize lanes (.part part.number) = state at hat
  cases hat with
  | uploaded _ etag =>
    split
    · rename_i homits
      simp [homits]
    · rename_i homits
      simp [homits]

variable (hcalm : calm) (hsource : ObjectCopy.HasSource S₀ setup c.object)
include hcalm hsource

theorem not_failed (n : Nat) (e : MigrationError) : (n, .failed e) ∉ s.ended := by
  intro hended
  obtain ⟨part, hpart, rfl⟩ :=
    h.keeps.exists_of_mem_begun (Session.mem_begun_of_mem_ended hended)
  have hat := h.pieceAt_of_ended hcovers.nodup_number hpart hended
  generalize stored[(part.number : Int)]? = own at hat
  generalize lanes (.part part.number) = state at hat
  cases hat with
  | failed hleft hread =>
    obtain ⟨error, -, hget⟩ := hread hcalm
    obtain ⟨source, hobject, hsize⟩ := hsource
    have hfits := (Layout.forall_fits_iff hcovers.size_pos hcovers.partSize_pos
      source.data.size).mpr (Nat.le_of_eq hsize.symm) part (hcovers.parts_eq ▸ hpart)
    rw [Store.get_of_fits hobject hfits] at hget
    cases hget

theorem hasFailed_eq_false : s.hasFailed = false := by
  rw [Session.hasFailed, List.any_eq_false]
  rintro ⟨n, how⟩ he
  cases how with
  | failed e => exact absurd he (h.not_failed hcovers hcalm hsource n e)
  | uploaded | leftOut => exact Bool.false_ne_true

theorem outcome_eq (hover : s.isOver = true) :
    (∃ ps, s.outcome (c.targetKey setup) = .ok ps ∧
        c.partsOutlook S₀ setup = .ok (.migrated .multipart c.object.size)) ∨
      ∃ e, s.outcome (c.targetKey setup) = .error e ∧ c.partsOutlook S₀ setup = .error e := by
  have hfailure := Session.failure?_eq_none_iff.mpr (h.hasFailed_eq_false hcovers hcalm hsource)
  have hfst := h.keeps.map_fst_uploaded hcovers.pairwise_number hover hfailure
  have htags : ∀ n tag, (n, tag) ∈ s.uploaded →
      (tag = none ↔ (S₀.get .target).omitsEtags = true) :=
    fun n tag hmem => h.uploaded_tag hcovers (Session.mem_uploaded_iff.mp hmem)
  unfold Session.outcome ObjectCopy.partsOutlook
  rw [hfailure]
  dsimp only
  cases homits : (S₀.get .target).omitsEtags with
  | true =>
    right
    rw [hcovers.map_number] at hfst
    have hpos : 0 < plan.parts.length := by
      rw [hcovers.parts_eq, Layout.length_parts]
      exact Layout.partCount_pos ..
    obtain ⟨count, hcount⟩ := Nat.exists_eq_succ_of_ne_zero (Nat.ne_of_gt hpos)
    rw [hcount, List.range'_succ] at hfst
    obtain ⟨⟨n, tag⟩, rest, huploaded, hn, -⟩ := List.map_eq_cons_iff.mp hfst
    have htag := (htags n tag (huploaded ▸ List.mem_cons_self)).mpr homits
    subst hn htag
    rw [huploaded]
    exact ⟨_, rfl, rfl⟩
  | false =>
    left
    cases hps : completedParts s.uploaded with
    | ok ps => exact ⟨ps, rfl, rfl⟩
    | error n =>
      have htag := (htags n none (Session.completedParts_eq_error hps)).mp rfl
      rw [homits] at htag
      cases htag

theorem foresees_settle :
    (c.settle setup s).1.outlook S₀ setup = some (c.partsOutlook S₀ setup) ∧
      ((c.settle setup s).2.map Effect.landed).sum = 0 ∧
      (c.settle setup s).1.unlanded S₀ setup = s.unlanded := by
  cases hover : s.isOver with
  | false =>
    rw [c.settle_of_isOver_eq_false setup hover]
    exact ⟨rfl, rfl, rfl⟩
  | true =>
    rw [s.unlanded_of_isOver hover]
    rcases h.outcome_eq hcovers hcalm hsource hover with ⟨ps, hps, hlook⟩ | ⟨e, he, hlook⟩
    · rw [c.settle_of_outcome_eq_ok setup hover hps, hlook]
      exact ⟨rfl, rfl, rfl⟩
    · rw [c.settle_of_outcome_eq_error setup hover he, hlook]
      exact ⟨rfl, rfl, rfl⟩

end PiecesAt

namespace ObjectCopy

variable {S₀ : Stores} {setup : Setup} {c : ObjectCopy}

/-- What comes next ends with a verdict, and lands what belongs to it. -/
structure Foretold (S₀ : Stores) (setup : Setup) (size : Nat) (v : Option Verdict) (next : Next) :
    Prop where
  outlook : next.1.outlook S₀ setup = v
  landed : (next.2.map Effect.landed).sum + next.1.unlanded S₀ setup = landing size v

theorem Foretold.foreseen {next : Next} (h : Foretold S₀ setup c.object.size (c.outlook S₀ setup) next)
    (hc : c.unlanded S₀ setup = landing c.object.size (c.outlook S₀ setup)) :
    c.Foreseen S₀ setup next :=
  ⟨h.outlook, h.landed.trans hc.symm⟩

theorem transfer_cases (setup : Setup) (c : ObjectCopy) :
    c.transfer setup = c.go .reading ∨ c.transfer setup = c.go .overflowed ∨
      (∃ e, c.transfer setup = c.fail (.partPlan c.object.key e)) ∨
      ∃ plan, c.transfer setup = c.go (.opening plan) := by
  unfold transfer
  split
  · exact .inl rfl
  · unfold transferInParts
    split
    · exact .inr (.inl rfl)
    · exact .inr (.inr (.inl ⟨_, rfl⟩))
    · exact .inr (.inr (.inr ⟨_, rfl⟩))

theorem foretold_transfer (S₀ : Stores) (setup : Setup) (c : ObjectCopy) :
    Foretold S₀ setup c.object.size (c.transferOutlook S₀ setup) (c.transfer setup) := by
  unfold transferOutlook
  rcases transfer_cases setup c with h | h | ⟨e, h⟩ | ⟨plan, h⟩
  · rw [h]
    exact ⟨rfl, Nat.zero_add _⟩
  · rw [h]
    exact ⟨rfl, rfl⟩
  · rw [h]
    exact ⟨rfl, rfl⟩
  · rw [h]
    exact ⟨rfl, Nat.zero_add _⟩

theorem foretold_compared (S₀ : Stores) (setup : Setup) (c : ObjectCopy) :
    Foretold S₀ setup c.object.size (c.comparedOutlook S₀ setup) (c.compared setup
      (.ok ((S₀.get .target).head setup.target.bucket (c.targetKey setup)))) := by
  unfold comparedOutlook compared
  dsimp only
  split
  · exact ⟨rfl, rfl⟩
  · exact foretold_transfer ..

theorem foretold_described (S₀ : Stores) (setup : Setup) (c : ObjectCopy) (attempt : Nat) :
    Foretold S₀ setup c.object.size (c.describedOutlook S₀ setup) (c.described setup attempt
      (.ok ((S₀.get .source).head setup.source.bucket c.object.key))) := by
  unfold describedOutlook described
  cases (S₀.get .source).head setup.source.bucket c.object.key with
  | none => exact ⟨rfl, rfl⟩
  | some metadata =>
    dsimp only
    split
    · exact foretold_transfer S₀ setup { c with metadata := some metadata }
    · exact ⟨rfl, Nat.zero_add _⟩

theorem foreseen_wake {next : Next} (hnext : c.wake = some next) : c.Foreseen S₀ setup next := by
  unfold ObjectCopy.wake at hnext
  split at hnext
  · rename_i hphase
    cases hnext
    have hlook : c.outlook S₀ setup = c.describedOutlook S₀ setup := by rw [outlook, hphase]
    refine ⟨hlook.symm, ?_⟩
    rw [show c.unlanded S₀ setup = landing c.object.size (c.outlook S₀ setup) by
      rw [unlanded, hphase], hlook]
    exact Nat.zero_add _
  · cases hnext

end ObjectCopy

namespace CopyAt

open ObjectCopy

variable {S₀ : Stores} {setup : Setup} {calm alone : Prop} {c : ObjectCopy}
  {lanes : Lane → Option CallState} {trail : Trail} {next : ObjectCopy.Next}
  (h : CopyAt S₀ setup calm alone c.object c lanes trail) (hcalm : calm)
  (hsource : HasSource S₀ setup c.object)
include h hcalm hsource

theorem foreseen_answer {s : Session} (hphase : c.phase = .copying s) {lane : Lane} {reply : Reply}
    (hanswered : lanes lane = some (.answered reply))
    (hnext : c.resume setup lane reply = some next) : c.Foreseen S₀ setup next := by
  have hlook : c.outlook S₀ setup = some (c.partsOutlook S₀ setup) := by rw [outlook, hphase]
  have hleft : c.unlanded S₀ setup = s.unlanded := by rw [unlanded, hphase]
  cases h with
  | calling hcall => simp [call?, hphase] at hcall
  | pausing hphase' | ended hphase' | overflowed hphase' =>
    rw [hphase] at hphase'
    cases hphase'
  | copying hphase' hcovers _ hpieces =>
    rw [hphase] at hphase'
    cases hphase'
    have hn := hcovers.nodup_number
    obtain ⟨p, s', hp, hpieces', ⟨data, rfl, rfl⟩ | ⟨e, rfl, rfl⟩ | ⟨etag, rfl, rfl⟩⟩ :=
      hpieces.answered hn rfl hphase hanswered hnext
    · refine ⟨hlook.symm, ?_⟩
      rw [hleft]
      exact (Nat.zero_add _).trans (s.unlanded_fill p.part.number data)
    · exact absurd (List.mem_append_right _ List.mem_cons_self)
        (hpieces'.not_failed hcovers hcalm hsource p.part.number e)
    · obtain ⟨hlook', hlanded, hleft'⟩ := hpieces'.foresees_settle hcovers hcalm hsource
      refine ⟨hlook'.trans hlook.symm, ?_⟩
      rw [hleft, ← Session.unlanded_finish (hpieces.keeps.nodup hn) hp (.uploaded etag), ← hleft']
      simp only [partWritten, List.map_cons, List.sum_cons, Effect.landed, note, hlanded]
      omega

theorem foreseen_startPart (hnext : c.startPart setup = some next) : c.Foreseen S₀ setup next := by
  obtain ⟨s, part, waiting, hphase, hw, -, hcases⟩ := startPart_eq_some hnext
  cases h with
  | calling hcall => simp [call?, hphase] at hcall
  | pausing hphase' | ended hphase' | overflowed hphase' =>
    rw [hphase] at hphase'
    cases hphase'
  | copying hphase' hcovers _ hpieces =>
    rw [hphase] at hphase'
    cases hphase'
    rcases hcases with ⟨hfailed, -⟩ | ⟨-, rfl⟩
    · rw [hpieces.hasFailed_eq_false hcovers hcalm hsource] at hfailed
      cases hfailed
    · refine ⟨by rw [outlook, outlook, hphase]; rfl, ?_⟩
      rw [show c.unlanded S₀ setup = s.unlanded by rw [unlanded, hphase]]
      exact (Nat.zero_add _).trans (Session.unlanded_begin hw)

theorem foreseen_deliver (halone : alone) {lane : Lane} {reply : Reply}
    (hanswered : lanes lane = some (.answered reply))
    (hnext : c.resume setup lane reply = some next) : c.Foreseen S₀ setup next := by
  cases h with
  | pausing _ hidle | ended _ hidle | overflowed _ hidle =>
    rw [hidle] at hanswered
    cases hanswered
  | copying hphase hcovers hover hpieces =>
    have hcopy : CopyAt S₀ setup calm alone c.object c lanes trail :=
      .copying hphase hcovers hover hpieces
    exact hcopy.foreseen_answer hcalm hsource hphase hanswered hnext
  | @calling call before hcall hready hparts hcalling =>
    obtain rfl : lane = .whole := by
      cases lane with
      | whole => rfl
      | part n =>
        rw [hparts] at hanswered
        cases hanswered
    rw [hanswered] at hcalling
    have hdeal : Deal S₀ setup c.object before alone call reply trail := by
      rcases hcalling.of_answered with ⟨-, hnot, -⟩ | hdeal
      · exact absurd hcalm hnot
      · exact hdeal
    obtain ⟨source, hobject, hsize⟩ := hsource
    generalize hphase : c.phase = phase at hready
    simp only [call?, hphase] at hcall
    have hearly : ∀ {v : Option Verdict}, c.outlook S₀ setup = v →
        c.unlanded S₀ setup = landing c.object.size (c.outlook S₀ setup) →
        Foretold S₀ setup c.object.size v next → c.Foreseen S₀ setup next := by
      rintro v rfl hleft htold
      exact htold.foreseen hleft
    cases hready with
    | describing attempt =>
      cases hcall
      cases hdeal
      simp only [resume, hphase, Reply.metadata?, Option.map_some, Option.some.injEq] at hnext
      subst hnext
      exact hearly (by rw [outlook, hphase]) (by rw [unlanded, hphase])
        (foretold_described S₀ setup c attempt)
    | comparing =>
      cases hcall
      cases hdeal with
      | compare hfound =>
        rw [hfound halone rfl] at hnext
        simp only [resume, hphase, Reply.metadata?, Option.map_some, Option.some.injEq] at hnext
        subst hnext
        exact hearly (by rw [outlook, hphase]) (by rw [unlanded, hphase])
          (foretold_compared S₀ setup c)
    | reading =>
      cases hcall
      cases hdeal
      rw [Store.get_whole hobject] at hnext
      simp only [resume, hphase, Except.map, Reply.content?, Option.map_some,
        Option.some.injEq] at hnext
      subst hnext
      exact hearly (v := some (.ok (.migrated .direct c.object.size))) (by rw [outlook, hphase])
        (by rw [unlanded, hphase]) ⟨rfl, Nat.zero_add _⟩
    | writing =>
      cases hcall
      cases hdeal
      simp only [resume, hphase, Reply.done?, Option.map_some, Option.some.injEq] at hnext
      subst hnext
      exact hearly (v := some (.ok (.migrated .direct c.object.size))) (by rw [outlook, hphase])
        (by rw [unlanded, hphase]) ⟨rfl, rfl⟩
    | @opening plan hcovers =>
      cases hcall
      cases hdeal with
      | @create id =>
        simp only [resume, hphase, Reply.uploadId?, Option.map_some, Option.some.injEq] at hnext
        subst hnext
        have hpieces : PiecesAt S₀ setup calm c.object plan.parts
            { uploadId := id, waiting := plan.parts } {} (fun _ => none) _ := .new id fun _ => rfl
        obtain ⟨hlook, hlanded, hleft⟩ :=
          hpieces.foresees_settle hcovers hcalm ⟨source, hobject, hsize⟩
        have hall : landing c.object.size (some (c.partsOutlook S₀ setup)) = c.object.size := by
          unfold partsOutlook
          split <;> rfl
        have hsum := Layout.sum_length_parts hcovers.size_pos hcovers.partSize_pos
        refine hearly (by rw [outlook, hphase]) (by rw [unlanded, hphase]) ⟨hlook, ?_⟩
        rw [hall, ← hsum, ← hcovers.parts_eq]
        simp only [opened, List.map_cons, List.sum_cons, hlanded, hleft, Session.unlanded, note,
          Effect.landed]
        simp
    | completing =>
      cases hcall
      cases hdeal
      simp only [resume, hphase, Reply.done?, Option.map_some, Option.some.injEq] at hnext
      subst hnext
      refine ⟨?_, ?_⟩
      · rw [show c.outlook S₀ setup = _ by rw [outlook, hphase]]
        rfl
      · rw [show c.unlanded S₀ setup = 0 by rw [unlanded, hphase]]
        rfl
    | aborting =>
      cases hcall
      cases hdeal
      simp only [resume, hphase, Reply.done?, Option.map_some, Option.some.injEq] at hnext
      subst hnext
      refine ⟨?_, ?_⟩
      · rw [show c.outlook S₀ setup = _ by rw [outlook, hphase]]
        rfl
      · rw [show c.unlanded S₀ setup = 0 by rw [unlanded, hphase]]
        rfl

end CopyAt

/-- How the migration of an object ends in a calm; it has no end when its layout overflows. -/
def forecast (S₀ : Stores) (setup : Setup) (object : ObjectDescriptor) : Option Verdict :=
  (ObjectCopy.start setup object).1.outlook S₀ setup

/-- Setups that differ in nothing but the schedule of the work and what is told of it. -/
def Setup.Reschedules (a b : Setup) : Prop :=
  ∃ pageSize concurrency partConcurrency publishTimeoutMs verbose,
    b = { a with options :=
      { a.options with pageSize, concurrency, partConcurrency, publishTimeoutMs, verbose } }

theorem Setup.Reschedules.ends_eq {a b : Setup} (h : a.Reschedules b) :
    b.source = a.source ∧ b.target = a.target := by
  obtain ⟨pageSize, concurrency, partConcurrency, publishTimeoutMs, verbose, rfl⟩ := h
  exact ⟨rfl, rfl⟩

/-- Stores with the same objects that return etags alike. -/
structure Stores.Like (S T : Stores) : Prop where
  objects : ∀ side, (T.get side).object? = (S.get side).object?
  etags : (T.get .target).omitsEtags = (S.get .target).omitsEtags

theorem forecast_eq {S T : Stores} (hlike : S.Like T) {a b : Setup} (hsetup : a.Reschedules b) :
    forecast T b = forecast S a := by
  have hhead : ∀ side, (T.get side).head = (S.get side).head := by
    intro side
    funext bucket key
    exact Store.head_congr (congrFun (congrFun (hlike.objects side) bucket) key)
  obtain ⟨pageSize, concurrency, partConcurrency, publishTimeoutMs, verbose, rfl⟩ := hsetup
  funext object
  unfold forecast ObjectCopy.outlook ObjectCopy.describedOutlook ObjectCopy.comparedOutlook
    ObjectCopy.transferOutlook ObjectCopy.partsOutlook
  rw [hhead, hhead, hlike.etags]
  rfl

theorem foreseen_start (S₀ : Stores) (setup : Setup) (object : ObjectDescriptor) :
    ObjectCopy.Foretold S₀ setup object.size (forecast S₀ setup object)
      (ObjectCopy.start setup object) := by
  refine ⟨rfl, ?_⟩
  unfold forecast ObjectCopy.start
  dsimp only
  split
  · rfl
  · split
    · rfl
    · exact Nat.zero_add _

end BucketMigration
